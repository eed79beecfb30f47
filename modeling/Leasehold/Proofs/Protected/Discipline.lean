import Leasehold.Proofs.Lock.Operation
import Leasehold.Proofs.Protected.Flow

/-!
# The discipline of protected operations

Every part of a protected operation keeps the claimant in order: it acts for its
owner, and if the claimant takes the lock for its own, it has a lease. Asking and
leaving add nothing to that. Reconciling ends well only with a renewal as its last
call, so that an operation begins with a fresh lease; and the operation leaves the
record alone, so the lease lasts.
-/

namespace Leasehold

variable {key : String} {owner : Pid} {ttl : Duration} {c : Claimant} {base : History}

/-! ## What the parts come to -/

theorem Guard.acquire_keeps (fits : c.Fits key owner ttl base) :
    (Guard.acquire c).Keeps (LockProgram.calls (StoreCall.ActsFor key owner))
      (fun result later => result.2.Fits key owner ttl later ∧
        (result.1.isOk = false → later.lastRenewal? key = base.lastRenewal? key)) base := by
  obtain ⟨rfl, rfl, -⟩ := id fits
  apply Program.keeps_bind.mpr
  apply (c.acquire_keeps base).mono
  rintro ⟨outcome, c'⟩ later acquired
  apply And.intro (acquired.fits fits)
  cases acquired with
  | held held => exact fun fails => nomatch fails
  | created time => exact fun fails => nomatch fails
  | refused failure without quiet => exact fun _ => quiet.lastRenewal?_eq

theorem Heartbeat.beat_keeps (heartbeat : Heartbeat) (fits : c.Fits key owner ttl base) :
    (heartbeat.beat c).Keeps (LockProgram.calls (StoreCall.ActsFor key owner))
      (fun result later => result.2.Fits key owner ttl later) base := by
  obtain ⟨rfl, rfl, -⟩ := id fits
  rw [beat]
  split
  · apply Program.keeps_bind.mpr
    apply (c.renew_keeps base).mono
    rintro ⟨outcome, c'⟩ later renewed
    have fits' := renewed.fits fits
    rcases outcome with failure | renewal
    · exact LockProgram.keeps_note_bind.mpr fits'
    · cases renewal <;> exact fits'
  · exact fits

namespace Procedure

/-- Waiting leaves the claimant in order, however many beats there are. -/
theorem beatWhileWaiting_keeps (heartbeat : Heartbeat) (fits : c.Fits key owner ttl base)
    (most : Nat) :
    (beatWhileWaiting heartbeat c most).Keeps (calls (StoreCall.ActsFor key owner))
      (fun c' later => c'.Fits key owner ttl later) base := by
  induction most generalizing heartbeat c base with
  | zero => exact fits
  | succ most ih =>
      apply keeps_isBeatDue_bind.mpr
      intro due
      cases due with
      | true =>
          apply Program.keeps_bind.mpr
          apply (keeps_ofLock (heartbeat.beat_keeps fits)).mono
          exact fun result later fits' => ih result.1 fits'
      | false => exact fits

theorem agree_keeps (fits : c.Fits key owner ttl base) (interval : Duration)
    (question : Option String) :
    (agree c interval question).Keeps (calls (StoreCall.ActsFor key owner))
      (fun result later => result.2.Fits key owner ttl later) base := by
  cases question with
  | none => exact fits
  | some question =>
      have confirms : (confirm c interval question).Keeps (calls (StoreCall.ActsFor key owner))
          (fun result later => result.2.Fits key owner ttl later) base := by
        rw [confirm]
        split
        · exact fits
        · apply keeps_patience_bind.mpr
          intro most
          apply Program.keeps_bind.mpr
          apply (beatWhileWaiting_keeps _ fits most).mono
          exact fun c' later fits' => keeps_answer.mpr fun outcome => fits'
      apply Program.keeps_bind.mpr
      apply confirms.mono
      rintro ⟨failure | _ | _, c'⟩ later fits' <;> exact fits'

/-- How reconciling ends: well only if its last call has renewed the record, else
because the lock is lost or its last call has failed. -/
inductive Reconciled (key : String) : Except Failure Unit → History → Prop
  | renewed {made : MadeCall} {earlier : History} (renews : (made.renewal? key).isSome) :
      Reconciled key (.ok ()) (made :: earlier)
  | lost (owner : Option Pid) (later : History) :
      Reconciled key (.error (.lockLost owner)) later
  | failed (call : StoreCall) (failure : Failure) (time : Instant) (earlier : History) :
      Reconciled key (.error failure) (⟨call, .error failure, time⟩ :: earlier)

theorem reconcile_keeps (fits : c.Fits key owner ttl base) :
    (reconcile c).Keeps (calls (StoreCall.ActsFor key owner))
      (fun result later => result.2.Fits key owner ttl later ∧ Reconciled key result.1 later)
      base := by
  obtain ⟨rfl, rfl, -⟩ := id fits
  apply Program.keeps_bind.mpr
  apply (keeps_ofLock (c.renew_keeps base)).mono
  rintro ⟨outcome, c'⟩ later renewed
  have fits' := renewed.fits fits
  -- A standing that does not hold the lock is an end without a renewal.
  have ensured {made : MadeCall} {expiry : Instant} (earlier : History)
      (renews : made.renewal? c.key = some expiry) :
      Reconciled c.key c.ensureHeld (made :: earlier) := by
    rw [Claimant.ensureHeld]
    split
    · exact .renewed (Option.isSome_of_mem renews)
    all_goals exact .lost _ _
  cases renewed with
  | extended time quiet =>
      exact ⟨fits', ensured _ MadeCall.renewal?_refresh⟩
  | reacquired time quiet => exact ⟨fits', ensured _ MadeCall.renewal?_claim⟩
  | lost owner quiet => exact ⟨fits', .lost owner _⟩
  | notHeld without =>
      apply And.intro fits'
      simp only [Claimant.ensureHeld]
      split
      next held => exact absurd held without
      all_goals exact .lost _ _
  | failed call failure time quiet => exact ⟨fits', .failed call failure time _⟩

variable {α : Type}

/-- Withdrawing ends with the failure that it withdraws for. -/
theorem withdraw_keeps (guard : Guard) (failure : Failure) (fits : c.Fits key owner ttl base) :
    (withdraw guard c failure : Procedure (Except Failure α × Claimant)).Keeps
      (calls (StoreCall.ActsFor key owner))
      (fun result later => result.2.Fits key owner ttl later ∧ result.1 = .error failure)
      base := by
  obtain ⟨rfl, rfl, -⟩ := id fits
  have drops : (guard.drop c).Keeps (LockProgram.calls (StoreCall.ActsFor c.key c.pid))
      (fun result later => result.2.Fits c.key c.pid ttl later) base := by
    rw [Guard.drop]
    split
    · apply Program.keeps_bind.mpr
      apply (c.release_keeps base).mono
      rintro ⟨failure' | gone, c'⟩ later released
      · exact LockProgram.keeps_note_bind.mpr (released.fits fits)
      · exact released.fits fits
    · exact fits
  apply Program.keeps_bind.mpr
  apply (keeps_ofLock drops).mono
  exact fun result later fits' => ⟨fits', rfl⟩

/-- Leaving ends as the operation has ended, whether the release works or not. -/
theorem leave_keeps (guard : Guard) (outcome : Except Failure α)
    (fits : c.Fits key owner ttl base) :
    (leave guard c outcome).Keeps (calls (StoreCall.ActsFor key owner))
      (fun result later => result.2.Fits key owner ttl later ∧ result.1 = outcome) base := by
  cases outcome with
  | error failure => exact withdraw_keeps guard failure fits
  | ok value =>
      obtain ⟨rfl, rfl, -⟩ := id fits
      have releases : (guard.release c).Keeps
          (LockProgram.calls (StoreCall.ActsFor c.key c.pid))
          (fun result later => result.2.2.Fits c.key c.pid ttl later) base := by
        apply Program.keeps_bind.mpr
        apply (c.release_keeps base).mono
        exact fun result later released => released.fits fits
      apply Program.keeps_bind.mpr
      apply (keeps_ofLock releases).mono
      rintro ⟨failure | gone, guard', c'⟩ later fits'
      · exact keeps_note_bind.mpr ⟨fits', rfl⟩
      · exact ⟨fits', rfl⟩

end Procedure

/-! ## The discipline -/

variable {α : Type}

/-- The calls that a part may make: the operation spares the record, and all other
parts act for the owner. -/
def Phase.Allows (key : String) (owner : Pid) : Phase → StoreCall → Prop
  | .operating _ => StoreCall.Spares key
  | _ => StoreCall.ActsFor key owner

/-- What is known at the end of a part: a failed acquisition has renewed nothing,
and reconciling is as described. -/
def Phase.Ends (key : String) :
    (phase : Phase) → Except Failure (phase.Result α) → History → Prop
  | .acquiring, outcome, later => outcome.isOk = false → later.lastRenewal? key = none
  | .reconciling _, outcome, later => Procedure.Reconciled key outcome later
  | _, _, _ => True

/-- That the operation of an errand spares the record and leaves the claimant in order. -/
def Errand.Spares (key : String) (owner : Pid) (ttl : Duration) (errand : Errand α) : Prop :=
  ∀ c base, c.Fits key owner ttl base →
    (errand.operation c).Keeps (Procedure.calls (StoreCall.Spares key))
      (fun result later => result.2.Fits key owner ttl later) base

theorem Phase.actsFor_of_allows {phase : Phase} {call : StoreCall}
    (allowed : phase.Allows key owner call) : call.ActsFor key owner := by
  cases phase with
  | operating guard => exact .spare allowed
  | _ => exact allowed

namespace Flow

/-- That the rest of a flow's part is as it should be after the calls made. -/
def Kept (key : String) (owner : Pid) (ttl : Duration) (flow : Flow α) (history : History) : Prop :=
  flow.rest.Keeps (Procedure.calls (flow.phase.Allows key owner))
    (fun result later => result.2.Fits key owner ttl later ∧ flow.phase.Ends key result.1 later)
    history

variable {flow flow' : Flow α} {history : History}

theorem kept_start {errand : Errand α} (fits : c.Fits key owner ttl []) :
    (start errand c).Kept key owner ttl [] :=
  Procedure.keeps_ofLock (Guard.acquire_keeps fits)

theorem Kept.call (kept : flow.Kept key owner ttl history) {call : StoreCall}
    {next : call.Reply → Flow α} (pending : Party.pending? flow = some ⟨call, next⟩) :
    flow.phase.Allows key owner call ∧ ∀ reply time,
      (next reply).Kept key owner ttl (⟨call, reply, time⟩ :: history) := by
  rcases pending?_eq_some_iff.mp pending with ⟨go, stops, rfl⟩
  exact Procedure.keeps_pending kept stops

theorem withdraw_kept (errand : Errand α) (guard : Guard) (failure : Failure)
    (fits : c.Fits key owner ttl history) :
    Kept key owner ttl ⟨errand, .leaving, Procedure.withdraw guard c failure⟩ history :=
  (Procedure.withdraw_keeps guard failure fits).mono fun _ _ kept => ⟨kept.1, trivial⟩

/-- The next part begins as it should where a part has ended so. -/
theorem kept_next {errand : Errand α} {phase : Phase}
    {result : Except Failure (phase.Result α) × Claimant}
    (fits : result.2.Fits key owner ttl history)
    (spares : ∀ guard, phase = .reconciling guard → errand.Spares key owner ttl)
    (next : errand.next? phase result = some flow) : flow.Kept key owner ttl history := by
  rcases result with ⟨outcome, c⟩
  cases phase with
  | acquiring =>
      rcases outcome with failure | guard
      · cases next
        exact ⟨fits, trivial⟩
      · cases next
        exact (Procedure.agree_keeps fits _ _).mono fun _ _ kept => ⟨kept, trivial⟩
  | asking guard =>
      rcases outcome with failure | _
      · cases next
        exact withdraw_kept errand guard failure fits
      · cases next
        exact Procedure.reconcile_keeps fits
  | reconciling guard =>
      rcases outcome with failure | _
      · cases next
        exact withdraw_kept errand guard failure fits
      · cases next
        exact (spares guard rfl c history fits).mono fun _ _ kept => ⟨kept, trivial⟩
  | operating guard =>
      cases next
      exact (Procedure.leave_keeps guard outcome fits).mono fun _ _ kept => ⟨kept.1, trivial⟩
  | leaving => cases next

/-- That a flow whose operation spares the record is where its history can have
brought it. -/
structure Good (key : String) (owner : Pid) (ttl : Duration) (flow : Flow α) (history : History) :
    Prop where
  spares : flow.errand.Spares key owner ttl
  kept : flow.Kept key owner ttl history
  fresh : ∀ guard, flow.phase = .operating guard → history.Fresh key

theorem good_start {errand : Errand α} (spares : errand.Spares key owner ttl)
    (fits : c.Fits key owner ttl []) : (start errand c).Good key owner ttl [] :=
  ⟨spares, kept_start fits, fun _ operating => nomatch operating⟩

/-- An operation comes after a part that has ended well, hence with a renewal. -/
theorem fresh_next {errand : Errand α} {phase : Phase}
    {result : Except Failure (phase.Result α) × Claimant} (ends : phase.Ends key result.1 history)
    (next : errand.next? phase result = some flow) {guard : Guard}
    (operating : flow.phase = .operating guard) : history.Fresh key := by
  rcases result with ⟨outcome, c⟩
  cases phase with
  | acquiring =>
      rcases outcome with failure | guard' <;> cases next <;> cases operating
  | asking guard' =>
      rcases outcome with failure | _ <;> cases next <;> cases operating
  | reconciling guard' =>
      rcases outcome with failure | _
      · cases next
        cases operating
      · cases ends with
        | renewed renews => exact .renewed renews
  | operating guard' =>
      cases next
      cases operating
  | leaving => cases next

/-- Flows act for their owners and stay good. -/
theorem conduct {ι : Type} (key : String) (owner : ι → Pid) (ttl : ι → Duration) :
    Conduct (fun i call => call.ActsFor key (owner i))
      (fun i (flow : Flow α) => flow.Good key (owner i) (ttl i)) where
  call := by
    intro i flow history call next good pending
    rcases good.kept.call pending with ⟨allowed, kept⟩
    rcases pending?_eq_some_iff.mp pending with ⟨go, -, rfl⟩
    apply And.intro (Phase.actsFor_of_allows allowed)
    intro reply time
    constructor
    · exact good.spares
    · exact kept reply time
    intro guard operating
    have fresh := good.fresh guard operating
    rw [show flow.phase = .operating guard from operating] at allowed
    exact .spared allowed fresh
  turn := by
    intro i flow history turn flow' good turned
    rcases turn?_cases turned with ⟨act, rest, rfl, acted, rfl⟩ |
      ⟨errand, phase, result, rfl, rfl, next⟩
    · exact ⟨good.spares, Procedure.keeps_turn good.kept acted, good.fresh⟩
    · rcases good.kept with ⟨fits, ends⟩
      constructor
      · rw [errand_next next]
        exact good.spares
      · exact kept_next fits (fun _ _ => good.spares) next
      · intro guard operating
        exact fresh_next ends next operating

end Flow

end Leasehold
