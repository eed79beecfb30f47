import Leasehold.Proofs.Protected.Answer
import Leasehold.Proofs.Protected.Course
import Leasehold.Proofs.Protected.Stages
import Leasehold.Proofs.Surroundings.Basic

/-!
# Operating under a confirmed lock

A protected operation has many ways to fail before the operation is done: the lock is
refused, the answer is no or does not come, the store fails, the lock turns out lost.
Whatever others do to the store meanwhile, and whichever calls fail, the operation is
done at most once, and only if the lock was acquired, the question was answered yes,
no beat found the lock lost, and the last call of the renewal before it has met a
record of this very owner or made one. In all other cases the operation has no part in
the run, and the failure is that of the first stage that fails.
-/

namespace Leasehold

open LockRecord Procedure Surroundings

/-! ## Calls that confirm the lock -/

/-- That a call has confirmed the lock: it has met a live record of this very owner, or
none and made it, and has left the record with an expiry one lifetime ahead. -/
inductive Visit.Confirms (key : String) (owner : Pid) (ttl : Duration) (visit : Visit) : Prop
  | refreshed {entry : Entry} (call : visit.call = .expire key ttl (isOwnedBy owner))
      (served : visit.fault? = none) (live : visit.met.live? key visit.time = some entry)
      (own : entry.BelongsTo owner)
      (renewed : visit.left.entries.get? key =
        some { entry with expiresAt := some (visit.time.add ttl) }) :
      Confirms key owner ttl visit
  | created (call : visit.call = .create key (ownedBy owner) ttl) (served : visit.fault? = none)
      (free : visit.met.live? key visit.time = none)
      (renewed : visit.left.entries.get? key =
        some ⟨ownedBy owner, some (visit.time.add ttl)⟩) :
      Confirms key owner ttl visit

section

variable {key : String} {owner : Pid} {ttl : Duration} {visit : Visit} {time : Instant}

theorem Visit.confirms_of_refresh
    (made : visit.made = ⟨.expire key ttl (isOwnedBy owner), .ok true, time⟩) :
    visit.Confirms key owner ttl := by
  obtain ⟨met, rfl, answer⟩ := Visit.served_of_made made
  rw [Keyspace.serve_expire_answer] at answer
  rcases (Option.any_eq_true _ _).mp answer.symm with ⟨entry, live, holds⟩
  refine .refreshed rfl rfl live (Entry.holds_isOwnedBy_iff.mp holds) ?_
  simp [Visit.left, live, holds]

theorem Visit.confirms_of_claim
    (made : visit.made = ⟨.create key (ownedBy owner) ttl, .ok true, time⟩) :
    visit.Confirms key owner ttl := by
  obtain ⟨met, rfl, answer⟩ := Visit.served_of_made made
  rw [Keyspace.serve_create_answer] at answer
  have free := Option.isNone_iff_eq_none.mp answer.symm
  refine .created rfl rfl free ?_
  simp [Visit.left, free]

end

namespace Claimant

variable {c c' : Claimant} {base later : History}

/-- A renewal after which the claimant takes the lock for its own ends with a call that
has extended the record or made it anew. -/
theorem Renewing.last {renewal : Renewal} (renewing : c.Renewing base (.ok renewal, c') later)
    (held : c'.standing = .heldBySelf) :
    ∃ made earlier, later = made :: (earlier ++ base) ∧ ∃ time,
      made = ⟨.expire c.key c.ttl (isOwnedBy c.pid), .ok true, time⟩ ∨
        made = ⟨.create c.key (ownedBy c.pid) c.ttl, .ok true, time⟩ := by
  cases renewing with
  | notHeld without => rcases without with free | stale <;> simp_all
  | known known => exact absurd (known.symm.trans held) nofun
  | extended _ own first second => exact ⟨_, [_], rfl, second, .inl rfl⟩
  | foreign | overtaken => contradiction
  | reacquired _ lapsed time =>
      cases lapsed with
      | missing first => exact ⟨_, [_], rfl, time, .inr rfl⟩
      | replaced own first second => exact ⟨_, [_, _], rfl, time, .inr rfl⟩

end Claimant

/-! ## Asking -/

variable {α : Type} {interference : Interference} {errand : Errand α} {c c' : Claimant}
  {s later : Surroundings}

/-- How asking can go: there is nothing to ask, or no interval to beat at, or the
question is put once and answered, and until then the lock is renewed. -/
inductive Errand.Asks (errand : Errand α) (c : Claimant) (s : Surroundings) :
    Except Failure Unit × Claimant → Surroundings → Prop
  | unquestioned (none : errand.question = none) : Asks errand c s (.ok (), c) s
  | unpaced {question : String} (asks : errand.question = some question)
      (zero : errand.interval = .zero) :
      Asks errand c s (.error (.user .heartbeatIntervalZero), c) s
  | answered {question : String} (asks : errand.question = some question)
      (paced : errand.interval ≠ .zero) (answer : Except Failure Bool) {c' : Claimant}
      {later : Surroundings} {beats : List (Except Failure Renewal)}
      (beaten : c.Beaten s.history beats c' later.history)
      (asked : later.asked = (question, answer) :: s.asked) :
      Asks errand c s (errand.verdict answer, c') later

namespace Procedure

/-! ### Requests of the stages -/

section

variable {kind : Request → Prop}

theorem beatWhileWaiting_only (locks : ∀ request, kind (.lock request))
    (waits : ∀ c, kind (.wait (.isBeatDue c))) (heartbeat : Heartbeat) (c : Claimant) (most : Nat) :
    (beatWhileWaiting heartbeat c most).Only kind := by
  induction most generalizing heartbeat c with
  | zero => trivial
  | succ most ih =>
      rw [beatWhileWaiting, await, Program.perform_bind]
      apply And.intro (waits c)
      rintro ⟨_ | _, c'⟩
      · trivial
      · exact Program.only_bind (only_ofLock locks _) fun result => ih result.1 result.2

theorem agree_only (locks : ∀ request, kind (.lock request)) (waits : ∀ request, kind (.wait request))
    (c : Claimant) (interval : Duration) (question : Option String) :
    (agree c interval question).Only kind := by
  cases question with
  | none => trivial
  | some question =>
      have confirms : (confirm c interval question).Only kind := by
        rw [confirm]
        split
        · trivial
        · refine ⟨waits _, fun most => ?_⟩
          apply Program.only_bind (beatWhileWaiting_only locks (fun _ => waits _) _ c most)
          exact fun c' => ⟨waits _, fun _ => trivial⟩
      apply Program.only_bind confirms
      rintro ⟨_ | _ | _, c'⟩ <;> trivial

theorem withdraw_only (locks : ∀ request, kind (.lock request)) (guard : Guard) (c : Claimant)
    (failure : Failure) : (withdraw guard c failure : Procedure (Except Failure α × Claimant)).Only
      kind :=
  Program.only_bind (only_ofLock locks _) fun _ => trivial

theorem leave_only (locks : ∀ request, kind (.lock request)) (guard : Guard) (c : Claimant)
    (outcome : Except Failure α) : (leave guard c outcome).Only kind := by
  cases outcome with
  | error failure => exact withdraw_only locks guard c failure
  | ok value =>
      apply Program.only_bind (only_ofLock locks _)
      rintro ⟨_ | _, _, c'⟩
      · exact ⟨locks _, fun _ => trivial⟩
      · trivial

theorem enter_only (locks : ∀ request, kind (.lock request))
    (waits : ∀ request, kind (.wait request)) (c : Claimant) (interval : Duration)
    (question : Option String) : (enter c interval question).Only kind := by
  apply Program.only_bind (only_ofLock locks _)
  rintro ⟨_ | guard, c⟩
  · trivial
  · apply Program.only_bind (agree_only locks waits c interval question)
    rintro ⟨_ | _, c⟩
    · exact withdraw_only locks guard c _
    · have reconciles : (reconcile c).Only kind := by
        apply Program.only_bind (only_ofLock locks _)
        rintro ⟨_ | _, c⟩ <;> trivial
      apply Program.only_bind reconciles
      rintro ⟨_ | _, c⟩
      · exact withdraw_only locks guard c _
      · trivial

/-- Around an operation there are requests of the lock and of waits only. -/
theorem runProtected_only (locks : ∀ request, kind (.lock request))
    (waits : ∀ request, kind (.wait request)) {c : Claimant} {interval : Duration}
    {question : Option String} {operation : Claimant → Procedure (Except Failure α × Claimant)}
    (operates : ∀ c, (operation c).Only kind) :
    (runProtected c interval question operation).Only kind := by
  apply Program.only_bind (enter_only locks waits c interval question)
  rintro ⟨_ | guard, c⟩
  · trivial
  · exact Program.only_bind (operates c) fun result => leave_only locks guard result.2 result.1

end

/-! ### Confirmation -/

/-- A question that is put is put once, after the lock has been renewed a number of
times. -/
theorem runs_confirm {interval : Duration} {question : String} {outcome : Except Failure Bool}
    (paced : interval ≠ .zero)
    (ran : (confirm c interval question).Runs (Leads interference) s (outcome, c') later) :
    later.asked = (question, outcome) :: s.asked ∧
      ∃ beats, c.Beaten s.history beats c' later.history := by
  simp only [confirm, Heartbeat.start?, if_neg paced, await, Program.perform_bind] at ran
  obtain ⟨most, begun, ⟨keyspace, tree, -, -, rfl⟩, ran⟩ := ran
  rcases Program.runs_bind.mp ran with ⟨c₁, waited, beating, reply, answered, led, rfl, rfl⟩
  have beats := ends_of_runs (beatWhileWaiting_beaten c _ _ most) beating
  have unasked := asked_of_runs
    (beatWhileWaiting_only (fun _ => id) (fun _ => id) _ c most) beating
  obtain ⟨keyspace, tree, -, -, rfl, rfl⟩ := led
  exact ⟨congrArg _ unasked, beats⟩

theorem runs_agree {outcome : Except Failure Unit}
    (ran : (agree c errand.interval errand.question).Runs (Leads interference) s (outcome, c')
      later) : errand.Asks c s (outcome, c') later := by
  cases asks : errand.question with
  | none =>
      rw [asks] at ran
      obtain ⟨same, rfl⟩ := ran
      cases same
      exact .unquestioned asks
  | some question =>
      rw [asks] at ran
      rcases Program.runs_bind.mp ran with ⟨⟨answer, c₁⟩, answered, confirmed, rest⟩
      by_cases zero : errand.interval = .zero
      · simp only [confirm, Heartbeat.start?, if_pos zero] at confirmed
        obtain ⟨same, rfl⟩ := confirmed
        cases same
        obtain ⟨same, rfl⟩ := rest
        cases same
        exact .unpaced asks zero
      · rcases runs_confirm zero confirmed with ⟨asked, beats, beaten⟩
        have verdict : outcome = errand.verdict answer ∧ c' = c₁ ∧ later = answered := by
          simp only [Errand.verdict, asks, if_neg zero]
          rcases answer with failure | _ | _
          all_goals
            obtain ⟨same, rfl⟩ := rest
            cases same
            exact ⟨rfl, rfl, rfl⟩
        obtain ⟨rfl, rfl, rfl⟩ := verdict
        exact .answered asks zero answer beaten asked

end Procedure

/-- Asking is a number of renewals. -/
theorem Errand.Asks.beaten {result : Except Failure Unit × Claimant}
    (asks : errand.Asks c s result later) :
    ∃ beats, c.Beaten s.history beats result.2 later.history := by
  cases asks with
  | unquestioned none => exact ⟨[], .rest _ _⟩
  | unpaced asks zero => exact ⟨[], .rest _ _⟩
  | answered asks paced answer beaten asked => exact ⟨_, beaten⟩

/-! ## How the operation is reached or prevented -/

/-- That since earlier surroundings there was nothing to ask, or the question has been
asked once and answered yes. -/
def Errand.Approved (errand : Errand α) (s later : Surroundings) : Prop :=
  errand.question = none ∧ later.asked = s.asked ∨
    ∃ question, errand.question = some question ∧ errand.interval ≠ .zero ∧
      later.asked = (question, .ok true) :: s.asked

/-- That an errand has come to its operation: the lock was acquired, there was
agreement, no beat found the lock lost, and the last call of the renewal after that has
confirmed the lock. -/
inductive Errand.Confirmed (interference : Interference) (errand : Errand α) (c : Claimant)
    (s : Surroundings) : Claimant → Surroundings → Prop
  | intro {c₁ c₂ c₃ : Claimant} {s₁ s₂ entered : Surroundings}
      {beats : List (Except Failure Renewal)} {renewal : Renewal} {visit : Visit}
      {between : List Visit}
      (acquired : (ofLock c.acquire).Runs (Leads interference) s (.ok (), c₁) s₁)
      (agreed : (agree c₁ errand.interval errand.question).Runs (Leads interference) s₁
        (.ok (), c₂) s₂)
      (approved : errand.Approved s entered)
      (beaten : c₁.Beaten s₁.history beats c₂ s₂.history)
      (unlost : ∀ owner, .ok (.lost owner) ∉ beats)
      (renewed : (ofLock c₂.renew).Runs (Leads interference) s₂ (.ok renewal, c₃) entered)
      (last : entered.visits = visit :: (between ++ s₂.visits))
      (confirms : visit.Confirms c.key c.pid c.ttl) :
      Confirmed interference errand c s c₃ entered

/-- That an errand ends before its operation, with the failure of the first stage that
fails. -/
inductive Errand.Prevented (interference : Interference) (errand : Errand α) (c : Claimant)
    (s : Surroundings) : Failure → Claimant → Surroundings → Prop
  | refused {failure : Failure} {c' : Claimant} {later : Surroundings}
      (refused : (ofLock c.acquire).Runs (Leads interference) s (.error failure, c') later)
      (unasked : later.asked = s.asked) :
      Prevented interference errand c s failure c' later
  | unpaced {question : String} {c₁ c' : Claimant} {s₁ later : Surroundings}
      (acquired : (ofLock c.acquire).Runs (Leads interference) s (.ok (), c₁) s₁)
      (asks : errand.question = some question) (zero : errand.interval = .zero)
      (unasked : later.asked = s.asked) :
      Prevented interference errand c s (.user .heartbeatIntervalZero) c' later
  | declined {question : String} {c₁ c' : Claimant} {s₁ later : Surroundings}
      (acquired : (ofLock c.acquire).Runs (Leads interference) s (.ok (), c₁) s₁)
      (asks : errand.question = some question) (paced : errand.interval ≠ .zero)
      (asked : later.asked = (question, .ok false) :: s.asked) :
      Prevented interference errand c s .aborted c' later
  | unanswered {question : String} {failure : Failure} {c₁ c' : Claimant}
      {s₁ later : Surroundings}
      (acquired : (ofLock c.acquire).Runs (Leads interference) s (.ok (), c₁) s₁)
      (asks : errand.question = some question) (paced : errand.interval ≠ .zero)
      (asked : later.asked = (question, .error failure) :: s.asked) :
      Prevented interference errand c s failure c' later
  | unrenewed {fault : StoreFault} {c₁ c₂ c₃ c' : Claimant} {s₁ s₂ s₃ later : Surroundings}
      (acquired : (ofLock c.acquire).Runs (Leads interference) s (.ok (), c₁) s₁)
      (agreed : (agree c₁ errand.interval errand.question).Runs (Leads interference) s₁
        (.ok (), c₂) s₂)
      (approved : errand.Approved s later)
      (failed : (ofLock c₂.renew).Runs (Leads interference) s₂
        (.error (.storeUnavailable fault), c₃) s₃) :
      Prevented interference errand c s (.storeUnavailable fault) c' later
  | lost {owner : Option Pid} {c₁ c₂ c₃ c' : Claimant} {s₁ s₂ s₃ later : Surroundings}
      (acquired : (ofLock c.acquire).Runs (Leads interference) s (.ok (), c₁) s₁)
      (agreed : (agree c₁ errand.interval errand.question).Runs (Leads interference) s₁
        (.ok (), c₂) s₂)
      (approved : errand.Approved s later)
      (renewed : (ofLock c₂.renew).Runs (Leads interference) s₂ (.ok (.lost owner), c₃) s₃)
      (standing : c'.standing = .heldByOther owner) :
      Prevented interference errand c s (.lockLost owner) c' later

/-- Who agrees has been asked and has said yes, if there was anything to ask. -/
theorem Errand.Asks.approved (asks : errand.Asks c s (.ok (), c') later) :
    errand.Approved s later := by
  generalize agreed : ((.ok (), c') : Except Failure Unit × Claimant) = result at asks
  cases asks with
  | unquestioned none => exact .inl ⟨none, rfl⟩
  | unpaced asks zero => cases agreed
  | @answered question asks paced answer c₁ later beats beaten asked =>
      have verdict := (Prod.mk.inj agreed).1
      simp only [Errand.verdict, asks, if_neg paced] at verdict
      rcases answer with failure | _ | _
      · contradiction
      · contradiction
      · exact .inr ⟨question, asks, paced, asked⟩

/-- Who does not agree has said no or could not be asked. -/
theorem Errand.Asks.refused {failure : Failure} (asks : errand.Asks c s (.error failure, c') later) :
    ∃ question, errand.question = some question ∧
      (errand.interval = .zero ∧ failure = .user .heartbeatIntervalZero ∧ later.asked = s.asked ∨
        errand.interval ≠ .zero ∧ failure = .aborted ∧
          later.asked = (question, .ok false) :: s.asked ∨
        errand.interval ≠ .zero ∧ later.asked = (question, .error failure) :: s.asked) := by
  generalize refused : ((.error failure, c') : Except Failure Unit × Claimant) = result at asks
  cases asks with
  | unquestioned none => cases refused
  | @unpaced question asks zero =>
      cases refused
      exact ⟨question, asks, .inl ⟨zero, rfl, rfl⟩⟩
  | @answered question asks paced answer c₁ later beats beaten asked =>
      have verdict := (Prod.mk.inj refused).1
      simp only [Errand.verdict, asks, if_neg paced] at verdict
      refine ⟨question, asks, .inr ?_⟩
      rcases answer with failure' | _ | _
      · cases verdict
        exact .inr ⟨paced, asked⟩
      · cases verdict
        exact .inl ⟨paced, rfl, asked⟩
      · contradiction

namespace Procedure

/-- Withdrawing ends with the failure that it withdraws for, and asks nothing. -/
theorem runs_withdraw {failure : Failure} {outcome : Except Failure α}
    (ran : (withdraw ⟨true⟩ c failure).Runs (Leads interference) s (outcome, c') later) :
    outcome = .error failure ∧ (∃ released, c.Released s.history (released, c') later.history) ∧
      later.asked = s.asked := by
  rcases ends_of_runs (withdraw_released c s.history failure) ran with ⟨same, released⟩
  exact ⟨same, released, asked_of_runs (withdraw_only (fun _ => id) ⟨true⟩ c failure) ran⟩

/-- What a failing renewal fails of is the store. -/
theorem fault_of_renewal {failure : Failure}
    (ran : (ofLock c.renew).Runs (Leads interference) s (.error failure, c') later) :
    ∃ fault, failure = .storeUnavailable fault := by
  have renewing := (runs_ofLock (c.renew_renewing s.history) ran).1
  generalize reached : later.history = history at renewing
  cases renewing with
  | failed held call failure time quiet =>
      rcases List.map_eq_cons_iff.mp reached with ⟨visit, earlier, -, made, -⟩
      rcases Visit.faulted_of_made made with ⟨_, fault, -, same⟩
      exact ⟨fault, same⟩

/-- A renewal that keeps the lock ends with a visit that confirms it. -/
theorem confirms_of_renewal {renewal : Renewal}
    (ran : (ofLock c.renew).Runs (Leads interference) s (.ok renewal, c') later)
    (held : c'.standing = .heldBySelf) :
    ∃ visit between, later.visits = visit :: (between ++ s.visits) ∧
      visit.Confirms c.key c.pid c.ttl := by
  rcases runs_ofLock (c.renew_renewing s.history) ran with ⟨renewing, ⟨visits, same, -⟩, -⟩
  rcases renewing.last held with ⟨made, earlier, history, time, confirms⟩
  have recent : visits.map Visit.made = made :: earlier := by
    apply List.append_cancel_right
    rw [List.cons_append, ← history, Surroundings.history, Surroundings.history, ← List.map_append,
      ← same]
  rcases List.map_eq_cons_iff.mp recent with ⟨visit, between, rfl, rfl, -⟩
  refine ⟨visit, between, same, ?_⟩
  rcases confirms with refreshed | created
  · exact Visit.confirms_of_refresh refreshed
  · exact Visit.confirms_of_claim created

/-- What is known of a claimant that has the lock and has gone on to renew it once
more. -/
theorem runs_agree_renew {c₁ c₂ c₃ : Claimant} {s₁ s₂ s₃ : Surroundings}
    {renewal : Except Failure Renewal}
    (acquired : (ofLock c.acquire).Runs (Leads interference) s (.ok (), c₁) s₁)
    (agreed : (agree c₁ errand.interval errand.question).Runs (Leads interference) s₁ (.ok (), c₂)
      s₂)
    (renewed : (ofLock c₂.renew).Runs (Leads interference) s₂ (renewal, c₃) s₃) :
    (∃ standing, c₂ = { c with standing := standing }) ∧ errand.Approved s s₃ ∧
      ∃ beats, c₁.Beaten s₁.history beats c₂ s₂.history ∧
        ((c₃.standing = .heldBySelf ∧ ∀ owner, .ok (.lost owner) ∉ beats) ∨
          ∃ owner, c₃.standing = .heldByOther owner ∧ renewal = .ok (.lost owner)) := by
  rcases runs_ofLock (c.acquire_attempted s.history) acquired with ⟨attempted, -, unasked⟩
  rcases runs_ofLock (c₂.renew_renewing s₂.history) renewed with ⟨renewing, -, unasked'⟩
  have asks := runs_agree agreed
  rcases asks.beaten with ⟨beats, beaten⟩
  refine ⟨?_, ?_, beats, beaten, ?_⟩
  · rcases attempted.same with ⟨standing, rfl⟩
    exact beaten.same
  · rw [Errand.Approved, unasked', ← unasked]
    exact asks.approved
  · rcases (beaten.append (.beat renewing (.rest c₃ s₃.history))).held_or_lost
      attempted.held_of_ok with ⟨held, unlost⟩ | ⟨owner, lost, -⟩
    · exact .inl ⟨held, fun owner member => unlost owner (List.mem_append_left _ member)⟩
    · exact .inr ⟨owner, lost, renewing.lost_of_heldByOther lost⟩

variable {outcome : Except Failure α}

/-- A protected operation does its operation once and only under a lock that it has just
confirmed, or it fails with the failure of the first stage that fails, and its operation
has no part in that: the run is one with any other operation as well. -/
theorem operates_only_confirmed
    (ran : (runProtected c errand.interval errand.question errand.operation).Runs
      (Leads interference) s (outcome, c') later) :
    (∃ c₃ entered c₄ ended, errand.Confirmed interference c s c₃ entered ∧
      (errand.operation c₃).Runs (Leads interference) entered (outcome, c₄) ended ∧
      (leave ⟨true⟩ c₄ outcome).Runs (Leads interference) ended (outcome, c') later) ∨
    ∃ failure, outcome = .error failure ∧
      errand.Prevented interference c s failure c' later ∧
      ∀ operation, (runProtected c errand.interval errand.question operation).Runs
        (Leads interference) s (outcome, c') later := by
  generalize final : (outcome, c') = result at ran
  have goes := runs_runProtected.mp ran
  cases goes with
  | @refused failure c₁ _ acquired =>
      right
      cases final
      refine ⟨failure, rfl, ?_, fun _ => runs_runProtected.mpr (.refused acquired)⟩
      exact .refused acquired (runs_ofLock (c.acquire_attempted s.history) acquired).2.2
  | @unwilling c₁ c₂ s₁ s₂ _ failure _ acquired agreed withdrawn =>
      right
      subst final
      have begun := (runs_ofLock (c.acquire_attempted s.history) acquired).2.2
      rcases runs_withdraw withdrawn with ⟨rfl, -, unasked⟩
      refine ⟨failure, rfl, ?_, fun _ => runs_runProtected.mpr (.unwilling acquired agreed withdrawn)⟩
      rcases (runs_agree agreed).refused with
        ⟨question, asks, ⟨zero, rfl, same⟩ | ⟨paced, rfl, asked⟩ | ⟨paced, asked⟩⟩
      · exact .unpaced acquired asks zero (by rw [unasked, same, begun])
      · exact .declined acquired asks paced (by rw [unasked, asked, begun])
      · exact .unanswered acquired asks paced (by rw [unasked, asked, begun])
  | @unheld c₁ c₂ c₃ s₁ s₂ s₃ _ failure _ acquired agreed reconciled withdrawn =>
      right
      subst final
      rcases runs_withdraw withdrawn with ⟨rfl, ⟨_, released⟩, unasked⟩
      refine ⟨failure, rfl, ?_, fun _ =>
        runs_runProtected.mpr (.unheld acquired agreed reconciled withdrawn)⟩
      rcases runs_reconcile reconciled with ⟨renewal, renewed, fails⟩
      rcases runs_agree_renew acquired agreed renewed with ⟨-, approved, beats, -, standing⟩
      rw [Errand.Approved, ← unasked] at approved
      rcases renewal with failure' | renewal
      · cases fails
        rcases fault_of_renewal renewed with ⟨fault, rfl⟩
        exact .unrenewed acquired agreed approved renewed
      · rcases standing with ⟨held, -⟩ | ⟨owner, lost, same⟩
        · simp [Except.bind, Claimant.ensureHeld, held] at fails
        · cases same
          simp only [Except.bind, Claimant.ensureHeld, lost] at fails
          cases fails
          have without : c₃.standing ≠ .heldBySelf := by
            simp [lost]
          rcases released.skipped_of_unheld without with ⟨rfl, -⟩
          exact .lost acquired agreed approved renewed lost
  | @operated c₁ c₂ c₃ c₄ s₁ s₂ s₃ s₄ _ ended _ acquired agreed reconciled done left =>
      left
      subst final
      obtain ⟨rfl, -⟩ := ends_of_runs (leave_released c₄ s₄.history ended) left
      rcases runs_reconcile reconciled with ⟨renewal, renewed, holds⟩
      rcases runs_agree_renew acquired agreed renewed with ⟨same, approved, beats, beaten, standing⟩
      refine ⟨c₃, s₃, c₄, s₄, ?_, done, left⟩
      rcases renewal with failure | renewal
      · contradiction
      · rcases standing with ⟨held, unlost⟩ | ⟨owner, lost, -⟩
        · rcases confirms_of_renewal renewed held with ⟨visit, between, last, confirms⟩
          rcases same with ⟨standing, rfl⟩
          exact .intro acquired agreed approved beaten unlost renewed last confirms
        · simp [Except.bind, Claimant.ensureHeld, lost] at holds

/-- An errand that asks and then only tells that it was done. -/
def tellDone : Errand Nat :=
  ⟨.ofSeconds 3, some "continue?", fun c => return (.ok 42, c)⟩

/-- Others may do anything. -/
def anyInterference : Interference :=
  ⟨fun _ _ => True, fun _ _ => True⟩

/-- A claimant that is answered yes after one beat comes to the operation. -/
theorem operates_only_confirmed_of_yes :
    ∃ c₃ entered, tellDone.Confirmed anyInterference (.ofPid 1 (.ofSeconds 10))
      ⟨.empty, ⟨[], []⟩, [], []⟩ c₃ entered := by
  have leads := @leads_undisturbed anyInterference (fun _ => trivial) (fun _ => trivial) default
    (.ok true)
  obtain ⟨⟨outcome, c'⟩, later, ran, done⟩ :
      ∃ result later, (runProtected (.ofPid 1 (.ofSeconds 10)) tellDone.interval tellDone.question
        tellDone.operation).Runs (Leads anyInterference) ⟨.empty, ⟨[], []⟩, [], []⟩ result later ∧
        result.1.isOk = true :=
    ⟨_, _, Program.runs_run leads _ _, by decide +kernel⟩
  rcases operates_only_confirmed ran with ⟨c₃, entered, _, _, confirmed, -⟩ | ⟨failure, rfl, -⟩
  · exact ⟨c₃, entered, confirmed⟩
  · contradiction

end Procedure

end Leasehold
