import Leasehold.Proofs.Protected.Answer
import Leasehold.Proofs.Protected.Discipline

/-!
# Flows without a lock

A flow whose record has come to belong to somebody else is doomed as long as it does
not create the record anew. It may not know yet: it goes on asking, and it reconciles
if the answer is to go on. But reconciling renews the record in its last call or ends
with the loss of the lock, and here it can renew nothing. So the flow leaves without
operating, with the loss or with what came of asking.
-/

namespace Leasehold

variable {α : Type} {key : String} {owner : Pid} {ttl : Duration} {answer : Except Failure Bool}
  {history : History}

/-- How an errand fails whose lock is lost: with that if the answer was to go on, and
else with what came of asking. -/
def Errand.FailsAs (errand : Errand α) (answer : Except Failure Bool)
    (outcome : Except Failure α) : Prop :=
  match errand.verdict answer with
  | .ok () => ∃ owner, outcome = .error (.lockLost owner)
  | .error failure => outcome = .error failure

theorem Errand.failsAs_of_ok {errand : Errand α} (goesOn : errand.verdict answer = .ok ())
    (owner : Option Pid) : errand.FailsAs answer (.error (.lockLost owner)) := by
  rw [FailsAs, goesOn]
  exact ⟨owner, rfl⟩

theorem Errand.failsAs_of_error {errand : Errand α} {failure : Failure}
    (refuses : errand.verdict answer = .error failure) :
    errand.FailsAs answer (.error failure) := by
  rw [FailsAs, refuses]

namespace Procedure

/-- That the rest of reconciling ends with the loss of the lock unless it renews the
record: there is a call to come, the last one has renewed nothing, or this is the
end already. -/
inductive Losing (key : String) :
    Procedure (Except Failure Unit × Claimant) → History → Prop
  | stops {rest : Procedure (Except Failure Unit × Claimant)} {history : History}
      (stops : rest.pending?.isSome) : Losing key rest history
  | idle {rest : Procedure (Except Failure Unit × Claimant)} {made : MadeCall}
      {earlier : History} (idle : made.renewal? key = none) (answered : made.reply.isOk) :
      Losing key rest (made :: earlier)
  | lost (owner : Option Pid) (c : Claimant) (history : History) :
      Losing key (.done (.error (.lockLost owner), c)) history

/-- Reconciling begins with a call, or the lock was known to be lost. -/
theorem losing_reconcile (c : Claimant) (history : History) :
    Losing key (reconcile c) history := by
  rcases c with ⟨_, pid, ttl, standing⟩
  cases standing with
  | free => exact .lost none _ history
  | heldBySelf => exact .stops rfl
  | heldByOther owner => exact .lost owner _ history
  | stale => exact .lost none _ history

theorem Losing.ends {outcome : Except Failure Unit} {c : Claimant}
    (losing : Losing key (.done (outcome, c)) history) (ends : Reconciled key outcome history) :
    ∃ owner, outcome = .error (.lockLost owner) := by
  cases losing with
  | stops stops => contradiction
  | idle idle answered =>
      cases ends with
      | renewed renews =>
          rw [idle] at renews
          contradiction
      | lost owner later => exact ⟨owner, rfl⟩
      | failed call failure time earlier => contradiction
  | lost owner c history => exact ⟨owner, rfl⟩

theorem turn?_of_pending {procedure : Procedure α} (stops : procedure.pending?.isSome)
    (turn : Turn) : procedure.turn? turn = none := by
  rcases Option.isSome_iff_exists.mp stops with ⟨⟨call, next⟩, pending⟩
  obtain rfl := pending?_eq_some_iff.mp pending
  cases turn <;> rfl

/-- Turns within reconciling make no calls. -/
theorem Losing.act {rest rest' : Procedure (Except Failure Unit × Claimant)}
    (losing : Losing key rest history) {turn : Turn} (acted : rest.turn? turn = some rest') :
    Losing key rest' history := by
  cases losing with
  | stops stops =>
      rw [turn?_of_pending stops] at acted
      contradiction
  | idle idle answered => exact .idle idle answered
  | lost owner c history => cases turn <;> contradiction

end Procedure

namespace Flow

/-- That a flow will not operate unless it renews the record. -/
inductive Doomed (key : String) (owner : Pid) (ttl : Duration) (answer : Except Failure Bool) :
    Flow α → History → Prop
  | acquiring {errand : Errand α} {rest : Procedure (Except Failure Guard × Claimant)}
      {history : History} (kept : Kept key owner ttl ⟨errand, .acquiring, rest⟩ history)
      (renewed : (history.lastRenewal? key).isSome) :
      Doomed key owner ttl answer ⟨errand, .acquiring, rest⟩ history
  | asking {errand : Errand α} {guard : Guard}
      {rest : Procedure (Except Failure Unit × Claimant)} {history : History}
      (kept : Kept key owner ttl ⟨errand, .asking guard, rest⟩ history)
      (heeds : Heeds answer ⟨errand, .asking guard, rest⟩) :
      Doomed key owner ttl answer ⟨errand, .asking guard, rest⟩ history
  | reconciling {errand : Errand α} {guard : Guard}
      {rest : Procedure (Except Failure Unit × Claimant)} {history : History}
      (kept : Kept key owner ttl ⟨errand, .reconciling guard, rest⟩ history)
      (heeds : Heeds answer ⟨errand, .reconciling guard, rest⟩)
      (losing : Procedure.Losing key rest history) :
      Doomed key owner ttl answer ⟨errand, .reconciling guard, rest⟩ history
  | leaving {errand : Errand α} {rest : Procedure (Except Failure α × Claimant)}
      {history : History}
      (kept : rest.Keeps (Procedure.calls (StoreCall.ActsFor key owner))
        (fun result _ => errand.FailsAs answer result.1) history) :
      Doomed key owner ttl answer ⟨errand, .leaving, rest⟩ history

variable {flow : Flow α}

/-- A doomed flow acts for its owner, and a call that renews nothing leaves it doomed. -/
theorem Doomed.call (doomed : flow.Doomed key owner ttl answer history) {call : StoreCall}
    {next : call.Reply → Flow α} (pending : Party.pending? flow = some ⟨call, next⟩) :
    call.ActsFor key owner ∧ ∀ (reply : call.Answer) time,
      MadeCall.renewal? key ⟨call, .ok reply, time⟩ = none →
        (next (.ok reply)).Doomed key owner ttl answer (⟨call, .ok reply, time⟩ :: history) := by
  rcases pending?_eq_some_iff.mp pending with ⟨go, stops, rfl⟩
  cases doomed with
  | acquiring kept renewed =>
      rcases kept.call pending with ⟨acts, after⟩
      exact ⟨acts, fun reply time _ =>
        .acquiring (after _ time) (History.isSome_lastRenewal?_cons renewed)⟩
  | asking kept heeds =>
      rcases kept.call pending with ⟨acts, after⟩
      exact ⟨acts, fun reply time _ => .asking (after _ time) (heeds.call pending _)⟩
  | reconciling kept heeds losing =>
      rcases kept.call pending with ⟨acts, after⟩
      exact ⟨acts, fun reply time idle => .reconciling (after _ time) heeds (.idle idle rfl)⟩
  | leaving kept =>
      rcases Procedure.keeps_pending kept stops with ⟨acts, after⟩
      exact ⟨acts, fun reply time _ => .leaving (after _ time)⟩

theorem Doomed.act (doomed : flow.Doomed key owner ttl answer history) {turn : Procedure.Turn}
    (heeded : turn.Heeds answer)
    {rest : Procedure (Except Failure (flow.phase.Result α) × Claimant)}
    (acted : flow.rest.turn? turn = some rest) :
    Doomed key owner ttl answer { flow with rest := rest } history := by
  cases doomed with
  | acquiring kept renewed => exact .acquiring (Procedure.keeps_turn kept acted) renewed
  | asking kept heeds =>
      exact .asking (Procedure.keeps_turn kept acted) (heeds.act heeded acted)
  | reconciling kept heeds losing =>
      exact .reconciling (Procedure.keeps_turn kept acted) heeds (losing.act acted)
  | leaving kept => exact .leaving (Procedure.keeps_turn kept acted)

/-- A doomed flow passes on to all parts but the operation. -/
theorem doomed_next {errand : Errand α} {phase : Phase}
    {result : Except Failure (phase.Result α) × Claimant}
    (doomed : Doomed key owner ttl answer ⟨errand, phase, .done result⟩ history)
    (next : errand.next? phase result = some flow) :
    flow.Doomed key owner ttl answer history := by
  rcases result with ⟨outcome, c⟩
  cases doomed with
  | acquiring kept renewed =>
      rcases kept with ⟨fits, ends⟩
      rcases outcome with failure | guard
      · rw [ends rfl] at renewed
        contradiction
      · have kept := kept_next fits (fun _ same => nomatch same) next
        have heeds : flow.Heeds answer :=
          heeds_next (show Heeds answer ⟨errand, .acquiring, .done (.ok guard, c)⟩ from trivial) next
        cases next
        exact .asking kept heeds
  | asking kept heeds =>
      rcases outcome with failure | _
      · cases next
        apply Doomed.leaving
        apply (Procedure.withdraw_keeps _ failure kept.1).mono
        rintro ⟨_, c'⟩ later ⟨-, rfl⟩
        exact Errand.failsAs_of_error (Eq.symm heeds)
      · have kept := kept_next kept.1 (fun _ same => nomatch same) next
        have heeds := heeds_next heeds next
        cases next
        exact .reconciling kept heeds (Procedure.losing_reconcile c history)
  | reconciling kept heeds losing =>
      rcases losing.ends kept.2 with ⟨owner, rfl⟩
      cases next
      apply Doomed.leaving
      apply (Procedure.withdraw_keeps _ _ kept.1).mono
      rintro ⟨_, c'⟩ later ⟨-, rfl⟩
      exact Errand.failsAs_of_ok heeds owner
  | leaving kept => cases next

/-- That a flow does not operate, and has failed as it has to or will go on. -/
def Fails (answer : Except Failure Bool) (flow : Flow α) : Prop :=
  (∀ guard, flow.phase ≠ .operating guard) ∧
    match flow.outcome? with
    | some outcome => flow.errand.FailsAs answer outcome
    | none => (Party.pending? flow).isSome ∨ ∃ turn, (Party.turn? turn flow).isSome

theorem Doomed.fails (doomed : flow.Doomed key owner ttl answer history) : flow.Fails answer := by
  constructor
  · intro guard operating
    cases doomed <;> cases operating
  · cases ended : flow.outcome? with
    | none => exact flow.goes_on ended
    | some outcome =>
        unfold outcome? at ended
        split at ended
        next =>
          obtain rfl := Option.some.inj ended
          cases doomed with
          | leaving kept => exact kept
        next => contradiction

end Flow

end Leasehold
