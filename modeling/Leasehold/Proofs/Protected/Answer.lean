import Leasehold.Proofs.Program.Contract
import Leasehold.Proofs.Protected.Flow

/-!
# Answers

What comes of asking is decided by the answer alone, however many beats there were
and whatever the store said meanwhile. So if it is known which answer is given,
it is known what a flow that is past asking was told.
-/

namespace Leasehold

variable {α : Type}

/-- What comes of asking, if this answer is given. -/
def Errand.verdict (errand : Errand α) (answer : Except Failure Bool) : Except Failure Unit :=
  match errand.question with
  | none => .ok ()
  | some _ =>
    if errand.interval = .zero then .error (.user .heartbeatIntervalZero)
    else
      match answer with
      | .error failure => .error failure
      | .ok false => .error .aborted
      | .ok true => .ok ()

namespace Procedure

/-- The contract of procedures that are given this answer whenever they ask. -/
def answered (answer : Except Failure Bool) : Contract Request.Reply Unit where
  allows _ _ := True
  leads
    | .wait (.answer ..), reply, _, _ => reply.1 = answer
    | _, _, _, _ => True

/-- That a turn does not give another answer. -/
def Turn.Heeds (answer : Except Failure Bool) : Turn → Prop
  | .answer given => given = answer
  | _ => True

variable {answer : Except Failure Bool} {procedure procedure' : Procedure α} {ends : α → Unit → Prop}

/-- Any procedure keeps a contract that demands nothing. -/
theorem keeps_answered (procedure : Procedure α) :
    procedure.Keeps (answered answer) (fun _ _ => True) () := by
  induction procedure with
  | done result => trivial
  | step request next ih => exact ⟨trivial, fun reply _ _ => ih reply⟩

theorem answered_pending (kept : procedure.Keeps (answered answer) ends ()) {call : StoreCall}
    {next : call.Reply → Procedure α} (pending : procedure.pending? = some ⟨call, next⟩)
    (reply : call.Reply) : (next reply).Keeps (answered answer) ends () := by
  obtain rfl := pending?_eq_some_iff.mp pending
  exact kept.2 reply () trivial

theorem answered_turn (kept : procedure.Keeps (answered answer) ends ()) {turn : Turn}
    (heeds : turn.Heeds answer) (turned : procedure.turn? turn = some procedure') :
    procedure'.Keeps (answered answer) ends () := by
  unfold turn? at turned
  split at turned
  · cases turned
    exact kept.2 () () trivial
  · cases turned
    exact kept.2 _ () trivial
  · cases turned
    exact kept.2 _ () trivial
  · cases turned
    exact kept.2 _ () trivial
  · cases turned
    exact kept.2 _ () heeds
  · contradiction

/-- A confirmation is the answer, unless it is refused for want of an interval. -/
theorem confirm_answered (c : Claimant) (interval : Duration) (question : String) :
    (confirm c interval question).Keeps (answered answer)
      (fun result _ => result.1 =
        if interval = .zero then .error (.user .heartbeatIntervalZero) else answer) () := by
  by_cases zero : interval = .zero
  · simp only [confirm, Heartbeat.start?, if_pos zero]
    rfl
  · simp only [confirm, Heartbeat.start?, if_neg zero, await, Program.perform_bind]
    apply And.intro trivial
    intro most _ _
    apply Program.keeps_bind.mpr
    apply (keeps_answered _).mono
    intro c' _ _
    exact ⟨trivial, fun reply _ given => given⟩

/-- Asking ends as the answer says. -/
theorem agree_answered (errand : Errand α) (c : Claimant) :
    (agree c errand.interval errand.question).Keeps (answered answer)
      (fun result _ => result.1 = errand.verdict answer) () := by
  unfold Errand.verdict
  cases errand.question with
  | none => rfl
  | some question =>
      apply Program.keeps_bind.mpr
      apply (confirm_answered c errand.interval question).mono
      rintro ⟨_, c'⟩ _ rfl
      by_cases zero : errand.interval = .zero
      · simp only [if_pos zero]
        rfl
      · simp only [if_neg zero]
        rcases answer with failure | _ | _ <;> rfl

end Procedure

namespace Flow

/-- That a flow goes as this answer says: asking will end with its verdict, and
after asking the verdict was to go on. -/
def Heeds (answer : Except Failure Bool) : Flow α → Prop
  | ⟨errand, .asking _, rest⟩ =>
    rest.Keeps (Procedure.answered answer) (fun result _ => result.1 = errand.verdict answer) ()
  | ⟨errand, .reconciling _, _⟩ => errand.verdict answer = .ok ()
  | _ => True

variable {answer : Except Failure Bool} {flow : Flow α}

theorem Heeds.call (heeds : flow.Heeds answer) {call : StoreCall} {next : call.Reply → Flow α}
    (pending : Party.pending? flow = some ⟨call, next⟩) (reply : call.Reply) :
    (next reply).Heeds answer := by
  rcases pending?_eq_some_iff.mp pending with ⟨go, stops, rfl⟩
  rcases flow with ⟨errand, phase, rest⟩
  cases phase with
  | asking guard => exact Procedure.answered_pending heeds stops reply
  | _ => exact heeds

theorem Heeds.act (heeds : flow.Heeds answer) {turn : Procedure.Turn}
    (heeded : turn.Heeds answer)
    {rest : Procedure (Except Failure (flow.phase.Result α) × Claimant)}
    (acted : flow.rest.turn? turn = some rest) : Heeds answer { flow with rest := rest } := by
  rcases flow with ⟨errand, phase, rest⟩
  cases phase with
  | asking guard => exact Procedure.answered_turn heeds heeded acted
  | _ => exact heeds

theorem heeds_next {errand : Errand α} {phase : Phase}
    {result : Except Failure (phase.Result α) × Claimant}
    (heeds : Heeds answer ⟨errand, phase, .done result⟩)
    (next : errand.next? phase result = some flow) : flow.Heeds answer := by
  rcases result with ⟨outcome, c⟩
  cases phase with
  | acquiring =>
      rcases outcome with failure | guard
      · cases next
        trivial
      · cases next
        exact Procedure.agree_answered errand c
  | asking guard =>
      rcases outcome with failure | _
      · cases next
        trivial
      · cases next
        exact Eq.symm heeds
  | reconciling guard =>
      rcases outcome with failure | _ <;> cases next <;> trivial
  | operating guard =>
      cases next
      trivial
  | leaving => cases next

end Flow

end Leasehold
