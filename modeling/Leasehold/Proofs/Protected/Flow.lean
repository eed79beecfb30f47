import Leasehold.Proofs.Sharing.Commons
import Leasehold.Proofs.Sharing.Procedure
import Leasehold.Protected

/-!
# Protected operations under way

A flow is a protected operation that has got somewhere. It is cut into its parts,
so that it can be said which part it is in: it acquires the lock, asks whether to go
on, reconciles what it knows with the store, operates, and leaves.

The main statements say that the cut changes nothing: what is left of the parts
makes up what is left of the whole program, stop for stop and turn for turn.
-/

namespace Leasehold

open Procedure

/-- What is to be done under the lock, and how to ask before. -/
structure Errand (α : Type) where
  interval : Duration
  question : Option String
  operation : Claimant → Procedure (Except Failure α × Claimant)

/-- The parts of a protected operation. -/
inductive Phase where
  | acquiring
  | asking (guard : Guard)
  | reconciling (guard : Guard)
  | operating (guard : Guard)
  | leaving

/-- What a part gives unless it fails. -/
@[reducible]
def Phase.Result (α : Type) : Phase → Type
  | acquiring => Guard
  | asking _ => Unit
  | reconciling _ => Unit
  | operating _ => α
  | leaving => α

/-- A protected operation in one of its parts, with the rest of that part. -/
structure Flow (α : Type) where
  errand : Errand α
  phase : Phase
  rest : Procedure (Except Failure (phase.Result α) × Claimant)

variable {α : Type}

namespace Errand

/-- The part that comes after the end of a part. -/
def next? (errand : Errand α) :
    (phase : Phase) → Except Failure (phase.Result α) × Claimant → Option (Flow α)
  | .acquiring, (.ok guard, c) =>
    some ⟨errand, .asking guard, agree c errand.interval errand.question⟩
  | .acquiring, (.error failure, c) => some ⟨errand, .leaving, .done (.error failure, c)⟩
  | .asking guard, (.ok (), c) => some ⟨errand, .reconciling guard, reconcile c⟩
  | .asking guard, (.error failure, c) => some ⟨errand, .leaving, withdraw guard c failure⟩
  | .reconciling guard, (.ok (), c) => some ⟨errand, .operating guard, errand.operation c⟩
  | .reconciling guard, (.error failure, c) => some ⟨errand, .leaving, withdraw guard c failure⟩
  | .operating guard, (outcome, c) => some ⟨errand, .leaving, leave guard c outcome⟩
  | .leaving, _ => none

/-- All that comes after reconciling. -/
def operate (errand : Errand α) (guard : Guard) :
    Except Failure Unit × Claimant → Procedure (Except Failure α × Claimant)
  | (.ok (), c) => do
    let (outcome, c) ← errand.operation c
    leave guard c outcome
  | (.error failure, c) => withdraw guard c failure

/-- All that comes after asking. -/
def proceed (errand : Errand α) (guard : Guard) :
    Except Failure Unit × Claimant → Procedure (Except Failure α × Claimant)
  | (.ok (), c) => reconcile c >>= errand.operate guard
  | (.error failure, c) => withdraw guard c failure

/-- All that comes after acquiring. -/
def begin (errand : Errand α) :
    Except Failure Guard × Claimant → Procedure (Except Failure α × Claimant)
  | (.ok guard, c) => agree c errand.interval errand.question >>= errand.proceed guard
  | (.error failure, c) => return (.error failure, c)

/-- All that comes after a part. -/
def finish (errand : Errand α) :
    (phase : Phase) → Except Failure (phase.Result α) × Claimant →
      Procedure (Except Failure α × Claimant)
  | .acquiring, result => errand.begin result
  | .asking guard, result => errand.proceed guard result
  | .reconciling guard, result => errand.operate guard result
  | .operating guard, (outcome, c) => leave guard c outcome
  | .leaving, result => return result

end Errand

namespace Flow

/-- A protected operation that has not begun. -/
def start (errand : Errand α) (c : Claimant) : Flow α :=
  ⟨errand, .acquiring, ofLock (Guard.acquire c)⟩

/-- All that is left of a protected operation. -/
def program (flow : Flow α) : Procedure (Except Failure α × Claimant) :=
  flow.rest >>= flow.errand.finish flow.phase

/-- What a flow does between store calls: it goes on with its part, or passes to the
next one. -/
inductive Turn where
  | act (turn : Procedure.Turn)
  | pass

instance : Party (Flow α) Turn where
  pending? flow :=
    flow.rest.pending?.map fun ⟨call, next⟩ =>
      ⟨call, fun reply => { flow with rest := next reply }⟩
  turn?
    | .act turn, flow => (flow.rest.turn? turn).map fun rest => { flow with rest := rest }
    | .pass, ⟨errand, phase, .done result⟩ => errand.next? phase result
    | _, _ => none

/-- How the protected operation has ended, if it has. -/
def outcome? : Flow α → Option (Except Failure α)
  | ⟨_, .leaving, .done (outcome, _)⟩ => some outcome
  | _ => none

variable {flow flow' : Flow α}

theorem pending?_eq_some_iff {call : StoreCall} {next : call.Reply → Flow α} :
    Party.pending? flow = some ⟨call, next⟩ ↔
      ∃ go, flow.rest.pending? = some ⟨call, go⟩ ∧
        next = fun reply => { flow with rest := go reply } := by
  simp only [Party.pending?, Option.map_eq_some_iff, Sigma.exists]
  constructor
  · rintro ⟨_, go, pending, same⟩
    cases same
    exact ⟨go, pending, rfl⟩
  · rintro ⟨go, pending, rfl⟩
    exact ⟨call, go, pending, rfl⟩

/-- The two kinds of turns. -/
theorem turn?_cases {turn : Turn} (turned : Party.turn? turn flow = some flow') :
    (∃ act rest, turn = .act act ∧ flow.rest.turn? act = some rest ∧
      flow' = { flow with rest := rest }) ∨
    ∃ errand phase result, turn = .pass ∧ flow = ⟨errand, phase, .done result⟩ ∧
      errand.next? phase result = some flow' := by
  rcases flow with ⟨errand, phase, rest⟩
  cases turn with
  | act act =>
      rcases Option.map_eq_some_iff.mp turned with ⟨rest', acted, rfl⟩
      exact .inl ⟨act, rest', rfl, acted, rfl⟩
  | pass =>
      cases rest with
      | done result => exact .inr ⟨errand, phase, result, rfl, rfl, turned⟩
      | step request next => contradiction

/-- Passing on is about the same errand. -/
theorem errand_next {errand : Errand α} {phase : Phase}
    {result : Except Failure (phase.Result α) × Claimant}
    (next : errand.next? phase result = some flow) : flow.errand = errand := by
  rcases result with ⟨outcome, c⟩
  cases phase with
  | acquiring => cases outcome <;> cases next <;> rfl
  | asking guard => cases outcome <;> cases next <;> rfl
  | reconciling guard => cases outcome <;> cases next <;> rfl
  | operating guard => cases next; rfl
  | leaving => contradiction

/-- Every file call has some reply. -/
theorem nonempty_fileReply (call : FileCall) : Nonempty call.Reply := by
  cases call with
  | isPresent path => exact ⟨false⟩
  | isFile path => exact ⟨false⟩
  | isDirectory path => exact ⟨false⟩
  | read path => exact ⟨.ok .empty⟩
  | _ => exact ⟨.ok ()⟩

/-- A flow that has not ended can always go on: it has a store call to make or a turn
to take. -/
theorem goes_on (flow : Flow α) (unfinished : flow.outcome? = none) :
    (Party.pending? flow).isSome ∨ ∃ turn, (Party.turn? turn flow).isSome := by
  rcases flow with ⟨errand, phase, ⟨outcome, c⟩ | ⟨request, next⟩⟩
  · refine .inr ⟨.pass, ?_⟩
    cases phase with
    | leaving => contradiction
    | operating guard => rfl
    | _ => cases outcome <;> rfl
  · rcases request with (call | event) | call | (⟨question, interval⟩ | c | ⟨c, question⟩)
    · exact .inl rfl
    · exact .inr ⟨.act .note, rfl⟩
    · exact .inr ⟨.act (.file fun call => Classical.choice (nonempty_fileReply call)), rfl⟩
    · exact .inr ⟨.act (.patience 0), rfl⟩
    · exact .inr ⟨.act (.due false), rfl⟩
    · exact .inr ⟨.act (.answer (.ok false)), rfl⟩

/-! ## The parts and the whole -/

/-- Withdrawing is final, whatever was to be withdrawn from. -/
theorem withdraw_bind {β : Type} (guard : Guard) (c : Claimant) (failure : Failure)
    (next : Except Failure β × Claimant → Procedure (Except Failure α × Claimant))
    (fails : ∀ c, next (.error failure, c) = .done (.error failure, c)) :
    withdraw guard c failure >>= next = withdraw guard c failure := by
  simp only [withdraw, bind_assoc, Program.pure_eq_done, Program.done_bind, fails]

/-- At the start the whole is left. -/
theorem program_start (errand : Errand α) (c : Claimant) :
    (start errand c).program = runProtected c errand.interval errand.question errand.operation := by
  simp only [program, start, runProtected, enter, bind_assoc]
  apply bind_congr
  rintro ⟨failure | guard, c⟩
  · rfl
  simp only [bind_assoc]
  apply bind_congr
  rintro ⟨failure | ⟨⟩, c⟩
  · apply Eq.symm
    apply withdraw_bind guard c failure
    exact fun c => rfl
  simp only [Errand.proceed, bind_assoc]
  apply bind_congr
  rintro ⟨failure | ⟨⟩, c⟩
  · apply Eq.symm
    apply withdraw_bind guard c failure
    exact fun c => rfl
  · rfl

/-- A flow stops at the store calls of the whole. -/
theorem pending?_program {call : StoreCall} {next : call.Reply → Flow α}
    (pending : Party.pending? flow = some ⟨call, next⟩) :
    flow.program.pending? = some ⟨call, fun reply => (next reply).program⟩ := by
  rcases pending?_eq_some_iff.mp pending with ⟨go, stops, rfl⟩
  rw [Procedure.pending?_eq_some_iff] at stops ⊢
  rw [program, stops]
  rfl

/-- Passing to the next part leaves what is left of the whole. -/
theorem program_next {errand : Errand α} {phase : Phase}
    {result : Except Failure (phase.Result α) × Claimant}
    (next : errand.next? phase result = some flow') :
    flow'.program = program ⟨errand, phase, .done result⟩ := by
  rcases result with ⟨outcome, c⟩
  cases phase with
  | acquiring =>
      cases outcome <;> cases next <;> rfl
  | asking guard =>
      cases outcome <;> cases next
      · exact Program.bind_done _
      · rfl
  | reconciling guard =>
      cases outcome <;> cases next
      · exact Program.bind_done _
      · rfl
  | operating guard =>
      cases next
      exact Program.bind_done _
  | leaving => contradiction

/-- A turn within a part is one of the whole, and passing is none at all. -/
theorem turn?_program {turn : Turn} (turned : Party.turn? turn flow = some flow') :
    (∃ act, turn = .act act ∧ flow.program.turn? act = some flow'.program) ∨
      turn = .pass ∧ flow'.program = flow.program := by
  rcases turn?_cases turned with ⟨act, rest, rfl, acted, rfl⟩ |
    ⟨errand, phase, result, rfl, rfl, next⟩
  · exact .inl ⟨act, rfl, Procedure.turn?_bind acted _⟩
  · exact .inr ⟨rfl, program_next next⟩

end Flow

end Leasehold
