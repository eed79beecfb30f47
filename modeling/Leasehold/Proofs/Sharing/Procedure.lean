import Leasehold.Procedure
import Leasehold.Proofs.Program.Contract
import Leasehold.Proofs.Store.History

/-!
# Procedures on a shared store

A procedure on a shared store stops at every store call. All its other requests
are answered by turns: files and terminals may answer anything, but what is handed
on during a wait comes back as it was, for nobody else uses the claimant of a
procedure.

The contracts here are about the calls that a procedure makes and the history that
they add up to.
-/

namespace Leasehold

/-- The contract of programs that make only certain store calls, with the history
of those calls as its state. -/
def LockProgram.calls (allows : StoreCall → Prop) : Contract LockRequest.Reply History where
  allows
    | .store call, _ => allows call
    | .log _, _ => True
  leads
    | .store call, reply, history, later => ∃ time, later = ⟨call, reply, time⟩ :: history
    | .log _, _, history, later => later = history

namespace Procedure

/-- The contract of procedures that make only certain store calls, with the
history of those calls as its state. -/
def calls (allows : StoreCall → Prop) : Contract Request.Reply History where
  allows
    | .lock request, history => (LockProgram.calls allows).allows request history
    | .file _, _ => True
    | .wait _, _ => True
  leads
    | .lock request, reply, history, later =>
      (LockProgram.calls allows).leads request reply history later
    | .file _, _, history, later => later = history
    | .wait (.patience ..), _, history, later => later = history
    | .wait (.isBeatDue c), reply, history, later => reply.2 = c ∧ later = history
    | .wait (.answer c _), reply, history, later => reply.2 = c ∧ later = history

variable {α : Type} {allows : StoreCall → Prop} {ends : α → History → Prop} {history : History}

theorem keeps_ofLock {program : LockProgram α}
    (kept : program.Keeps (LockProgram.calls allows) ends history) :
    (ofLock program).Keeps (calls allows) ends history := by
  apply Program.keeps_expand _ kept
  intro request state allowed
  exact ⟨allowed, fun reply later leads => leads⟩

/-- File calls are no part of a history. -/
theorem keeps_ofFiles (program : FileProgram α) (fits : ∀ result, ends result history) :
    (ofFiles program).Keeps (calls allows) ends history := by
  induction program with
  | done result => exact fits result
  | step call next ih =>
      constructor
      · trivial
      · rintro reply _ rfl
        exact ih reply

@[simp]
theorem keeps_note_bind {event : LogEvent} {next : Unit → Procedure α} :
    (note event >>= next).Keeps (calls allows) ends history ↔
      (next ()).Keeps (calls allows) ends history := by
  constructor
  · intro kept
    exact kept.2 () _ rfl
  · intro kept
    exact ⟨trivial, fun _ _ same => same ▸ kept⟩

@[simp]
theorem keeps_ask_bind {call : StoreCall} {next : call.Reply → Procedure α} :
    (ask call >>= next).Keeps (calls allows) ends history ↔
      allows call ∧ ∀ reply time,
        (next reply).Keeps (calls allows) ends (⟨call, reply, time⟩ :: history) := by
  apply and_congr_right
  intro _
  constructor
  · intro kept reply time
    exact kept reply _ ⟨time, rfl⟩
  · rintro kept reply _ ⟨time, rfl⟩
    exact kept reply time

@[simp]
theorem keeps_patience_bind {question : String} {interval : Duration} {next : Nat → Procedure α} :
    (await (.patience question interval) >>= next).Keeps (calls allows) ends history ↔
      ∀ most, (next most).Keeps (calls allows) ends history := by
  constructor
  · intro kept most
    exact kept.2 most _ rfl
  · intro kept
    exact ⟨trivial, fun most _ same => same ▸ kept most⟩

@[simp]
theorem keeps_isBeatDue_bind {c : Claimant} {next : Bool × Claimant → Procedure α} :
    (await (.isBeatDue c) >>= next).Keeps (calls allows) ends history ↔
      ∀ due, (next (due, c)).Keeps (calls allows) ends history := by
  constructor
  · intro kept due
    exact kept.2 (due, c) _ ⟨rfl, rfl⟩
  · intro kept
    apply And.intro trivial
    rintro ⟨due, _⟩ _ ⟨rfl, rfl⟩
    exact kept due

@[simp]
theorem keeps_answer {c : Claimant} {question : String}
    {ends : Except Failure Bool × Claimant → History → Prop} :
    (await (.answer c question)).Keeps (calls allows) ends history ↔
      ∀ outcome, ends (outcome, c) history := by
  constructor
  · intro kept outcome
    exact kept.2 (outcome, c) _ ⟨rfl, rfl⟩
  · intro kept
    apply And.intro trivial
    rintro ⟨outcome, _⟩ _ ⟨rfl, rfl⟩
    exact kept outcome

/-- What the allowed calls leave as it is, whatever they are answered, a procedure
leaves as it is. -/
theorem keeps_and_invariant {invariant : History → Prop}
    (stable : ∀ call reply time history, allows call → invariant history →
      invariant (⟨call, reply, time⟩ :: history))
    {procedure : Procedure α} (kept : procedure.Keeps (calls allows) ends history)
    (begins : invariant history) :
    procedure.Keeps (calls allows) (fun result later => ends result later ∧ invariant later)
      history := by
  apply kept.and_invariant _ begins
  rintro ((call | event) | call | (⟨question, interval⟩ | c | ⟨c, question⟩)) state reply later
    allowed leads holds
  · obtain ⟨time, rfl⟩ := leads
    exact stable call reply time state allowed holds
  · obtain rfl := leads
    exact holds
  · obtain rfl := leads
    exact holds
  · obtain rfl := leads
    exact holds
  · obtain ⟨-, rfl⟩ := leads
    exact holds
  · obtain ⟨-, rfl⟩ := leads
    exact holds

/-! ## Stops and turns -/

/-- What answers a request that is no store call. -/
inductive Turn where
  | note
  | file (answer : (call : FileCall) → call.Reply)
  | patience (most : Nat)
  | due (isDue : Bool)
  | answer (outcome : Except Failure Bool)

/-- The store call that a procedure stops at. -/
def pending? : Procedure α → Option ((call : StoreCall) × (call.Reply → Procedure α))
  | .step (.lock (.store call)) next => some ⟨call, next⟩
  | _ => none

/-- Answers a request that is no store call. -/
def turn? : Turn → Procedure α → Option (Procedure α)
  | .note, .step (.lock (.log _)) next => some (next ())
  | .file answer, .step (.file call) next => some (next (answer call))
  | .patience most, .step (.wait (.patience ..)) next => some (next most)
  | .due isDue, .step (.wait (.isBeatDue c)) next => some (next (isDue, c))
  | .answer outcome, .step (.wait (.answer c _)) next => some (next (outcome, c))
  | _, _ => none

theorem pending?_eq_some_iff {procedure : Procedure α} {call : StoreCall}
    {next : call.Reply → Procedure α} :
    procedure.pending? = some ⟨call, next⟩ ↔ procedure = .step (.lock (.store call)) next := by
  constructor
  · intro pending
    unfold pending? at pending
    split at pending
    · cases pending
      rfl
    · contradiction
  · rintro rfl
    rfl

/-- A turn of the first part of a sequence is a turn of the sequence. -/
theorem turn?_bind {β : Type} {procedure procedure' : Procedure α} {turn : Turn}
    (turned : procedure.turn? turn = some procedure') (next : α → Procedure β) :
    (procedure >>= next).turn? turn = some (procedure' >>= next) := by
  unfold turn? at turned
  split at turned
  all_goals first
    | contradiction
    | cases turned
      rfl

/-- A procedure that keeps a contract makes an allowed call where it stops, and
goes on keeping the contract. -/
theorem keeps_pending {procedure : Procedure α}
    (kept : procedure.Keeps (calls allows) ends history) {call : StoreCall}
    {next : call.Reply → Procedure α} (pending : procedure.pending? = some ⟨call, next⟩) :
    allows call ∧ ∀ reply time,
      (next reply).Keeps (calls allows) ends (⟨call, reply, time⟩ :: history) := by
  obtain rfl := pending?_eq_some_iff.mp pending
  exact ⟨kept.1, fun reply time => kept.2 reply _ ⟨time, rfl⟩⟩

theorem keeps_turn {procedure procedure' : Procedure α}
    (kept : procedure.Keeps (calls allows) ends history) {turn : Turn}
    (turned : procedure.turn? turn = some procedure') :
    procedure'.Keeps (calls allows) ends history := by
  unfold turn? at turned
  split at turned
  · cases turned
    exact kept.2 () _ rfl
  · cases turned
    exact kept.2 _ _ rfl
  · cases turned
    exact kept.2 _ _ rfl
  · cases turned
    exact kept.2 _ _ ⟨rfl, rfl⟩
  · cases turned
    exact kept.2 _ _ ⟨rfl, rfl⟩
  · contradiction

end Procedure

end Leasehold
