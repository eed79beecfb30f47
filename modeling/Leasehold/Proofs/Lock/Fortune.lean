import Leasehold.Proofs.Lock.Course
import Leasehold.Proofs.Surroundings.Basic

/-!
# What befalls a program

Whatever comes between two calls of a program shows in the store that the next call
meets, in the time that it is made at, and in whether it fails. A fortune says so for
every call, given the calls so far and the store as it was left, and so makes one run of
every program. A statement about every fortune is one about every interference, every
clock and every choice of calls that fail.
-/

namespace Leasehold

/-- What befalls a call: the store that it meets, what time it is, and why it fails if it
does. -/
structure Circumstance where
  met : Keyspace
  time : Instant
  fault? : Option StoreFault

/-- What befalls the next call, given the calls so far, the last one first, and the store as
it was left. -/
abbrev Fortune : Type :=
  List Visit → Keyspace → Circumstance

namespace Fortune

/-- What becomes of a call. -/
def visit (fortune : Fortune) (visits : List Visit) (keyspace : Keyspace) (call : StoreCall) :
    Visit :=
  let circumstance := fortune visits keyspace
  ⟨circumstance.met, circumstance.time, call, circumstance.fault?⟩

/-- Answers a request of a program that has left the store so and made those calls. -/
def answer (fortune : Fortune) :
    (request : LockRequest) → Keyspace × List Visit → request.Reply × (Keyspace × List Visit)
  | .store call, (keyspace, visits) =>
    let visit := fortune.visit visits keyspace call
    (visit.reply, visit.left, visit :: visits)
  | .log _, state => ((), state)

/-- Nobody interferes and nothing fails; the clock shows what it shows before each call. -/
def calm (clock : Nat → Instant) : Fortune :=
  fun visits keyspace => ⟨keyspace, clock visits.length, none⟩

/-- How far calls of some kind can bring a store and the calls that were made. -/
inductive Brings (fortune : Fortune) (allows : StoreCall → Prop) (start : Keyspace × List Visit) :
    Keyspace × List Visit → Prop
  | start : Brings fortune allows start start
  | visit {keyspace : Keyspace} {visits : List Visit} {call : StoreCall}
      (before : Brings fortune allows start (keyspace, visits)) (allowed : allows call) :
      Brings fortune allows start
        ((fortune.visit visits keyspace call).left, fortune.visit visits keyspace call :: visits)

namespace Brings

variable {fortune : Fortune} {allows : StoreCall → Prop}
  {start middle later : Keyspace × List Visit}

theorem trans (first : fortune.Brings allows start middle)
    (second : fortune.Brings allows middle later) : fortune.Brings allows start later := by
  induction second with
  | start => exact first
  | visit _ allowed ih => exact .visit ih allowed

variable {keyspace : Keyspace} {visits : List Visit}

/-- All calls are of that kind. -/
theorem allowed (brings : fortune.Brings allows (keyspace, []) later) :
    ∀ visit ∈ later.2, allows visit.call := by
  induction brings with
  | start => simp
  | visit _ allowed ih => exact List.forall_mem_cons.mpr ⟨allowed, ih⟩

/-- Under a fortune that lets no call fail, none has failed. -/
theorem unfailing (never : ∀ visits keyspace, (fortune visits keyspace).fault? = none)
    (brings : fortune.Brings allows (keyspace, []) later) :
    ∀ visit ∈ later.2, visit.fault? = none := by
  induction brings with
  | start => simp
  | visit _ _ ih => exact List.forall_mem_cons.mpr ⟨never _ _, ih⟩

/-- Once there has been a call, the store is as the last one has left it. -/
theorem eq_or_left (brings : fortune.Brings allows start later) :
    later = start ∨ ∃ visit earlier, later = (visit.left, visit :: earlier) := by
  cases brings with
  | start => exact .inl rfl
  | visit before _ => exact .inr ⟨_, _, rfl⟩

end Brings

end Fortune

namespace LockProgram

variable {α : Type} {allows : StoreCall → Prop} {ends : α → History → Prop} (fortune : Fortune)

/-- A run makes calls that its contract allows and ends as it says. -/
theorem ends_under {program : LockProgram α} (state : Keyspace × List Visit)
    (kept : program.Keeps (calls allows) ends (state.2.map Visit.made)) :
    let ran := program.run fortune.answer state
    ends ran.1 (ran.2.2.map Visit.made) ∧ fortune.Brings allows state ran.2 := by
  induction program generalizing state with
  | done result => exact ⟨kept, .start⟩
  | step request next ih =>
      rcases request with call | event
      · obtain ⟨ended, brings⟩ := ih _ (fortune.answer (.store call) state).2 (kept.2 _ _ ⟨_, rfl⟩)
        exact ⟨ended, .trans (.visit .start kept.1) brings⟩
      · exact ih _ state (kept.2 () _ rfl)

/-- The calls that were made before a run are still the first ones. -/
theorem suffix_run (program : LockProgram α) (state : Keyspace × List Visit) :
    state.2 <:+ (program.run fortune.answer state).2.2 := by
  induction program generalizing state with
  | done result => exact List.suffix_rfl
  | step request next ih =>
      rcases request with call | event
      · exact (List.suffix_cons (fortune.visit state.2 state.1 call) _).trans
          (ih _ (fortune.answer (.store call) state).2)
      · exact ih _ state

/-! ## Single calls under a fortune -/

variable (keyspace : Keyspace) (visits : List Visit) (key : String) (owner : Pid) (ttl : Duration)

theorem run_createIfAbsent_bind (next : Except Failure Bool → LockProgram α) :
    (LockRecord.createIfAbsent key owner ttl >>= next).run fortune.answer (keyspace, visits) =
      let visit := fortune.visit visits keyspace (.create key (LockRecord.ownedBy owner) ttl)
      (next visit.reply).run fortune.answer (visit.left, visit :: visits) :=
  rfl

theorem run_readOwner_bind (next : Except Failure (Option (Option Pid)) → LockProgram α) :
    (LockRecord.readOwner key >>= next).run fortune.answer (keyspace, visits) =
      let visit := fortune.visit visits keyspace (.fetch key)
      let reply : Except Failure (Option Fields) := visit.reply
      (next (reply.map fun fields => fields.map LockRecord.ownerOf?)).run fortune.answer
        (visit.left, visit :: visits) := by
  rw [LockRecord.readOwner, bind_assoc]
  rfl

theorem run_refreshExpiry_bind (next : Except Failure Bool → LockProgram α) :
    (LockRecord.refreshExpiry key owner ttl >>= next).run fortune.answer (keyspace, visits) =
      let visit := fortune.visit visits keyspace (.expire key ttl (LockRecord.isOwnedBy owner))
      (next visit.reply).run fortune.answer (visit.left, visit :: visits) :=
  rfl

theorem run_delete_bind (next : Except Failure Bool → LockProgram α) :
    (LockRecord.delete key owner >>= next).run fortune.answer (keyspace, visits) =
      let visit := fortune.visit visits keyspace (.delete key (LockRecord.isOwnedBy owner))
      (next visit.reply).run fortune.answer (visit.left, visit :: visits) :=
  rfl

end LockProgram

end Leasehold
