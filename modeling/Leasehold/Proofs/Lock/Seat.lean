import Leasehold.Proofs.Lock.Operation
import Leasehold.Proofs.Sharing.Lease

/-!
# Claimants at work

A seat is a claimant that does one operation after the other. An operation under
way stops at every store call, so the operations of several seats on one store
interleave call by call.

What a seat knows and what it has done go together: whoever takes the lock for its
own has renewed the record at some time, and unless it has deleted it since, has a
lease.
-/

namespace Leasehold

open LockRecord

/-- The operations of a claimant. -/
inductive Operation where
  | acquire
  | renew
  | release
  deriving DecidableEq, Repr

namespace Operation

/-- What an operation tells unless it fails. -/
@[reducible]
def Outcome : Operation → Type
  | acquire => Unit
  | renew => Renewal
  | release => Bool

/-- The program of an operation. -/
def program (c : Claimant) :
    (operation : Operation) → LockProgram (Except Failure operation.Outcome × Claimant)
  | acquire => c.acquire
  | renew => c.renew
  | release => c.release

/-- Every operation acts for the owner and leaves a claimant that fits. -/
theorem program_keeps {c : Claimant} {key : String} {owner : Pid} {ttl : Duration}
    {history : History} (fits : c.Fits key owner ttl history) (operation : Operation) :
    (operation.program c).Keeps (LockProgram.calls (StoreCall.ActsFor key owner))
      (fun result later => result.2.Fits key owner ttl later) history := by
  obtain rfl := fits.key_eq
  obtain rfl := fits.pid_eq
  cases operation with
  | acquire => exact (c.acquire_keeps history).mono fun _ _ acquired => acquired.fits fits
  | renew => exact (c.renew_keeps history).mono fun _ _ renewed => renewed.fits fits
  | release => exact (c.release_keeps history).mono fun _ _ released => released.fits fits

end Operation

/-- A claimant and what is left of the operation that it is in, if it is in one. -/
structure Seat where
  claimant : Claimant
  work? : Option
    ((operation : Operation) × Procedure (Except Failure operation.Outcome × Claimant))

namespace Seat

/-- A claimant that is in no operation. -/
def idle (c : Claimant) : Seat :=
  ⟨c, none⟩

/-- What a claimant does between store calls: it starts an operation, goes on with
it, or finishes it. -/
inductive Turn where
  | start (operation : Operation)
  | act (turn : Procedure.Turn)
  | finish

instance : Party Seat Turn where
  pending? seat := do
    let ⟨operation, rest⟩ ← seat.work?
    let ⟨call, next⟩ ← rest.pending?
    return ⟨call, fun reply => ⟨seat.claimant, some ⟨operation, next reply⟩⟩⟩
  turn?
    | .start operation, ⟨c, none⟩ =>
      some ⟨c, some ⟨operation, Procedure.ofLock (operation.program c)⟩⟩
    | .act turn, ⟨c, some ⟨operation, rest⟩⟩ =>
      (rest.turn? turn).map fun rest => ⟨c, some ⟨operation, rest⟩⟩
    | .finish, ⟨_, some ⟨_, .done (_, c)⟩⟩ => some ⟨c, none⟩
    | _, _ => none

/-- What the claimant knows: once an operation is through, what that has left. -/
def standing : Seat → Standing
  | ⟨_, some ⟨_, .done (_, c)⟩⟩ => c.standing
  | ⟨c, _⟩ => c.standing

variable {seat seat' : Seat} {key : String} {owner : Pid} {ttl : Duration} {history : History}

theorem pending?_eq_some_iff {call : StoreCall} {next : call.Reply → Seat} :
    Party.pending? seat = some ⟨call, next⟩ ↔
      ∃ operation rest go, seat.work? = some ⟨operation, rest⟩ ∧ rest.pending? = some ⟨call, go⟩ ∧
        next = fun reply => ⟨seat.claimant, some ⟨operation, go reply⟩⟩ := by
  simp only [Party.pending?, Option.bind_eq_bind, Option.bind_eq_some_iff, Sigma.exists,
    Option.pure_def, Option.some.injEq]
  constructor
  · rintro ⟨operation, rest, working, _, go, pending, same⟩
    cases same
    exact ⟨operation, rest, go, working, pending, rfl⟩
  · rintro ⟨operation, rest, go, working, pending, rfl⟩
    exact ⟨operation, rest, working, call, go, pending, rfl⟩

/-- The three kinds of turns. -/
theorem turn?_cases {turn : Turn} (turned : Party.turn? turn seat = some seat') :
    (∃ operation, turn = .start operation ∧ seat.work? = none ∧
      seat' = ⟨seat.claimant, some ⟨operation, Procedure.ofLock (operation.program seat.claimant)⟩⟩) ∨
    (∃ act operation rest rest', turn = .act act ∧ seat.work? = some ⟨operation, rest⟩ ∧
      rest.turn? act = some rest' ∧ seat' = ⟨seat.claimant, some ⟨operation, rest'⟩⟩) ∨
    (∃ operation outcome c, turn = .finish ∧ seat.work? = some ⟨operation, .done (outcome, c)⟩ ∧
      seat' = ⟨c, none⟩) := by
  rcases seat with ⟨c, work?⟩
  cases turn with
  | start operation =>
      rcases work? with _ | work
      · cases turned
        exact .inl ⟨operation, rfl, rfl, rfl⟩
      · contradiction
  | act act =>
      rcases work? with _ | ⟨operation, rest⟩
      · contradiction
      · rcases Option.map_eq_some_iff.mp turned with ⟨rest', acted, rfl⟩
        exact .inr (.inl ⟨act, operation, rest, rest', rfl, rfl, acted, rfl⟩)
  | finish =>
      rcases work? with _ | ⟨operation, ⟨outcome, c'⟩ | ⟨request, next⟩⟩
      · contradiction
      · cases turned
        exact .inr (.inr ⟨operation, outcome, c', rfl, rfl, rfl⟩)
      · contradiction

/-- That a seat is where its history can have brought it: between operations its
claimant fits, and within one whatever comes ends with a claimant that fits. -/
structure Good (key : String) (owner : Pid) (ttl : Duration) (seat : Seat) (history : History) :
    Prop where
  renewed : seat.claimant.standing = .heldBySelf → (history.lastRenewal? key).isSome
  between : seat.work? = none → seat.claimant.Fits key owner ttl history
  within : ∀ operation rest, seat.work? = some ⟨operation, rest⟩ →
    rest.Keeps (Procedure.calls (StoreCall.ActsFor key owner))
      (fun result later => result.2.Fits key owner ttl later) history

theorem good_idle {c : Claimant} (fits : c.Fits key owner ttl history) :
    (idle c).Good key owner ttl history :=
  ⟨fun held => (fits.lease held).1, fun _ => fits, fun _ _ working => nomatch working⟩

/-- Seats act for their owners and stay good. -/
theorem conduct {ι : Type} (key : String) (owner : ι → Pid) (ttl : ι → Duration) :
    Conduct (fun i call => call.ActsFor key (owner i)) (fun i => Good key (owner i) (ttl i)) where
  call := by
    intro i seat history call next good pending
    rcases pending?_eq_some_iff.mp pending with ⟨operation, rest, go, working, stops, rfl⟩
    rcases Procedure.keeps_pending (good.within operation rest working) stops with ⟨acts, kept⟩
    apply And.intro acts
    intro reply time
    constructor
    · intro held
      exact History.isSome_lastRenewal?_cons (good.renewed held)
    · intro idle
      contradiction
    · rintro _ _ ⟨⟩
      exact kept reply time
  turn := by
    intro i seat history turn seat' good turned
    rcases turn?_cases turned with ⟨operation, rfl, idle, rfl⟩ |
      ⟨act, operation, rest, rest', rfl, working, acted, rfl⟩ |
      ⟨operation, outcome, c, rfl, working, rfl⟩
    · have begun := Procedure.keeps_ofLock (operation.program_keeps (good.between idle))
      exact ⟨good.renewed, (nomatch ·), by rintro _ _ ⟨⟩; exact begun⟩
    · have gone := Procedure.keeps_turn (good.within operation rest working) acted
      exact ⟨good.renewed, (nomatch ·), by rintro _ _ ⟨⟩; exact gone⟩
    · exact good_idle (good.within operation _ working)

/-- A claimant that takes the lock for its own has a lease, unless it has deleted
the record. -/
theorem Good.hasLease (good : seat.Good key owner ttl history) (held : seat.standing = .heldBySelf)
    (kept : history.isGivenUp key = false) : history.HasLease key := by
  unfold standing at held
  split at held
  next operation outcome c =>
    exact Claimant.Fits.lease (good.within operation _ rfl) held
  next => exact ⟨good.renewed held, kept⟩

end Seat

end Leasehold
