import Leasehold.Proofs.Lock.Seat
import Leasehold.Proofs.Protected.Course

/-!
# Duties of a claimant

A claimant does operations of its own accord; besides, a heartbeat beats for it and a
guard that is dropped releases its lock. For each of these duties it is said which
calls it can come to make and how it ends, and for all their calls what they do to
the record: one that is not live they can only put up anew, and a live one is left as
it is but for an extension by its owner, an expiry where there was none, and a deletion
by its owner.
-/

namespace Leasehold

open LockRecord

/-- What a claimant can be about: an operation, a beat of a heartbeat, or the release that
comes with dropping a guard. -/
inductive Duty where
  | operate (operation : Operation)
  | beat (heartbeat : Heartbeat)
  | drop (guard : Guard)
  deriving DecidableEq, Repr

namespace Duty

/-- What a duty gives. -/
@[reducible]
def Outcome : Duty → Type
  | operate operation => Except Failure operation.Outcome
  | beat _ => Heartbeat
  | drop _ => Guard

/-- The program of a duty. -/
def program (c : Claimant) : (duty : Duty) → LockProgram (duty.Outcome × Claimant)
  | operate operation => operation.program c
  | beat heartbeat => heartbeat.beat c
  | drop guard => guard.drop c

end Duty

/-! ## Which calls are made -/

namespace Duty

/-- The calls that a duty can make for a claimant. -/
def Makes (c : Claimant) : Duty → StoreCall → Prop
  | operate .acquire => StoreCall.Contends c.key c.pid c.ttl
  | operate .renew => StoreCall.Renews c.key c.pid c.ttl
  | operate .release => StoreCall.Yields c.key c.pid
  | beat _ => StoreCall.Renews c.key c.pid c.ttl
  | drop _ => StoreCall.Yields c.key c.pid

variable {c : Claimant} {duty : Duty} {call : StoreCall}

/-- The calls of duties are calls of operations. -/
theorem Makes.concerns (makes : duty.Makes c call) : call.Concerns c.key c.pid c.ttl := by
  match duty with
  | operate .acquire => exact .sustain (.contend makes)
  | operate .renew => exact .sustain (StoreCall.Renews.sustains makes)
  | operate .release => exact StoreCall.Yields.concerns makes
  | beat _ => exact .sustain (StoreCall.Renews.sustains makes)
  | drop _ => exact StoreCall.Yields.concerns makes

/-- Only an attempt to take the lock gives an expiry to a record that has none. -/
theorem Makes.acquires {ttl : Duration} (makes : duty.Makes c (.expire c.key ttl .noExpiry)) :
    duty = operate .acquire := by
  match duty with
  | operate .acquire => rfl
  | operate .renew => exact nomatch makes
  | operate .release => exact nomatch makes
  | beat _ => exact nomatch makes
  | drop _ => exact nomatch makes

end Duty

/-! ## What the calls do to the record -/

namespace Keyspace

variable {keyspace : Keyspace} {key : String} {now : Instant} {owner : Pid} {ttl : Duration}
  {call : StoreCall} {entry : Entry}

/-- What calls about the record do to a live one. -/
theorem serve_live (concerns : call.Concerns key owner ttl)
    (live : keyspace.live? key now = some entry) :
    (keyspace.serve now call).2.entries.get? key = some entry ∨
      (keyspace.serve now call).2.entries.get? key =
          some { entry with expiresAt := some (now.add ttl) } ∧
        (entry.BelongsTo owner ∨ entry.expiresAt = none ∧ call = .expire key ttl .noExpiry) ∨
      (keyspace.serve now call).2.entries.get? key = none ∧ entry.BelongsTo owner := by
  cases concerns with
  | sustain sustains =>
      cases sustains with
      | contend contends =>
          cases contends with
          | claim => exact .inl (by simp [live])
          | inquire =>
              have reads : (StoreCall.lifetime key).Spares key := trivial
              exact .inl ((get?_serve_of_spares reads keyspace now).trans live)
          | look =>
              have reads : (StoreCall.fetch key).Spares key := trivial
              exact .inl ((get?_serve_of_spares reads keyspace now).trans live)
          | arm =>
              cases unending : entry.expiresAt with
              | none => exact .inr (.inl ⟨by simp [live, Condition.holds, unending], .inr ⟨rfl, rfl⟩⟩)
              | some expiry => exact .inl (by simp [live, Condition.holds, unending])
      | refresh =>
          by_cases own : entry.BelongsTo owner
          · exact .inr (.inl ⟨by simp [live, Entry.holds_isOwnedBy_iff.mpr own], .inl own⟩)
          · have foreign := mt Entry.holds_isOwnedBy_iff.mp own
            exact .inl (by simp [live, foreign])
  | delete =>
      by_cases own : entry.BelongsTo owner
      · have holds := Entry.holds_isOwnedBy_iff.mpr own
        exact .inr (.inr ⟨by simp [live, Option.filter, holds], own⟩)
      · have foreign := mt Entry.holds_isOwnedBy_iff.mp own
        exact .inl (by simp [live, Option.filter, foreign])

/-- Where no record is live, calls about it leave none or the caller's new one. -/
theorem serve_absent (concerns : call.Concerns key owner ttl)
    (absent : keyspace.live? key now = none) :
    (keyspace.serve now call).2.entries.get? key = none ∨
      (keyspace.serve now call).2.entries.get? key =
        some ⟨ownedBy owner, some (now.add ttl)⟩ := by
  cases concerns with
  | sustain sustains =>
      cases sustains with
      | contend contends =>
          cases contends with
          | claim => exact .inr (by simp [absent])
          | inquire =>
              have reads : (StoreCall.lifetime key).Spares key := trivial
              exact .inl ((get?_serve_of_spares reads keyspace now).trans absent)
          | look =>
              have reads : (StoreCall.fetch key).Spares key := trivial
              exact .inl ((get?_serve_of_spares reads keyspace now).trans absent)
          | arm => exact .inl (by simp [absent])
      | refresh => exact .inl (by simp [absent])
  | delete => exact .inl (by simp [absent])

end Keyspace

/-! ## How duties end -/

namespace Duty

/-- How a duty ends, with the calls made since `base`. -/
def Ended (c : Claimant) (base : History) :
    (duty : Duty) → duty.Outcome × Claimant → History → Prop
  | operate .acquire, result, later => c.Attempted base result later
  | operate .renew, result, later => c.Renewing base result later
  | operate .release, result, later => c.Released base result later
  | beat heartbeat, (_, c'), later =>
    heartbeat.running = false ∧ c' = c ∧ later = base ∨
      ∃ outcome, c.Renewing base (outcome, c') later
  | drop guard, (_, c'), later =>
    guard.pending = false ∧ c' = c ∧ later = base ∨
      ∃ released, c.Released base (released, c') later

/-- A duty makes its calls and ends so. -/
theorem program_ended (c : Claimant) (base : History) (duty : Duty) :
    (duty.program c).Keeps (LockProgram.calls (duty.Makes c)) (duty.Ended c base) base := by
  cases duty with
  | operate operation =>
      cases operation with
      | acquire => exact c.acquire_attempted base
      | renew => exact c.renew_renews base
      | release => exact c.release_yields base
  | beat heartbeat => exact heartbeat.beat_renews c base
  | drop guard => exact guard.drop_yields c base

end Duty

end Leasehold
