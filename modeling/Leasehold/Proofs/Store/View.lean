import Leasehold.Proofs.TextMap
import Leasehold.Proofs.Time.Order
import Leasehold.Store

/-!
# One record of a store

What a call to a store means for the record under a single key. A call purges
first, so it finds the live record, if there is one; each kind of call is then
described by its answer and by the record it leaves. A call that spares a key
leaves the live record under it as it is.
-/

namespace Leasehold

namespace Keyspace

/-- The record under a key as a call finds it: gone once its expiry has come. -/
def live? (keyspace : Keyspace) (key : String) (now : Instant) : Option Entry :=
  (keyspace.entries.get? key).filter fun entry => !entry.isExpired now

variable (keyspace : Keyspace) (key : String) (now : Instant)

@[simp]
theorem get?_purge : (keyspace.purge now).entries.get? key = keyspace.live? key now := by
  simp [purge, live?]

variable {keyspace key now}

theorem live?_eq_some_iff {entry : Entry} :
    keyspace.live? key now = some entry ↔
      keyspace.entries.get? key = some entry ∧ entry.isExpired now = false := by
  simp [live?, Option.filter_eq_some_iff]

theorem get?_of_live? {entry : Entry} (live : keyspace.live? key now = some entry) :
    keyspace.entries.get? key = some entry :=
  (live?_eq_some_iff.mp live).1

end Keyspace

/-- A record is live until the instant it expires at. -/
theorem Entry.isExpired_eq_false_of_lt {entry : Entry} {now expiry : Instant}
    (expires : entry.expiresAt = some expiry) (before : now < expiry) :
    entry.isExpired now = false := by
  simp only [isExpired, expires, Option.any_some, decide_eq_false_iff_not, not_le]
  exact before

namespace Keyspace

variable {keyspace : Keyspace} {key : String} {now : Instant}

/-! ## Calls about the record -/

/-- A record is created exactly where there is no live one. -/
@[simp]
theorem serve_create_answer (fields : Fields) (ttl : Duration) :
    (keyspace.serve now (.create key fields ttl)).1 = (keyspace.live? key now).isNone := by
  simp only [serve, apply, create, TextMap.contains, get?_purge]
  cases keyspace.live? key now <;> simp

/-- After a creation there is a record: the live one, or else the new one. -/
@[simp]
theorem serve_create_record (fields : Fields) (ttl : Duration) :
    (keyspace.serve now (.create key fields ttl)).2.entries.get? key =
      some ((keyspace.live? key now).getD ⟨fields, some (now.add ttl)⟩) := by
  have found := get?_purge keyspace key now
  simp only [serve, apply, create, TextMap.contains, found]
  cases live : keyspace.live? key now with
  | none => simp
  | some entry => simp [found, live]

@[simp]
theorem serve_fetch_answer :
    (keyspace.serve now (.fetch key)).1 = (keyspace.live? key now).map Entry.fields := by
  simp [serve, apply, fetch]

/-- A lifetime is told of the live record, and to the nanosecond. -/
theorem serve_lifetime_answer :
    (keyspace.serve now (.lifetime key)).1 =
      (keyspace.live? key now).elim .missing fun entry =>
        entry.expiresAt.elim .persistent fun expiry => .expires (now.elapsed expiry) := by
  simp only [serve, apply, lifetime, get?_purge]
  rcases keyspace.live? key now with _ | ⟨fields, _ | expiry⟩ <;> rfl

@[simp]
theorem serve_expire_answer (ttl : Duration) (condition : Condition) :
    (keyspace.serve now (.expire key ttl condition)).1 =
      (keyspace.live? key now).any condition.holds := by
  simp only [serve, apply, expire, get?_purge]
  cases keyspace.live? key now with
  | none => rfl
  | some entry => cases met : condition.holds entry <;> simp [met]

/-- An expiry is set where the condition holds; the fields stay. -/
@[simp]
theorem serve_expire_record (ttl : Duration) (condition : Condition) :
    (keyspace.serve now (.expire key ttl condition)).2.entries.get? key =
      (keyspace.live? key now).map fun entry =>
        if condition.holds entry then { entry with expiresAt := some (now.add ttl) } else entry := by
  have found := get?_purge keyspace key now
  simp only [serve, apply, expire, found]
  cases live : keyspace.live? key now with
  | none => simp [found, live]
  | some entry => cases met : condition.holds entry <;> simp [found, live, met]

@[simp]
theorem serve_delete_answer (condition : Condition) :
    (keyspace.serve now (.delete key condition)).1 =
      (keyspace.live? key now).any condition.holds := by
  simp only [serve, apply, delete, get?_purge]
  cases keyspace.live? key now with
  | none => rfl
  | some entry => cases met : condition.holds entry <;> simp [met]

/-- A record of which the condition holds is gone after a deletion. -/
@[simp]
theorem serve_delete_record (condition : Condition) :
    (keyspace.serve now (.delete key condition)).2.entries.get? key =
      (keyspace.live? key now).filter fun entry => !condition.holds entry := by
  have found := get?_purge keyspace key now
  simp only [serve, apply, delete, found]
  cases live : keyspace.live? key now with
  | none => simp [found, live]
  | some entry => cases met : condition.holds entry <;> simp [found, live, met, Option.filter]

end Keyspace

/-! ## Calls that spare the record -/

/-- That a call does not write the record under a key, whatever the store holds:
it reads, it is about another key, or it replaces tables to which the key does
not belong by records with other keys. -/
def StoreCall.Spares (key : String) : StoreCall → Prop
  | .create other _ _ => other ≠ key
  | .merge other _ => other ≠ key
  | .expire other _ _ => other ≠ key
  | .delete other _ => other ≠ key
  | .replace tables filter =>
    Keyspace.inTables filter key = false ∧
      ∀ record ∈ Keyspace.recordsOf (tables.filter fun table _ => filter table), record.1 ≠ key
  | .fetch _ => True
  | .lifetime _ => True
  | .keys => True
  | .dump _ => True

namespace Keyspace

theorem get?_apply_of_spares {key : String} {call : StoreCall} (spares : call.Spares key)
    (keyspace : Keyspace) (now : Instant) :
    (keyspace.apply now call).2.entries.get? key = keyspace.entries.get? key := by
  cases call with
  | create other fields ttl =>
      simp only [apply, create]
      split
      · rfl
      · simp [show other ≠ key from spares]
  | merge other fields => simp [apply, merge, show other ≠ key from spares]
  | expire other ttl condition =>
      simp only [apply, expire]
      split
      · split
        · simp [show other ≠ key from spares]
        · rfl
      · rfl
  | delete other condition =>
      simp only [apply, delete]
      split
      · simp [(show other ≠ key from spares).symm]
      · rfl
  | replace tables filter =>
      obtain ⟨outside, others⟩ := spares
      simp only [apply, replaceTables]
      rw [TextMap.get?_insertMany_of_ne]
      · cases found : keyspace.entries.get? key <;> simp [outside, found, Option.filter]
      · rintro pair member
        rcases List.mem_map.mp member with ⟨record, inTables, rfl⟩
        exact others record inTables
  | fetch other => rfl
  | lifetime other => rfl
  | keys => rfl
  | dump filter => rfl

/-- A call that spares a key leaves the live record under it. -/
theorem get?_serve_of_spares {key : String} {call : StoreCall} (spares : call.Spares key)
    (keyspace : Keyspace) (now : Instant) :
    (keyspace.serve now call).2.entries.get? key = keyspace.live? key now := by
  rw [serve, get?_apply_of_spares spares, get?_purge]

variable {keyspace : Keyspace} {key other : String} {now : Instant}

theorem get?_serve_fetch :
    (keyspace.serve now (.fetch key)).2.entries.get? other = keyspace.live? other now :=
  have reads : (StoreCall.fetch key).Spares other := trivial
  get?_serve_of_spares reads keyspace now

theorem get?_serve_lifetime :
    (keyspace.serve now (.lifetime key)).2.entries.get? other = keyspace.live? other now :=
  have reads : (StoreCall.lifetime key).Spares other := trivial
  get?_serve_of_spares reads keyspace now

end Keyspace

end Leasehold
