import Leasehold.Proofs.Lock.Lease

/-!
# Records of others

Once the record belongs to somebody else, nothing that an owner asks changes that
while the record is there: extending and deleting are checked against the owner's
text and come to nothing. Only a creation after the record has gone makes it the
owner's again.
-/

namespace Leasehold

open LockRecord

/-- That a call has created the record under a key for an owner. -/
def MadeCall.Creates (key : String) (owner : Pid) (made : MadeCall) : Prop :=
  ∃ ttl time, made = ⟨.create key (ownedBy owner) ttl, .ok true, time⟩

theorem Entry.belongsTo_congr {entry entry' : Entry} {owner : Pid}
    (same : entry.fields = entry'.fields) : entry.BelongsTo owner ↔ entry'.BelongsTo owner := by
  rw [BelongsTo, BelongsTo, same]

namespace Keyspace

/-- That the record under a key, if there is one, is somebody else's. -/
def Foreign (key : String) (owner : Pid) (keyspace : Keyspace) : Prop :=
  ∀ entry, keyspace.entries.get? key = some entry →
    ∃ other, other ≠ owner ∧ entry.BelongsTo other

variable {keyspace : Keyspace} {key : String} {now : Instant} {owner other : Pid}
  {call : StoreCall}

theorem foreign_of_live {entry : Entry} (live : keyspace.live? key now = some entry)
    (others : entry.BelongsTo other) (different : other ≠ owner) :
    keyspace.Foreign key owner := by
  intro entry' found
  obtain rfl := Option.some.inj ((get?_of_live? live).symm.trans found)
  exact ⟨other, different, others⟩

/-- The record after a call has the fields of the live record, unless the call has
created it. -/
theorem fields_after_actsFor (acts : call.ActsFor key owner) {entry : Entry}
    (found : (keyspace.serve now call).2.entries.get? key = some entry) :
    (∃ before, keyspace.live? key now = some before ∧ entry.fields = before.fields) ∨
      MadeCall.Creates key owner ⟨call, .ok (keyspace.serve now call).1, now⟩ ∧
        entry.fields = ownedBy owner := by
  cases acts with
  | claim ttl =>
      cases live : keyspace.live? key now with
      | none =>
          simp only [serve_create_record, live, Option.getD_none, Option.some.injEq] at found
          exact .inr ⟨⟨ttl, now, by rw [serve_create_answer, live]; rfl⟩, found ▸ rfl⟩
      | some before =>
          simp only [serve_create_record, live, Option.getD_some, Option.some.injEq] at found
          exact .inl ⟨before, rfl, found ▸ rfl⟩
  | refresh ttl =>
      rw [serve_expire_record] at found
      rcases Option.map_eq_some_iff.mp found with ⟨before, live, rfl⟩
      exact .inl ⟨before, live, by split <;> rfl⟩
  | arm ttl =>
      rw [serve_expire_record] at found
      rcases Option.map_eq_some_iff.mp found with ⟨before, live, rfl⟩
      exact .inl ⟨before, live, by split <;> rfl⟩
  | delete =>
      rw [serve_delete_record] at found
      exact .inl ⟨entry, (Option.filter_eq_some_iff.mp found).1, rfl⟩
  | spare spares =>
      rw [get?_serve_of_spares spares] at found
      exact .inl ⟨entry, found, rfl⟩

/-- What others ask leaves a record of others. -/
theorem Foreign.serve_of_ne (foreign : keyspace.Foreign key owner)
    (acts : call.ActsFor key other) (different : other ≠ owner) :
    (keyspace.serve now call).2.Foreign key owner := by
  intro entry found
  rcases fields_after_actsFor acts found with ⟨before, live, same⟩ | ⟨-, created⟩
  · rcases foreign before (get?_of_live? live) with ⟨another, unequal, others⟩
    exact ⟨another, unequal, (Entry.belongsTo_congr same).mpr others⟩
  · exact ⟨other, different, (Entry.belongsTo_congr created).mpr (Entry.belongsTo_ownedBy other none)⟩

theorem Foreign.serve_of_spares (foreign : keyspace.Foreign key owner)
    (spares : call.Spares key) : (keyspace.serve now call).2.Foreign key owner := by
  intro entry found
  rw [get?_serve_of_spares spares] at found
  exact foreign entry (get?_of_live? found)

/-- A renewal among the owner's calls can only be a creation. -/
theorem Foreign.renewal?_own (foreign : keyspace.Foreign key owner)
    (acts : call.ActsFor key owner) :
    MadeCall.Creates key owner ⟨call, .ok (keyspace.serve now call).1, now⟩ ∨
      MadeCall.renewal? key ⟨call, .ok (keyspace.serve now call).1, now⟩ = none := by
  cases acts with
  | claim ttl =>
      cases answer : (keyspace.serve now (.create key (ownedBy owner) ttl)).1 with
      | true => exact .inl ⟨ttl, now, rfl⟩
      | false => exact .inr rfl
  | refresh ttl =>
      cases answer : (keyspace.serve now (.expire key ttl (isOwnedBy owner))).1 with
      | true =>
          rw [serve_expire_answer] at answer
          rcases (Option.any_eq_true _ _).mp answer with ⟨entry, live, holds⟩
          rcases foreign entry (get?_of_live? live) with ⟨other, different, others⟩
          exact absurd (Entry.belongsTo_unique others (Entry.holds_isOwnedBy_iff.mp holds)) different
      | false => exact .inr rfl
  | arm ttl => exact .inr rfl
  | delete => exact .inr rfl
  | spare spares => exact .inr (MadeCall.renewal?_of_spares spares)

/-- What the owner itself asks leaves a record of others too, unless it creates the
record. -/
theorem Foreign.serve_own (foreign : keyspace.Foreign key owner) (acts : call.ActsFor key owner) :
    MadeCall.Creates key owner ⟨call, .ok (keyspace.serve now call).1, now⟩ ∨
      (keyspace.serve now call).2.Foreign key owner := by
  by_cases creates : MadeCall.Creates key owner ⟨call, .ok (keyspace.serve now call).1, now⟩
  · exact .inl creates
  · apply Or.inr
    intro entry found
    rcases fields_after_actsFor acts found with ⟨before, live, same⟩ | ⟨created, -⟩
    · rcases foreign before (get?_of_live? live) with ⟨other, different, others⟩
      exact ⟨other, different, (Entry.belongsTo_congr same).mpr others⟩
    · exact absurd created creates

end Keyspace

end Leasehold
