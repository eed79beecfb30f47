import Leasehold.Proofs.Store.View

/-!
# Records that lapse

Where nobody writes a record, the only thing that happens to it is that some call
finds it expired and purges it. A record that lapses at one of some instants and is
otherwise as it was is seen alike at every instant that is not before these.
-/

namespace Leasehold

/-- An expired record stays so. -/
theorem Entry.isExpired_of_le {entry : Entry} {time now : Instant}
    (expired : entry.isExpired time = true) (later : time ≤ now) : entry.isExpired now = true := by
  obtain ⟨fields, expiresAt⟩ := entry
  cases expiresAt with
  | none => contradiction
  | some expiry =>
      simp only [isExpired, Option.any_some, decide_eq_true_eq] at expired ⊢
      exact le_trans expired later

namespace Keyspace

/-- That the record under a key is as it was, or is gone because it was expired at one of
some instants. -/
def Lapses (key : String) (times : List Instant) (before after : Keyspace) : Prop :=
  after.entries.get? key = before.entries.get? key ∨
    after.entries.get? key = none ∧ ∃ entry, before.entries.get? key = some entry ∧
      ∃ time ∈ times, entry.isExpired time = true

variable {key : String} {times times' : List Instant} {before middle after : Keyspace}
  {now : Instant}

theorem Lapses.refl (key : String) (times : List Instant) (keyspace : Keyspace) :
    Lapses key times keyspace keyspace :=
  .inl rfl

theorem Lapses.mono (more : ∀ time ∈ times, time ∈ times')
    (lapses : Lapses key times before after) :
    Lapses key times' before after := by
  rcases lapses with same | ⟨gone, entry, found, time, member, expired⟩
  · exact .inl same
  · exact .inr ⟨gone, entry, found, time, more time member, expired⟩

theorem Lapses.trans (first : Lapses key times before middle)
    (second : Lapses key times middle after) : Lapses key times before after := by
  rcases first with same | ⟨gone, lapsed⟩
  · rcases second with same' | ⟨gone', entry, found, lapsed⟩
    · exact .inl (same'.trans same)
    · exact .inr ⟨gone', entry, same ▸ found, lapsed⟩
  · rcases second with same' | ⟨_, entry, found, _⟩
    · exact .inr ⟨same'.trans gone, lapsed⟩
    · rw [gone] at found
      contradiction

/-- A record that may have lapsed is seen as before wherever it is seen to be expired. -/
theorem Lapses.live?_of_expired (lapses : Lapses key times before after)
    (stays : ∀ entry, before.entries.get? key = some entry →
      ∀ time ∈ times, entry.isExpired time = true → entry.isExpired now = true) :
    after.live? key now = before.live? key now := by
  rcases lapses with same | ⟨gone, entry, found, time, member, expired⟩
  · rw [Keyspace.live?, Keyspace.live?, same]
  · have expired' := stays entry found time member expired
    simp [Keyspace.live?, gone, found, Option.filter, expired']

/-- A record that may have lapsed is seen as before from then on. -/
theorem Lapses.live? (lapses : Lapses key times before after) (later : ∀ time ∈ times, time ≤ now) :
    after.live? key now = before.live? key now :=
  lapses.live?_of_expired fun _ _ time member expired =>
    Entry.isExpired_of_le expired (later time member)

/-- A record that does not expire does not lapse. -/
theorem Lapses.get?_of_persistent (lapses : Lapses key times before after)
    (persistent : ∀ entry, before.entries.get? key = some entry → entry.expiresAt = none) :
    after.entries.get? key = before.entries.get? key := by
  rcases lapses with same | ⟨_, entry, found, time, _, expired⟩
  · exact same
  · simp [Entry.isExpired, persistent entry found] at expired

/-- A record that is left as it was seen at some instant has lapsed then at most. -/
theorem lapses_of_live (left : after.entries.get? key = before.live? key now) :
    Lapses key [now] before after := by
  cases found : before.entries.get? key with
  | none => exact .inl (by rw [left, live?, found]; rfl)
  | some entry =>
      cases expired : entry.isExpired now with
      | false => exact .inl (by simp [left, live?, found, Option.filter, expired])
      | true =>
          refine .inr ⟨?_, entry, found, now, List.mem_singleton_self now, expired⟩
          simp [left, live?, found, Option.filter, expired]

/-- A record that is left as it was seen is seen so again. -/
theorem live?_of_left (left : after.entries.get? key = before.live? key now) :
    after.live? key now = before.live? key now :=
  (lapses_of_live left).live? fun _ member => le_of_eq (List.mem_singleton.mp member)

theorem live?_serve_fetch {keyspace : Keyspace} {other : String} :
    (keyspace.serve now (.fetch key)).2.live? other now = keyspace.live? other now :=
  live?_of_left get?_serve_fetch

theorem live?_serve_lifetime {keyspace : Keyspace} {other : String} :
    (keyspace.serve now (.lifetime key)).2.live? other now = keyspace.live? other now :=
  live?_of_left get?_serve_lifetime

/-- A call that spares a key lets the record under it lapse at most. -/
theorem lapses_of_spares {call : StoreCall} (spares : call.Spares key) (keyspace : Keyspace)
    (now : Instant) : Lapses key [now] keyspace (keyspace.serve now call).2 :=
  lapses_of_live (get?_serve_of_spares spares keyspace now)

end Keyspace

end Leasehold
