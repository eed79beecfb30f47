import Leasehold.Proofs.Store.View
import Leasehold.Proofs.Time.Sum

/-!
# Expiries to the nanosecond

Two operations put an expiry on a record, and both put it exactly one lifetime ahead of the
clock, or at the last instant if that comes first. Until then the record is kept by every
purge and has to live exactly what is left up to its expiry, whichever way the clock was
set; from then on every purge removes it, and where none comes it has no time left.
-/

namespace Leasehold.Keyspace

/-! ## Putting an expiry -/

/-- That an operation has put an expiry on the record under a key: it has created the
record, or its condition held of the one that was there. -/
inductive Arms (keyspace : Keyspace) (key : String) (ttl : Duration) (now : Instant) :
    Keyspace → Prop
  | create {fields : Fields} {after : Keyspace}
      (created : keyspace.create key fields ttl now = (true, after)) :
      Arms keyspace key ttl now after
  | expire {condition : Condition} {after : Keyspace}
      (extended : keyspace.expire key ttl condition now = (true, after)) :
      Arms keyspace key ttl now after

variable {keyspace after : Keyspace} {key : String} {ttl : Duration} {now t expiry : Instant}
  {entry : Entry}

/-- The expiry is one lifetime ahead. -/
theorem Arms.get? (arms : keyspace.Arms key ttl now after) :
    ∃ fields, after.entries.get? key = some ⟨fields, some (now.add ttl)⟩ := by
  cases arms with
  | @create fields _ created =>
      simp only [Keyspace.create] at created
      split at created
      · cases created
      · cases created
        exact ⟨fields, by simp⟩
  | expire extended =>
      simp only [Keyspace.expire] at extended
      split at extended
      next entry found =>
        split at extended
        · cases extended
          exact ⟨entry.fields, by simp⟩
        · cases extended
      next => cases extended

/-! ## Before the expiry and after -/

/-- That a record stays where it is at an instant and has so long to live. -/
structure Stays (keyspace : Keyspace) (key : String) (entry : Entry) (remaining : Duration)
    (t : Instant) : Prop where
  kept : (keyspace.purge t).entries.get? key = some entry
  remains : (keyspace.purge t).lifetime key t = .expires remaining
  unpurged : keyspace.lifetime key t = .expires remaining

/-- That a record is gone at an instant, or has no time left where it has not been purged. -/
structure Ends (keyspace : Keyspace) (key : String) (t : Instant) : Prop where
  purged : (keyspace.purge t).entries.get? key = none
  missing : (keyspace.purge t).lifetime key t = .missing
  unpurged : keyspace.lifetime key t = .expires .zero

theorem lifetime_of_expires (found : keyspace.entries.get? key = some entry)
    (expires : entry.expiresAt = some expiry) (t : Instant) :
    keyspace.lifetime key t = .expires (t.elapsed expiry) := by
  obtain ⟨fields, expiresAt⟩ := entry
  obtain rfl : expiresAt = some expiry := expires
  simp [lifetime, found]

/-- A purge before the expiry keeps the record. -/
theorem stays_of_lt (found : keyspace.entries.get? key = some entry)
    (expires : entry.expiresAt = some expiry) (early : t < expiry) :
    keyspace.Stays key entry (t.elapsed expiry) t := by
  have kept : (keyspace.purge t).entries.get? key = some entry := by
    rw [get?_purge]
    exact live?_eq_some_iff.mpr ⟨found, Entry.isExpired_eq_false_of_lt expires early⟩
  exact ⟨kept, lifetime_of_expires kept expires t, lifetime_of_expires found expires t⟩

/-- A purge at the expiry removes the record, and so does any later one. -/
theorem ends_of_le (found : keyspace.entries.get? key = some entry)
    (expires : entry.expiresAt = some expiry) (plain : expiry.isLeap = false)
    (plain' : t.isLeap = false) (late : expiry ≤ t) : keyspace.Ends key t := by
  have purged : (keyspace.purge t).entries.get? key = none := by
    simp [live?, found, Option.filter, Entry.isExpired, expires, late]
  have spent : t.elapsed expiry = .zero := by
    have passed := (Instant.le_iff_sinceEpoch plain plain').mp late
    apply congrArg Duration.mk
    have exact := Instant.nanos_elapsed plain t
    rw [Int.toNat_of_nonpos (by omega)] at exact
    exact exact
  refine ⟨purged, by simp only [lifetime, purged], ?_⟩
  rw [lifetime_of_expires found expires, spent]

/-! ## A lifetime from beginning to end -/

/-- What becomes of a record that is to live so long from now on: its expiry is that far
ahead or the last instant, and the record stays until then, with exactly what is left to
live, and no longer. -/
structure LivesFor (keyspace : Keyspace) (key : String) (now : Instant) (ttl : Duration)
    (entry : Entry) (expiry : Instant) : Prop where
  stands : keyspace.entries.get? key = some entry
  expires : entry.expiresAt = some expiry
  plain : expiry.isLeap = false
  exact : expiry.sinceEpoch = min (now.sinceEpoch + ttl.nanos) Instant.max.sinceEpoch
  /-- A clock that was set back shows an instant before the expiry too. -/
  ahead : now ≤ expiry
  stays : ∀ t, t.isLeap = false → t < expiry → ∃ remaining,
    keyspace.Stays key entry remaining t ∧
      (remaining.nanos : Int) = expiry.sinceEpoch - t.sinceEpoch ∧ 0 < remaining.nanos ∧
      (now ≤ t → remaining.nanos ≤ ttl.nanos)
  ends : ∀ t, t.isLeap = false → expiry ≤ t → keyspace.Ends key t

/-- Whoever puts an expiry on a record gives it exactly the lifetime that was asked for, as
far as the clock goes; and a longer lifetime or a later start never makes it expire sooner. -/
theorem lifetimes_exact :
    (∀ {keyspace after : Keyspace} {key : String} {ttl : Duration} {now : Instant},
      keyspace.Arms key ttl now after → now.isLeap = false →
        ∃ entry expiry, after.LivesFor key now ttl entry expiry) ∧
    ∀ {keyspace keyspace' after after' : Keyspace} {key key' : String} {ttl ttl' : Duration}
      {now now' : Instant}, keyspace.Arms key ttl now after → keyspace'.Arms key' ttl' now' after' →
      now.isLeap = false → now'.isLeap = false → now ≤ now' → ttl.nanos ≤ ttl'.nanos →
        ∃ entry entry' expiry expiry', after.entries.get? key = some entry ∧
          after'.entries.get? key' = some entry' ∧ entry.expiresAt = some expiry ∧
          entry'.expiresAt = some expiry' ∧ expiry ≤ expiry' := by
  constructor
  · intro keyspace after key ttl now arms plain
    rcases arms.get? with ⟨fields, found⟩
    have plain' := Instant.isLeap_add now ttl
    have exact := Instant.sinceEpoch_add now ttl
    refine ⟨_, _, found, rfl, plain', exact, Instant.le_add plain ttl,
      fun t plainAt early => ?_, fun t plainAt late => ends_of_le found rfl plain' plainAt late⟩
    have ahead := (Instant.lt_iff_sinceEpoch plainAt plain').mp early
    have remains := Instant.nanos_elapsed plain' t
    refine ⟨_, stays_of_lt found rfl early, by omega, by omega, fun started => ?_⟩
    have since := (Instant.le_iff_sinceEpoch plain plainAt).mp started
    omega
  · intro keyspace keyspace' after after' key key' ttl ttl' now now' arms arms' plain plain'
      starts lasts
    rcases arms.get? with ⟨fields, found⟩
    rcases arms'.get? with ⟨fields', found'⟩
    exact ⟨_, _, _, _, found, found', rfl, rfl, Instant.add_le_add plain plain' starts lasts⟩

/-- A nanosecond before the epoch a record is created that has two nanoseconds to live, and
then it is given all that can be asked for. -/
theorem lifetimes_exact_of_brief :
    let now := Instant.ofSinceEpoch (-1)
    let brief : Duration := ⟨2⟩
    let longest := Duration.ofParts (2 ^ 64 - 1) 999999999
    let created := empty.create "a" .empty brief now
    let extended := created.2.expire "a" longest .always now
    (∃ entry expiry, created.2.LivesFor "a" now brief entry expiry ∧
      expiry.sinceEpoch = 1) ∧
    (∃ entry expiry, extended.2.LivesFor "a" now longest entry expiry ∧
      expiry.sinceEpoch = Instant.max.sinceEpoch) ∧
    ∃ entry entry' expiry expiry', created.2.entries.get? "a" = some entry ∧
      extended.2.entries.get? "a" = some entry' ∧ entry.expiresAt = some expiry ∧
      entry'.expiresAt = some expiry' ∧ expiry ≤ expiry' := by
  intro now brief longest created extended
  have plain : now.isLeap = false := by decide
  have arms : empty.Arms "a" brief now created.2 := .create rfl
  have lengthens : created.2.expire "a" longest .always now = (true, extended.2) := rfl
  have arms' := Arms.expire lengthens
  obtain ⟨entry, expiry, lives⟩ := lifetimes_exact.1 arms plain
  obtain ⟨entry', expiry', lives'⟩ := lifetimes_exact.1 arms' plain
  refine ⟨⟨entry, expiry, lives, lives.exact.trans (by decide)⟩,
    ⟨entry', expiry', lives', lives'.exact.trans (by decide)⟩,
    lifetimes_exact.2 arms arms' plain plain le_rfl (by decide)⟩

end Leasehold.Keyspace
