import Leasehold.Proofs.Lock.Company

/-!
# What an attempt comes to

An attempt to take the lock is up to three calls, and each may find another record: gone,
new, given an expiry or deprived of it. What its claim finds decides whether it takes the
lock, what the two calls after that find decides whether it gives an expiry to a record that
has none, and in all other ways it only learns of an owner.
-/

namespace Leasehold

open LockRecord

namespace Claimant

/-- That an attempt finds a record that never expires and gives it an expiry: the claim
finds a live record, the next call none that expires, and the last one a live record
without expiry. -/
def FindsStale (c : Claimant) (claim : Visit) (rest : List Visit) : Prop :=
  claim.found? c.key ≠ none ∧
    Visited rest (.lifetime c.key)
      (fun visit => ∀ entry ∈ visit.found? c.key, entry.expiresAt = none) ∧
    Visited rest (.expire c.key c.ttl .noExpiry)
      (fun visit => ∃ fields, visit.found? c.key = some ⟨fields, none⟩)

/-- That an attempt learns of an owner: it reads the record and finds that owner named, or
nobody where the record is gone or names nobody; or else it was to give an expiry to a
record without expiry, which there is no more, and learns of nobody. -/
def Learns (c : Claimant) (rest : List Visit) (owner : Option Pid) : Prop :=
  Visited rest (.fetch c.key) (fun visit => visit.owner? c.key = owner) ∨
    owner = none ∧ Visited rest (.expire c.key c.ttl .noExpiry)
      (fun visit => ¬∃ fields, visit.found? c.key = some ⟨fields, none⟩)

/-- What an attempt comes to whose claim is the first of its calls and the others are the
rest, the last one first. -/
structure Attempt (c : Claimant) (result : Except Failure Unit × Claimant) (claim : Visit)
    (rest : List Visit) : Prop where
  claims : claim.call = .create c.key (ownedBy c.pid) c.ttl
  few : rest.length ≤ 2
  /-- The lock is taken exactly where the claim finds no live record. -/
  acquired_iff :
    result = (.ok (), { c with standing := .heldBySelf }) ↔ claim.found? c.key = none
  creates : claim.found? c.key = none →
    claim.leaves? c.key = some ⟨ownedBy c.pid, some (claim.time.add c.ttl)⟩
  /-- The lock is stale exactly where the record is found so. -/
  stale_iff :
    result = (.error .staleLock, { c with standing := .stale }) ↔ c.FindsStale claim rest
  arms : c.FindsStale claim rest → Visited rest (.expire c.key c.ttl .noExpiry)
    (fun visit => ∃ fields, visit.found? c.key = some ⟨fields, none⟩ ∧
      visit.leaves? c.key = some ⟨fields, some (visit.time.add c.ttl)⟩)
  /-- Otherwise the lock is unavailable, and the record is left to whoever has it. -/
  unavailable : claim.found? c.key ≠ none → ¬c.FindsStale claim rest →
    (∃ owner, c.Learns rest owner ∧ result =
      (.error (.lockUnavailable owner), { c with standing := .heldByOther owner })) ∧
      ∀ visit ∈ rest ++ [claim], visit.IsIdle c.key

section

variable {c : Claimant} {claim inquiry last : Visit} {first second third : Instant}
  {lifetime : Lifetime}

theorem attempt_of_created
    (claimed : claim.made = ⟨.create c.key (ownedBy c.pid) c.ttl, .ok true, first⟩) :
    c.Attempt (.ok (), { c with standing := .heldBySelf }) claim [] := by
  obtain ⟨claims, free, leaves⟩ := Visit.created_of_made claimed
  constructor
  case claims => exact claims
  case few => simp
  case acquired_iff => simp [free]
  case creates => exact fun _ => leaves
  case stale_iff => simp [FindsStale]
  case arms => simp [FindsStale]
  case unavailable => exact fun occupied => absurd free occupied

theorem attempt_of_taken {fields : Option Fields}
    (claimed : claim.made = ⟨.create c.key (ownedBy c.pid) c.ttl, .ok false, first⟩)
    (inquired : inquiry.made = ⟨.lifetime c.key, .ok lifetime, second⟩)
    (looked : last.made = ⟨.fetch c.key, .ok fields, third⟩) :
    c.Attempt (.error (.lockUnavailable (fields.bind ownerOf?)),
      { c with standing := .heldByOther (fields.bind ownerOf?) }) claim [last, inquiry] := by
  obtain ⟨claims, ⟨entry, occupied⟩, claimIdle⟩ := Visit.refused_of_made claimed
  obtain ⟨inquires, -, inquiryIdle⟩ := Visit.inquired_of_made inquired
  obtain ⟨looks, reads, -, lastIdle⟩ := Visit.looked_of_made looked
  have unarmed : ¬c.FindsStale claim [last, inquiry] := by
    simp [FindsStale, looks, inquires]
  constructor
  case claims => exact claims
  case few => simp
  case acquired_iff => simp [occupied]
  case creates => simp [occupied]
  case stale_iff => simp [unarmed]
  case arms => exact fun stale => absurd stale unarmed
  case unavailable =>
    intro _ _
    refine ⟨⟨_, .inl ?_, rfl⟩, ?_⟩
    · simp [looks, reads]
    · simp [claimIdle, inquiryIdle, lastIdle]

theorem attempt_of_armed (lasts : lifetime.hasExpiry = false)
    (claimed : claim.made = ⟨.create c.key (ownedBy c.pid) c.ttl, .ok false, first⟩)
    (inquired : inquiry.made = ⟨.lifetime c.key, .ok lifetime, second⟩)
    (armed : last.made = ⟨.expire c.key c.ttl .noExpiry, .ok true, third⟩) :
    c.Attempt (.error .staleLock, { c with standing := .stale }) claim [last, inquiry] := by
  obtain ⟨claims, ⟨entry, occupied⟩, -⟩ := Visit.refused_of_made claimed
  obtain ⟨inquires, ends, -⟩ := Visit.inquired_of_made inquired
  obtain ⟨arms, ⟨fields, expiry⟩, found, lasting, leaves⟩ := Visit.extended_of_made armed
  obtain rfl : expiry = none := by simpa [Condition.holds] using lasting
  have stale : c.FindsStale claim [last, inquiry] := by
    refine ⟨by simp [occupied], ?_, ?_⟩
    · exact visited_cons.mpr (.inr (visited_cons.mpr (.inl ⟨inquires, ends.mp lasts⟩)))
    · exact visited_cons.mpr (.inl ⟨arms, fields, found⟩)
  constructor
  case claims => exact claims
  case few => simp
  case acquired_iff => simp [occupied]
  case creates => simp [occupied]
  case stale_iff => simp [stale]
  case arms => simp [arms, found, leaves]
  case unavailable => exact fun _ unarmed => absurd stale unarmed

theorem attempt_of_changed
    (claimed : claim.made = ⟨.create c.key (ownedBy c.pid) c.ttl, .ok false, first⟩)
    (inquired : inquiry.made = ⟨.lifetime c.key, .ok lifetime, second⟩)
    (unarmed : last.made = ⟨.expire c.key c.ttl .noExpiry, .ok false, third⟩) :
    c.Attempt (.error (.lockUnavailable none), { c with standing := .heldByOther none })
      claim [last, inquiry] := by
  obtain ⟨claims, ⟨entry, occupied⟩, claimIdle⟩ := Visit.refused_of_made claimed
  obtain ⟨inquires, -, inquiryIdle⟩ := Visit.inquired_of_made inquired
  obtain ⟨arms, ends, lastIdle⟩ := Visit.unextended_of_made unarmed
  have expiring : ¬∃ fields, last.found? c.key = some ⟨fields, none⟩ := by
    rintro ⟨fields, found⟩
    simpa [Condition.holds] using ends _ found
  have fresh : ¬c.FindsStale claim [last, inquiry] := by
    rintro ⟨-, -, visited⟩
    simp only [visited_cons, visited_nil, inquires, reduceCtorEq, false_and, or_false] at visited
    exact expiring visited.2
  constructor
  case claims => exact claims
  case few => simp
  case acquired_iff => simp [occupied]
  case creates => simp [occupied]
  case stale_iff => simp [fresh]
  case arms => exact fun stale => absurd stale fresh
  case unavailable =>
    intro _ _
    refine ⟨⟨none, .inr ⟨rfl, ?_⟩, rfl⟩, ?_⟩
    · exact visited_cons.mpr (.inl ⟨arms, expiring⟩)
    · simp [claimIdle, inquiryIdle, lastIdle]

end

/-- Whatever others do between its calls, an attempt of a claimant that does not hold the
lock makes at most three calls; it takes the lock exactly where its claim finds no live
record, which is then its own; it finds the lock stale exactly where it gives an expiry to
a record without one; and otherwise it learns of an owner and leaves the record alone. -/
theorem acquire_in_company (c : Claimant) (without : c.standing ≠ .heldBySelf) (others : Company)
    (keyspace : Keyspace) :
    let ran := c.acquire.runAmid others keyspace
    ∃ claim rest, ran.2 = rest ++ [claim] ∧ c.Attempt ran.1 claim rest := by
  intro ran
  obtain ⟨attempted, unfailing⟩ :=
    LockProgram.ends_runAmid (c.acquire_attempted []) others keyspace
  change c.Attempted [] ran.1 (ran.2.map Visit.made) at attempted
  change ∀ visit ∈ ran.2, visit.fault? = none at unfailing
  obtain ⟨result, visits⟩ := ran
  dsimp only at attempted unfailing ⊢
  generalize history : visits.map Visit.made = calls at attempted
  cases attempted with
  | held held => exact absurd held without
  | created first =>
      obtain ⟨claim, rfl, claimed⟩ := List.map_eq_singleton_iff.mp history
      exact ⟨claim, [], rfl, attempt_of_created claimed⟩
  | taken expires fields first second third =>
      obtain ⟨claim, inquiry, last, rfl, claimed, inquired, looked⟩ := Visit.exists_three history
      exact ⟨claim, [last, inquiry], rfl, attempt_of_taken claimed inquired looked⟩
  | armed lasts first second third =>
      obtain ⟨claim, inquiry, last, rfl, claimed, inquired, armed⟩ := Visit.exists_three history
      exact ⟨claim, [last, inquiry], rfl, attempt_of_armed lasts claimed inquired armed⟩
  | changed lasts first second third =>
      obtain ⟨claim, inquiry, last, rfl, claimed, inquired, unarmed⟩ := Visit.exists_three history
      exact ⟨claim, [last, inquiry], rfl, attempt_of_changed claimed inquired unarmed⟩
  | failed without call failure time quiet =>
      obtain ⟨last, _, rfl, failed, -⟩ := List.map_eq_cons_iff.mp history
      obtain ⟨_, _, rfl, -⟩ := Visit.faulted_of_made failed
      exact absurd (unfailing _ List.mem_cons_self) (by simp)

/-- A contender that does not have the lock. -/
def newcomer : Claimant :=
  ⟨"lock", 8, .ofSeconds 10, .free⟩

/-- A store with a lock that never expires. -/
def lasting : Keyspace :=
  ⟨TextMap.empty.insert "lock" ⟨ownedBy 3, none⟩, false⟩

/-- Another contender, which is quicker to give the lock an expiry: it does so just before
the third call. -/
def quicker : Company
  | [_, _], keyspace =>
    ((keyspace.serve default (.expire "lock" (.ofSeconds 10) .noExpiry)).2, default)
  | _, keyspace => (keyspace, default)

/-- The newcomer finds the lock without expiry, but comes too late to give it one. -/
theorem acquire_in_company_of_quicker :
    let ran := newcomer.acquire.runAmid quicker lasting
    ran.1 = (.error (.lockUnavailable none), { newcomer with standing := .heldByOther none }) ∧
      ran.2.length = 3 ∧
      ∃ claim rest, ran.2 = rest ++ [claim] ∧ newcomer.Attempt ran.1 claim rest :=
  ⟨rfl, rfl, newcomer.acquire_in_company (by decide) quicker lasting⟩

end Claimant

end Leasehold
