import Leasehold.Proofs.Lock.Company
import Leasehold.Proofs.Lock.Operation

/-!
# What a renewal comes to

A renewal of a lock that is held is up to four calls. It looks first; where it sees its own
record it extends that, and where there is none, or none of its own any more, it makes the
record anew. In all other ways the lock is lost, and the record is left to whoever has it.
So a renewal is reported exactly where one of its own calls has put the new expiry on a
record of its own.
-/

namespace Leasehold

open LockRecord

namespace Claimant

variable (c : Claimant)

/-- The call that extends the record of a claimant. -/
def refreshCall : StoreCall :=
  .expire c.key c.ttl (isOwnedBy c.pid)

/-- The call that makes the record of a claimant. -/
def claimCall : StoreCall :=
  .create c.key (ownedBy c.pid) c.ttl

/-- That a call finds a live record that is exactly a claimant's own. -/
def FindsOwn (visit : Visit) : Prop :=
  ∃ entry, visit.found? c.key = some entry ∧ entry.BelongsTo c.pid

/-- That a call has put the expiry which is one lifetime ahead of it on a record of a
claimant's own. -/
def Puts (visit : Visit) : Prop :=
  visit.made.renewal? c.key = some (visit.time.add c.ttl) ∧
    ∃ fields, visit.leaves? c.key = some ⟨fields, some (visit.time.add c.ttl)⟩ ∧
      (⟨fields, some (visit.time.add c.ttl)⟩ : Entry).BelongsTo c.pid

/-- What a renewal comes to whose look is the first of its calls and the others are the
rest, the last one first. -/
structure Upkeep (result : Except Failure Renewal × Claimant) (look : Visit)
    (rest : List Visit) : Prop where
  looks : look.call = .fetch c.key
  few : rest.length ≤ 3
  /-- The record is extended exactly where it is seen to be the own one and still is when
  it is to be extended. -/
  extended_iff : result = (.ok .extended, c) ↔
    look.owner? c.key = some c.pid ∧ Visited rest c.refreshCall c.FindsOwn
  refreshes : Visited rest c.refreshCall c.FindsOwn →
    Visited rest c.refreshCall fun visit => ∃ entry, visit.found? c.key = some entry ∧
      visit.leaves? c.key = some { entry with expiresAt := some (visit.time.add c.ttl) }
  /-- The record is to be made anew exactly where none is seen or none of the own is left
  to be extended. -/
  claims_iff : (∃ visit ∈ rest, visit.call = c.claimCall) ↔
    look.found? c.key = none ∨ Visited rest c.refreshCall fun visit => ¬c.FindsOwn visit
  /-- The record is made anew exactly where there is none when it is to be. -/
  reacquired_iff : result = (.ok .reacquired, c) ↔
    Visited rest c.claimCall fun visit => visit.found? c.key = none
  recreates : (Visited rest c.claimCall fun visit => visit.found? c.key = none) →
    Visited rest c.claimCall fun visit =>
      visit.leaves? c.key = some ⟨ownedBy c.pid, some (visit.time.add c.ttl)⟩
  /-- Otherwise the lock is lost to the owner that was read last. -/
  lost : result ≠ (.ok .extended, c) → result ≠ (.ok .reacquired, c) →
    (∃ last ∈ (rest ++ [look]).head?, last.call = .fetch c.key ∧
      result = (.ok (.lost (last.owner? c.key)),
        { c with standing := .heldByOther (last.owner? c.key) })) ∧
      ∀ visit ∈ rest ++ [look], visit.IsIdle c.key

/-- The calls of a renewal up to where the record is to be made anew. -/
structure FoundLapsed (look : Visit) (rest : List Visit) : Prop where
  looks : look.call = .fetch c.key
  few : rest.length ≤ 1
  refreshes : ∀ visit ∈ rest, visit.call = c.refreshCall ∧ ¬c.FindsOwn visit
  lapsed : look.found? c.key = none ∨ Visited rest c.refreshCall fun visit => ¬c.FindsOwn visit
  idle : ∀ visit ∈ rest ++ [look], visit.IsIdle c.key

@[simp]
theorem claimCall_ne_refreshCall : c.claimCall ≠ c.refreshCall :=
  nofun

@[simp]
theorem refreshCall_ne_claimCall : c.refreshCall ≠ c.claimCall :=
  nofun

@[simp]
theorem fetch_ne_claimCall {key : String} : .fetch key ≠ c.claimCall :=
  nofun

@[simp]
theorem fetch_ne_refreshCall {key : String} : .fetch key ≠ c.refreshCall :=
  nofun

variable {c} {look last claim : Visit} {rest visits : List Visit} {first second : Instant}

theorem refreshed_of_made (made : last.made = ⟨c.refreshCall, .ok true, second⟩) :
    last.call = c.refreshCall ∧ c.FindsOwn last ∧ ∃ entry, last.found? c.key = some entry ∧
      last.leaves? c.key = some { entry with expiresAt := some (last.time.add c.ttl) } := by
  obtain ⟨refreshes, entry, found, holds, leaves⟩ := Visit.extended_of_made made
  exact ⟨refreshes, ⟨entry, found, Entry.holds_isOwnedBy_iff.mp holds⟩, entry, found, leaves⟩

theorem unrefreshed_of_made (made : last.made = ⟨c.refreshCall, .ok false, second⟩) :
    last.call = c.refreshCall ∧ ¬c.FindsOwn last ∧ last.IsIdle c.key := by
  obtain ⟨refreshes, fails, idle⟩ := Visit.unextended_of_made made
  refine ⟨refreshes, ?_, idle⟩
  rintro ⟨entry, found, own⟩
  have held := Entry.holds_isOwnedBy_iff.mpr own
  rw [fails entry found] at held
  contradiction

/-- A record that has lapsed is found so by the calls that are made until then. -/
theorem Lapsed.found (lapsed : c.Lapsed [] (visits.map Visit.made)) :
    ∃ look rest, visits = rest ++ [look] ∧ c.FoundLapsed look rest := by
  generalize history : visits.map Visit.made = calls at lapsed
  cases lapsed with
  | missing first =>
      obtain ⟨look, rfl, looked⟩ := List.map_eq_singleton_iff.mp history
      obtain ⟨looks, -, missing, idle⟩ := Visit.looked_of_made looked
      refine ⟨look, [], rfl, looks, by simp, by simp, .inl (missing.mp rfl), ?_⟩
      simpa using idle
  | replaced own first second =>
      obtain ⟨look, refresh, rfl, looked, unrefreshed⟩ := Visit.exists_two history
      obtain ⟨looks, -, -, idle⟩ := Visit.looked_of_made looked
      obtain ⟨refreshes, others, refreshIdle⟩ := unrefreshed_of_made unrefreshed
      refine ⟨look, [refresh], rfl, looks, by simp, ?_, .inr ?_, ?_⟩
      · simpa using ⟨refreshes, others⟩
      · exact visited_cons.mpr (.inl ⟨refreshes, others⟩)
      · simp [idle, refreshIdle]

theorem FoundLapsed.not_visited_claim (lapsed : c.FoundLapsed look rest) {meets : Visit → Prop} :
    ¬Visited rest c.claimCall meets := by
  rintro ⟨visit, member, claims, -⟩
  have refreshes := (lapsed.refreshes visit member).1
  rw [claims] at refreshes
  contradiction

theorem FoundLapsed.not_visited_own (lapsed : c.FoundLapsed look rest) :
    ¬Visited rest c.refreshCall c.FindsOwn := by
  rintro ⟨visit, member, -, own⟩
  exact (lapsed.refreshes visit member).2 own

/-! ## The ways of a renewal -/

theorem upkeep_of_extended {fields : Fields} (own : ownerOf? fields = some c.pid)
    (looked : look.made = ⟨.fetch c.key, .ok (some fields), first⟩)
    (refreshed : last.made = ⟨c.refreshCall, .ok true, second⟩) :
    c.Upkeep (.ok .extended, c) look [last] := by
  obtain ⟨looks, owner, missing, -⟩ := Visit.looked_of_made looked
  obtain ⟨refreshes, finds, leaves⟩ := refreshed_of_made refreshed
  have refreshed : Visited [last] c.refreshCall c.FindsOwn :=
    visited_cons.mpr (.inl ⟨refreshes, finds⟩)
  have found : look.found? c.key ≠ none := fun none => nomatch missing.mpr none
  constructor
  case looks => exact looks
  case few => simp
  case extended_iff => simp [refreshed, owner, own]
  case refreshes => exact fun _ => visited_cons.mpr (.inl ⟨refreshes, leaves⟩)
  case claims_iff => simp [refreshes, finds, found, refreshCall, claimCall]
  case reacquired_iff => simp [refreshes, refreshCall, claimCall]
  case recreates => simp [refreshes, refreshCall, claimCall]
  case lost => exact fun unextended => absurd rfl unextended

theorem upkeep_of_foreign {fields : Fields}
    (looked : look.made = ⟨.fetch c.key, .ok (some fields), first⟩) :
    c.Upkeep (.ok (.lost (ownerOf? fields)), { c with standing := .heldByOther (ownerOf? fields) })
      look [] := by
  obtain ⟨looks, owner, missing, idle⟩ := Visit.looked_of_made looked
  have found : look.found? c.key ≠ none := fun none => nomatch missing.mpr none
  constructor
  case looks => exact looks
  case few => simp
  case extended_iff => simp
  case refreshes => simp
  case claims_iff => simp [found]
  case reacquired_iff => simp
  case recreates => simp
  case lost => simp [looks, owner, idle]

theorem upkeep_of_reacquired (lapsed : c.FoundLapsed look rest)
    (claimed : claim.made = ⟨c.claimCall, .ok true, second⟩) :
    c.Upkeep (.ok .reacquired, c) look (claim :: rest) := by
  have few := lapsed.few
  obtain ⟨claims, free, leaves⟩ := Visit.created_of_made claimed
  have claims : claim.call = c.claimCall := claims
  constructor
  case looks => exact lapsed.looks
  case few => simp only [List.length_cons]; omega
  case extended_iff => simp [claims, lapsed.not_visited_own]
  case refreshes => simp [claims, lapsed.not_visited_own]
  case claims_iff => simpa [claims] using lapsed.lapsed
  case reacquired_iff => simp [claims, free]
  case recreates => simp [claims, leaves]
  case lost => exact fun _ unclaimed => absurd rfl unclaimed

theorem upkeep_of_overtaken (lapsed : c.FoundLapsed look rest) {fields : Option Fields}
    (refused : claim.made = ⟨c.claimCall, .ok false, first⟩)
    (looked : last.made = ⟨.fetch c.key, .ok fields, second⟩) :
    c.Upkeep (.ok (.lost (fields.bind ownerOf?)),
      { c with standing := .heldByOther (fields.bind ownerOf?) }) look (last :: claim :: rest) := by
  have few := lapsed.few
  obtain ⟨claims, ⟨entry, occupied⟩, claimIdle⟩ := Visit.refused_of_made refused
  obtain ⟨looks, owner, -, lastIdle⟩ := Visit.looked_of_made looked
  have claims : claim.call = c.claimCall := claims
  constructor
  case looks => exact lapsed.looks
  case few => simp only [List.length_cons]; omega
  case extended_iff => simp [claims, looks, lapsed.not_visited_own]
  case refreshes => simp [claims, looks, lapsed.not_visited_own]
  case claims_iff => simpa [claims, looks] using lapsed.lapsed
  case reacquired_iff => simp [claims, looks, occupied, lapsed.not_visited_claim]
  case recreates => simp [claims, looks, occupied, lapsed.not_visited_claim]
  case lost =>
    intro _ _
    constructor
    · simp [looks, owner]
    · intro visit member
      rcases List.mem_cons.mp member with rfl | member
      · exact lastIdle
      · rcases List.mem_cons.mp member with rfl | member
        · exact claimIdle
        · exact lapsed.idle visit member

/-- A renewal that goes one of its ways without a failure comes to what is said. -/
theorem Renewing.upkeep {result : Except Failure Renewal × Claimant} (held : c.standing = .heldBySelf)
    (renewing : c.Renewing [] result (visits.map Visit.made))
    (unfailing : ∀ visit ∈ visits, visit.fault? = none) :
    ∃ look rest, visits = rest ++ [look] ∧ c.Upkeep result look rest := by
  generalize history : visits.map Visit.made = calls at renewing
  cases renewing with
  | notHeld without => simp [held] at without
  | known other => simp [held] at other
  | extended _ own first second =>
      obtain ⟨look, last, rfl, looked, refreshed⟩ := Visit.exists_two history
      exact ⟨look, [last], rfl, upkeep_of_extended own looked refreshed⟩
  | foreign _ _ time =>
      obtain ⟨look, rfl, looked⟩ := List.map_eq_singleton_iff.mp history
      exact ⟨look, [], rfl, upkeep_of_foreign looked⟩
  | reacquired _ lapsed time =>
      obtain ⟨claim, earlier, rfl, claimed, rfl⟩ := List.map_eq_cons_iff.mp history
      obtain ⟨look, before, rfl, found⟩ := lapsed.found
      exact ⟨look, claim :: before, rfl, upkeep_of_reacquired found claimed⟩
  | overtaken _ lapsed fields first second =>
      obtain ⟨last, _, rfl, looked, rest⟩ := List.map_eq_cons_iff.mp history
      obtain ⟨claim, earlier, rfl, refused, rfl⟩ := List.map_eq_cons_iff.mp rest
      obtain ⟨look, before, rfl, found⟩ := lapsed.found
      exact ⟨look, last :: claim :: before, rfl, upkeep_of_overtaken found refused looked⟩
  | failed _ call failure time quiet =>
      obtain ⟨last, _, rfl, failed, -⟩ := List.map_eq_cons_iff.mp history
      obtain ⟨_, _, rfl, -⟩ := Visit.faulted_of_made failed
      exact absurd (unfailing _ List.mem_cons_self) (by simp)

/-- A renewal is reported exactly where one of its calls has put the new expiry on a record
of its own. -/
theorem Renewed.reported_iff_puts {result : Except Failure Renewal × Claimant}
    (renewed : c.Renewed [] result (visits.map Visit.made)) :
    result.1 = .ok .extended ∨ result.1 = .ok .reacquired ↔ ∃ visit ∈ visits, c.Puts visit := by
  generalize history : visits.map Visit.made = calls at renewed
  have none_puts (quiet : History.Quiet c.key [] calls) : ¬∃ visit ∈ visits, c.Puts visit := by
    rintro ⟨visit, member, puts, -⟩
    have member' : visit.made ∈ calls := history ▸ List.mem_map_of_mem member
    rw [quiet.renewal?_eq_none _ member'] at puts
    contradiction
  cases renewed with
  | extended time quiet =>
      obtain ⟨last, _, rfl, refreshed, -⟩ := List.map_eq_cons_iff.mp history
      obtain ⟨-, ⟨entry, found, own⟩, entry', found', leaves⟩ := refreshed_of_made refreshed
      obtain rfl := Option.some.inj (found.symm.trans found')
      obtain ⟨met, rfl, -⟩ := Visit.served_of_made refreshed
      have puts : c.Puts _ :=
        ⟨(congrArg _ refreshed).trans MadeCall.renewal?_refresh, entry.fields, leaves, own⟩
      simpa using .inl puts
  | reacquired time quiet =>
      obtain ⟨claim, _, rfl, claimed, -⟩ := List.map_eq_cons_iff.mp history
      obtain ⟨-, -, leaves⟩ := Visit.created_of_made claimed
      obtain ⟨met, rfl, -⟩ := Visit.served_of_made claimed
      have puts : c.Puts _ :=
        ⟨(congrArg _ claimed).trans MadeCall.renewal?_claim, ownedBy c.pid, leaves,
          Entry.belongsTo_ownedBy c.pid _⟩
      simpa using .inl puts
  | lost owner quiet => simpa using none_puts quiet
  | notHeld without => simpa using none_puts .refl
  | failed call failure time quiet =>
      have idle := none_puts (.cons (MadeCall.renewal?_error ..) (MadeCall.deletes_error ..) quiet)
      simpa using idle

/-- Whatever others do between its calls, a renewal of a lock that is held makes at most
four calls; it extends the record, makes it anew or loses the lock according to what they
find, and it is reported exactly where one of them has put the new expiry on a record of
the claimant's own. -/
theorem renew_in_company (c : Claimant) (held : c.standing = .heldBySelf) (others : Company)
    (keyspace : Keyspace) :
    let ran := c.renew.runAmid others keyspace
    (∃ look rest, ran.2 = rest ++ [look] ∧ c.Upkeep ran.1 look rest) ∧
      (ran.1.1 = .ok .extended ∨ ran.1.1 = .ok .reacquired ↔ ∃ visit ∈ ran.2, c.Puts visit) := by
  intro ran
  obtain ⟨renewing, unfailing⟩ :=
    LockProgram.ends_runAmid (c.renew_renews []) others keyspace
  exact ⟨renewing.upkeep held unfailing, renewing.renewed.reported_iff_puts⟩

/-- A claimant that has the lock. -/
def incumbent : Claimant :=
  ⟨"lock", 8, .ofSeconds 10, .heldBySelf⟩

/-- A store with a lock of an owner. -/
def lockedBy (owner : Pid) : Keyspace :=
  ⟨TextMap.empty.insert "lock" ⟨ownedBy owner, some (.ofSinceEpoch 10000000000)⟩, false⟩

/-- Another claimant, which gets hold of the lock just after the first look at it. -/
def usurper : Company
  | [_], _ => (lockedBy 3, default)
  | _, keyspace => (keyspace, default)

/-- The incumbent sees its own record, but can neither extend it nor make it anew. -/
theorem renew_in_company_of_usurper :
    let ran := incumbent.renew.runAmid usurper (lockedBy 8)
    ran.1 = (.ok (.lost (some 3)), { incumbent with standing := .heldByOther (some 3) }) ∧
      ran.2.length = 4 ∧
      (∃ look rest, ran.2 = rest ++ [look] ∧ incumbent.Upkeep ran.1 look rest) ∧
      (ran.1.1 = .ok .extended ∨ ran.1.1 = .ok .reacquired ↔
        ∃ visit ∈ ran.2, incumbent.Puts visit) :=
  ⟨rfl, rfl, incumbent.renew_in_company rfl usurper (lockedBy 8)⟩

end Claimant

end Leasehold
