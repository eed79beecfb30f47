import Leasehold.Proofs.Lock.Seat

/-!
# Mutual exclusion

Any number of claimants with different process numbers share a lock. They take it,
renew it and give it up in any order, their store calls interleave in any way, and
calls may fail. Still the record is where a holder thinks it is: until its expiry
comes, the record is live and the holder's, so there is one holder at a time.
-/

namespace Leasehold.Commons

variable {ι : Type}

/-- Claimants of the lock under a key that have not asked for it yet. -/
def ofClaimants (keyspace : Keyspace) (now : Instant) (key : String) (pid : ι → Pid)
    (ttl : ι → Duration) : Commons ι Seat :=
  start keyspace now fun i => .idle ⟨key, pid i, ttl i, .free⟩

/-- That a claimant takes the lock for its own and has not deleted the record, and
that the expiry of its last renewal has not come. -/
structure Holding (key : String) (commons : Commons ι Seat) (i : ι) : Prop where
  standing : (commons.party i).standing = .heldBySelf
  kept : (commons.history i).isGivenUp key = false
  before : ∀ expiry, (commons.history i).lastRenewal? key = some expiry → commons.now < expiry

variable [DecidableEq ι] {keyspace : Keyspace} {now : Instant} {key : String} {pid : ι → Pid}
  {ttl : ι → Duration} {moves : List (Move ι Seat.Turn)} {later : Commons ι Seat}

/-- What holds of every seat and of the store, whatever the schedule. -/
theorem good_and_honoured (distinct : Function.Injective pid) (fair : ∀ move ∈ moves, move.Fair key)
    (played : (ofClaimants keyspace now key pid ttl).play moves = some later) :
    later.Good (fun i => Seat.Good key (pid i) (ttl i)) ∧ later.Honoured key pid := by
  have begins : (ofClaimants keyspace now key pid ttl).Good
      fun i => Seat.Good key (pid i) (ttl i) :=
    fun i => Seat.good_idle ⟨rfl, rfl, rfl, fun held => nomatch held⟩
  exact play_keeps distinct (Seat.conduct key pid ttl) fair played begins (honoured_start _ _ _)

omit [DecidableEq ι] in
/-- A holder has a renewal that is still good. -/
theorem Holding.secure {i : ι} (holding : later.Holding key i)
    (good : later.Good fun i => Seat.Good key (pid i) (ttl i)) :
    ∃ expiry, later.Secure key i expiry := by
  have lease := (good i).hasLease holding.standing holding.kept
  exact exists_secure lease holding.before

/-- While a claimant holds the lock, the record is live, its own, and expires when
its last renewal said; nobody else holds the lock, and nobody can create the record. -/
theorem holding_exclusive (distinct : Function.Injective pid)
    (fair : ∀ move ∈ moves, move.Fair key)
    (played : (ofClaimants keyspace now key pid ttl).play moves = some later) {i : ι}
    (holding : later.Holding key i) :
    (∃ expiry entry, (later.history i).lastRenewal? key = some expiry ∧
      later.keyspace.live? key later.now = some entry ∧ entry.BelongsTo (pid i) ∧
      entry.expiresAt = some expiry) ∧
    (∀ j, later.Holding key j → j = i) ∧
    ∀ fields ttl, (later.keyspace.serve later.now (.create key fields ttl)).1 = false := by
  rcases good_and_honoured distinct fair played with ⟨good, honoured⟩
  rcases holding.secure good with ⟨expiry, secure⟩
  constructor
  · rcases honoured.live secure with ⟨entry, live, own, expires⟩
    exact ⟨expiry, entry, secure.renewed, live, own, expires⟩
  constructor
  · intro j others
    rcases others.secure good with ⟨expiry', secure'⟩
    exact honoured.unique distinct secure' secure
  · intro fields ttl
    exact honoured.create_refused secure fields ttl

/-- Two claimants of a lock that nobody has. -/
def duel : Commons Bool Seat :=
  ofClaimants .empty (.ofSinceEpoch 0) "lock" duelPid fun _ => .ofSeconds 10

/-- The first claimant creates the record while the second is about to. -/
def headStart : List (Move Bool Seat.Turn) :=
  [.turn true (.start .acquire), .turn false (.start .acquire), .serve true,
    .turn true (.act .note), .turn true .finish, .advance (.ofSinceEpoch 1)]

theorem holding_exclusive_of_headStart :
    ∃ later, duel.play headStart = some later ∧ later.Holding "lock" true ∧
      (∃ expiry entry, (later.history true).lastRenewal? "lock" = some expiry ∧
        later.keyspace.live? "lock" later.now = some entry ∧ entry.BelongsTo (duelPid true) ∧
        entry.expiresAt = some expiry) ∧
      (∀ j, later.Holding "lock" j → j = true) ∧
      ∀ fields ttl, (later.keyspace.serve later.now (.create "lock" fields ttl)).1 = false := by
  obtain ⟨later, played, holding⟩ :
      ∃ later, duel.play headStart = some later ∧ later.Holding "lock" true := by
    refine ⟨_, rfl, rfl, rfl, ?_⟩
    decide
  exact ⟨later, played, holding,
    holding_exclusive duelPid_injective (by simp [headStart, Move.Fair]) played holding⟩

end Leasehold.Commons
