import Leasehold.Proofs.Lock.Exclusion
import Mathlib.Data.List.Infix

/-!
# What a successful acquisition means

Acquiring the lock succeeds in two ways. If the record is created, it is the
claimant's own at that instant. But a claimant that takes the lock for its own
already is not asked to look: it may have let the record lapse and somebody else
may have it by now. So success means ownership as long as the last renewal is good,
and not beyond.
-/

namespace Leasehold

/-- That a seat is in an acquisition and keeps to some calls and to some end, or is
through with it. -/
def Seat.Pursuing (allows : StoreCall → Prop)
    (ends : Except Failure Unit × Claimant → History → Prop) (seat : Seat) (history : History) :
    Prop :=
  seat.work? = none ∨
    ∃ rest : Procedure (Except Failure Unit × Claimant), seat.work? = some ⟨.acquire, rest⟩ ∧
      rest.Keeps (Procedure.calls allows) ends history

namespace Commons

variable {ι : Type} [DecidableEq ι]

/-- That a claimant calls `acquire` and, after some moves in which it does not start
another operation, is told that it has the lock. -/
structure Acquires (called : Commons ι Seat) (i : ι) (moves : List (Move ι Seat.Turn))
    (later : Commons ι Seat) : Prop where
  played : called.play (.turn i (.start .acquire) :: moves) = some later
  single : ∀ operation, .turn i (.start operation) ∉ moves
  told : ∃ c, (later.party i).work? = some ⟨.acquire, .done (.ok (), c)⟩

/-- That at some instant of a call, which began here and went on with these moves,
something was the case. -/
def AtInstant (called : Commons ι Seat) (i : ι) (moves : List (Move ι Seat.Turn))
    (property : Commons ι Seat → Prop) : Prop :=
  ∃ before, before <+: moves ∧
    ∃ middle ∈ called.play (.turn i (.start .acquire) :: before), property middle

instance (called : Commons ι Seat) (i : ι) (moves : List (Move ι Seat.Turn))
    (property : Commons ι Seat → Prop) [DecidablePred property] :
    Decidable (called.AtInstant i moves property) :=
  decidable_of_iff (∃ before ∈ moves.inits,
      ∃ middle ∈ called.play (.turn i (.start .acquire) :: before), property middle)
    (by simp only [AtInstant, List.mem_inits])

variable {called opened later : Commons ι Seat} {i : ι} {moves : List (Move ι Seat.Turn)}

/-- Nothing that happens during an acquisition gets it out of its course. -/
theorem play_pursuing {allows : StoreCall → Prop}
    {ends : Except Failure Unit × Claimant → History → Prop}
    (single : ∀ operation, .turn i (.start operation) ∉ moves)
    (played : opened.play moves = some later)
    (pursuing : (opened.party i).Pursuing allows ends (opened.history i)) :
    (later.party i).Pursuing allows ends (later.history i) := by
  have others : ∀ move ∈ moves, ∀ operation, move ≠ .turn i (.start operation) := by
    rintro move member operation rfl
    exact single operation member
  apply play_induction (fun move => ∀ operation, move ≠ .turn i (.start operation))
    (fun reached => (reached.party i).Pursuing allows ends (reached.history i)) _
    others played pursuing
  intro reached move next other pursuing performed
  rcases perform_cases performed i with ⟨party, history⟩ |
    ⟨call, go, reply, -, pending, party, -, history⟩ | ⟨turn, rfl, turned, history⟩
  · rwa [party, history]
  · rw [party, history]
    rcases Seat.pending?_eq_some_iff.mp pending with ⟨operation, rest, go, working, stops, rfl⟩
    rcases pursuing with idle | ⟨rest, working', kept⟩
    · rw [idle] at working
      contradiction
    · cases working.symm.trans working'
      exact .inr ⟨go reply, rfl, (Procedure.keeps_pending kept stops).2 reply _⟩
  · rw [history]
    rcases Seat.turn?_cases turned with ⟨operation, rfl, -⟩ |
      ⟨act, operation, rest, rest', rfl, working, acted, same⟩ | ⟨operation, outcome, c, -, -, same⟩
    · exact absurd rfl (other operation)
    · rcases pursuing with idle | ⟨rest, working', kept⟩
      · rw [idle] at working
        contradiction
      · cases working.symm.trans working'
        exact .inr ⟨rest', by rw [same], Procedure.keeps_turn kept acted⟩
    · exact .inl (by rw [same])

/-- A claimant that has just begun to acquire the lock. -/
theorem pursuing_start {allows : StoreCall → Prop}
    {ends : Except Failure Unit × Claimant → History → Prop}
    (performed : called.perform (.turn i (.start .acquire)) = some opened)
    (kept : (called.party i).claimant.acquire.Keeps (LockProgram.calls allows) ends
      (called.history i)) :
    called.party i = .idle (called.party i).claimant ∧
      (opened.party i).Pursuing allows ends (opened.history i) := by
  rcases perform_turn_eq_some_iff.mp performed with ⟨seat, turned, rfl⟩
  rcases Seat.turn?_cases turned with ⟨operation, same, idle, rfl⟩ | ⟨_, _, _, _, same, -⟩ |
    ⟨_, _, _, same, -⟩
  · cases same
    constructor
    · rw [Seat.idle, ← idle]
    · have working := congrArg Seat.work? (Function.update_self i
        (Seat.mk (called.party i).claimant
          (some ⟨_, Procedure.ofLock (Operation.acquire.program (called.party i).claimant)⟩))
        called.party)
      exact .inr ⟨_, working, Procedure.keeps_ofLock kept⟩
  · cases same
  · cases same

/-- A successful acquisition is a whole acquisition: it began between two operations
and its calls are those made since. -/
theorem Acquires.acquired (acquires : called.Acquires i moves later) :
    ∃ c result, called.party i = .idle c ∧
      c.Acquired (called.history i) (.ok (), result) (later.history i) := by
  rcases play_cons_eq_some_iff.mp acquires.played with ⟨opened, performed, played⟩
  rcases acquires.told with ⟨result, told⟩
  rcases pursuing_start performed (Claimant.acquire_keeps _ _) with ⟨idle, pursuing⟩
  rcases play_pursuing acquires.single played pursuing with none | ⟨rest, working, kept⟩
  · rw [none] at told
    contradiction
  · cases told.symm.trans working
    exact ⟨_, result, idle, kept⟩

section

variable {keyspace : Keyspace} {now : Instant} {key : String} {pid : ι → Pid} {ttl : ι → Duration}
  {first : List (Move ι Seat.Turn)}

/-- Whenever an acquisition succeeds, the live record is the claimant's own at an
instant of the call, unless the clock stands at its end there, where no lifetime is
left. The one exception is a claimant that took the lock for its own before, whose
last renewal has run out: it is told that it has the lock without a single call. -/
theorem owned_of_acquires (distinct : Function.Injective pid) {i : ι}
    (positive : 0 < (ttl i).nanos)
    (fair : ∀ move ∈ first ++ .turn i (.start .acquire) :: moves, move.Fair key)
    (reached : (ofClaimants keyspace now key pid ttl).play first = some called)
    (acquires : called.Acquires i moves later) :
    called.AtInstant i moves
      (fun instant => instant.Owned key (pid i) ∨ Instant.max ≤ instant.now) ∨
    (called.party i).standing = .heldBySelf ∧
      (∃ expiry, (called.history i).lastRenewal? key = some expiry ∧ expiry ≤ called.now) ∧
      later.history i = called.history i := by
  rcases good_and_honoured distinct
    (fun move member => fair move (List.mem_append_left _ member)) reached with
    ⟨good, honoured⟩
  rcases acquires.acquired with ⟨c, result, idle, acquired⟩
  have fits : c.Fits key (pid i) (ttl i) (called.history i) := by
    have between := (good i).between
    rw [idle] at between
    exact between rfl
  rcases play_cons_eq_some_iff.mp acquires.played with ⟨opened, performed, played⟩
  have opens : opened.history i = called.history i ∧ opened.keyspace = called.keyspace ∧
      opened.now = called.now := by
    rcases perform_turn_eq_some_iff.mp performed with ⟨seat, -, rfl⟩
    exact ⟨rfl, rfl, rfl⟩
  rcases opens with ⟨sameHistory, sameKeyspace, sameNow⟩
  generalize history : later.history i = made at acquired
  cases acquired with
  | held held =>
      rcases fits.lease held with ⟨renewed, kept⟩
      rcases Option.isSome_iff_exists.mp renewed with ⟨expiry, renewed⟩
      by_cases before : called.now < expiry
      · -- The lease is good, so the record is there from the first instant on.
        have owned : opened.Owned key (pid i) := by
          rw [Owned, sameKeyspace, sameNow]
          exact honoured.owned ⟨renewed, kept, before⟩
        exact .inl ⟨[], List.nil_prefix, opened,
          play_cons_eq_some_iff.mpr ⟨opened, performed, rfl⟩, .inl owned⟩
      · exact .inr ⟨by rw [idle]; exact held, ⟨expiry, renewed, not_lt.mp before⟩, rfl⟩
  | created time =>
      rw [← sameHistory] at history
      rcases exists_made played history with ⟨before, after, middle, rfl, played', called', now'⟩
      have upTo := play_cons_eq_some_iff.mpr ⟨opened, performed, played'⟩
      have sofar : first ++ .turn i (.start .acquire) :: before <+:
          first ++ .turn i (.start .acquire) :: (before ++ after) := ⟨after, by simp⟩
      rcases good_and_honoured distinct
        (fun move member => fair move (sofar.subset member))
        (play_append_eq_some_iff.mpr ⟨called, reached, upTo⟩) with
        ⟨-, honoured'⟩
      have ownedOrEnd : middle.Owned key (pid i) ∨ Instant.max ≤ middle.now := by
        by_cases early : middle.now < Instant.max
        · rcases fits with ⟨rfl, _, sameTtl, _⟩
          rw [← sameTtl] at positive
          exact .inl (honoured'.owned_of_renewal called' MadeCall.renewal?_claim now' positive early)
        · exact .inr (not_lt.mp early)
      exact .inl ⟨before, List.prefix_append _ _, middle, upTo, ownedOrEnd⟩

end

/-- A claimant that has not had the lock owns the record when it gets it. -/
theorem owned_of_acquires_of_duel :
    ∃ later, duel.Acquires true [.serve true, .turn true (.act .note)] later ∧
      duel.AtInstant true [.serve true, .turn true (.act .note)]
        fun instant => instant.Owned "lock" (duelPid true) ∨ Instant.max ≤ instant.now := by
  obtain ⟨later, acquires⟩ :
      ∃ later, duel.Acquires true [.serve true, .turn true (.act .note)] later :=
    ⟨_, rfl, by simp, _, rfl⟩
  have fair : ∀ move ∈ [.turn true (Seat.Turn.start .acquire), .serve true,
      .turn true (.act .note)], Move.Fair "lock" move := by
    simp [Move.Fair]
  have positive : 0 < (Duration.ofSeconds 10).nanos := by decide
  rcases owned_of_acquires duelPid_injective positive fair (show duel.play [] = some duel from rfl)
    acquires with owned | ⟨held, -⟩
  · exact ⟨later, acquires, owned⟩
  · exact absurd held (by decide)

/-- A claimant takes the lock and lets it lapse, and another one takes it. -/
def takeover : List (Move Bool Seat.Turn) :=
  [.turn true (.start .acquire), .serve true, .turn true (.act .note), .turn true .finish,
    .advance (.ofSinceEpoch 10000000000),
    .turn false (.start .acquire), .serve false, .turn false (.act .note), .turn false .finish]

/-- The claimant is told that it has the lock although the record is the other's at
every instant of the call; and at the end of the clock it is told so although its
record is gone at once. -/
theorem acquires_without_record :
    (∃ called later, duel.play takeover = some called ∧
      called.Acquires true [.turn true (.act .note)] later ∧
      ¬called.AtInstant true [.turn true (.act .note)] fun instant =>
        instant.Owned "lock" (duelPid true)) ∧
    ∃ later, (ofClaimants .empty .max "lock" duelPid fun _ => .ofSeconds 10).Acquires true
        [.serve true, .turn true (.act .note)] later ∧
      ¬(ofClaimants .empty .max "lock" duelPid fun _ => .ofSeconds 10).AtInstant true
        [.serve true, .turn true (.act .note)] fun instant =>
          instant.Owned "lock" (duelPid true) := by
  constructor
  · exact ⟨_, _, rfl, ⟨rfl, by simp, _, rfl⟩, by decide⟩
  · exact ⟨_, ⟨rfl, by simp, _, rfl⟩, by decide⟩

end Commons

end Leasehold
