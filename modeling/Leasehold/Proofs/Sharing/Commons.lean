import Leasehold.Proofs.Store.History
import Mathlib.Data.Sigma.Basic
import Mathlib.Logic.Function.Basic

/-!
# Stores that are shared

Several parties use one store. A party is anything that makes store calls one at
a time and, between them, takes turns of its own kind that do not touch the
store. A move of the whole is one of these: a pending call is answered, a pending
call fails and changes nothing, a party takes a turn, somebody else makes a call,
or the clock moves. A schedule is a list of moves, so a statement about every
schedule is a statement about every interleaving of single store calls.

The main statements carry an invariant along a schedule and show that what each
party keeps to by itself all parties keep to together.
-/

namespace Leasehold

/-- Something that uses a store. It may have a call pending, with which it goes
on as the reply says, and it may take turns of another kind. -/
class Party (P : Type) (Turn : outParam Type) where
  pending? : P → Option ((call : StoreCall) × (call.Reply → P))
  turn? : Turn → P → Option P

/-- Parties of two kinds. -/
instance {P Q Turn Turn' : Type} [Party P Turn] [Party Q Turn'] :
    Party (P ⊕ Q) (Turn ⊕ Turn') where
  pending?
    | .inl p => (Party.pending? p).map fun ⟨call, next⟩ => ⟨call, fun reply => .inl (next reply)⟩
    | .inr q => (Party.pending? q).map fun ⟨call, next⟩ => ⟨call, fun reply => .inr (next reply)⟩
  turn?
    | .inl turn, .inl p => (Party.turn? turn p).map .inl
    | .inr turn, .inr q => (Party.turn? turn q).map .inr
    | _, _ => none

namespace Party

variable {P Q Turn Turn' : Type} [Party P Turn] [Party Q Turn'] {p : P} {q : Q} {other : P ⊕ Q}
  {call : StoreCall} {next : call.Reply → P ⊕ Q} {turn : Turn ⊕ Turn'}

theorem pending?_inl_eq_some_iff :
    pending? (.inl p : P ⊕ Q) = some ⟨call, next⟩ ↔
      ∃ go, pending? p = some ⟨call, go⟩ ∧ next = fun reply => .inl (go reply) := by
  simp only [pending?, Option.map_eq_some_iff, Sigma.exists]
  constructor
  · rintro ⟨_, go, pending, same⟩
    cases same
    exact ⟨go, pending, rfl⟩
  · rintro ⟨go, pending, rfl⟩
    exact ⟨call, go, pending, rfl⟩

theorem pending?_inr_eq_some_iff :
    pending? (.inr q : P ⊕ Q) = some ⟨call, next⟩ ↔
      ∃ go, pending? q = some ⟨call, go⟩ ∧ next = fun reply => .inr (go reply) := by
  simp only [pending?, Option.map_eq_some_iff, Sigma.exists]
  constructor
  · rintro ⟨_, go, pending, same⟩
    cases same
    exact ⟨go, pending, rfl⟩
  · rintro ⟨go, pending, rfl⟩
    exact ⟨call, go, pending, rfl⟩

theorem turn?_inl_cases (turned : turn? turn (.inl p : P ⊕ Q) = some other) :
    ∃ own p', turn = .inl own ∧ turn? own p = some p' ∧ other = .inl p' := by
  rcases turn with own | _
  · rcases Option.map_eq_some_iff.mp turned with ⟨p', turns, rfl⟩
    exact ⟨own, p', rfl, turns, rfl⟩
  · contradiction

theorem turn?_inr_cases (turned : turn? turn (.inr q : P ⊕ Q) = some other) :
    ∃ own q', turn = .inr own ∧ turn? own q = some q' ∧ other = .inr q' := by
  rcases turn with _ | own
  · contradiction
  · rcases Option.map_eq_some_iff.mp turned with ⟨q', turns, rfl⟩
    exact ⟨own, q', rfl, turns, rfl⟩

end Party

/-- A store, its clock, and the parties that share it, each with the calls that
it has made. -/
structure Commons (ι P : Type) where
  keyspace : Keyspace
  now : Instant
  party : ι → P
  history : ι → History

/-- What can happen next. -/
inductive Move (ι Turn : Type) where
  | serve (i : ι)
  | fail (i : ι) (fault : StoreFault)
  | turn (i : ι) (turn : Turn)
  | stranger (call : StoreCall)
  | advance (later : Instant)
  | turnBack (earlier : Instant)

/-- That the clock does not go back and that nobody but the parties writes the
record under a key. -/
def Move.Fair {ι Turn : Type} (key : String) : Move ι Turn → Prop
  | .stranger call => call.Spares key
  | .turnBack _ => False
  | _ => True

namespace Commons

variable {ι P Turn : Type} [DecidableEq ι] [Party P Turn]

/-- Parties that have not called yet. -/
def start (keyspace : Keyspace) (now : Instant) (party : ι → P) : Commons ι P :=
  ⟨keyspace, now, party, fun _ => []⟩

/-- Notes down a call of a party, which goes on as `p`. -/
def record (commons : Commons ι P) (i : ι) (made : MadeCall) (p : P) : Commons ι P :=
  { commons with
    party := Function.update commons.party i p
    history := Function.update commons.history i (made :: commons.history i) }

/-- Makes a move, if it is possible. -/
def perform (commons : Commons ι P) : Move ι Turn → Option (Commons ι P)
  | .serve i =>
    (Party.pending? (commons.party i)).map fun ⟨call, next⟩ =>
      let (answer, keyspace) := commons.keyspace.serve commons.now call
      { commons with keyspace := keyspace }.record i ⟨call, .ok answer, commons.now⟩
        (next (.ok answer))
  | .fail i fault =>
    (Party.pending? (commons.party i)).map fun ⟨call, next⟩ =>
      let failure := Failure.storeUnavailable fault
      commons.record i ⟨call, .error failure, commons.now⟩ (next (.error failure))
  | .turn i turn =>
    (Party.turn? turn (commons.party i)).map fun p =>
      { commons with party := Function.update commons.party i p }
  | .stranger call => some { commons with keyspace := (commons.keyspace.serve commons.now call).2 }
  | .advance later => if commons.now ≤ later then some { commons with now := later } else none
  | .turnBack earlier => some { commons with now := earlier }

/-- Makes the moves of a schedule one after the other. -/
def play (commons : Commons ι P) : List (Move ι Turn) → Option (Commons ι P)
  | [] => some commons
  | move :: moves => (commons.perform move).bind fun next => next.play moves

@[simp]
theorem play_nil (commons : Commons ι P) : commons.play ([] : List (Move ι Turn)) = some commons :=
  rfl

theorem play_cons_eq_some_iff {commons later : Commons ι P} {move : Move ι Turn}
    {moves : List (Move ι Turn)} :
    commons.play (move :: moves) = some later ↔
      ∃ next, commons.perform move = some next ∧ next.play moves = some later :=
  Option.bind_eq_some_iff

/-- A schedule can be cut anywhere. -/
theorem play_append_eq_some_iff {commons later : Commons ι P} {first rest : List (Move ι Turn)} :
    commons.play (first ++ rest) = some later ↔
      ∃ middle, commons.play first = some middle ∧ middle.play rest = some later := by
  induction first generalizing commons with
  | nil => simp
  | cons move moves ih =>
      simp only [List.cons_append, play_cons_eq_some_iff, ih]
      constructor
      · rintro ⟨next, performed, middle, played, rest⟩
        exact ⟨middle, ⟨next, performed, played⟩, rest⟩
      · rintro ⟨middle, ⟨next, performed, played⟩, rest⟩
        exact ⟨next, performed, middle, played, rest⟩

/-! ## What a move does -/

section Moves

variable {commons later : Commons ι P} {i j : ι}

theorem perform_serve_eq_some_iff :
    commons.perform (.serve i) = some later ↔
      ∃ call next, Party.pending? (commons.party i) = some ⟨call, next⟩ ∧
        later = { commons with keyspace := (commons.keyspace.serve commons.now call).2 }.record i
          ⟨call, .ok (commons.keyspace.serve commons.now call).1, commons.now⟩
          (next (.ok (commons.keyspace.serve commons.now call).1)) := by
  simp only [perform, Option.map_eq_some_iff, Sigma.exists]
  exact exists_congr fun call => exists_congr fun next => and_congr_right fun _ => eq_comm

theorem perform_fail_eq_some_iff {fault : StoreFault} :
    commons.perform (.fail i fault) = some later ↔
      ∃ call next, Party.pending? (commons.party i) = some ⟨call, next⟩ ∧
        later = commons.record i ⟨call, .error (.storeUnavailable fault), commons.now⟩
          (next (.error (.storeUnavailable fault))) := by
  simp only [perform, Option.map_eq_some_iff, Sigma.exists]
  exact exists_congr fun call => exists_congr fun next => and_congr_right fun _ => eq_comm

theorem perform_turn_eq_some_iff {turn : Turn} :
    commons.perform (.turn i turn) = some later ↔
      ∃ p, Party.turn? turn (commons.party i) = some p ∧
        later = { commons with party := Function.update commons.party i p } := by
  simp only [perform, Option.map_eq_some_iff]
  exact exists_congr fun p => and_congr_right fun _ => eq_comm

theorem perform_advance_eq_some_iff {time : Instant} :
    commons.perform (.advance time : Move ι Turn) = some later ↔
      commons.now ≤ time ∧ later = { commons with now := time } := by
  simp only [perform, Option.ite_none_right_eq_some, Option.some.injEq]
  exact and_congr_right fun _ => eq_comm

@[simp]
theorem record_self_party (made : MadeCall) (p : P) : (commons.record i made p).party i = p := by
  simp [record]

@[simp]
theorem record_self_history (made : MadeCall) (p : P) :
    (commons.record i made p).history i = made :: commons.history i := by
  simp [record]

theorem record_party_of_ne (made : MadeCall) (p : P) (other : j ≠ i) :
    (commons.record i made p).party j = commons.party j := by
  simp [record, other]

theorem record_history_of_ne (made : MadeCall) (p : P) (other : j ≠ i) :
    (commons.record i made p).history j = commons.history j := by
  simp [record, other]

theorem mem_record_history {made other : MadeCall} {p : P} :
    other ∈ (commons.record i made p).history j ↔
      j = i ∧ other = made ∨ other ∈ commons.history j := by
  by_cases same : j = i
  · subst same
    simp
  · simp [record_history_of_ne, same]

/-- A call that is not looked for is not found. -/
theorem filter_record_history {wanted : MadeCall → Bool} {made : MadeCall}
    (other : wanted made = false) (p : P) :
    ((commons.record i made p).history j).filter wanted = (commons.history j).filter wanted := by
  by_cases same : j = i
  · subst same
    simp [other]
  · rw [record_history_of_ne _ _ same]

/-- What a move is to one party: nothing, a call of its own, or a turn of its own. -/
theorem perform_cases {move : Move ι Turn} (performed : commons.perform move = some later) (i : ι) :
    (later.party i = commons.party i ∧ later.history i = commons.history i) ∨
    (∃ call next reply, (move = .serve i ∨ ∃ fault, move = .fail i fault) ∧
      Party.pending? (commons.party i) = some ⟨call, next⟩ ∧
      later.party i = next reply ∧ later.now = commons.now ∧
      later.history i = ⟨call, reply, commons.now⟩ :: commons.history i) ∨
    ∃ turn, move = .turn i turn ∧ Party.turn? turn (commons.party i) = some (later.party i) ∧
      later.history i = commons.history i := by
  cases move with
  | serve j =>
      rcases perform_serve_eq_some_iff.mp performed with ⟨call, next, pending, rfl⟩
      by_cases same : i = j
      · subst same
        exact .inr (.inl ⟨call, next, _, .inl rfl, pending, record_self_party _ _, rfl,
          record_self_history _ _⟩)
      · exact .inl ⟨record_party_of_ne _ _ same, record_history_of_ne _ _ same⟩
  | fail j fault =>
      rcases perform_fail_eq_some_iff.mp performed with ⟨call, next, pending, rfl⟩
      by_cases same : i = j
      · subst same
        exact .inr (.inl ⟨call, next, _, .inr ⟨fault, rfl⟩, pending, record_self_party _ _, rfl,
          record_self_history _ _⟩)
      · exact .inl ⟨record_party_of_ne _ _ same, record_history_of_ne _ _ same⟩
  | turn j turn =>
      rcases perform_turn_eq_some_iff.mp performed with ⟨p, turned, rfl⟩
      by_cases same : i = j
      · subst same
        exact .inr (.inr ⟨turn, rfl, by simpa using turned, rfl⟩)
      · exact .inl ⟨by simp [same], rfl⟩
  | stranger call =>
      cases performed
      exact .inl ⟨rfl, rfl⟩
  | advance time =>
      rcases perform_advance_eq_some_iff.mp performed with ⟨-, rfl⟩
      exact .inl ⟨rfl, rfl⟩
  | turnBack time =>
      cases performed
      exact .inl ⟨rfl, rfl⟩

/-- A call that a move has made was served by the store as it was, or has failed. -/
theorem reply_of_perform {move : Move ι Turn} (performed : commons.perform move = some later)
    {call : StoreCall} {reply : call.Reply} {time : Instant}
    (made : later.history i = ⟨call, reply, time⟩ :: commons.history i) :
    (time = commons.now ∧ reply = .ok (commons.keyspace.serve commons.now call).1) ∨
      ∃ failure, reply = .error failure := by
  have unmade : later.history i ≠ commons.history i := made ▸ List.cons_ne_self _ _
  cases move with
  | serve j =>
      rcases perform_serve_eq_some_iff.mp performed with ⟨call, next, pending, rfl⟩
      by_cases same : i = j
      · subst same
        rw [record_self_history] at made
        cases (List.cons.inj made).1
        exact .inl ⟨rfl, rfl⟩
      · exact absurd (record_history_of_ne _ _ same) unmade
  | fail j fault =>
      rcases perform_fail_eq_some_iff.mp performed with ⟨call, next, pending, rfl⟩
      by_cases same : i = j
      · subst same
        rw [record_self_history] at made
        cases (List.cons.inj made).1
        exact .inr ⟨_, rfl⟩
      · exact absurd (record_history_of_ne _ _ same) unmade
  | turn j turn =>
      rcases perform_turn_eq_some_iff.mp performed with ⟨p, turned, rfl⟩
      exact absurd rfl unmade
  | stranger call =>
      cases performed
      exact absurd rfl unmade
  | advance time =>
      rcases perform_advance_eq_some_iff.mp performed with ⟨-, rfl⟩
      exact absurd rfl unmade
  | turnBack time =>
      cases performed
      exact absurd rfl unmade

end Moves

/-! ## Invariants -/

/-- What every allowed move keeps, an allowed schedule keeps. -/
theorem play_induction (allowed : Move ι Turn → Prop) (invariant : Commons ι P → Prop)
    (keeps : ∀ {commons move later}, allowed move → invariant commons →
      commons.perform move = some later → invariant later)
    {commons later : Commons ι P} {moves : List (Move ι Turn)}
    (all : ∀ move ∈ moves, allowed move) (played : commons.play moves = some later)
    (begins : invariant commons) : invariant later := by
  induction moves generalizing commons with
  | nil => exact Option.some.inj played ▸ begins
  | cons move moves ih =>
      rcases play_cons_eq_some_iff.mp played with ⟨next, performed, played⟩
      exact ih (fun other member => all other (List.mem_cons_of_mem _ member)) played
        (keeps (all move List.mem_cons_self) begins performed)

/-! ## Calls in a run -/

/-- Calls that have been made stay in the history. -/
theorem perform_history_suffix {commons later : Commons ι P} {move : Move ι Turn}
    (performed : commons.perform move = some later) (i : ι) :
    commons.history i <:+ later.history i := by
  rcases perform_cases performed i with ⟨-, history⟩ | ⟨_, _, _, _, _, _, _, history⟩ |
    ⟨_, _, _, history⟩
  · exact history ▸ List.suffix_refl _
  · exact history ▸ List.suffix_cons _ _
  · exact history ▸ List.suffix_refl _

theorem play_history_suffix {commons later : Commons ι P} {moves : List (Move ι Turn)}
    (played : commons.play moves = some later) (i : ι) :
    commons.history i <:+ later.history i :=
  play_induction (fun _ => True) (fun reached => commons.history i <:+ reached.history i)
    (fun _ grown performed => grown.trans (perform_history_suffix performed i))
    (fun _ _ => trivial) played (List.suffix_refl _)

/-- A call that a party has made in a run was made at an instant of the run. -/
theorem exists_made {commons later : Commons ι P} {moves : List (Move ι Turn)}
    (played : commons.play moves = some later) {i : ι} {made : MadeCall}
    (called : later.history i = made :: commons.history i) :
    ∃ before after middle, moves = before ++ after ∧ commons.play before = some middle ∧
      middle.history i = made :: commons.history i ∧ middle.now = made.time := by
  induction moves generalizing commons with
  | nil =>
      obtain rfl := Option.some.inj played
      exact absurd called.symm (List.cons_ne_self _ _)
  | cons move moves ih =>
      rcases play_cons_eq_some_iff.mp played with ⟨next, performed, played⟩
      rcases perform_cases performed i with ⟨-, history⟩ |
        ⟨call, _, reply, _, _, _, same, history⟩ | ⟨_, _, _, history⟩
      · rcases ih played (history ▸ called) with ⟨before, after, middle, rfl, reached, now⟩
        exact ⟨move :: before, after, middle, rfl,
          play_cons_eq_some_iff.mpr ⟨next, performed, reached⟩, history ▸ now⟩
      · -- This is the call, for no history grows by two calls at once.
        have suffix := play_history_suffix played i
        rw [called, history] at suffix
        have first := suffix.eq_of_length rfl
        refine ⟨[move], moves, next, rfl, play_cons_eq_some_iff.mpr ⟨next, performed, rfl⟩, ?_, ?_⟩
        · rw [history, first]
        · rw [same, ← (List.cons.inj first).1]
      · rcases ih played (history ▸ called) with ⟨before, after, middle, rfl, reached, now⟩
        exact ⟨move :: before, after, middle, rfl,
          play_cons_eq_some_iff.mpr ⟨next, performed, reached⟩, history ▸ now⟩

end Commons

/-- A discipline of parties: what each is like, given the calls it has made, and
which calls it therefore makes. -/
structure Conduct {ι P Turn : Type} [Party P Turn] (allows : ι → StoreCall → Prop)
    (good : ι → P → History → Prop) : Prop where
  call : ∀ {i p history call next}, good i p history → Party.pending? p = some ⟨call, next⟩ →
    allows i call ∧ ∀ reply time, good i (next reply) (⟨call, reply, time⟩ :: history)
  turn : ∀ {i p history} {turn : Turn} {p'}, good i p history → Party.turn? turn p = some p' →
    good i p' history

/-- Every party with its history is as the discipline says. -/
def Commons.Good {ι P : Type} (commons : Commons ι P) (good : ι → P → History → Prop) : Prop :=
  ∀ i, good i (commons.party i) (commons.history i)

namespace Conduct

variable {ι P Turn : Type} [DecidableEq ι] [Party P Turn] {allows : ι → StoreCall → Prop}
  {good : ι → P → History → Prop}

/-- Whatever happens, a disciplined party stays disciplined. -/
theorem perform_at (conduct : Conduct allows good) {commons later : Commons ι P}
    {move : Move ι Turn} (performed : commons.perform move = some later) {i : ι}
    (fits : good i (commons.party i) (commons.history i)) :
    good i (later.party i) (later.history i) := by
  rcases Commons.perform_cases performed i with ⟨party, history⟩ |
    ⟨call, next, reply, -, pending, party, -, history⟩ | ⟨turn, -, turned, history⟩
  · rw [party, history]
    exact fits
  · rw [party, history]
    exact (conduct.call fits pending).2 reply commons.now
  · rw [history]
    exact conduct.turn fits turned

theorem perform (conduct : Conduct allows good) {commons later : Commons ι P} {move : Move ι Turn}
    (all : commons.Good good) (performed : commons.perform move = some later) :
    later.Good good :=
  fun i => conduct.perform_at performed (all i)

omit [DecidableEq ι] in
/-- Parties of two kinds are disciplined if those of each kind are. -/
theorem sum {Q Turn' : Type} [Party Q Turn'] {good' : ι → Q → History → Prop}
    (left : Conduct allows good) (right : Conduct allows good') :
    Conduct allows fun i => Sum.elim (good i) (good' i) where
  call := by
    rintro i (p | q) history call next fits pending
    · rcases Party.pending?_inl_eq_some_iff.mp pending with ⟨go, stops, rfl⟩
      exact left.call fits stops
    · rcases Party.pending?_inr_eq_some_iff.mp pending with ⟨go, stops, rfl⟩
      exact right.call fits stops
  turn := by
    rintro i (p | q) history turn after fits turned
    · rcases Party.turn?_inl_cases turned with ⟨own, p', rfl, turns, rfl⟩
      exact left.turn fits turns
    · rcases Party.turn?_inr_cases turned with ⟨own, q', rfl, turns, rfl⟩
      exact right.turn fits turns

end Conduct

end Leasehold
