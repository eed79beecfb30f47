import Leasehold.Proofs.Lock.Foreign
import Leasehold.Proofs.Lock.Seat
import Leasehold.Proofs.Protected.Doomed

/-!
# Locks that change hands before an operation

A protected operation shares its lock with rivals, who may take the lock while the
question waits for its answer, if it lapses meanwhile. Then the operation is not
done, unless the flow finds the record gone again and creates it anew: the flow
looks at the record now and then and cannot tell whose it was between two looks.
-/

namespace Leasehold

variable {κ α : Type}

/-- That the store does not fail the protected operation, and that its question gets
no other answer than this. -/
def Move.Attended (answer : Except Failure Bool) :
    Move (Option κ) (Flow.Turn ⊕ Seat.Turn) → Prop
  | .fail none _ => False
  | .turn none (.inl (.act own)) => own.Heeds answer
  | _ => True

/-- That an owner has created the record under a key again since an earlier history. -/
def History.Recreated (key : String) (owner : Pid) (base history : History) : Prop :=
  ∃ since, history = since ++ base ∧ ∃ made ∈ since, made.Creates key owner

theorem History.Recreated.mono {key : String} {owner : Pid} {base history later : History}
    (recreated : Recreated key owner base history) (grown : history <:+ later) :
    Recreated key owner base later := by
  rcases recreated with ⟨since, rfl, created, member, creates⟩
  rcases grown with ⟨more, rfl⟩
  exact ⟨more ++ since, by simp, created, List.mem_append_right _ member, creates⟩

theorem History.recreated_cons {key : String} {owner : Pid} {base history : History}
    {made : MadeCall} (creates : made.Creates key owner) (grown : base <:+ history) :
    Recreated key owner base (made :: history) := by
  rcases grown with ⟨since, rfl⟩
  exact ⟨made :: since, rfl, made, List.mem_cons_self, creates⟩

/-- That a flow has acquired the lock and has a store call of its reconciling before
it. -/
def Flow.IsWaiting (key : String) (history : History) : Flow α → Prop
  | ⟨_, .acquiring, _⟩ => (history.lastRenewal? key).isSome
  | ⟨_, .asking _, _⟩ => True
  | ⟨_, .reconciling _, rest⟩ => rest.pending?.isSome
  | _ => False

/-- Whether the operation is still to come. -/
def Phase.isEarly : Phase → Bool
  | acquiring => true
  | asking _ => true
  | reconciling _ => true
  | operating _ => false
  | leaving => false

theorem Flow.early_next {errand : Errand α} {phase : Phase} {flow : Flow α}
    {result : Except Failure (phase.Result α) × Claimant}
    (next : errand.next? phase result = some flow) (early : flow.phase.isEarly) :
    phase.isEarly ∧ ∀ guard, phase ≠ .reconciling guard := by
  rcases result with ⟨outcome, c⟩
  cases phase with
  | acquiring => exact ⟨rfl, fun _ same => nomatch same⟩
  | asking guard => exact ⟨rfl, fun _ same => nomatch same⟩
  | reconciling guard => rcases outcome with failure | _ <;> cases next <;> contradiction
  | operating guard =>
      cases next
      contradiction
  | leaving => cases next

namespace Commons

/-- A protected operation that has not begun, among rivals that have not asked for
the lock yet. -/
def contested (keyspace : Keyspace) (now : Instant) (key : String) (pid : Option κ → Pid)
    (ttl : Option κ → Duration) (errand : Errand α) : Commons (Option κ) (Flow α ⊕ Seat) :=
  start keyspace now fun
    | none => .inl (.start errand ⟨key, pid none, ttl none, .free⟩)
    | some j => .inr (.idle ⟨key, pid (some j), ttl (some j), .free⟩)

/-- That all rivals are where their histories can have brought them. -/
def Rivals (key : String) (pid : Option κ → Pid) (ttl : Option κ → Duration)
    (commons : Commons (Option κ) (Flow α ⊕ Seat)) : Prop :=
  ∀ j : κ, Sum.elim (fun _ _ => False) (Seat.Good key (pid (some j)) (ttl (some j)))
    (commons.party (some j)) (commons.history (some j))

/-- What holds of the protected operation before its errand is begun. -/
structure Contest (key : String) (pid : Option κ → Pid) (ttl : Option κ → Duration)
    (errand : Errand α) (answer : Except Failure Bool)
    (commons : Commons (Option κ) (Flow α ⊕ Seat)) : Prop where
  rivals : commons.Rivals key pid ttl
  flow : ∃ flow, commons.party none = .inl flow ∧ flow.errand = errand ∧
    (flow.phase.isEarly → flow.Kept key (pid none) (ttl none) (commons.history none) ∧
      flow.Heeds answer)

/-- What holds once the record was somebody else's: it still is and the flow is
doomed, or the flow has created it anew. -/
structure Displaced (key : String) (pid : Option κ → Pid) (ttl : Option κ → Duration)
    (errand : Errand α) (answer : Except Failure Bool) (base : History)
    (commons : Commons (Option κ) (Flow α ⊕ Seat)) : Prop where
  rivals : commons.Rivals key pid ttl
  grown : base <:+ commons.history none
  course : History.Recreated key (pid none) base (commons.history none) ∨
    commons.keyspace.Foreign key (pid none) ∧
      ∃ flow, commons.party none = .inl flow ∧ flow.errand = errand ∧
        flow.Doomed key (pid none) (ttl none) answer (commons.history none)

variable [DecidableEq κ] {key : String} {pid : Option κ → Pid} {ttl : Option κ → Duration}
  {errand : Errand α} {answer : Except Failure Bool} {base : History}
  {commons later : Commons (Option κ) (Flow α ⊕ Seat)}
  {move : Move (Option κ) (Flow.Turn ⊕ Seat.Turn)}

omit [DecidableEq κ] in
theorem rivalConduct (key : String) (pid : Option κ → Pid) (ttl : Option κ → Duration) :
    Conduct (fun i call => call.ActsFor key (pid i))
      (fun i => Sum.elim (fun (_ : Flow α) _ => False) (Seat.Good key (pid i) (ttl i))) :=
  Conduct.sum ⟨fun fits => fits.elim, fun fits => fits.elim⟩ (Seat.conduct key pid ttl)

theorem Rivals.perform (rivals : commons.Rivals key pid ttl)
    (performed : commons.perform move = some later) : later.Rivals key pid ttl :=
  fun j => (rivalConduct key pid ttl).perform_at performed (rivals j)

/-- Before its errand a flow keeps to its parts and to the answer. -/
theorem Contest.perform (contest : commons.Contest key pid ttl errand answer)
    (attended : move.Attended answer) (performed : commons.perform move = some later) :
    later.Contest key pid ttl errand answer := by
  apply Contest.mk (contest.rivals.perform performed)
  rcases contest.flow with ⟨flow, seated, same, early⟩
  rcases perform_cases performed none with ⟨party, history⟩ |
    ⟨call, next, reply, -, pending, party, -, history⟩ | ⟨turn, rfl, turned, history⟩
  · exact ⟨flow, party.trans seated, same, by rwa [history]⟩
  · rw [seated] at pending
    rcases Party.pending?_inl_eq_some_iff.mp pending with ⟨go, stops, rfl⟩
    have onward : (go reply).errand = flow.errand ∧ (go reply).phase = flow.phase := by
      rcases Flow.pending?_eq_some_iff.mp stops with ⟨_, -, rfl⟩
      exact ⟨rfl, rfl⟩
    have still : (go reply).phase.isEarly →
        (go reply).Kept key (pid none) (ttl none) (later.history none) ∧
          (go reply).Heeds answer := by
      intro isEarly
      rw [onward.2] at isEarly
      rcases early isEarly with ⟨kept, heeds⟩
      rw [history]
      exact ⟨(kept.call stops).2 reply _, heeds.call stops reply⟩
    exact ⟨go reply, party, onward.1.trans same, still⟩
  · rw [seated] at turned
    rcases Party.turn?_inl_cases turned with ⟨own, flow', rfl, turns, party⟩
    rw [history]
    rcases Flow.turn?_cases turns with ⟨act, rest, rfl, acted, rfl⟩ |
      ⟨errand, phase, result, rfl, rfl, next⟩
    · have still (isEarly : flow.phase.isEarly) :
          Flow.Kept key (pid none) (ttl none) { flow with rest := rest } (commons.history none) ∧
            Flow.Heeds answer { flow with rest := rest } := by
        rcases early isEarly with ⟨kept, heeds⟩
        exact ⟨Procedure.keeps_turn kept acted, heeds.act attended acted⟩
      exact ⟨_, party, same, still⟩
    · have still (isEarly : flow'.phase.isEarly) :
          flow'.Kept key (pid none) (ttl none) (commons.history none) ∧ flow'.Heeds answer := by
        rcases Flow.early_next next isEarly with ⟨wasEarly, notYet⟩
        rcases early wasEarly with ⟨kept, heeds⟩
        exact ⟨Flow.kept_next kept.1 (fun guard same => absurd same (notYet guard)) next,
          Flow.heeds_next heeds next⟩
      exact ⟨flow', party, (Flow.errand_next next).trans same, still⟩

/-- What others do leaves the record with others. -/
theorem foreign_perform (alone : ∀ j : κ, pid (some j) ≠ pid none)
    (rivals : commons.Rivals key pid ttl)
    (foreign : commons.keyspace.Foreign key (pid none)) (fair : move.Fair key)
    (others : move ≠ .serve none) (performed : commons.perform move = some later) :
    later.keyspace.Foreign key (pid none) := by
  cases move with
  | serve i =>
      rcases perform_serve_eq_some_iff.mp performed with ⟨call, next, pending, rfl⟩
      cases i with
      | none => exact absurd rfl others
      | some j =>
          have acts := ((rivalConduct key pid ttl).call (rivals j) pending).1
          exact foreign.serve_of_ne acts (alone j)
  | fail i fault =>
      rcases perform_fail_eq_some_iff.mp performed with ⟨call, next, -, rfl⟩
      exact foreign
  | turn i turn =>
      rcases perform_turn_eq_some_iff.mp performed with ⟨p, -, rfl⟩
      exact foreign
  | stranger call =>
      cases performed
      exact foreign.serve_of_spares fair
  | advance time =>
      rcases perform_advance_eq_some_iff.mp performed with ⟨-, rfl⟩
      exact foreign
  | turnBack time => exact fair.elim

/-- A doomed flow stays doomed whatever happens, unless it creates the record. -/
theorem Displaced.perform (alone : ∀ j : κ, pid (some j) ≠ pid none)
    (displaced : commons.Displaced key pid ttl errand answer base) (fair : move.Fair key)
    (attended : move.Attended answer) (performed : commons.perform move = some later) :
    later.Displaced key pid ttl errand answer base := by
  have grows := perform_history_suffix performed none
  apply Displaced.mk (displaced.rivals.perform performed) (displaced.grown.trans grows)
  rcases displaced.course with recreated | ⟨foreign, flow, seated, same, doomed⟩
  · exact .inl (recreated.mono grows)
  by_cases own : move = .serve none
  · subst own
    rcases perform_serve_eq_some_iff.mp performed with ⟨call, next, pending, rfl⟩
    rw [seated] at pending
    rcases Party.pending?_inl_eq_some_iff.mp pending with ⟨go, stops, rfl⟩
    rcases doomed.call stops with ⟨acts, after⟩
    simp only [record_self_history, record_self_party]
    rcases foreign.renewal?_own acts with creates | idle
    · exact .inl (History.recreated_cons creates displaced.grown)
    · rcases foreign.serve_own acts with creates | foreign'
      · exact .inl (History.recreated_cons creates displaced.grown)
      · have onward : (go (.ok (commons.keyspace.serve commons.now call).1)).errand = errand := by
          rcases Flow.pending?_eq_some_iff.mp stops with ⟨_, -, rfl⟩
          exact same
        exact .inr ⟨foreign', _, rfl, onward, after _ _ idle⟩
  · apply Or.inr
    apply And.intro (foreign_perform alone displaced.rivals foreign fair own performed)
    rcases perform_cases performed none with ⟨party, history⟩ |
      ⟨_, _, _, rfl | ⟨fault, rfl⟩, -⟩ | ⟨turn, rfl, turned, history⟩
    · exact ⟨flow, party.trans seated, same, by rwa [history]⟩
    · exact absurd rfl own
    · exact attended.elim
    · rw [seated] at turned
      rcases Party.turn?_inl_cases turned with ⟨turn, flow', rfl, turns, party⟩
      rw [history]
      rcases Flow.turn?_cases turns with ⟨act, rest, rfl, acted, rfl⟩ |
        ⟨_, phase, result, rfl, rfl, next⟩
      · exact ⟨_, party, same, doomed.act attended acted⟩
      · exact ⟨flow', party, (Flow.errand_next next).trans same, Flow.doomed_next doomed next⟩

section

variable {keyspace : Keyspace} {now : Instant} {displaced : Commons (Option κ) (Flow α ⊕ Seat)}
  {first rest : List (Move (Option κ) (Flow.Turn ⊕ Seat.Turn))} {flow : Flow α}

omit [DecidableEq κ] in
theorem contest_start :
    (contested keyspace now key pid ttl errand).Contest key pid ttl errand answer where
  rivals := fun _ => Seat.good_idle ⟨rfl, rfl, rfl, fun held => nomatch held⟩
  flow := ⟨_, rfl, rfl, fun _ =>
    ⟨Flow.kept_start ⟨rfl, rfl, rfl, fun held => nomatch held⟩, trivial⟩⟩

omit [DecidableEq κ] in
/-- A flow that waits while the record is somebody else's is doomed. -/
theorem Contest.displaced_of_owned (contest : commons.Contest key pid ttl errand answer)
    (seated : commons.party none = .inl flow)
    (waiting : flow.IsWaiting key (commons.history none)) {other : Pid}
    (different : other ≠ pid none) (owned : commons.Owned key other) :
    commons.Displaced key pid ttl errand answer (commons.history none) := by
  rcases owned with ⟨entry, live, others⟩
  rcases contest.flow with ⟨flow', seated', same, early⟩
  obtain rfl := Sum.inl.inj (seated.symm.trans seated')
  have foreign : commons.keyspace.Foreign key (pid none) :=
    Keyspace.foreign_of_live live others different
  have doomed : flow.Doomed key (pid none) (ttl none) answer (commons.history none) := by
    rcases flow with ⟨errand, phase, rest⟩
    cases phase with
    | acquiring => exact .acquiring (early rfl).1 waiting
    | asking guard => exact .asking (early rfl).1 (early rfl).2
    | reconciling guard => exact .reconciling (early rfl).1 (early rfl).2 (.stops waiting)
    | operating guard => exact waiting.elim
    | leaving => exact waiting.elim
  exact ⟨contest.rivals, List.suffix_refl _, .inr ⟨foreign, flow, seated, same, doomed⟩⟩

/-- If at any instant between the acquisition and the last call of reconciling the
live record is somebody else's, the operation is never begun: the errand fails with
the loss of the lock, or with what came of asking if that was not to go on. This is
so whatever happens to the record then, unless the flow itself creates it anew. -/
theorem displaced_fails (alone : ∀ j : κ, pid (some j) ≠ pid none)
    (fair : ∀ move ∈ first ++ rest, move.Fair key)
    (attended : ∀ move ∈ first ++ rest, move.Attended answer)
    (reached : (contested keyspace now key pid ttl errand).play first = some displaced)
    (seated : displaced.party none = .inl flow)
    (waiting : flow.IsWaiting key (displaced.history none)) {other : Pid}
    (different : other ≠ pid none) (owned : displaced.Owned key other)
    (played : displaced.play rest = some later) :
    History.Recreated key (pid none) (displaced.history none) (later.history none) ∨
      ∃ flow, later.party none = .inl flow ∧ flow.errand = errand ∧ flow.Fails answer := by
  have contest := play_induction (Move.Attended answer)
    (fun commons => commons.Contest key pid ttl errand answer)
    (fun attended contest performed => contest.perform attended performed)
    (fun move member => attended move (List.mem_append_left _ member)) reached contest_start
  have ends := play_induction (fun move => move.Fair key ∧ move.Attended answer)
    (fun commons => commons.Displaced key pid ttl errand answer (displaced.history none))
    (fun allowed displaced performed =>
      displaced.perform alone allowed.1 allowed.2 performed)
    (fun move member => ⟨fair move (List.mem_append_right _ member),
      attended move (List.mem_append_right _ member)⟩) played
    (contest.displaced_of_owned seated waiting different owned)
  rcases ends.course with recreated | ⟨-, flow', seated', same, doomed⟩
  · exact .inl recreated
  · exact .inr ⟨flow', seated', same, doomed.fails⟩

end

/-! ## A quarrel -/

/-- The process numbers of a flow and its rival. -/
def quarrelPid (i : Option Unit) : Pid :=
  if i.isNone then 1 else 2

/-- An errand that asks before it is done. -/
def quarrelErrand : Errand Nat :=
  ⟨.ofSeconds 3, some "continue?", fun c => return (.ok 42, c)⟩

/-- A flow with one rival. -/
def quarrel : Commons (Option Unit) (Flow Nat ⊕ Seat) :=
  contested .empty (.ofSinceEpoch 0) "lock" quarrelPid (fun _ => .ofSeconds 10) quarrelErrand

/-- The flow acquires the lock and asks, the record lapses and the rival takes it. -/
def lapse : List (Move (Option Unit) (Flow.Turn ⊕ Seat.Turn)) :=
  [.serve none, .turn none (.inl (.act .note)), .turn none (.inl .pass),
    .turn none (.inl (.act (.patience 0))), .advance (.ofSinceEpoch 10000000000),
    .turn (some ()) (.inr (.start .acquire)), .serve (some ()),
    .turn (some ()) (.inr (.act .note)), .turn (some ()) (.inr .finish)]

/-- The answer is to go on, and the flow finds the record with the rival. -/
def lapseAndLose : List (Move (Option Unit) (Flow.Turn ⊕ Seat.Turn)) :=
  [.turn none (.inl (.act (.answer (.ok true)))), .turn none (.inl .pass), .serve none,
    .turn none (.inl (.act .note)), .turn none (.inl .pass), .turn none (.inl (.act .note))]

theorem displaced_fails_of_lapse :
    ∃ displaced later flow, quarrel.play lapse = some displaced ∧
      displaced.party none = .inl flow ∧ flow.IsWaiting "lock" (displaced.history none) ∧
      displaced.Owned "lock" 2 ∧ displaced.play lapseAndLose = some later ∧
      (History.Recreated "lock" (quarrelPid none) (displaced.history none) (later.history none) ∨
        ∃ flow, later.party none = .inl flow ∧ flow.errand = quarrelErrand ∧
          flow.Fails (.ok true)) := by
  obtain ⟨displaced, later, flow, reached, seated, waiting, owned, played⟩ :
      ∃ displaced later flow, quarrel.play lapse = some displaced ∧
        displaced.party none = .inl flow ∧ flow.IsWaiting "lock" (displaced.history none) ∧
        displaced.Owned "lock" 2 ∧ displaced.play lapseAndLose = some later := by
    exact ⟨_, _, _, rfl, rfl, trivial, by decide, rfl⟩
  have fair : ∀ move ∈ lapse ++ lapseAndLose, move.Fair "lock" := by
    simp [lapse, lapseAndLose, Move.Fair]
  have attended : ∀ move ∈ lapse ++ lapseAndLose, move.Attended (.ok true) := by
    simp [lapse, lapseAndLose, Move.Attended, Procedure.Turn.Heeds]
  exact ⟨displaced, later, flow, reached, seated, waiting, owned, played,
    displaced_fails (fun _ => show (2 : Pid) ≠ 1 by decide) fair attended reached seated waiting
      (by decide) owned played⟩

/-- The rival gives the lock up again before the answer. The flow finds no record,
creates it anew and operates. -/
def lapseAndReturn : List (Move (Option Unit) (Flow.Turn ⊕ Seat.Turn)) :=
  [.turn (some ()) (.inr (.start .release)), .serve (some ()),
    .turn (some ()) (.inr (.act .note)), .turn (some ()) (.inr .finish),
    .turn none (.inl (.act (.answer (.ok true)))), .turn none (.inl .pass),
    .serve none, .serve none, .turn none (.inl (.act .note)), .turn none (.inl .pass)]

/-- The flow operates although the record was the rival's while it asked: by then it is the
flow's again. -/
theorem operates_after_displacement :
    ∃ displaced later flow flow' guard, quarrel.play lapse = some displaced ∧
      displaced.party none = .inl flow ∧ flow.IsWaiting "lock" (displaced.history none) ∧
      displaced.Owned "lock" 2 ∧ displaced.play lapseAndReturn = some later ∧
      later.party none = .inl flow' ∧ flow'.phase = .operating guard ∧
      later.Owned "lock" 1 := by
  exact ⟨_, _, _, _, _, rfl, rfl, trivial, by decide, rfl, rfl, rfl, by decide⟩

end Commons

end Leasehold
