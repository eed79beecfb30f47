import Leasehold.Proofs.Lock.Abandoned
import Leasehold.Proofs.Lock.Acquisition

/-!
# Locks that heal

The owner of the lock has died and any number of contenders try to acquire it. If
the record expires, none of them moves its expiry. If it does not, then the first
that gets so far gives it one, which is the only one, and is told that the lock was
stale; all others are told that the lock is taken. Either way the record stays as it
is until its expiry and can be made anew from then on. So a dead lock heals within
one lifetime, and contention does not put that off.

The record goes through stages, and an invariant for each says what all calls so far
can have told; what one attempt is told follows from its own calls and the stage.
-/

namespace Leasehold

open LockRecord

/-! ## Contenders -/

namespace Claimant

/-- That a claimant is still the same, whatever it has learned of the lock since, and
takes the lock for its own only if it has made the record. -/
structure Contending (c origin : Claimant) (history : History) : Prop where
  key_eq : c.key = origin.key
  pid_eq : c.pid = origin.pid
  ttl_eq : c.ttl = origin.ttl
  taken : c.standing = .heldBySelf → ∃ made ∈ history, made.takes origin.key = true

variable {c origin : Claimant} {base later : History}

theorem contending_start (without : c.standing ≠ .heldBySelf) : c.Contending c base :=
  ⟨rfl, rfl, rfl, fun held => absurd held without⟩

theorem Contending.mono (contending : c.Contending origin base)
    (grows : ∀ made ∈ base, made ∈ later) : c.Contending origin later := by
  rcases contending with ⟨sameKey, samePid, sameTtl, taken⟩
  refine ⟨sameKey, samePid, sameTtl, ?_⟩
  intro held
  rcases taken held with ⟨made, member, takes⟩
  exact ⟨made, grows made member, takes⟩

/-- Whatever an attempt comes to, the claimant goes on contending. -/
theorem Attempted.contending {result : Except Failure Unit × Claimant}
    (attempted : c.Attempted base result later) (contending : c.Contending origin base) :
    result.2.Contending origin later := by
  cases attempted with
  | held held => exact contending
  | created time =>
      rcases contending with ⟨sameKey, samePid, sameTtl, -⟩
      refine ⟨sameKey, samePid, sameTtl, fun _ => ⟨_, List.mem_cons_self, ?_⟩⟩
      simp [MadeCall.takes, sameKey]
  | failed without call failure time quiet =>
      exact contending.mono fun made member => List.mem_cons_of_mem _ (quiet.mem member)
  | taken | armed | changed =>
      rcases contending with ⟨sameKey, samePid, sameTtl, -⟩
      exact ⟨sameKey, samePid, sameTtl, by simp⟩

end Claimant

/-- That a seat belongs to a contender and that in an operation it makes a contender's
calls only. -/
structure Seat.Contending (origin : Claimant) (seat : Seat) (history : History) : Prop where
  between : seat.claimant.Contending origin history
  within : ∀ operation rest, seat.work? = some ⟨operation, rest⟩ →
    rest.Keeps (Procedure.calls (StoreCall.Contends origin.key origin.pid origin.ttl))
      (fun result later => result.2.Contending origin later) history

/-- That nobody but contenders writes the record under a key, that nothing fails and
that the clock does not go back. -/
def Move.Contends {ι : Type} (key : String) : Move ι Seat.Turn → Prop
  | .fail .. => False
  | .stranger call => call.Spares key
  | .turnBack _ => False
  | .turn _ (.start operation) => operation = .acquire
  | _ => True

namespace Commons

variable {ι : Type} [DecidableEq ι] {origin : ι → Claimant} {key : String}
  {commons later began : Commons ι Seat} {move : Move ι Seat.Turn} {moves : List (Move ι Seat.Turn)}

/-- That all parties contend for the record under a key, and every call so far has been
answered. -/
structure Contending (key : String) (origin : ι → Claimant) (commons : Commons ι Seat) :
    Prop where
  shared : ∀ i, (origin i).key = key
  seats : ∀ i, (commons.party i).Contending (origin i) (commons.history i)
  answered : ∀ i, ∀ made ∈ commons.history i, made.reply.isOk = true

theorem Contending.perform (contending : commons.Contending key origin)
    (contends : move.Contends key) (performed : commons.perform move = some later) :
    later.Contending key origin := by
  rcases contending with ⟨shared, seats, answered⟩
  refine ⟨shared, ?_, ?_⟩
  · intro i
    rcases seats i with ⟨between, within⟩
    rcases perform_cases performed i with ⟨party, history⟩ |
      ⟨call, next, reply, -, pending, party, -, history⟩ | ⟨turn, rfl, turned, history⟩
    · rw [party, history]
      exact seats i
    · rw [party, history]
      rcases Seat.pending?_eq_some_iff.mp pending with ⟨operation, rest, go, working, stops, rfl⟩
      constructor
      · exact between.mono fun made member => List.mem_cons_of_mem _ member
      · rintro _ _ ⟨⟩
        exact (Procedure.keeps_pending (within operation rest working) stops).2 reply commons.now
    · rw [history]
      rcases Seat.turn?_cases turned with ⟨operation, rfl, idle, same⟩ |
        ⟨act, operation, rest, rest', rfl, working, acted, same⟩ |
        ⟨operation, outcome, c, rfl, working, same⟩
      · cases show operation = .acquire from contends
        rw [same]
        have begun := (commons.party i).claimant.acquire_attempted (commons.history i)
        rw [between.key_eq, between.pid_eq, between.ttl_eq] at begun
        constructor
        · exact between
        · rintro _ _ ⟨⟩
          exact Procedure.keeps_ofLock
            (begun.mono fun _ _ attempted => attempted.contending between)
      · rw [same]
        constructor
        · exact between
        · rintro _ _ ⟨⟩
          exact Procedure.keeps_turn (within operation rest working) acted
      · rw [same]
        constructor
        · exact within operation _ working
        · intro _ _ idle
          contradiction
  · intro i made member
    cases move with
    | fail j fault => exact contends.elim
    | serve j =>
        rcases perform_serve_eq_some_iff.mp performed with ⟨call, next, pending, rfl⟩
        rcases mem_record_history.mp member with ⟨rfl, rfl⟩ | earlier
        · rfl
        · exact answered i made earlier
    | turn j turn =>
        rcases perform_turn_eq_some_iff.mp performed with ⟨seat, -, rfl⟩
        exact answered i made member
    | stranger call =>
        cases performed
        exact answered i made member
    | advance time =>
        rcases perform_advance_eq_some_iff.mp performed with ⟨-, rfl⟩
        exact answered i made member
    | turnBack time => exact contends.elim

omit [DecidableEq ι] in
theorem Contending.pending_contends (contending : commons.Contending key origin) {i : ι}
    {call : StoreCall} {next : call.Reply → Seat}
    (pending : Party.pending? (commons.party i) = some ⟨call, next⟩) :
    call.Contends key (origin i).pid (origin i).ttl := by
  rcases Seat.pending?_eq_some_iff.mp pending with ⟨operation, rest, go, working, stops, rfl⟩
  have kept := (contending.seats i).within operation rest working
  rw [contending.shared i] at kept
  exact (Procedure.keeps_pending kept stops).1

/-! ## Stages of the record -/

/-- That the record has no expiry, and no call has told otherwise. -/
structure Lasting (key : String) (fields : Fields) (commons : Commons ι Seat) : Prop where
  record : commons.keyspace.entries.get? key = some ⟨fields, none⟩
  silent : ∀ i, ∀ made ∈ commons.history i, made.tells key = false

/-- That the record has an expiry: it stays until then and nobody has made it anew
before. The calls that have given records an expiry are those listed. -/
structure Lapsing (key : String) (fields : Fields) (expiry : Instant) (armed : ι → List MadeCall)
    (commons : Commons ι Seat) : Prop where
  before : commons.now < expiry →
    commons.keyspace.entries.get? key = some ⟨fields, some expiry⟩
  late : ∀ i, ∀ made ∈ commons.history i, made.takes key = true → expiry ≤ made.time
  unchanged : (∀ i, ∀ made ∈ commons.history i, made.takes key = false) →
    ∀ entry, commons.keyspace.entries.get? key = some entry → entry = ⟨fields, some expiry⟩
  expires : ∀ entry, commons.keyspace.entries.get? key = some entry → entry.expiresAt.isSome
  armings : ∀ i, (commons.history i).filter (MadeCall.arms key) = armed i

variable {fields : Fields} {expiry : Instant} {armed : ι → List MadeCall} {entry : Entry}

omit [DecidableEq ι] in
/-- Before its expiry a lapsing record is live. -/
theorem Lapsing.live (lapsing : commons.Lapsing key fields expiry armed)
    (early : commons.now < expiry) :
    commons.keyspace.live? key commons.now = some ⟨fields, some expiry⟩ :=
  Keyspace.live?_eq_some_iff.mpr
    ⟨lapsing.before early, Entry.isExpired_eq_false_of_lt rfl early⟩

omit [DecidableEq ι] in
/-- A record with an expiry that nobody writes goes on lapsing. -/
theorem Lapsing.purge (lapsing : commons.Lapsing key fields expiry armed) {keyspace : Keyspace}
    (same : keyspace.entries.get? key = commons.keyspace.live? key commons.now) :
    Lapsing key fields expiry armed { commons with keyspace := keyspace } := by
  constructor
  · intro early
    rw [same]
    exact lapsing.live early
  · exact lapsing.late
  · intro untaken entry found
    rw [same] at found
    exact lapsing.unchanged untaken entry (Keyspace.get?_of_live? found)
  · intro entry found
    rw [same] at found
    exact lapsing.expires entry (Keyspace.get?_of_live? found)
  · exact lapsing.armings

/-- Calls that neither make the record nor give it an expiry do not count. -/
theorem Lapsing.record (lapsing : commons.Lapsing key fields expiry armed) {made : MadeCall}
    (unarmed : made.arms key = false) (untaken : made.takes key = false) (i : ι) (seat : Seat) :
    (commons.record i made seat).Lapsing key fields expiry armed := by
  constructor
  · exact lapsing.before
  · intro j other member takes
    rcases mem_record_history.mp member with ⟨rfl, rfl⟩ | earlier
    · rw [untaken] at takes
      contradiction
    · exact lapsing.late j other earlier takes
  · intro none
    exact lapsing.unchanged fun j other earlier =>
      none j other (mem_record_history.mpr (.inr earlier))
  · exact lapsing.expires
  · intro j
    rw [filter_record_history unarmed]
    exact lapsing.armings j

theorem Lapsing.serve (lapsing : commons.Lapsing key fields expiry armed) {call : StoreCall}
    {owner : Pid} {ttl : Duration} (contends : call.Contends key owner ttl) (i : ι) (seat : Seat) :
    Lapsing key fields expiry armed
      ({ commons with keyspace := (commons.keyspace.serve commons.now call).2 }.record i
        ⟨call, .ok (commons.keyspace.serve commons.now call).1, commons.now⟩ seat) := by
  have expires : ∀ entry, commons.keyspace.live? key commons.now = some entry →
      entry.expiresAt.isSome :=
    fun entry live => lapsing.expires entry (Keyspace.get?_of_live? live)
  rcases Keyspace.serve_expiring contends expires with
    ⟨unarmed, ⟨untaken, same⟩ | ⟨takes, gone, made⟩⟩
  · exact (lapsing.purge same).record unarmed untaken i seat
  · -- The record is made anew, which happens only once its expiry has come.
    have due : expiry ≤ commons.now := by
      by_contra early
      rw [lapsing.live (not_le.mp early)] at gone
      contradiction
    constructor
    · intro early
      exact absurd due (not_le.mpr early)
    · intro j other member _
      rcases mem_record_history.mp member with ⟨rfl, rfl⟩ | earlier
      · exact due
      · exact lapsing.late j other earlier ‹_›
    · intro untaken
      have taken := untaken i _ (mem_record_history.mpr (.inl ⟨rfl, rfl⟩))
      rw [takes] at taken
      contradiction
    · intro entry found
      obtain rfl := Option.some.inj (made.symm.trans found)
      rfl
    · intro j
      rw [filter_record_history unarmed]
      exact lapsing.armings j

/-- No move of contenders gets a lapsing record out of its course. -/
theorem Lapsing.perform (lapsing : commons.Lapsing key fields expiry armed)
    (contending : commons.Contending key origin) (contends : move.Contends key)
    (performed : commons.perform move = some later) :
    later.Lapsing key fields expiry armed := by
  cases move with
  | serve i =>
      rcases perform_serve_eq_some_iff.mp performed with ⟨call, next, pending, rfl⟩
      exact lapsing.serve (contending.pending_contends pending) i _
  | fail i fault => exact contends.elim
  | turn i turn =>
      rcases perform_turn_eq_some_iff.mp performed with ⟨seat, -, rfl⟩
      exact ⟨lapsing.before, lapsing.late, lapsing.unchanged, lapsing.expires, lapsing.armings⟩
  | stranger call =>
      cases performed
      exact lapsing.purge (Keyspace.get?_serve_of_spares contends _ _)
  | advance time =>
      rcases perform_advance_eq_some_iff.mp performed with ⟨passes, rfl⟩
      exact ⟨fun early => lapsing.before (lt_of_le_of_lt passes early), lapsing.late,
        lapsing.unchanged, lapsing.expires, lapsing.armings⟩
  | turnBack time => exact contends.elim

/-- The one call that gives the record an expiry. -/
def arming (key : String) (origin : ι → Claimant) (i : ι) (time : Instant) : ι → List MadeCall :=
  Function.update (fun _ => []) i [⟨.expire key (origin i).ttl .noExpiry, .ok true, time⟩]

theorem Lasting.serve (lasting : commons.Lasting key fields) {call : StoreCall} {i : ι}
    (contends : call.Contends key (origin i).pid (origin i).ttl) (seat : Seat) :
    let served := { commons with keyspace := (commons.keyspace.serve commons.now call).2 }.record i
      ⟨call, .ok (commons.keyspace.serve commons.now call).1, commons.now⟩ seat
    served.Lasting key fields ∨
      served.Lapsing key fields (commons.now.add (origin i).ttl)
        (arming key origin i commons.now) := by
  rcases Keyspace.serve_lasting contends lasting.record with ⟨untold, same⟩ | ⟨made, armed⟩
  · left
    constructor
    · exact same
    · intro j other member
      rcases mem_record_history.mp member with ⟨rfl, rfl⟩ | earlier
      · exact untold
      · exact lasting.silent j other earlier
  · right
    simp only [made]
    have untaken : ∀ j, ∀ other ∈ commons.history j, other.takes key = false := by
      intro j other member
      by_contra takes
      have told := MadeCall.tells_of_takes (Bool.not_eq_false _ ▸ takes)
      rw [lasting.silent j other member] at told
      contradiction
    constructor
    · intro _
      exact armed
    · intro j other member takes
      rcases mem_record_history.mp member with ⟨rfl, rfl⟩ | earlier
      · contradiction
      · rw [untaken j other earlier] at takes
        contradiction
    · intro _ entry found
      exact Option.some.inj (found.symm.trans armed)
    · intro entry found
      obtain rfl := Option.some.inj (armed.symm.trans found)
      rfl
    · intro j
      have unarmed : (commons.history j).filter (MadeCall.arms key) = [] := by
        apply List.filter_eq_nil_iff.mpr
        intro other member arms
        have told := MadeCall.tells_of_arms arms
        rw [lasting.silent j other member] at told
        contradiction
      by_cases same : j = i
      · subst same
        simp [arming, unarmed, MadeCall.arms]
      · rw [record_history_of_ne _ _ same]
        simp [arming, same, unarmed]

/-- How far the record has got that was there at the start. -/
inductive Stage (key : String) (origin : ι → Claimant) (entry : Entry) (commons : Commons ι Seat) :
    Prop
  | lasting (unending : entry.expiresAt = none) (lasting : commons.Lasting key entry.fields) :
      Stage key origin entry commons
  | lapsing {expiry : Instant} (expires : entry.expiresAt = some expiry)
      (lapsing : commons.Lapsing key entry.fields expiry fun _ => []) :
      Stage key origin entry commons
  | armed (unending : entry.expiresAt = none) (i : ι) (time : Instant)
      (lapsing : commons.Lapsing key entry.fields (time.add (origin i).ttl)
        (arming key origin i time)) :
      Stage key origin entry commons

/-- Contenders get the record on from stage to stage and no other way. -/
theorem Stage.perform (stage : commons.Stage key origin entry)
    (contending : commons.Contending key origin) (contends : move.Contends key)
    (performed : commons.perform move = some later) : later.Stage key origin entry := by
  cases stage with
  | lapsing expires lapsing =>
      exact .lapsing expires (lapsing.perform contending contends performed)
  | armed unending i time lapsing =>
      exact .armed unending i time (lapsing.perform contending contends performed)
  | lasting unending lasting =>
      cases move with
      | serve i =>
          rcases perform_serve_eq_some_iff.mp performed with ⟨call, next, pending, rfl⟩
          rcases lasting.serve (contending.pending_contends pending) _ with lasts | lapses
          · exact .lasting unending lasts
          · exact .armed unending i commons.now lapses
      | fail i fault => exact contends.elim
      | turn i turn =>
          rcases perform_turn_eq_some_iff.mp performed with ⟨seat, -, rfl⟩
          exact .lasting unending ⟨lasting.record, lasting.silent⟩
      | stranger call =>
          cases performed
          have kept := (Keyspace.get?_serve_of_spares contends commons.keyspace commons.now).trans
            (Keyspace.live?_of_lasting lasting.record)
          exact .lasting unending ⟨kept, lasting.silent⟩
      | advance time =>
          rcases perform_advance_eq_some_iff.mp performed with ⟨-, rfl⟩
          exact .lasting unending ⟨lasting.record, lasting.silent⟩
      | turnBack time => exact contends.elim

/-- Contenders that have not called yet. -/
def contest (keyspace : Keyspace) (now : Instant) (origin : ι → Claimant) : Commons ι Seat :=
  start keyspace now fun i => .idle (origin i)

section

variable {keyspace : Keyspace} {now : Instant}

omit [DecidableEq ι] in
theorem contending_contest (shared : ∀ i, (origin i).key = key)
    (without : ∀ i, (origin i).standing ≠ .heldBySelf) :
    (contest keyspace now origin).Contending key origin := by
  constructor
  · exact shared
  · intro i
    constructor
    · exact Claimant.contending_start (without i)
    · intro _ _ working
      contradiction
  · intro i made member
    contradiction

theorem stage_contest (live : keyspace.live? key now = some entry) :
    (contest keyspace now origin).Stage key origin entry := by
  have record := Keyspace.get?_of_live? live
  rcases entry with ⟨fields, _ | expiry⟩
  · apply Stage.lasting rfl
    constructor
    · exact record
    · intro i made member
      contradiction
  · apply Stage.lapsing rfl
    constructor
    · intro _
      exact record
    · intro i made member
      contradiction
    · intro _ entry found
      exact Option.some.inj (found.symm.trans record)
    · intro entry found
      obtain rfl := Option.some.inj (record.symm.trans found)
      rfl
    · intro i
      rfl

end

/-- Along every schedule of contenders the record goes from stage to stage. -/
theorem Stage.play (contends : ∀ move ∈ moves, move.Contends key)
    (played : commons.play moves = some later) (contending : commons.Contending key origin)
    (stage : commons.Stage key origin entry) :
    later.Contending key origin ∧ later.Stage key origin entry :=
  play_induction (Move.Contends key)
    (fun commons => commons.Contending key origin ∧ commons.Stage key origin entry)
    (fun contends kept performed => ⟨kept.1.perform contends performed,
      kept.2.perform kept.1 contends performed⟩)
    contends played ⟨contending, stage⟩

/-! ## Attempts -/

/-- That a claimant calls `acquire` and, after some moves in which it does not start
another operation, is told how that has gone. -/
structure Attempts (called : Commons ι Seat) (i : ι) (moves : List (Move ι Seat.Turn))
    (outcome : Except Failure Unit) (later : Commons ι Seat) : Prop where
  played : called.play (.turn i (.start .acquire) :: moves) = some later
  single : ∀ operation, .turn i (.start operation) ∉ moves
  told : ∃ c, (later.party i).work? = some ⟨.acquire, .done (outcome, c)⟩

/-- That in a run a claimant completes an attempt to acquire the lock, with that
outcome and by those calls. -/
def Completes (began : Commons ι Seat) (moves : List (Move ι Seat.Turn)) (i : ι)
    (outcome : Except Failure Unit) (calls : List MadeCall) : Prop :=
  ∃ first during rest called told,
    moves = first ++ (.turn i (.start .acquire) :: during ++ rest) ∧
      began.play first = some called ∧ called.Attempts i during outcome told ∧
      told.history i = calls ++ called.history i

theorem Attempts.attempted {called told : Commons ι Seat} {i : ι} {outcome : Except Failure Unit}
    (attempts : called.Attempts i moves outcome told) :
    ∃ result, (called.party i).claimant.Attempted (called.history i) (outcome, result)
      (told.history i) := by
  rcases play_cons_eq_some_iff.mp attempts.played with ⟨opened, performed, played⟩
  rcases attempts.told with ⟨result, told⟩
  rcases pursuing_start performed (Claimant.acquire_attempted _ _) with ⟨-, pursuing⟩
  rcases play_pursuing attempts.single played pursuing with none | ⟨rest, working, kept⟩
  · rw [none] at told
    contradiction
  · cases told.symm.trans working
    exact ⟨result, kept⟩

/-- What a completed attempt comes to, in terms of what is known at the end of the
run. -/
theorem Completes.attempted {i : ι} {outcome : Except Failure Unit} {calls : List MadeCall}
    (contends : ∀ move ∈ moves, move.Contends key) (contending : began.Contending key origin)
    (completes : began.Completes moves i outcome calls) (played : began.play moves = some later) :
    ∃ (c : Claimant) (base : History) (result : Claimant), c.Contending (origin i) base ∧
      c.Attempted base (outcome, result) (calls ++ base) ∧
      ∀ made ∈ calls ++ base, made ∈ later.history i := by
  rcases completes with ⟨first, during, rest, called, told, rfl, reached, attempts, history⟩
  rcases play_append_eq_some_iff.mp played with ⟨called', reached', played⟩
  obtain rfl := Option.some.inj (reached.symm.trans reached')
  rcases play_append_eq_some_iff.mp played with ⟨told', completed, played⟩
  obtain rfl := Option.some.inj (attempts.played.symm.trans completed)
  have contending' := play_induction (Move.Contends key) (Contending key origin)
    (fun contends kept performed => kept.perform contends performed)
    (fun move member => contends move (List.mem_append_left _ member)) reached contending
  rcases attempts.attempted with ⟨result, attempted⟩
  rw [history] at attempted
  refine ⟨_, _, result, (contending'.seats i).between, attempted, ?_⟩
  intro made member
  rw [← history] at member
  exact (play_history_suffix played i).subset member

/-- What an attempt is told, if the record expires at that time: that the lock is stale
if the attempt has given the record this expiry, and otherwise that it is taken if the
attempt has claimed it before. -/
structure Told (key : String) (expiry : Instant) (outcome : Except Failure Unit)
    (calls : List MadeCall) : Prop where
  stale : outcome = .error .staleLock ↔ ∃ made ∈ calls, made.arms key = true
  taken : (∃ made ∈ calls, made.claims key = true ∧ made.time < expiry) →
    outcome ≠ .error .staleLock → ∃ owner, outcome = .error (.lockUnavailable owner)

section

variable {c result : Claimant} {base : History} {outcome : Except Failure Unit}
  {calls : List MadeCall} {i : ι}

omit [DecidableEq ι] in
/-- As long as the record has no expiry no attempt is completed, for each would have
told otherwise. -/
theorem Lasting.not_attempted (lasting : commons.Lasting key fields)
    (contending : commons.Contending key origin) (begins : c.Contending (origin i) base)
    (grows : ∀ made ∈ calls ++ base, made ∈ commons.history i) :
    ¬c.Attempted base (outcome, result) (calls ++ base) := by
  intro attempted
  have sameKey : c.key = key := begins.key_eq.trans (contending.shared i)
  have untold : ∀ made ∈ calls ++ base, made.tells key = false :=
    fun made member => lasting.silent i made (grows made member)
  have answered : ∀ made ∈ calls ++ base, made.reply.isOk = true :=
    fun made member => contending.answered i made (grows made member)
  generalize calls ++ base = all at *
  cases attempted with
  | held held =>
      rcases begins.taken held with ⟨made, member, takes⟩
      have told := MadeCall.tells_of_takes takes
      rw [contending.shared i, untold made member] at told
      contradiction
  | created time => simp [MadeCall.tells, sameKey] at untold
  | taken expires => simp [MadeCall.tells, sameKey, expires] at untold
  | armed => simp [MadeCall.tells, sameKey] at untold
  | changed => simp [MadeCall.tells, sameKey] at untold
  | failed without call failure time quiet => simp [Except.isOk, Except.toBool] at answered

omit [DecidableEq ι] in
/-- Each attempt is told what its calls have come to. -/
theorem Lapsing.told (lapsing : commons.Lapsing key fields expiry armed)
    (contending : commons.Contending key origin) (begins : c.Contending (origin i) base)
    (grows : ∀ made ∈ calls ++ base, made ∈ commons.history i)
    (attempted : c.Attempted base (outcome, result) (calls ++ base)) :
    Told key expiry outcome calls := by
  have sameKey : c.key = key := begins.key_eq.trans (contending.shared i)
  have late : ∀ made ∈ calls, made.takes key = true → expiry ≤ made.time :=
    fun made member => lapsing.late i made (grows made (List.mem_append_left _ member))
  have answered : ∀ made ∈ calls ++ base, made.reply.isOk = true :=
    fun made member => contending.answered i made (grows made member)
  generalize whole : calls ++ base = all at *
  cases attempted with
  | held held =>
      obtain rfl : calls = [] := List.append_cancel_right whole
      constructor <;> simp
  | created time =>
      obtain rfl : calls = [_] := List.append_cancel_right whole
      constructor
      · simp [MadeCall.arms]
      · rintro ⟨made, member, claims, early⟩
        obtain rfl := List.mem_singleton.mp member
        exact absurd (late _ member (by simp [MadeCall.takes, sameKey])) (not_le.mpr early)
  | taken expires fields first second third =>
      obtain rfl : calls = [_, _, _] := List.append_cancel_right whole
      constructor
      · simp [MadeCall.arms]
      · intro _ _
        exact ⟨_, rfl⟩
  | armed lasts first second third =>
      obtain rfl : calls = [_, _, _] := List.append_cancel_right whole
      constructor
      · simp [MadeCall.arms, sameKey]
      · intro _ other
        contradiction
  | changed lasts first second third =>
      obtain rfl : calls = [_, _, _] := List.append_cancel_right whole
      constructor
      · simp [MadeCall.arms]
      · intro _ _
        exact ⟨_, rfl⟩
  | failed without call failure time quiet => simp [Except.isOk, Except.toBool] at answered

end

/-! ## The record heals -/

/-- That the record under a key is as it was until its expiry, and that nobody makes it
anew before but the first that tries from then on. -/
structure Heals (key : String) (fields : Fields) (expiry : Instant) (commons : Commons ι Seat) :
    Prop where
  kept : commons.now < expiry →
    commons.keyspace.live? key commons.now = some ⟨fields, some expiry⟩
  late : ∀ i, ∀ made ∈ commons.history i, made.takes key = true → expiry ≤ made.time
  unchanged : (∀ i, ∀ made ∈ commons.history i, made.takes key = false) →
    ∀ entry, commons.keyspace.entries.get? key = some entry → entry = ⟨fields, some expiry⟩
  free : expiry ≤ commons.now → (∀ i, ∀ made ∈ commons.history i, made.takes key = false) →
    ∀ fields ttl, (commons.keyspace.serve commons.now (.create key fields ttl)).1 = true

omit [DecidableEq ι] in
theorem Lapsing.heals (lapsing : commons.Lapsing key fields expiry armed) :
    commons.Heals key fields expiry := by
  constructor
  · exact lapsing.live
  · exact lapsing.late
  · exact lapsing.unchanged
  · intro due untaken _ _
    rw [Keyspace.serve_create_answer, Option.isNone_iff_eq_none]
    apply Option.eq_none_iff_forall_not_mem.mpr
    intro entry live
    rcases Keyspace.live?_eq_some_iff.mp live with ⟨found, fresh⟩
    obtain rfl := lapsing.unchanged untaken entry found
    simp [Entry.isExpired, due] at fresh

/-- That no call has given the record under a key an expiry. -/
def NeverArmed (key : String) (commons : Commons ι Seat) : Prop :=
  ∀ i, (commons.history i).filter (MadeCall.arms key) = []

/-- That a single call of all has given the record under a key an expiry, which lies one
lifetime of its contender ahead of it. -/
def ArmedOnce (key : String) (origin : ι → Claimant) (expiry : Instant) (commons : Commons ι Seat) :
    Prop :=
  ∃ i time, expiry = time.add (origin i).ttl ∧
    ∀ j, (commons.history j).filter (MadeCall.arms key) = arming key origin i time j

/-- A record that is left alone heals whatever the contention. As long as it has no
expiry it is untouched and no attempt is completed. Once it has one, which either it
had from the start or a single call has given it, it stays as it is until then and can
be made anew from then on; the attempt that gave it the expiry is told that it was
stale, and every other attempt that claimed it before the expiry that it is taken. -/
theorem abandoned_heals (shared : ∀ i, (origin i).key = key)
    (without : ∀ i, (origin i).standing ≠ .heldBySelf) {keyspace : Keyspace} {now : Instant}
    (live : keyspace.live? key now = some entry) (contends : ∀ move ∈ moves, move.Contends key)
    (played : (contest keyspace now origin).play moves = some later) :
    (entry.expiresAt = none ∧ later.keyspace.live? key later.now = some entry ∧
      (∀ i, ∀ made ∈ later.history i, made.takes key = false ∧ made.arms key = false) ∧
      ∀ i outcome calls, ¬(contest keyspace now origin).Completes moves i outcome calls) ∨
    ∃ expiry,
      (entry.expiresAt = some expiry ∧ later.NeverArmed key ∨
        entry.expiresAt = none ∧ later.ArmedOnce key origin expiry) ∧
      later.Heals key entry.fields expiry ∧
      ∀ i outcome calls, (contest keyspace now origin).Completes moves i outcome calls →
        Told key expiry outcome calls := by
  have begins : (contest keyspace now origin).Contending key origin :=
    contending_contest shared without
  rcases Stage.play contends played begins (stage_contest live) with ⟨contending, stage⟩
  cases stage with
  | lasting unending lasting =>
      left
      refine ⟨unending, ?_, ?_, ?_⟩
      · rw [Keyspace.live?_of_lasting lasting.record, ← unending]
      · intro i made member
        have untold := lasting.silent i made member
        constructor
        · by_contra takes
          have told := MadeCall.tells_of_takes (Bool.not_eq_false _ ▸ takes)
          rw [untold] at told
          contradiction
        · by_contra arms
          have told := MadeCall.tells_of_arms (Bool.not_eq_false _ ▸ arms)
          rw [untold] at told
          contradiction
      · intro i outcome calls completes
        rcases completes.attempted contends begins played with
          ⟨c, base, result, start, attempted, grows⟩
        exact lasting.not_attempted contending start grows attempted
  | @lapsing expiry expires lapsing =>
      right
      refine ⟨expiry, .inl ⟨expires, lapsing.armings⟩, lapsing.heals, ?_⟩
      intro i outcome calls completes
      rcases completes.attempted contends begins played with
        ⟨c, base, result, start, attempted, grows⟩
      exact lapsing.told contending start grows attempted
  | armed unending i time lapsing =>
      right
      refine ⟨_, .inr ⟨unending, i, time, rfl, lapsing.armings⟩, lapsing.heals, ?_⟩
      intro i outcome calls completes
      rcases completes.attempted contends begins played with
        ⟨c, base, result, start, attempted, grows⟩
      exact lapsing.told contending start grows attempted

/-- Two contenders for a lock. -/
def rivals (i : Bool) : Claimant :=
  ⟨"lock", duelPid i, .ofSeconds 10, .free⟩

/-- A store with a lock whose owner has died, and which has no expiry. -/
def orphaned : Keyspace :=
  ⟨TextMap.empty.insert "lock" ⟨ownedBy 3, none⟩, false⟩

/-- Both find the lock taken and without expiry before one of them gives it one, and
the other makes it anew when that has come. -/
def race : List (Move Bool Seat.Turn) :=
  [.turn true (.start .acquire), .turn false (.start .acquire), .serve true, .serve false,
    .serve false, .serve true, .serve false, .turn false (.act .note), .turn false .finish,
    .serve true, .turn true (.act .note), .turn true .finish,
    .advance (.ofSinceEpoch 10000000000), .turn true (.start .acquire), .serve true]

/-- The first to get so far gives the lock its expiry, and the lock heals. -/
theorem abandoned_heals_of_race :
    ∃ later, (contest orphaned default rivals).play race = some later ∧
      ∃ expiry, later.ArmedOnce "lock" rivals expiry ∧ later.Heals "lock" (ownedBy 3) expiry := by
  have shared : ∀ i, (rivals i).key = "lock" := fun _ => rfl
  have without : ∀ i, (rivals i).standing ≠ .heldBySelf := by
    decide
  have live : orphaned.live? "lock" default = some ⟨ownedBy 3, none⟩ := by
    decide
  have contends : ∀ move ∈ race, move.Contends "lock" := by
    simp [race, Move.Contends]
  obtain ⟨later, played, taken⟩ :
      ∃ later, (contest orphaned default rivals).play race = some later ∧
        ∃ made ∈ later.history true, made.takes "lock" = true :=
    ⟨_, rfl, _, List.mem_cons_self, rfl⟩
  refine ⟨later, played, ?_⟩
  rcases abandoned_heals shared without live contends played with
    ⟨-, -, untouched, -⟩ | ⟨expiry, ⟨expires, -⟩ | ⟨-, once⟩, heals, -⟩
  · -- The record has been made anew in the end.
    rcases taken with ⟨made, member, takes⟩
    rw [(untouched true made member).1] at takes
    contradiction
  · contradiction
  · exact ⟨expiry, once, heals⟩

end Commons

end Leasehold
