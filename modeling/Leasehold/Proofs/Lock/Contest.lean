import Leasehold.Proofs.Lock.Operation
import Leasehold.Proofs.Lock.Tally
import Leasehold.Proofs.Sharing.Lease
import Leasehold.Proofs.Store.Lapse

/-!
# Contests for a free lock

Any number of contenders try once each to take a lock that is free. Whoever's call comes
first makes the record; from then on, until its expiry, every call of the others only
confirms that the record is there, whose it is and that it expires. So exactly one of them
takes the lock, and all others are told who did.
-/

namespace Leasehold

open LockRecord

/-! ## Parties that run one procedure each -/

instance {α : Type} : Party (Procedure α) Procedure.Turn where
  pending? := Procedure.pending?
  turn? := Procedure.turn?

/-- Procedures that keep a contract of calls are disciplined. -/
theorem Procedure.conduct {ι α : Type} {allows : ι → StoreCall → Prop}
    {ends : ι → α → History → Prop} :
    Conduct allows fun i (procedure : Procedure α) history =>
      procedure.Keeps (Procedure.calls (allows i)) (ends i) history where
  call kept pending := Procedure.keeps_pending kept pending
  turn kept turned := Procedure.keeps_turn kept turned

/-! ## Calls that find the record -/

/-- That a call of a contender has found the record under a key with certain fields and an
expiry, as far as it could tell. -/
inductive MadeCall.Confirms (key : String) (fields : Fields) : MadeCall → Prop
  | refused (new : Fields) (ttl : Duration) (time : Instant) :
      Confirms key fields ⟨.create key new ttl, .ok false, time⟩
  | expiring {lifetime : Lifetime} (expires : lifetime.hasExpiry = true) (time : Instant) :
      Confirms key fields ⟨.lifetime key, .ok lifetime, time⟩
  | seen (time : Instant) : Confirms key fields ⟨.fetch key, .ok (some fields), time⟩
  | unarmed (ttl : Duration) (time : Instant) :
      Confirms key fields ⟨.expire key ttl .noExpiry, .ok false, time⟩

theorem MadeCall.Confirms.renewal?_eq_none {key : String} {fields : Fields} {made : MadeCall}
    (confirms : made.Confirms key fields) : made.renewal? key = none := by
  cases confirms <;> rfl

namespace Keyspace

variable {keyspace : Keyspace} {key : String} {now time expiry : Instant} {owner : Pid}
  {ttl : Duration} {call : StoreCall} {fields : Fields}

/-- Before its expiry a record is confirmed by contenders and stays. -/
theorem confirms_of_contends (contends : call.Contends key owner ttl)
    (stands : keyspace.entries.get? key = some ⟨fields, some expiry⟩) (early : now < expiry) :
    MadeCall.Confirms key fields ⟨call, .ok (keyspace.serve now call).1, now⟩ ∧
      (keyspace.serve now call).2.entries.get? key = some ⟨fields, some expiry⟩ := by
  have live : keyspace.live? key now = some ⟨fields, some expiry⟩ :=
    live?_eq_some_iff.mpr ⟨stands, Entry.isExpired_eq_false_of_lt rfl early⟩
  cases contends with
  | claim =>
      have refused : (keyspace.serve now (.create key (ownedBy owner) ttl)).1 = false := by
        simp [live]
      exact ⟨by rw [refused]; exact .refused _ ttl now, by simp [live]⟩
  | inquire =>
      have reads : (StoreCall.lifetime key).Spares key := trivial
      refine ⟨.expiring ?_ now, (get?_serve_of_spares reads keyspace now).trans live⟩
      simp [serve, apply, lifetime, live, Lifetime.hasExpiry]
  | look =>
      have reads : (StoreCall.fetch key).Spares key := trivial
      have seen : (keyspace.serve now (.fetch key)).1 = some fields := by simp [live]
      exact ⟨by rw [seen]; exact .seen now, (get?_serve_of_spares reads keyspace now).trans live⟩
  | arm =>
      have unarmed : (keyspace.serve now (.expire key ttl .noExpiry)).1 = false := by
        simp [live, Condition.holds]
      exact ⟨by rw [unarmed]; exact .unarmed ttl now, by simp [live, Condition.holds]⟩

/-- Where there is no live record, there is none later unless somebody makes it. -/
theorem live?_eq_none_of_le (gone : keyspace.live? key now = none) (passes : now ≤ time) :
    keyspace.live? key time = none := by
  apply Option.eq_none_iff_forall_not_mem.mpr
  intro entry live
  rcases live?_eq_some_iff.mp live with ⟨found, fresh⟩
  cases expired : entry.isExpired now with
  | true =>
      rw [Entry.isExpired_of_le expired passes] at fresh
      contradiction
  | false =>
      rw [live?_eq_some_iff.mpr ⟨found, expired⟩] at gone
      contradiction

end Keyspace

namespace Claimant

variable {c : Claimant}

/-- An attempt begins with the claim. -/
theorem pending?_acquire (without : c.standing ≠ .heldBySelf) :
    ∃ next, (Procedure.ofLock c.acquire).pending? =
      some ⟨.create c.key (ownedBy c.pid) c.ttl, next⟩ := by
  rw [acquire, if_neg without]
  exact ⟨_, rfl⟩

theorem turn?_acquire (without : c.standing ≠ .heldBySelf) (turn : Procedure.Turn) :
    (Procedure.ofLock c.acquire).turn? turn = none := by
  rw [acquire, if_neg without]
  cases turn <;> rfl

variable {result : Except Failure Unit × Claimant} {history : History}

/-- An attempt whose calls have all found a record is told whose it is. -/
theorem Attempted.unavailable (attempted : c.Attempted [] result history)
    (without : c.standing ≠ .heldBySelf) {fields : Fields}
    (told : ∀ made ∈ history, made.Confirms c.key fields) :
    result = (.error (.lockUnavailable (ownerOf? fields)),
      { c with standing := .heldByOther (ownerOf? fields) }) := by
  cases attempted with
  | held held => exact absurd held without
  | created time => cases told _ List.mem_cons_self
  | taken expires found first second third =>
      cases told _ List.mem_cons_self with
      | seen => rfl
  | armed lasts first second third => cases told _ List.mem_cons_self
  | changed lasts first second third =>
      cases told _ (List.mem_cons_of_mem _ List.mem_cons_self) with
      | expiring expires => exact absurd expires (by simp [lasts])
  | failed without call failure time quiet => cases told _ List.mem_cons_self

/-- An attempt with a renewal has taken the lock. -/
theorem Attempted.taken_of_renewed (attempted : c.Attempted [] result history)
    (without : c.standing ≠ .heldBySelf) {expiry : Instant}
    (renewed : history.lastRenewal? c.key = some expiry) :
    result = (.ok (), { c with standing := .heldBySelf }) := by
  cases attempted.acquired with
  | held held => exact absurd held without
  | created time => rfl
  | refused failure without quiet =>
      rw [quiet.lastRenewal?_eq] at renewed
      contradiction

end Claimant

/-! ## Contests -/

namespace Move

variable {ι Turn : Type}

/-- That a move is a call. -/
def IsCall : Move ι Turn → Prop
  | .serve _ => True
  | .fail .. => True
  | .stranger _ => True
  | _ => False

/-- That nothing fails, that nobody but the parties writes the record under a key, and that
the clock does not go back to where a store still had one. -/
def LeavesFree (store : Keyspace) (key : String) : Move ι Turn → Prop
  | .fail .. => False
  | .stranger call => call.Spares key
  | .turnBack earlier => store.live? key earlier = none
  | _ => True

end Move

namespace Commons

section

variable {ι P Turn : Type} [DecidableEq ι] [Party P Turn]

/-- That no renewal of a party has run out. -/
def Unexpired (key : String) (commons : Commons ι P) : Prop :=
  ∀ i expiry, (commons.history i).lastRenewal? key = some expiry → commons.now < expiry

/-- That every call of a schedule is made before the expiry of all renewals so far. -/
def InTime (key : String) : Commons ι P → List (Move ι Turn) → Prop
  | _, [] => True
  | commons, move :: moves =>
    (move.IsCall → commons.Unexpired key) ∧
      ∀ next, commons.perform move = some next → next.InTime key moves

theorem inTime_cons {key : String} {commons next : Commons ι P} {move : Move ι Turn}
    {moves : List (Move ι Turn)} (early : move.IsCall → commons.Unexpired key)
    (performed : commons.perform move = some next) (inTime : next.InTime key moves) :
    commons.InTime key (move :: moves) := by
  refine ⟨early, fun other performed' => ?_⟩
  rw [performed] at performed'
  exact Option.some.inj performed' ▸ inTime

end

/-- Claimants that are about to make an attempt each on a shared store. -/
def contenders {ι : Type} (keyspace : Keyspace) (now : Instant) (origin : ι → Claimant) :
    Commons ι (Procedure (Except Failure Unit × Claimant)) :=
  start keyspace now fun i => Procedure.ofLock (origin i).acquire

variable {ι : Type} [DecidableEq ι] {key : String} {origin : ι → Claimant} {store : Keyspace}
  {commons later : Commons ι (Procedure (Except Failure Unit × Claimant))}
  {move : Move ι Procedure.Turn} {moves : List (Move ι Procedure.Turn)}
  {winner : ι} {expiry : Instant}

/-- That each party is in the attempt of its claimant. -/
def Attempting (key : String) (origin : ι → Claimant)
    (commons : Commons ι (Procedure (Except Failure Unit × Claimant))) : Prop :=
  commons.Good fun i procedure history =>
    procedure.Keeps
      (Procedure.calls (StoreCall.Contends key (origin i).pid (origin i).ttl))
      ((origin i).Attempted []) history

/-- That nobody has called yet and the lock is still free. -/
structure Open (key : String) (origin : ι → Claimant) (store : Keyspace)
    (commons : Commons ι (Procedure (Except Failure Unit × Claimant))) : Prop where
  parties : ∀ i, commons.party i = Procedure.ofLock (origin i).acquire
  histories : ∀ i, commons.history i = []
  free : store.live? key commons.now = none
  still : ∀ time, store.live? key time = none → commons.keyspace.live? key time = none

/-- That a party has made the record, which all others have found so. -/
structure Decided (key : String) (origin : ι → Claimant) (winner : ι) (expiry : Instant)
    (commons : Commons ι (Procedure (Except Failure Unit × Claimant))) : Prop where
  stands : commons.keyspace.entries.get? key = some ⟨ownedBy (origin winner).pid, some expiry⟩
  renewed : (commons.history winner).lastRenewal? key = some expiry
  told : ∀ i, i ≠ winner → ∀ made ∈ commons.history i,
    made.Confirms key (ownedBy (origin winner).pid)

/-- As long as the lock is free, a move leaves it so, unless it is the first call, which
decides the contest. -/
theorem Open.perform (shared : ∀ i, (origin i).key = key)
    (without : ∀ i, (origin i).standing ≠ .heldBySelf) (opened : commons.Open key origin store)
    (leaves : move.LeavesFree store key) (performed : commons.perform move = some later) :
    (∀ i, move ≠ .serve i) ∧ later.Open key origin store ∨
      ∃ winner, move = .serve winner ∧
        later.Decided key origin winner (commons.now.add (origin winner).ttl) := by
  rcases opened with ⟨parties, histories, free, still⟩
  have gone := still commons.now free
  cases move with
  | serve i =>
      right
      rcases perform_serve_eq_some_iff.mp performed with ⟨call, next, pending, rfl⟩
      obtain ⟨go, claims⟩ := (origin i).pending?_acquire (without i)
      rw [parties i] at pending
      cases claims.symm.trans pending
      obtain rfl := shared i
      have made : (commons.keyspace.serve commons.now
          (.create (origin i).key (ownedBy (origin i).pid) (origin i).ttl)).1 = true := by
        rw [Keyspace.serve_create_answer, gone]
        rfl
      refine ⟨i, rfl, ?_, ?_, ?_⟩
      · simp [record, gone]
      · rw [record_self_history, made]
        exact History.lastRenewal?_cons_of_some MadeCall.renewal?_claim
      · intro j other made member
        rw [record_history_of_ne _ _ other, histories j] at member
        contradiction
  | fail i fault => exact leaves.elim
  | turn i turn =>
      rcases perform_turn_eq_some_iff.mp performed with ⟨p, turned, -⟩
      rw [parties i] at turned
      cases ((origin i).turn?_acquire (without i) turn).symm.trans turned
  | stranger call =>
      left
      cases performed
      refine ⟨by simp, parties, histories, free, ?_⟩
      intro time _
      have absent := (Keyspace.get?_serve_of_spares leaves commons.keyspace commons.now).trans gone
      exact congrArg (Option.filter _) absent
  | advance time =>
      left
      rcases perform_advance_eq_some_iff.mp performed with ⟨passes, rfl⟩
      exact ⟨by simp, parties, histories, Keyspace.live?_eq_none_of_le free passes, still⟩
  | turnBack time =>
      left
      cases performed
      exact ⟨by simp, parties, histories, leaves, still⟩

/-- Once the contest is decided, no call before the expiry changes that. -/
theorem Decided.perform (attempting : commons.Attempting key origin)
    (decided : commons.Decided key origin winner expiry) (leaves : move.LeavesFree store key)
    (early : move.IsCall → commons.Unexpired key) (performed : commons.perform move = some later) :
    later.Decided key origin winner expiry := by
  rcases decided with ⟨stands, renewed, told⟩
  cases move with
  | serve i =>
      rcases perform_serve_eq_some_iff.mp performed with ⟨call, next, pending, rfl⟩
      have contends := (Procedure.keeps_pending (attempting i) pending).1
      obtain ⟨confirms, stands⟩ :=
        Keyspace.confirms_of_contends contends stands (early trivial winner expiry renewed)
      refine ⟨stands, ?_, ?_⟩
      · by_cases same : winner = i
        · subst same
          rw [record_self_history, History.lastRenewal?_cons_of_none confirms.renewal?_eq_none]
          exact renewed
        · rw [record_history_of_ne _ _ same]
          exact renewed
      · intro j other made member
        rcases mem_record_history.mp member with ⟨rfl, rfl⟩ | earlier
        · exact confirms
        · exact told j other made earlier
  | fail i fault => exact leaves.elim
  | turn i turn =>
      rcases perform_turn_eq_some_iff.mp performed with ⟨p, -, rfl⟩
      exact ⟨stands, renewed, told⟩
  | stranger call =>
      cases performed
      have live : commons.keyspace.live? key commons.now = some _ :=
        Keyspace.live?_eq_some_iff.mpr ⟨stands,
          Entry.isExpired_eq_false_of_lt rfl (early trivial winner expiry renewed)⟩
      exact ⟨(Keyspace.get?_serve_of_spares leaves _ _).trans live, renewed, told⟩
  | advance time =>
      rcases perform_advance_eq_some_iff.mp performed with ⟨-, rfl⟩
      exact ⟨stands, renewed, told⟩
  | turnBack time =>
      cases performed
      exact ⟨stands, renewed, told⟩

theorem Decided.play (decided : commons.Decided key origin winner expiry)
    (attempting : commons.Attempting key origin)
    (leaves : ∀ move ∈ moves, move.LeavesFree store key) (inTime : commons.InTime key moves)
    (played : commons.play moves = some later) : later.Decided key origin winner expiry := by
  induction moves generalizing commons with
  | nil => exact Option.some.inj played ▸ decided
  | cons move moves ih =>
      rcases play_cons_eq_some_iff.mp played with ⟨next, performed, played⟩
      have decided' := decided.perform attempting (leaves move List.mem_cons_self) inTime.1 performed
      exact ih decided' (Procedure.conduct.perform attempting performed)
        (fun other member => leaves other (List.mem_cons_of_mem _ member))
        (inTime.2 next performed) played

/-- A schedule leaves the lock free, or else its first call decides the contest. -/
theorem Open.play (opened : commons.Open key origin store) (shared : ∀ i, (origin i).key = key)
    (without : ∀ i, (origin i).standing ≠ .heldBySelf) (attempting : commons.Attempting key origin)
    (leaves : ∀ move ∈ moves, move.LeavesFree store key) (inTime : commons.InTime key moves)
    (played : commons.play moves = some later) :
    later.Open key origin store ∨
      ∃ winner before after called, moves = before ++ .serve winner :: after ∧
        (∀ i, .serve i ∉ before) ∧ commons.play before = some called ∧
        called.Open key origin store ∧
        later.Decided key origin winner (called.now.add (origin winner).ttl) := by
  induction moves generalizing commons with
  | nil => exact .inl (Option.some.inj played ▸ opened)
  | cons move moves ih =>
      rcases play_cons_eq_some_iff.mp played with ⟨next, performed, rest⟩
      have attempting' := Procedure.conduct.perform attempting performed
      have leaves' : ∀ other ∈ moves, other.LeavesFree store key :=
        fun other member => leaves other (List.mem_cons_of_mem _ member)
      have inTime' := inTime.2 next performed
      rcases opened.perform shared without (leaves move List.mem_cons_self) performed with
        ⟨silent, opened'⟩ | ⟨winner, rfl, decided⟩
      · rcases ih opened' attempting' leaves' inTime' rest with
          opened | ⟨winner, before, after, called, rfl, first, reached, waiting, decided⟩
        · exact .inl opened
        · refine .inr ⟨winner, move :: before, after, called, rfl, ?_,
            play_cons_eq_some_iff.mpr ⟨next, performed, reached⟩, waiting, decided⟩
          intro i member
          rcases List.mem_cons.mp member with rfl | member
          · exact silent i rfl
          · exact first i member
      · exact .inr ⟨winner, [], moves, commons, rfl, by simp, rfl, opened,
          decided.play attempting' leaves' inTime' rest⟩

/-! ## What the contenders are told -/

/-- What the contenders come to where the call of one of them comes first. -/
structure Won (key : String) (origin : ι → Claimant)
    (outcome : ι → Except Failure Unit × Claimant) (moves : List (Move ι Procedure.Turn))
    (commons later : Commons ι (Procedure (Except Failure Unit × Claimant))) (winner : ι) :
    Prop where
  /-- The first call of all is the winner's claim, and the record that it makes is there in
  the end. -/
  first : ∃ before after called next, moves = before ++ .serve winner :: after ∧
    (∀ i, .serve i ∉ before) ∧ commons.play before = some called ∧
    Party.pending? (called.party winner) =
      some ⟨.create key (ownedBy (origin winner).pid) (origin winner).ttl, next⟩ ∧
    later.keyspace.entries.get? key =
      some ⟨ownedBy (origin winner).pid, some (called.now.add (origin winner).ttl)⟩
  acquired_iff : ∀ i, (outcome i).1 = .ok () ↔ i = winner
  holds : (outcome winner).2 = { origin winner with standing := .heldBySelf }
  unavailable : ∀ i, i ≠ winner → outcome i =
    (.error (.lockUnavailable (some (origin winner).pid)),
      { origin i with standing := .heldByOther (some (origin winner).pid) })

omit [DecidableEq ι] in
/-- Once the contest is decided, every attempt that is through has come to what its calls
have told. -/
theorem Decided.outcomes {outcome : ι → Except Failure Unit × Claimant}
    (shared : ∀ i, (origin i).key = key) (without : ∀ i, (origin i).standing ≠ .heldBySelf)
    (attempting : later.Attempting key origin) (decided : later.Decided key origin winner expiry)
    (through : ∀ i, later.party i = .done (outcome i)) :
    outcome winner = (.ok (), { origin winner with standing := .heldBySelf }) ∧
      ∀ i, i ≠ winner → outcome i =
        (.error (.lockUnavailable (some (origin winner).pid)),
          { origin i with standing := .heldByOther (some (origin winner).pid) }) := by
  have attempted (i : ι) : (origin i).Attempted [] (outcome i) (later.history i) := by
    have kept := attempting i
    rw [through i] at kept
    exact kept
  have names : ownerOf? (ownedBy (origin winner).pid) = some (origin winner).pid :=
    (Entry.belongsTo_ownedBy (origin winner).pid none).ownerOf?
  constructor
  · apply (attempted winner).taken_of_renewed (without winner)
    rw [shared winner]
    exact decided.renewed
  · intro i other
    rw [← names]
    apply (attempted i).unavailable (without i)
    rw [shared i]
    exact decided.told i other

/-- Of all contenders for a free lock the one whose call comes first takes it, and only that
one: as long as its record has not expired, all others are told that the lock is taken and
by whom, and the record is in the end as the winner has made it. -/
theorem one_wins [Nonempty ι] {keyspace : Keyspace} {now : Instant}
    {outcome : ι → Except Failure Unit × Claimant} (shared : ∀ i, (origin i).key = key)
    (without : ∀ i, (origin i).standing ≠ .heldBySelf) (free : keyspace.live? key now = none)
    (leaves : ∀ move ∈ moves, move.LeavesFree keyspace key)
    (inTime : (contenders keyspace now origin).InTime key moves)
    (played : (contenders keyspace now origin).play moves = some later)
    (through : ∀ i, later.party i = .done (outcome i)) :
    ∃ winner, Won key origin outcome moves (contenders keyspace now origin) later winner := by
  have attempting : (contenders keyspace now origin).Attempting key origin := by
    intro i
    have kept := Procedure.keeps_ofLock ((origin i).acquire_attempted [])
    rw [shared i] at kept
    exact kept
  have opened : (contenders keyspace now origin).Open key origin keyspace :=
    ⟨fun _ => rfl, fun _ => rfl, free, fun _ => id⟩
  have attempting' : later.Attempting key origin :=
    play_induction (fun _ => True) (Attempting key origin)
      (fun _ all performed => Procedure.conduct.perform all performed) (fun _ _ => trivial)
      played attempting
  rcases opened.play shared without attempting leaves inTime played with
    idle | ⟨winner, before, after, called, same, first, reached, waiting, decided⟩
  · -- Nobody has called, so nobody is through.
    obtain ⟨i⟩ := ‹Nonempty ι›
    obtain ⟨next, pending⟩ := (origin i).pending?_acquire (without i)
    rw [← idle.parties i, through i] at pending
    contradiction
  · obtain ⟨wins, others⟩ := decided.outcomes shared without attempting' through
    obtain ⟨next, claims⟩ := (origin winner).pending?_acquire (without winner)
    rw [← waiting.parties winner, shared winner] at claims
    refine ⟨winner, ⟨before, after, called, next, same, first, reached, claims, decided.stands⟩,
      ?_, ?_, others⟩
    · intro i
      by_cases winning : i = winner
      · simp [winning, wins]
      · simp [winning, others i winning]
    · rw [wins]

/-- Two contenders for a lock. -/
def racers (i : Bool) : Claimant :=
  ⟨"lock", duelPid i, .ofSeconds 10, .free⟩

/-- The second contender claims the lock while the first is about to take note that it has
it, and looks at it a second later. -/
def sprint : List (Move Bool Procedure.Turn) :=
  [.serve true, .serve false, .turn true .note, .advance (.ofSinceEpoch 1000000000),
    .serve false, .serve false, .turn false .note]

/-- What they come to. -/
def sprintOutcome (i : Bool) : Except Failure Unit × Claimant :=
  if i then (.ok (), { racers true with standing := .heldBySelf })
  else (.error (.lockUnavailable (some 1)), { racers false with standing := .heldByOther (some 1) })

/-- The first to call wins. -/
theorem one_wins_of_sprint :
    ∃ later, (contenders .empty default racers).play sprint = some later ∧
      Won "lock" racers sprintOutcome sprint (contenders .empty default racers) later true := by
  have inTime : (contenders .empty default racers).InTime "lock" sprint := by
    refine inTime_cons (fun _ => ?_) rfl (inTime_cons (fun _ => ?_) rfl (inTime_cons nofun rfl
      (inTime_cons nofun rfl (inTime_cons (fun _ => ?_) rfl (inTime_cons (fun _ => ?_) rfl
        (inTime_cons nofun rfl trivial))))))
    · rintro _ _ ⟨⟩
    all_goals
      rintro (_ | _) _ ⟨⟩
      decide
  obtain ⟨later, played, through⟩ :
      ∃ later, (contenders .empty default racers).play sprint = some later ∧
        ∀ i, later.party i = .done (sprintOutcome i) :=
    ⟨_, rfl, by rintro (_ | _) <;> rfl⟩
  have shared : ∀ i, (racers i).key = "lock" := fun _ => rfl
  obtain ⟨winner, won⟩ := one_wins shared (by decide) (by decide)
    (by simp [sprint, Move.LeavesFree]) inTime played through
  obtain rfl := (won.acquired_iff true).mp rfl
  exact ⟨later, played, won⟩

end Commons

end Leasehold
