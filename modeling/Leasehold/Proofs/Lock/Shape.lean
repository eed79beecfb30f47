import Leasehold.Proofs.Lock.Post
import Leasehold.Proofs.Lock.Tally

/-!
# The shape of the record

If nobody writes the record but claimants, it is always one that a claimant has made: its
one field names one of them, and it has an expiry. Then a claimant never finds it without
expiry, and whoever a claimant takes for the owner is another claimant. Neither clocks that
are set back nor calls that fail change that.
-/

namespace Leasehold

open LockRecord

/-! ## Records -/

/-- That a record is one that some owner has made, and expires. -/
structure Entry.WellFormed (among : Pid → Prop) (entry : Entry) : Prop where
  owned : ∃ owner, among owner ∧ entry.fields = ownedBy owner
  expires : entry.expiresAt.isSome

/-- That the record under a key, if there is one, is one of some owners'. -/
def Keyspace.WellFormed (key : String) (among : Pid → Prop) (keyspace : Keyspace) : Prop :=
  ∀ entry, keyspace.entries.get? key = some entry → entry.WellFormed among

/-- That an answer is what there is to answer where records are well-formed: the record
under the key expires, and it is one of some owners'. -/
def StoreCall.Admits (key : String) (among : Pid → Prop) : (call : StoreCall) → call.Answer → Prop
  | .expire other _ .noExpiry, true => other ≠ key
  | .fetch other, some fields => other = key → ∃ owner, among owner ∧ fields = ownedBy owner
  | _, _ => True

/-- That a call got such an answer, or failed because the store did. -/
def MadeCall.Truthful (key : String) (among : Pid → Prop) (made : MadeCall) : Prop :=
  match made.reply with
  | .ok answer => made.call.Admits key among answer
  | .error failure => ∃ fault, failure = .storeUnavailable fault

namespace Keyspace.WellFormed

variable {key : String} {among : Pid → Prop} {keyspace : Keyspace} {now : Instant} {owner : Pid}
  {ttl : Duration} {call : StoreCall}

/-- A claimant's calls keep the shape. -/
theorem serve (wellFormed : keyspace.WellFormed key among) (member : among owner)
    (concerns : call.Concerns key owner ttl) :
    (keyspace.serve now call).2.WellFormed key among := by
  intro entry found
  cases live : keyspace.live? key now with
  | none =>
      rcases serve_absent concerns live with gone | made
      · rw [gone] at found
        contradiction
      · obtain rfl := Option.some.inj (made.symm.trans found)
        exact ⟨⟨owner, member, rfl⟩, rfl⟩
  | some before =>
      rcases wellFormed before (get?_of_live? live) with ⟨owned, expires⟩
      rcases serve_live concerns live with kept | ⟨extended, -⟩ | ⟨gone, -⟩
      · obtain rfl := Option.some.inj (kept.symm.trans found)
        exact ⟨owned, expires⟩
      · obtain rfl := Option.some.inj (extended.symm.trans found)
        exact ⟨owned, rfl⟩
      · rw [gone] at found
        contradiction

theorem serve_of_spares (wellFormed : keyspace.WellFormed key among)
    (spares : call.Spares key) : (keyspace.serve now call).2.WellFormed key among := by
  intro entry found
  rw [get?_serve_of_spares spares] at found
  exact wellFormed entry (get?_of_live? found)

/-- What a claimant's calls are answered fits the shape. -/
theorem admits (wellFormed : keyspace.WellFormed key among)
    (concerns : call.Concerns key owner ttl) :
    call.Admits key among (keyspace.serve now call).1 := by
  cases concerns with
  | sustain sustains =>
      cases sustains with
      | contend contends =>
          cases contends with
          | claim => trivial
          | inquire => trivial
          | look =>
              rw [serve_fetch_answer]
              cases live : keyspace.live? key now with
              | none => trivial
              | some entry => exact fun _ => (wellFormed entry (get?_of_live? live)).owned
          | arm =>
              have refused : (keyspace.serve now (.expire key ttl .noExpiry)).1 = false := by
                rw [serve_expire_answer]
                cases live : keyspace.live? key now with
                | none => rfl
                | some entry =>
                    have expires := (wellFormed entry (get?_of_live? live)).expires
                    simpa [Condition.holds] using expires
              rw [refused]
              trivial
      | refresh => trivial
  | delete => trivial

end Keyspace.WellFormed

/-! ## What claimants make of it -/

/-- That a claimant with this standing knows of no owner but some, and of no record without
expiry. -/
def Standing.Sound (among : Pid → Prop) : Standing → Prop
  | .stale => False
  | .heldByOther owner? => ∀ owner, owner? = some owner → among owner
  | .free => True
  | .heldBySelf => True

/-- That a report names no owner but some, and no record without expiry. -/
def Duty.Report.Sound (among : Pid → Prop) : Duty.Report → Prop
  | ⟨.operate .acquire, .error .staleLock⟩ => False
  | ⟨.operate .acquire, .error (.lockUnavailable owner?)⟩ =>
    ∀ owner, owner? = some owner → among owner
  | ⟨.operate .renew, .ok (.lost owner?)⟩ => ∀ owner, owner? = some owner → among owner
  | _ => True

/-- That all calls of a history were told the truth. -/
def History.Truthful (key : String) (among : Pid → Prop) (history : History) : Prop :=
  ∀ made ∈ history, made.Truthful key among

namespace Claimant

variable {c c' : Claimant} {among : Pid → Prop} {base later : History}

/-- An owner that was truly read is one of them. -/
theorem among_of_fetched {fields : Option Fields} {time : Instant}
    (truthful : History.Truthful c.key among (⟨.fetch c.key, .ok fields, time⟩ :: base)) :
    ∀ owner, fields.bind ownerOf? = some owner → among owner := by
  intro owner found
  have admits : StoreCall.Admits c.key among (.fetch c.key) fields :=
    truthful _ List.mem_cons_self
  rcases fields with _ | fields
  · contradiction
  · rcases admits rfl with ⟨maker, member, rfl⟩
    have made := (Entry.belongsTo_ownedBy maker none).ownerOf?
    exact Option.some.inj (made.symm.trans found) ▸ member

theorem Attempted.sound {outcome : Except Failure Unit}
    (attempted : c.Attempted base (outcome, c') later)
    (truthful : later.Truthful c.key among) (sound : c.standing.Sound among) :
    c'.standing.Sound among ∧ Duty.Report.Sound among ⟨.operate .acquire, outcome⟩ := by
  cases attempted with
  | held held => exact ⟨sound, trivial⟩
  | created time => exact ⟨trivial, trivial⟩
  | taken expires fields first second third =>
      exact ⟨among_of_fetched truthful, among_of_fetched truthful⟩
  | armed lasts first second third => exact absurd rfl (truthful _ List.mem_cons_self)
  | changed lasts first second third => exact ⟨nofun, nofun⟩
  | failed without call failure time quiet =>
      obtain ⟨fault, rfl⟩ := truthful _ List.mem_cons_self
      exact ⟨sound, trivial⟩

theorem Renewing.sound {outcome : Except Failure Renewal}
    (renewing : c.Renewing base (outcome, c') later)
    (truthful : later.Truthful c.key among) (sound : c.standing.Sound among) :
    c'.standing.Sound among ∧ Duty.Report.Sound among ⟨.operate .renew, outcome⟩ := by
  cases renewing with
  | notHeld without => exact ⟨sound, trivial⟩
  | known known => exact ⟨sound, (known ▸ sound : (Standing.heldByOther _).Sound among)⟩
  | extended held own first second => exact ⟨sound, trivial⟩
  | foreign held others time => exact ⟨among_of_fetched truthful, among_of_fetched truthful⟩
  | reacquired held lapsed time => exact ⟨sound, trivial⟩
  | overtaken held lapsed fields first second =>
      exact ⟨among_of_fetched truthful, among_of_fetched truthful⟩
  | failed held call failure time quiet => exact ⟨sound, trivial⟩

theorem Released.sound {outcome : Except Failure Bool}
    (released : c.Released base (outcome, c') later) (sound : c.standing.Sound among) :
    c'.standing.Sound among := by
  cases released with
  | skipped without => exact sound
  | deleted held gone time => trivial
  | failed held failure time => exact sound

theorem Released.same {outcome : Except Failure Bool}
    (released : c.Released base (outcome, c') later) :
    ∃ standing, c' = { c with standing := standing } := by
  cases released with
  | skipped without => exact ⟨_, rfl⟩
  | deleted held gone time => exact ⟨_, rfl⟩
  | failed held failure time => exact ⟨_, rfl⟩

end Claimant

namespace Duty

variable {c c' : Claimant} {among : Pid → Prop} {base later : History} {duty : Duty}
  {outcome : duty.Outcome}

/-- A duty changes nothing of a claimant but its standing. -/
theorem Ended.same (ended : duty.Ended c base (outcome, c') later) :
    ∃ standing, c' = { c with standing := standing } := by
  match duty with
  | operate .acquire => exact Claimant.Attempted.same ended
  | operate .renew => exact Claimant.Renewing.same ended
  | operate .release => exact Claimant.Released.same ended
  | beat _ =>
      rcases ended with ⟨-, rfl, -⟩ | ⟨_, renewing⟩
      · exact ⟨_, rfl⟩
      · exact renewing.same
  | drop _ =>
      rcases ended with ⟨-, rfl, -⟩ | ⟨_, released⟩
      · exact ⟨_, rfl⟩
      · exact released.same

/-- A duty that is told the truth leaves a sound standing and reports soundly. -/
theorem Ended.sound (ended : duty.Ended c base (outcome, c') later)
    (truthful : later.Truthful c.key among) (sound : c.standing.Sound among) :
    c'.standing.Sound among ∧ Report.Sound among ⟨duty, outcome⟩ := by
  match duty with
  | operate .acquire => exact Claimant.Attempted.sound ended truthful sound
  | operate .renew => exact Claimant.Renewing.sound ended truthful sound
  | operate .release => exact ⟨Claimant.Released.sound ended sound, trivial⟩
  | beat _ =>
      rcases ended with ⟨-, rfl, -⟩ | ⟨_, renewing⟩
      · exact ⟨sound, trivial⟩
      · exact ⟨(renewing.sound truthful sound).1, trivial⟩
  | drop _ =>
      rcases ended with ⟨-, rfl, -⟩ | ⟨_, released⟩
      · exact ⟨sound, trivial⟩
      · exact ⟨released.sound sound, trivial⟩

end Duty

/-! ## Posts -/

namespace Post

variable {post : Post} {key : String} {owner : Pid} {ttl : Duration} {among : Pid → Prop}
  {history : History}

/-- That a claimant acts for an owner, and that what it knows, what it has reported and what
it is about to report is sound if all its calls were told the truth. -/
structure Sound (key : String) (owner : Pid) (ttl : Duration) (among : Pid → Prop) (post : Post)
    (history : History) : Prop where
  acts : ∃ standing, post.claimant = ⟨key, owner, ttl, standing⟩
  knows : history.Truthful key among → post.claimant.standing.Sound among
  reported : history.Truthful key among → ∀ report ∈ post.reports, report.Sound among
  within : ∀ rest, post.work? = some rest →
    rest.Keeps (Procedure.calls (StoreCall.Concerns key owner ttl))
      (fun result later => (∃ standing, result.2 = ⟨key, owner, ttl, standing⟩) ∧
        (later.Truthful key among →
          result.2.standing.Sound among ∧ result.1.Sound among)) history

/-- A duty that a sound claimant takes up ends soundly. -/
theorem perform_sound (c : Claimant)
    (knows : history.Truthful c.key among → c.standing.Sound among) (duty : Duty) :
    (Procedure.ofLock (duty.perform c)).Keeps
      (Procedure.calls (StoreCall.Concerns c.key c.pid c.ttl))
      (fun result later => (∃ standing, result.2 = ⟨c.key, c.pid, c.ttl, standing⟩) ∧
        (later.Truthful c.key among →
          result.2.standing.Sound among ∧ result.1.Sound among)) history := by
  have ended := Procedure.keeps_ofLock (duty.perform_ended c history)
  have grown (call : StoreCall) (reply : call.Reply) (time : Instant) (later : History)
      (_ : call.Concerns c.key c.pid c.ttl) (suffix : history <:+ later) :
      history <:+ (⟨call, reply, time⟩ :: later) :=
    suffix.trans (List.suffix_cons _ _)
  apply (Procedure.keeps_and_invariant grown ended (List.suffix_refl _)).mono
  rintro ⟨_, c'⟩ later ⟨⟨outcome, rfl, ended⟩, suffix⟩
  refine ⟨ended.same, fun truthful => ended.sound truthful ?_⟩
  exact knows fun made member => truthful made (suffix.subset member)

/-- Posts make calls of the lock only, and stay sound. -/
theorem conduct {ι : Type} (key : String) (owner : ι → Pid) (ttl : ι → Duration)
    (among : Pid → Prop) :
    Conduct (fun i call => call.Concerns key (owner i) (ttl i))
      (fun i => Sound key (owner i) (ttl i) among) where
  call := by
    intro i post history call next sound pending
    rcases pending?_eq_some_iff.mp pending with ⟨rest, go, working, stops, rfl⟩
    rcases Procedure.keeps_pending (sound.within rest working) stops with ⟨concerns, kept⟩
    apply And.intro concerns
    intro reply time
    have earlier (truthful : History.Truthful key among (⟨call, reply, time⟩ :: history)) :
        history.Truthful key among :=
      fun made member => truthful made (List.mem_cons_of_mem _ member)
    constructor
    · exact sound.acts
    · exact fun truthful => sound.knows (earlier truthful)
    · exact fun truthful => sound.reported (earlier truthful)
    · rintro _ ⟨⟩
      exact kept reply time
  turn := by
    intro i post history turn post' sound turned
    rcases turn?_cases turned with ⟨duty, rfl, idle, rfl⟩ |
      ⟨act, rest, rest', rfl, working, acted, rfl⟩ | ⟨report, c, rfl, working, rfl⟩
    · refine ⟨sound.acts, sound.knows, sound.reported, ?_⟩
      rintro _ ⟨⟩
      rcases post with ⟨c, work?, reports⟩
      obtain ⟨standing, rfl⟩ := sound.acts
      exact perform_sound ⟨key, owner i, ttl i, standing⟩ sound.knows duty
    · have gone := Procedure.keeps_turn (sound.within rest working) acted
      exact ⟨sound.acts, sound.knows, sound.reported, by rintro _ ⟨⟩; exact gone⟩
    · obtain ⟨acts, ends⟩ := sound.within _ working
      refine ⟨acts, fun truthful => (ends truthful).1, ?_, nofun⟩
      intro truthful other member
      rcases List.mem_cons.mp member with rfl | earlier
      · exact (ends truthful).2
      · exact sound.reported truthful other earlier

theorem sound_fresh (key : String) (owner : Pid) (ttl : Duration) (among : Pid → Prop)
    (history : History) : (fresh ⟨key, owner, ttl, .free⟩).Sound key owner ttl among history :=
  ⟨⟨.free, rfl⟩, fun _ => trivial, fun _ => nofun, nofun⟩

end Post

/-! ## Runs -/

/-- That nobody but the parties writes the record under a key. -/
def Move.Spares {ι Turn : Type} (key : String) : Move ι Turn → Prop
  | .stranger call => call.Spares key
  | _ => True

namespace Commons

variable {ι : Type}

/-- Claimants of the lock under a key that have had no duty yet. -/
def ofPosts (keyspace : Keyspace) (now : Instant) (key : String) (pid : ι → Pid)
    (ttl : ι → Duration) : Commons ι Post :=
  start keyspace now fun i => .fresh ⟨key, pid i, ttl i, .free⟩

/-- That the record under a key is well-formed, all parties have been told the truth of it, and
they are sound. -/
structure Orderly (key : String) (pid : ι → Pid) (ttl : ι → Duration) (among : Pid → Prop)
    (commons : Commons ι Post) : Prop where
  record : commons.keyspace.WellFormed key among
  told : ∀ i, (commons.history i).Truthful key among
  sound : commons.Good fun i => Post.Sound key (pid i) (ttl i) among

variable [DecidableEq ι] {key : String} {pid : ι → Pid} {ttl : ι → Duration} {among : Pid → Prop}
  {commons later : Commons ι Post}

theorem Orderly.told_cons (orderly : commons.Orderly key pid ttl among) {made : MadeCall}
    (truthful : made.Truthful key among) (i j : ι) :
    (Function.update commons.history i (made :: commons.history i) j).Truthful key among := by
  by_cases same : j = i
  · subst same
    rw [Function.update_self]
    exact List.forall_mem_cons.mpr ⟨truthful, orderly.told j⟩
  · rw [Function.update_of_ne same]
    exact orderly.told j

/-- A move keeps order. -/
theorem Orderly.perform (orderly : commons.Orderly key pid ttl among)
    (members : ∀ i, among (pid i)) {move : Move ι Post.Turn} (spares : move.Spares key)
    (performed : commons.perform move = some later) : later.Orderly key pid ttl among := by
  have sound := (Post.conduct key pid ttl among).perform orderly.sound performed
  suffices kept : later.keyspace.WellFormed key among ∧
      ∀ i, (later.history i).Truthful key among from ⟨kept.1, kept.2, sound⟩
  cases move with
  | serve i =>
      rcases perform_serve_eq_some_iff.mp performed with ⟨call, next, pending, rfl⟩
      have concerns := ((Post.conduct key pid ttl among).call (orderly.sound i) pending).1
      have truthful : MadeCall.Truthful key among
          ⟨call, .ok (commons.keyspace.serve commons.now call).1, commons.now⟩ :=
        orderly.record.admits concerns
      exact ⟨orderly.record.serve (members i) concerns, fun j => orderly.told_cons truthful i j⟩
  | fail i fault =>
      rcases perform_fail_eq_some_iff.mp performed with ⟨call, next, pending, rfl⟩
      have truthful : MadeCall.Truthful key among
          ⟨call, .error (.storeUnavailable fault), commons.now⟩ :=
        ⟨fault, rfl⟩
      exact ⟨orderly.record, fun j => orderly.told_cons truthful i j⟩
  | turn i turn =>
      rcases perform_turn_eq_some_iff.mp performed with ⟨post, turned, rfl⟩
      exact ⟨orderly.record, orderly.told⟩
  | stranger call =>
      cases performed
      exact ⟨orderly.record.serve_of_spares spares, orderly.told⟩
  | advance time =>
      rcases perform_advance_eq_some_iff.mp performed with ⟨-, rfl⟩
      exact ⟨orderly.record, orderly.told⟩
  | turnBack time =>
      cases performed
      exact ⟨orderly.record, orderly.told⟩

/-- Where there was no record and nobody but claimants writes it, whatever the schedule, the
clock and the failures: the record is a claimant's, with exactly the field that names it, and
has an expiry. So no attempt to take the lock finds it stale, no claimant takes it for stale,
and whoever is reported or taken for its owner is one of the claimants. -/
theorem record_wellFormed {keyspace : Keyspace} {now : Instant} {moves : List (Move ι Post.Turn)}
    (vacant : keyspace.entries.get? key = none) (spares : ∀ move ∈ moves, move.Spares key)
    (played : (ofPosts keyspace now key pid ttl).play moves = some later) :
    (∀ entry, later.keyspace.entries.get? key = some entry →
      (∃ i, entry.fields = ownedBy (pid i)) ∧ entry.expiresAt.isSome) ∧
    (∀ i outcome, ⟨.operate .acquire, outcome⟩ ∈ (later.party i).reports →
      outcome ≠ .error .staleLock ∧
        ∀ owner, outcome = .error (.lockUnavailable (some owner)) → ∃ j, owner = pid j) ∧
    (∀ i owner, ⟨.operate .renew, .ok (.lost (some owner))⟩ ∈ (later.party i).reports →
      ∃ j, owner = pid j) ∧
    ∀ i, (later.party i).claimant.standing ≠ .stale ∧
      ∀ owner, (later.party i).claimant.standing = .heldByOther (some owner) →
        ∃ j, owner = pid j := by
  let among (owner : Pid) : Prop := ∃ j, owner = pid j
  have begins : (ofPosts keyspace now key pid ttl).Orderly key pid ttl among := by
    refine ⟨fun entry found => ?_, fun i made member => ?_, fun i => Post.sound_fresh _ _ _ _ _⟩
    · exact absurd (vacant.symm.trans found) nofun
    · exact absurd member List.not_mem_nil
  have orderly : later.Orderly key pid ttl among :=
    play_induction (fun move => move.Spares key) (fun commons => commons.Orderly key pid ttl among)
      (fun spares orderly performed => orderly.perform (fun i => ⟨i, rfl⟩) spares performed)
      spares played begins
  have reported (i : ι) := (orderly.sound i).reported (orderly.told i)
  have knows (i : ι) := (orderly.sound i).knows (orderly.told i)
  refine ⟨?_, ?_, ?_, ?_⟩
  · intro entry found
    rcases orderly.record entry found with ⟨⟨owner, ⟨i, rfl⟩, fields⟩, expires⟩
    exact ⟨⟨i, fields⟩, expires⟩
  · intro i outcome member
    have sound := reported i _ member
    constructor
    · rintro rfl
      exact sound
    · rintro owner rfl
      exact sound owner rfl
  · intro i owner member
    exact reported i _ member owner rfl
  · intro i
    have sound := knows i
    constructor
    · intro stale
      rw [stale] at sound
      exact sound
    · intro owner other
      rw [other] at sound
      exact sound owner rfl

/-- The first claimant's record lapses, the second makes its own, the clock is set back,
the first finds its lock lost, and the second fails to delete its record. -/
def overtaken : List (Move Bool Post.Turn) :=
  [.turn true (.start (.operate .acquire)), .serve true, .turn true (.act .note),
    .turn true .report, .advance (.ofSinceEpoch 20000000000),
    .turn false (.start (.operate .acquire)), .serve false, .turn false (.act .note),
    .turn false .report, .turnBack (.ofSinceEpoch 0),
    .turn true (.start (.operate .renew)), .serve true, .turn true (.act .note),
    .turn true .report, .turn false (.start (.drop ⟨true⟩)), .fail false (.stated "busy"),
    .turn false (.act .note), .turn false .report]

theorem record_wellFormed_of_overtaken :
    ∃ later entry,
      (ofPosts .empty (.ofSinceEpoch 0) "lock" duelPid fun _ => .ofSeconds 10).play overtaken =
        some later ∧
      later.keyspace.entries.get? "lock" = some entry ∧
      (∃ i, entry.fields = ownedBy (duelPid i)) ∧ entry.expiresAt.isSome ∧
      (later.party true).claimant.standing = .heldByOther (some (duelPid false)) := by
  obtain ⟨later, entry, played, found, standing⟩ :
      ∃ later entry,
        (ofPosts .empty (.ofSinceEpoch 0) "lock" duelPid fun _ => .ofSeconds 10).play overtaken =
          some later ∧
        later.keyspace.entries.get? "lock" = some entry ∧
        (later.party true).claimant.standing = .heldByOther (some (duelPid false)) :=
    ⟨_, _, rfl, rfl, rfl⟩
  have wellFormed := record_wellFormed rfl (by simp [overtaken, Move.Spares]) played
  rcases wellFormed.1 entry found with ⟨fields, expires⟩
  exact ⟨later, entry, played, found, fields, expires, standing⟩

end Commons

end Leasehold
