import Leasehold.Proofs.Lock.Ownership
import Leasehold.Proofs.Lock.Session
import Leasehold.Proofs.Lock.Shape

/-!
# Sessions among contenders

Others contend for the lock while a session keeps it alive. As long as the expiry of the last
renewal has not come, the record is the session's own, so no beat finds anything else and
nobody else can renew the record or make it anew. A beat that fails costs nothing by itself:
only time counts.

A contender can still be told that it has the lock if that is what it takes for granted: one
that has renewed the record before and not deleted it since is not asked to look.
-/

namespace Leasehold

open LockRecord

/-! ## Contenders -/

/-- A duty leaves a claimant that fits, and an attempt that succeeds goes with a lease. -/
theorem Duty.Ended.fits {c c' : Claimant} {key : String} {owner : Pid} {ttl : Duration}
    {base later : History} {duty : Duty} {outcome : duty.Outcome}
    (ended : duty.Ended c base (outcome, c') later) (fits : c.Fits key owner ttl base) :
    c'.Fits key owner ttl later ∧
      ((⟨duty, outcome⟩ : Duty.Report) = ⟨.operate .acquire, .ok ()⟩ → later.HasLease key) := by
  match duty with
  | operate .acquire =>
      have acquired := Claimant.Attempted.acquired ended
      refine ⟨acquired.fits fits, ?_⟩
      rintro ⟨⟩
      apply (acquired.fits fits).lease
      cases acquired with
      | held held => exact held
      | created time => rfl
  | operate .renew => exact ⟨(Claimant.Renewing.renewed ended).fits fits, nofun⟩
  | operate .release => exact ⟨Claimant.Released.fits fits ended, nofun⟩
  | beat _ =>
      rcases ended with ⟨-, rfl, rfl⟩ | ⟨_, renewing⟩
      · exact ⟨fits, nofun⟩
      · exact ⟨renewing.renewed.fits fits, nofun⟩
  | drop _ =>
      rcases ended with ⟨-, rfl, rfl⟩ | ⟨_, released⟩
      · exact ⟨fits, nofun⟩
      · exact ⟨released.fits fits, nofun⟩

namespace Post

variable {post : Post} {key : String} {owner : Pid} {ttl : Duration} {history : History}

/-- That a post is where its history can have brought it: between duties its claimant fits,
and within one whatever comes ends with a claimant that fits, and with a lease if it is an
attempt that succeeds. -/
structure Entitled (key : String) (owner : Pid) (ttl : Duration) (post : Post)
    (history : History) : Prop where
  between : post.work? = none → post.claimant.Fits key owner ttl history
  within : ∀ rest, post.work? = some rest →
    rest.Keeps (Procedure.calls (StoreCall.ActsFor key owner))
      (fun result later => result.2.Fits key owner ttl later ∧
        (result.1 = ⟨.operate .acquire, .ok ()⟩ → later.HasLease key)) history

theorem perform_entitled {c : Claimant} (fits : c.Fits key owner ttl history) (duty : Duty) :
    (duty.perform c).Keeps (LockProgram.calls (StoreCall.ActsFor key owner))
      (fun result later => result.2.Fits key owner ttl later ∧
        (result.1 = ⟨.operate .acquire, .ok ()⟩ → later.HasLease key)) history := by
  have acts (call : StoreCall) (concerns : call.Concerns c.key c.pid c.ttl) :
      call.ActsFor key owner := by
    rw [← fits.key_eq, ← fits.pid_eq]
    exact concerns.actsFor
  apply (LockProgram.keeps_of_allows acts (duty.perform_ended c history)).mono
  rintro ⟨_, c'⟩ later ⟨outcome, rfl, ended⟩
  exact ended.fits fits

/-- Posts act for their owners and stay entitled to what they take for their own. -/
theorem conduct_entitled {ι : Type} (key : String) (owner : ι → Pid) (ttl : ι → Duration) :
    Conduct (fun i call => call.ActsFor key (owner i))
      (fun i => Entitled key (owner i) (ttl i)) where
  call := by
    intro i post history call next good pending
    rcases pending?_eq_some_iff.mp pending with ⟨rest, go, working, stops, rfl⟩
    rcases Procedure.keeps_pending (good.within rest working) stops with ⟨acts, kept⟩
    refine ⟨acts, fun reply time => ⟨nofun, ?_⟩⟩
    rintro _ ⟨⟩
    exact kept reply time
  turn := by
    intro i post history turn post' good turned
    rcases turn?_cases turned with ⟨duty, rfl, idle, rfl⟩ |
      ⟨act, rest, rest', rfl, working, acted, rfl⟩ | ⟨report, c, rfl, working, rfl⟩
    · refine ⟨nofun, ?_⟩
      rintro _ ⟨⟩
      exact Procedure.keeps_ofLock (perform_entitled (good.between idle) duty)
    · refine ⟨nofun, ?_⟩
      rintro _ ⟨⟩
      exact Procedure.keeps_turn (good.within rest working) acted
    · exact ⟨fun _ => (good.within _ working).1, nofun⟩

theorem entitled_fresh (key : String) (owner : Pid) (ttl : Duration) (history : History) :
    (fresh ⟨key, owner, ttl, .free⟩).Entitled key owner ttl history :=
  ⟨fun _ => ⟨rfl, rfl, rfl, nofun⟩, nofun⟩

/-- That a post has nothing which it could take for the lock: it is between duties and does not
take the lock for its own, or it has no lease. -/
def EmptyHanded (key : String) (post : Post) (history : History) : Prop :=
  post.work? = none ∧ post.claimant.standing ≠ .heldBySelf ∨ ¬history.HasLease key

/-- Then it could be where it is without a lease. -/
theorem EmptyHanded.exists_entitled (empty : post.EmptyHanded key history)
    (entitled : post.Entitled key owner ttl history) :
    ∃ past, post.Entitled key owner ttl past ∧ ¬past.HasLease key := by
  rcases empty with ⟨idle, unheld⟩ | leaseless
  · have fits := entitled.between idle
    refine ⟨[], ⟨fun _ => ?_, fun rest working => ?_⟩, ?_⟩
    · exact ⟨fits.key_eq, fits.pid_eq, fits.ttl_eq, fun held => absurd held unheld⟩
    · exact absurd (idle.symm.trans working) nofun
    · simp [History.HasLease, History.lastRenewal?]
  · exact ⟨history, entitled, leaseless⟩

end Post

/-! ## What a lease does to calls -/

namespace Keyspace

variable {keyspace : Keyspace} {key : String} {owner : Pid} {expiry now : Instant}

/-- Calls about a leased record are answered as its owner expects. -/
theorem Leased.obliges (leased : keyspace.Leased key owner expiry) (before : now < expiry)
    (call : StoreCall) : call.Obliges key owner (keyspace.serve now call).1 := by
  obtain ⟨entry, live, own, -⟩ := leased.live before
  cases call with
  | fetch other =>
      rintro rfl
      simp [live, own.ownerOf?]
  | expire other ttl condition =>
      rintro rfl rfl
      simp [live, Entry.holds_isOwnedBy_iff.mpr own]
  | create | merge | lifetime | delete | keys | dump | replace => trivial

end Keyspace

namespace History

variable {key : String} {owner : Pid} {ttl : Duration} {made : MadeCall} {history : History}

/-- Whoever only renews keeps a lease that it has. -/
theorem HasLease.cons_of_renews (lease : history.HasLease key)
    (renews : made.call.Renews key owner ttl) : HasLease key (made :: history) := by
  cases renewal : made.renewal? key with
  | some expiry => exact hasLease_of_renewal renewal
  | none =>
      have keeps : made.deletes key = false := by
        obtain ⟨call, reply, time⟩ := made
        cases renews <;> rfl
      exact (hasLease_cons_iff renewal keeps).mpr lease

end History

/-! ## The run of a session -/

namespace Commons

variable {ι P Turn : Type} [DecidableEq ι] [Party P Turn]

/-- That something is the case at every moment of the run of a schedule. -/
def Throughout (property : Commons ι P → Prop) : Commons ι P → List (Move ι Turn) → Prop
  | commons, [] => property commons
  | commons, move :: moves =>
    property commons ∧ ∀ next, commons.perform move = some next → next.Throughout property moves

variable {property : Commons ι P → Prop}

theorem throughout_cons {commons next : Commons ι P} {move : Move ι Turn}
    {moves : List (Move ι Turn)} (now : property commons)
    (performed : commons.perform move = some next) (later : next.Throughout property moves) :
    commons.Throughout property (move :: moves) :=
  ⟨now, fun _ reached => Option.some.inj (performed.symm.trans reached) ▸ later⟩

/-- It is the case in the end. -/
theorem Throughout.at_end {commons later : Commons ι P} {moves : List (Move ι Turn)}
    (throughout : commons.Throughout property moves) (played : commons.play moves = some later) :
    property later := by
  induction moves generalizing commons with
  | nil => exact Option.some.inj played ▸ throughout
  | cons move moves ih =>
      rcases play_cons_eq_some_iff.mp played with ⟨next, performed, played⟩
      exact ih (throughout.2 next performed) played

/-- That the expiry of a party's last renewal has not come. -/
def InTerm (key : String) (i : ι) (commons : Commons ι P) : Prop :=
  ∀ expiry, (commons.history i).lastRenewal? key = some expiry → commons.now < expiry

/-- Has a party begin a session. -/
def withSession (commons : Commons ι Post) (i : ι) (session : Session) :
    Commons ι (Session ⊕ Post) :=
  { commons with party := Function.update (fun j => .inr (commons.party j)) i (.inl session) }

@[simp]
theorem withSession_self (commons : Commons ι Post) (i : ι) (session : Session) :
    (commons.withSession i session).party i = .inl session := by
  simp [withSession]

theorem withSession_of_ne (commons : Commons ι Post) {i j : ι} (other : j ≠ i)
    (session : Session) : (commons.withSession i session).party j = .inr (commons.party j) := by
  simp [withSession, other]

/-- What has become of a contender since a session of another began: none of its calls has
renewed the record, and from wherever it then was entitled to be it has come to where its calls
can have brought it; so without a lease there, none of its attempts has succeeded. -/
def Watched (key : String) (owner : Pid) (ttl : Duration) (old : Post) (base : History)
    (party : Session ⊕ Post) (history : History) : Prop :=
  ∃ post calls reports, party = .inr post ∧ history = calls ++ base ∧
    post.reports = reports ++ old.reports ∧ (∀ made ∈ calls, made.renewal? key = none) ∧
    ∀ past, old.Entitled key owner ttl past →
      post.Entitled key owner ttl (calls ++ past) ∧
        (¬past.HasLease key → ⟨.operate .acquire, .ok ()⟩ ∉ reports)

/-- How things are in a session: all parties are as they should be, the session has a lease that
is honoured and is secured, and the others have only been standing by. -/
structure Vigil (key : String) (pid : ι → Pid) (ttl : ι → Duration) (i : ι)
    (commons : Commons ι (Session ⊕ Post)) (called : Commons ι Post) : Prop where
  good : commons.Good fun j =>
    Sum.elim (Session.Good key (pid j) (ttl j)) (Post.Entitled key (pid j) (ttl j))
  honoured : commons.HonouredFor key (pid i) i
  lease : (commons.history i).HasLease key
  session : ∃ session, commons.party i = .inl session ∧ session.Secured key (pid i)
  others : ∀ j, j ≠ i → Watched key (pid j) (ttl j) (called.party j) (called.history j)
    (commons.party j) (commons.history j)

omit [DecidableEq ι] in
theorem conduct_vigil (key : String) (pid : ι → Pid) (ttl : ι → Duration) :
    Conduct (fun j call => call.ActsFor key (pid j)) fun j =>
      Sum.elim (Session.Good key (pid j) (ttl j)) (Post.Entitled key (pid j) (ttl j)) :=
  (Session.conduct key pid ttl).sum (Post.conduct_entitled key pid ttl)

variable {key : String} {pid : ι → Pid} {ttl : ι → Duration} {i j : ι} {called : Commons ι Post}
  {commons later : Commons ι (Session ⊕ Post)} {move : Move ι (Session.Turn ⊕ Post.Turn)}

omit [DecidableEq ι] in
/-- In term the record is the session's own. -/
theorem Vigil.leased (vigil : commons.Vigil key pid ttl i called) (inTerm : commons.InTerm key i) :
    ∃ expiry, commons.keyspace.Leased key (pid i) expiry ∧ commons.now < expiry := by
  obtain ⟨expiry, renewed, kept, before⟩ := exists_secure vigil.lease inTerm
  exact ⟨expiry, vigil.honoured expiry renewed kept before, before⟩

/-- In term, whatever happens leaves the session secured and with a lease. -/
theorem Vigil.perform_session (vigil : commons.Vigil key pid ttl i called)
    (inTerm : commons.InTerm key i) (performed : commons.perform move = some later) :
    (∃ session, later.party i = .inl session ∧ session.Secured key (pid i)) ∧
      (later.history i).HasLease key := by
  obtain ⟨expiry, leased, before⟩ := vigil.leased inTerm
  obtain ⟨session, party, secured⟩ := vigil.session
  have good : session.Good key (pid i) (ttl i) (commons.history i) := by
    have good := vigil.good i
    rwa [party] at good
  rcases perform_cases performed i with ⟨party', history⟩ |
    ⟨call, next, reply, -, pending, party', -, history⟩ | ⟨turn, -, turned, history⟩
  · exact ⟨⟨session, party'.trans party, secured⟩, history ▸ vigil.lease⟩
  · -- The call fails, or the store answers it by the record that is leased.
    rw [party] at pending
    obtain ⟨go, stops, rfl⟩ := Party.pending?_inl_eq_some_iff.mp pending
    have obliges : ∀ answer, reply = .ok answer → call.Obliges key (pid i) answer := by
      rcases reply_of_perform performed history with ⟨-, rfl⟩ | ⟨failure, rfl⟩
      · rintro _ ⟨⟩
        exact leased.obliges before call
      · nofun
    exact ⟨⟨go reply, party', secured.call stops obliges⟩,
      history ▸ vigil.lease.cons_of_renews (good.renews stops)⟩
  · rw [party] at turned
    obtain ⟨own, session', -, turned, same⟩ := Party.turn?_inl_cases turned
    exact ⟨⟨session', same, secured.turn good.acts turned⟩, history ▸ vigil.lease⟩

/-- In term, whatever happens leaves contenders as they are watched. -/
theorem Vigil.perform_others (vigil : commons.Vigil key pid ttl i called)
    (alone : ∀ j, j ≠ i → pid j ≠ pid i) (inTerm : commons.InTerm key i) (other : j ≠ i)
    (performed : commons.perform move = some later) :
    Watched key (pid j) (ttl j) (called.party j) (called.history j) (later.party j)
      (later.history j) := by
  obtain ⟨expiry, leased, before⟩ := vigil.leased inTerm
  obtain ⟨post, calls, reports, party, history, reported, idle, watched⟩ := vigil.others j other
  have conduct := Post.conduct_entitled key pid ttl
  rcases perform_cases performed j with ⟨party', history'⟩ |
    ⟨call, next, reply, -, pending, party', -, history'⟩ | ⟨turn, -, turned, history'⟩
  · exact ⟨post, calls, reports, party'.trans party, history'.trans history, reported, idle,
      watched⟩
  · -- A call that is for another owner cannot renew a record that is leased.
    have acts := ((conduct_vigil key pid ttl).call (vigil.good j) pending).1
    rw [party] at pending
    obtain ⟨go, stops, rfl⟩ := Party.pending?_inr_eq_some_iff.mp pending
    have unrenewed : MadeCall.renewal? key ⟨call, reply, commons.now⟩ = none := by
      rcases reply_of_perform performed history' with ⟨-, rfl⟩ | ⟨failure, rfl⟩
      · exact leased.renewal?_of_ne before acts (alone j other)
      · exact MadeCall.renewal?_error call failure _
    refine ⟨go reply, _ :: calls, reports, party', by rw [history', history, List.cons_append],
      ?_, List.forall_mem_cons.mpr ⟨unrenewed, idle⟩, fun past entitled => ?_⟩
    · obtain ⟨rest, _, -, -, rfl⟩ := Post.pending?_eq_some_iff.mp stops
      exact reported
    · obtain ⟨entitled, unsuccessful⟩ := watched past entitled
      exact ⟨(conduct.call entitled stops).2 reply commons.now, unsuccessful⟩
  · rw [party] at turned
    obtain ⟨own, post', -, turned, same⟩ := Party.turn?_inr_cases turned
    have kept (past : History) (entitled : (called.party j).Entitled key (pid j) (ttl j) past) :
        post'.Entitled key (pid j) (ttl j) (calls ++ past) :=
      conduct.turn (watched past entitled).1 turned
    rw [history']
    rcases Post.turn?_cases turned with ⟨duty, -, -, rfl⟩ | ⟨act, rest, rest', -, -, -, rfl⟩ |
      ⟨report, c, -, working, rfl⟩
    · exact ⟨_, calls, reports, same, history, reported, idle,
        fun past entitled => ⟨kept past entitled, (watched past entitled).2⟩⟩
    · exact ⟨_, calls, reports, same, history, reported, idle,
        fun past entitled => ⟨kept past entitled, (watched past entitled).2⟩⟩
    · -- An attempt that succeeds goes with a lease, and none has been added by the calls.
      refine ⟨_, calls, report :: reports, same, history, by rw [reported]; rfl, idle,
        fun past entitled => ⟨kept past entitled, fun leaseless member => ?_⟩⟩
      obtain ⟨entitled, unsuccessful⟩ := watched past entitled
      rcases List.mem_cons.mp member with rfl | member
      · exact leaseless (((entitled.within _ working).2 rfl).of_append idle)
      · exact unsuccessful leaseless member

/-- In term, a fair move keeps things as they are in a session. -/
theorem Vigil.perform (vigil : commons.Vigil key pid ttl i called)
    (alone : ∀ j, j ≠ i → pid j ≠ pid i) (inTerm : commons.InTerm key i) (fair : move.Fair key)
    (performed : commons.perform move = some later) : later.Vigil key pid ttl i called := by
  obtain ⟨session, lease⟩ := vigil.perform_session inTerm performed
  have conduct := conduct_vigil key pid ttl
  constructor
  · exact conduct.perform vigil.good performed
  · exact vigil.honoured.perform alone conduct vigil.good fair performed
  · exact lease
  · exact session
  · exact fun j other => vigil.perform_others alone inTerm other performed

/-- So does any fair schedule. -/
theorem Vigil.play {moves : List (Move ι (Session.Turn ⊕ Post.Turn))}
    (vigil : commons.Vigil key pid ttl i called) (alone : ∀ j, j ≠ i → pid j ≠ pid i)
    (inTerm : commons.Throughout (InTerm key i) moves) (fair : ∀ move ∈ moves, move.Fair key)
    (played : commons.play moves = some later) : later.Vigil key pid ttl i called := by
  induction moves generalizing commons with
  | nil =>
      cases played
      exact vigil
  | cons move moves ih =>
      rcases play_cons_eq_some_iff.mp played with ⟨next, performed, played⟩
      rw [List.forall_mem_cons] at fair
      exact ih (vigil.perform alone inTerm.1 fair.1 performed) (inTerm.2 next performed) fair.2
        played

/-! ## What a session comes to -/

/-- A session stays one, whatever happens. -/
theorem exists_session {begun : Session} (begins : commons.party i = .inl begun)
    (performed : commons.perform move = some later) : ∃ session, later.party i = .inl session := by
  rcases perform_cases performed i with ⟨party, -⟩ | ⟨call, next, reply, -, pending, party, -, -⟩ |
    ⟨turn, -, turned, -⟩
  · exact ⟨begun, party.trans begins⟩
  · rw [begins] at pending
    obtain ⟨go, -, rfl⟩ := Party.pending?_inl_eq_some_iff.mp pending
    exact ⟨go reply, party⟩
  · rw [begins] at turned
    obtain ⟨_, session, -, -, party⟩ := Party.turn?_inl_cases turned
    exact ⟨session, party⟩

/-- Whatever the schedule, a session goes as it should. -/
theorem exists_regular {moves : List (Move ι (Session.Turn ⊕ Post.Turn))} {begun : Session}
    (good : commons.Good fun j =>
      Sum.elim (Session.Good key (pid j) (ttl j)) (Post.Entitled key (pid j) (ttl j)))
    (begins : commons.party i = .inl begun) (played : commons.play moves = some later) :
    ∃ session, later.party i = .inl session ∧ session.Regular := by
  have conduct := conduct_vigil key pid ttl
  obtain ⟨good, session, party⟩ := play_induction (fun _ => True)
    (fun commons => commons.Good _ ∧ ∃ session, commons.party i = .inl session)
    (fun _ kept performed => ⟨conduct.perform kept.1 performed,
      exists_session kept.2.choose_spec performed⟩)
    (fun _ _ => trivial) played ⟨good, begun, begins⟩
  have good := good i
  rw [party] at good
  exact ⟨session, party, good.regular⟩

/-- What a session upholds as long as its lease lasts: the claimant has the lock, whatever has
not failed has extended the record, this is live and the claimant's own, and a renewal before
its expiry extends it once more. -/
structure Upheld (key : String) (owner : Pid) (i : ι) (session : Session)
    (commons : Commons ι (Session ⊕ Post)) : Prop where
  held : session.claimant.standing = .heldBySelf
  ensured : session.claimant.ensureHeld = .ok ()
  extended : ∀ beat ∈ session.beats ++ session.renewals, beat.failed = false →
    beat.outcome = .ok .extended
  owned : commons.Owned key owner
  renewable : ∀ clock : Nat → Instant,
    (∀ n expiry, (commons.history i).lastRenewal? key = some expiry → clock n < expiry) →
      (session.claimant.renew.runAmid (.alone clock) commons.keyspace).1 =
        (.ok .extended, session.claimant)

omit [DecidableEq ι] in
theorem Vigil.upheld (vigil : commons.Vigil key pid ttl i called) (inTerm : commons.InTerm key i) :
    ∃ session, commons.party i = .inl session ∧ commons.Upheld key (pid i) i session := by
  obtain ⟨expiry, secure⟩ := exists_secure vigil.lease inTerm
  obtain ⟨session, party, secured⟩ := vigil.session
  have good : session.Good key (pid i) (ttl i) (commons.history i) := by
    have good := vigil.good i
    rwa [party] at good
  refine ⟨session, party, secured.held, ?_, secured.extended, secure.owned vigil.honoured, ?_⟩
  · rw [Claimant.ensureHeld, secured.held]
  · intro clock before
    obtain ⟨entry, found, own, expires⟩ :=
      vigil.honoured expiry secure.renewed secure.kept secure.before
    have fresh (n : Nat) : entry.isExpired (clock n) = false :=
      entry.isExpired_eq_false_of_lt expires (before n expiry secure.renewed)
    obtain ⟨standing, acts⟩ := good.acts
    have gives := session.claimant.renew_gives_extended secured.held fresh (by rwa [acts])
    rw [acts] at gives ⊢
    exact gives commons.keyspace [] found

/-- What a contender can have done since a session of another began: none of its calls has renewed
the record, and none of its attempts has succeeded, unless it had something from before that it
takes for the lock. -/
def StandsBy (key : String) (old : Post) (base : History) (party : Session ⊕ Post)
    (history : History) : Prop :=
  ∃ post calls reports, party = .inr post ∧ history = calls ++ base ∧
    post.reports = reports ++ old.reports ∧ (∀ made ∈ calls, made.renewal? key = none) ∧
    (old.EmptyHanded key base → ⟨.operate .acquire, .ok ()⟩ ∉ reports)

theorem Watched.standsBy {owner : Pid} {ttl : Duration} {old : Post} {base history : History}
    {party : Session ⊕ Post} (entitled : old.Entitled key owner ttl base)
    (watched : Watched key owner ttl old base party history) :
    StandsBy key old base party history := by
  obtain ⟨post, calls, reports, party, history, reported, idle, watched⟩ := watched
  refine ⟨post, calls, reports, party, history, reported, idle, fun empty => ?_⟩
  obtain ⟨past, entitled, leaseless⟩ := empty.exists_entitled entitled
  exact (watched past entitled).2 leaseless

/-- What is so when a session begins. -/
theorem vigil_begin {heartbeat : Heartbeat} {interval : Duration}
    (good : called.Good fun j => Post.Entitled key (pid j) (ttl j))
    (honoured : called.HonouredFor key (pid i) i) (idle : (called.party i).work? = none)
    (held : (called.party i).claimant.standing = .heldBySelf)
    (started : Heartbeat.start? interval = .ok heartbeat) :
    (called.withSession i (.begin (called.party i).claimant heartbeat)).Vigil key pid ttl i
      called := by
  have fits := (good i).between idle
  constructor
  · intro j
    by_cases same : j = i
    · subst same
      rw [withSession_self]
      apply Session.good_begin _ started
      exact ⟨.heldBySelf, by rw [← fits.key_eq, ← fits.pid_eq, ← fits.ttl_eq, ← held]⟩
    · rw [withSession_of_ne _ same]
      exact good j
  · exact honoured
  · exact fits.lease held
  · exact ⟨_, withSession_self .., Session.secured_begin held heartbeat⟩
  · intro j other
    exact ⟨called.party j, [], [], withSession_of_ne _ other _, rfl, rfl,
      fun _ none => absurd none List.not_mem_nil, fun _ fits => ⟨fits, fun _ => List.not_mem_nil⟩⟩

/-- A session of a claimant that has the lock beats on until it is stopped or a beat finds the
lock lost or not held, whichever beats fail. And if the expiry of the last renewal never comes,
the lock stays the claimant's: no failure costs it, and no contender makes or renews the record.
Contenders may act for one owner among them, but not for the claimant's. -/
theorem session_keeps_lock {keyspace : Keyspace} {now : Instant} {before : List (Move ι Post.Turn)}
    {moves : List (Move ι (Session.Turn ⊕ Post.Turn))} {interval : Duration}
    {heartbeat : Heartbeat} (alone : ∀ j, j ≠ i → pid j ≠ pid i)
    (fairBefore : ∀ move ∈ before, move.Fair key)
    (reached : (ofPosts keyspace now key pid ttl).play before = some called)
    (idle : (called.party i).work? = none)
    (held : (called.party i).claimant.standing = .heldBySelf)
    (started : Heartbeat.start? interval = .ok heartbeat)
    (fair : ∀ move ∈ moves, move.Fair key)
    (played : (called.withSession i (.begin (called.party i).claimant heartbeat)).play moves =
      some later) :
    ∃ session, later.party i = .inl session ∧ session.Regular ∧
      ((Party.turn? Session.Turn.beat session).isSome ↔ session.work? = none ∧
        session.stopped = false ∧ ∀ beat ∈ session.beats, Heartbeat.goesOn beat.outcome = true) ∧
      ((called.withSession i (.begin (called.party i).claimant heartbeat)).Throughout
        (InTerm key i) moves →
        later.Upheld key (pid i) i session ∧
        ∀ j, j ≠ i → StandsBy key (called.party j) (called.history j) (later.party j)
          (later.history j)) := by
  obtain ⟨good, honoured⟩ := play_keeps_for alone (Post.conduct_entitled key pid ttl) fairBefore
    reached (fun i => Post.entitled_fresh key (pid i) (ttl i) []) (honoured_start _ _ _ i)
  have begins := vigil_begin good honoured idle held started
  obtain ⟨session, party, regular⟩ := exists_regular begins.good begins.session.choose_spec.1 played
  refine ⟨session, party, regular, regular.beat_iff, fun inTerm => ?_⟩
  have vigil := begins.play alone inTerm fair played
  obtain ⟨same, party', upheld⟩ := vigil.upheld (inTerm.at_end played)
  obtain rfl := Sum.inl.inj (party.symm.trans party')
  exact ⟨upheld, fun j other => (vigil.others j other).standsBy (good j)⟩

/-- A claimant takes the lock. -/
def settling (i : ι) : List (Move ι Post.Turn) :=
  [.turn i (.start (.operate .acquire)), .serve i, .turn i (.act .note), .turn i .report]

/-- The process numbers of a claimant and of two contenders that have one between them. -/
def siegePid (i : Option Bool) : Pid :=
  if i.isNone then 1 else 2

theorem siegePid_ne : ∀ j, j ≠ none → siegePid j ≠ siegePid none := by
  rintro (_ | j) other
  · contradiction
  · exact show (2 : Pid) ≠ 1 by decide

/-- A contender tries to take the lock and finds it taken. -/
def attempting (j : ι) : List (Move ι (Session.Turn ⊕ Post.Turn)) :=
  [.turn j (.inr (.start (.operate .acquire))), .serve j, .serve j, .serve j,
    .turn j (.inr (.act .note)), .turn j (.inr .report)]

/-- The first beat fails, the contenders try to take the lock, the second beat comes in time, and
the session is stopped. -/
def hiccup : List (Move (Option Bool) (Session.Turn ⊕ Post.Turn)) :=
  [.advance (.ofSinceEpoch 4000000000), .turn none (.inl .beat), .fail none (.stated "busy"),
    .turn none (.inl .note), .turn none (.inl .report)] ++
  attempting (some false) ++ attempting (some true) ++
  [.advance (.ofSinceEpoch 8000000000), .turn none (.inl .beat), .serve none, .serve none,
    .turn none (.inl .note), .turn none (.inl .report), .turn none (.inl .stop)]

theorem session_keeps_lock_of_hiccup :
    ∃ called later session,
      (ofPosts .empty (.ofSinceEpoch 0) "lock" siegePid fun _ => .ofSeconds 10).play
        (settling none) = some called ∧
      (called.withSession none (.begin (called.party none).claimant ⟨true, 0⟩)).play hiccup =
        some later ∧
      later.party none = .inl session ∧
      session.beats =
        [⟨.ok .extended, false⟩, ⟨.error (.storeUnavailable (.stated "busy")), true⟩] ∧
      later.Upheld "lock" 1 none session ∧
      ∀ j : Bool, StandsBy "lock" (called.party (some j)) (called.history (some j))
        (later.party (some j)) (later.history (some j)) := by
  obtain ⟨called, later, session, reached, idle, held, played, party, beats, inTerm⟩ :
      ∃ called later session,
        (ofPosts .empty (.ofSinceEpoch 0) "lock" siegePid fun _ => .ofSeconds 10).play
          (settling none) = some called ∧
        (called.party none).work? = none ∧
        (called.party none).claimant.standing = .heldBySelf ∧
        (called.withSession none (.begin (called.party none).claimant ⟨true, 0⟩)).play hiccup =
          some later ∧
        later.party none = .inl session ∧
        session.beats =
          [⟨.ok .extended, false⟩, ⟨.error (.storeUnavailable (.stated "busy")), true⟩] ∧
        (called.withSession none (.begin (called.party none).claimant ⟨true, 0⟩)).Throughout
          (InTerm "lock" none) hiccup := by
    refine ⟨_, _, _, rfl, rfl, rfl, rfl, rfl, rfl, ?_⟩
    iterate 24 refine throughout_cons (by rintro _ ⟨⟩; decide) rfl ?_
    rintro _ ⟨⟩
    decide
  obtain ⟨session', party', -, -, kept⟩ := session_keeps_lock siegePid_ne
    (by simp [settling, Move.Fair]) reached idle held
    (show Heartbeat.start? (.ofSeconds 4) = .ok ⟨true, 0⟩ from rfl)
    (by simp [hiccup, attempting, Move.Fair]) played
  obtain rfl := Sum.inl.inj (party.symm.trans party')
  obtain ⟨upheld, others⟩ := kept inTerm
  exact ⟨called, later, session, reached, played, party, beats, upheld,
    fun j => others (some j) nofun⟩

/-- The second claimant takes the lock, its record expires, and the first claimant takes it. -/
def succession : List (Move Bool Post.Turn) :=
  [.turn false (.start (.operate .acquire)), .serve false, .turn false (.act .note),
    .turn false .report, .advance (.ofSinceEpoch 10000000000)] ++ settling true

/-- The second claimant still takes the lock for its own, and so it is told that it has it. -/
def pretence : List (Move Bool (Session.Turn ⊕ Post.Turn)) :=
  [.turn false (.inr (.start (.operate .acquire))), .turn false (.inr (.act .note)),
    .turn false (.inr .report)]

/-- So not every contender is refused in a session whose lease lasts. -/
theorem not_always_refused_in_session :
    ¬∀ (before : List (Move Bool Post.Turn)) (moves : List (Move Bool (Session.Turn ⊕ Post.Turn)))
      (called : Commons Bool Post) (later : Commons Bool (Session ⊕ Post)) (post : Post),
      (∀ move ∈ before, move.Fair "lock") →
      (ofPosts .empty (.ofSinceEpoch 0) "lock" duelPid fun _ => .ofSeconds 10).play before =
        some called →
      (called.party true).work? = none →
      (called.party true).claimant.standing = .heldBySelf →
      (∀ move ∈ moves, move.Fair "lock") →
      (called.withSession true (.begin (called.party true).claimant ⟨true, 0⟩)).play moves =
        some later →
      (called.withSession true (.begin (called.party true).claimant ⟨true, 0⟩)).Throughout
        (InTerm "lock" true) moves →
      later.party false = .inr post →
      ∀ report reports, post.reports = report :: reports →
        reports = (called.party false).reports → report ≠ ⟨.operate .acquire, .ok ()⟩ := by
  intro always
  refine always succession pretence _ _ _ (by simp [succession, settling, Move.Fair]) rfl rfl rfl
    (by simp [pretence, Move.Fair]) rfl ?_ rfl _ _ rfl rfl rfl
  iterate 3 refine throughout_cons (by rintro _ ⟨⟩; decide) rfl ?_
  rintro _ ⟨⟩
  decide

end Commons

end Leasehold
