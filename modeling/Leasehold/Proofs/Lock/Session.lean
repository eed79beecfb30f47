import Leasehold.Proofs.Lock.Tally
import Leasehold.Proofs.Protected.Course
import Leasehold.Proofs.Sharing.Commons

/-!
# Heartbeat sessions

A session keeps the lock of a claimant alive while something else is waited for. It beats
until it is stopped or a beat finds that the lock is lost or not held; a beat that fails does
not end it. Once it has been stopped the claimant can be renewed by hand.

A beat stops at every store call, so others can do anything between two of them. What a
session knows of a beat is what it came to and whether one of its calls has failed.
-/

namespace Leasehold

open LockRecord

/-! ## Beats -/

namespace Heartbeat

/-- Whether a heartbeat goes on after a renewal that came to this. -/
def goesOn : Except Failure Renewal → Bool
  | .ok (.lost _) => false
  | .ok .notHeld => false
  | _ => true

/-- A heartbeat after a renewal that came to this. -/
def after (heartbeat : Heartbeat) (outcome : Except Failure Renewal) : Heartbeat :=
  ⟨goesOn outcome, heartbeat.beats + 1⟩

/-- One beat of a heartbeat that goes on, with what the renewal came to. -/
def renew (heartbeat : Heartbeat) (c : Claimant) :
    LockProgram (Except Failure Renewal × Heartbeat × Claimant) := do
  let (outcome, c) ← c.renew
  match outcome with
  | .ok renewal => return (.ok renewal, heartbeat.after (.ok renewal), c)
  | .error failure =>
    note (.beatFailed failure)
    return (.error failure, heartbeat.after (.error failure), c)

/-- This is what beats do. -/
theorem beat_eq_renew {heartbeat : Heartbeat} (running : heartbeat.running = true) (c : Claimant) :
    heartbeat.beat c = do return (← heartbeat.renew c).2 := by
  rw [beat, if_pos running, renew, bind_assoc]
  congr
  funext result
  rcases result with ⟨failure | (_ | _ | _ | _), c⟩ <;> rfl

end Heartbeat

/-! ## Calls that fail -/

/-- Whether a call has failed. -/
def StoreCall.fails {call : StoreCall} : call.Reply → Bool
  | .ok _ => false
  | .error _ => true

namespace LockProgram

variable {α : Type} {answers : (call : StoreCall) → call.Answer → Prop} {ends : α → Bool → Prop}
  {failed : Bool}

/-- The contract of programs whose calls fail or are answered in some way, with whether one
has failed as its state. -/
def hearing (answers : (call : StoreCall) → call.Answer → Prop) :
    Contract LockRequest.Reply Bool where
  allows _ _ := True
  leads
    | .store call, reply, failed, later =>
      (∀ answer, reply = .ok answer → answers call answer) ∧
        later = (failed || StoreCall.fails reply)
    | .log _, _, failed, later => later = failed

theorem keeps_hearing_note_bind {event : LogEvent} {next : Unit → LockProgram α} :
    (note event >>= next).Keeps (hearing answers) ends failed ↔
      (next ()).Keeps (hearing answers) ends failed :=
  ⟨fun kept => kept.2 () _ rfl, fun kept => ⟨trivial, fun _ _ same => same ▸ kept⟩⟩

/-- A call fails, or it is answered. -/
theorem keeps_hearing_ask_bind {call : StoreCall} {next : call.Reply → LockProgram α}
    (fails : ∀ failure, (next (.error failure)).Keeps (hearing answers) ends true)
    (succeeds : ∀ answer, answers call answer →
      (next (.ok answer)).Keeps (hearing answers) ends failed) :
    (ask call >>= next).Keeps (hearing answers) ends failed := by
  refine ⟨trivial, ?_⟩
  rintro (failure | answer) _ ⟨heard, rfl⟩
  · rw [StoreCall.fails, Bool.or_true]
    exact fails failure
  · rw [StoreCall.fails, Bool.or_false]
    exact succeeds answer (heard answer rfl)

theorem keeps_hearing_readOwner_bind {key : String}
    {next : Except Failure (Option (Option Pid)) → LockProgram α}
    (fails : ∀ failure, (next (.error failure)).Keeps (hearing answers) ends true)
    (succeeds : ∀ fields : Option Fields, answers (.fetch key) fields →
      (next (.ok (fields.map ownerOf?))).Keeps (hearing answers) ends failed) :
    (readOwner key >>= next).Keeps (hearing answers) ends failed := by
  rw [readOwner, bind_assoc]
  exact keeps_hearing_ask_bind fails succeeds

end LockProgram

/-! ## Renewals that fail -/

/-- That the answers to calls about the record are those that its owner gets as long as its
lease lasts: it reads its own name, and it can extend the record. -/
def StoreCall.Obliges (key : String) (owner : Pid) : (call : StoreCall) → call.Answer → Prop
  | .fetch other, fields => other = key → fields.bind ownerOf? = some owner
  | .expire other _ condition, answer => other = key → condition = isOwnedBy owner → answer = true
  | _, _ => True

/-- What a beat or another renewal has come to, and whether one of its calls has failed. -/
structure Beat where
  outcome : Except Failure Renewal
  failed : Bool

/-- That a beat has failed exactly where one of its calls has. -/
def Beat.Told (beat : Beat) : Prop :=
  beat.failed = true ↔ ∃ failure, beat.outcome = .error failure

theorem Beat.told_ok (renewal : Renewal) : (Beat.mk (.ok renewal) false).Told := by
  simp [Told]

theorem Beat.told_error (failure : Failure) : (Beat.mk (.error failure) true).Told := by
  simp [Told]

namespace Claimant

variable (c : Claimant)

theorem recreate_told (answers : (call : StoreCall) → call.Answer → Prop) :
    c.recreate.Keeps (LockProgram.hearing answers)
      (fun result failed => (Beat.mk result.1 failed).Told) false := by
  rw [recreate]
  apply LockProgram.keeps_hearing_ask_bind
  · exact Beat.told_error
  · rintro (_ | _) -
    · apply LockProgram.keeps_hearing_readOwner_bind
      · exact Beat.told_error
      · exact fun fields _ => LockProgram.keeps_hearing_note_bind.mpr (Beat.told_ok _)
    · exact LockProgram.keeps_hearing_note_bind.mpr (Beat.told_ok _)

theorem renew_told (answers : (call : StoreCall) → call.Answer → Prop) :
    c.renew.Keeps (LockProgram.hearing answers)
      (fun result failed => (Beat.mk result.1 failed).Told) false := by
  rw [renew]
  split
  next => exact Beat.told_ok _
  next => exact Beat.told_ok _
  next => exact Beat.told_ok _
  next =>
    apply LockProgram.keeps_hearing_readOwner_bind
    · exact Beat.told_error
    · rintro (_ | fields) -
      · exact c.recreate_told answers
      · simp only [Option.map_some]
        split
        · apply LockProgram.keeps_hearing_ask_bind
          · exact Beat.told_error
          · rintro (_ | _) -
            · exact c.recreate_told answers
            · exact LockProgram.keeps_hearing_note_bind.mpr (Beat.told_ok _)
        · exact LockProgram.keeps_hearing_note_bind.mpr (Beat.told_ok _)

/-- As long as the lease lasts, a renewal extends the record unless one of its calls fails. -/
theorem renew_obliged (held : c.standing = .heldBySelf) :
    c.renew.Keeps (LockProgram.hearing (StoreCall.Obliges c.key c.pid))
      (fun result failed => result.2 = c ∧ (failed = false → result.1 = .ok .extended)) false := by
  rw [renew, held]
  apply LockProgram.keeps_hearing_readOwner_bind
  · exact fun failure => ⟨rfl, by simp⟩
  · intro fields obliges
    obtain ⟨fields, rfl, own⟩ := Option.bind_eq_some_iff.mp (obliges rfl)
    simp only [Option.map_some, own, if_true]
    apply LockProgram.keeps_hearing_ask_bind
    · exact fun failure => ⟨rfl, by simp⟩
    · intro answer obliges
      obtain rfl := obliges rfl rfl
      exact LockProgram.keeps_hearing_note_bind.mpr ⟨rfl, fun _ => rfl⟩

end Claimant

/-! ## Sessions -/

/-- A session of a heartbeat: the claimant, the heartbeat, whether it has been stopped, its
beats and the renewals since it was stopped, the last one first, and what is left of the one
that is under way, if any, with whether a call of it has failed. -/
structure Session where
  claimant : Claimant
  heartbeat : Heartbeat
  stopped : Bool
  beats : List Beat
  renewals : List Beat
  work? : Option (LockProgram (Except Failure Renewal × Heartbeat × Claimant) × Bool)

namespace Session

/-- A session that is about to begin. -/
def begin (c : Claimant) (heartbeat : Heartbeat) : Session :=
  ⟨c, heartbeat, false, [], [], none⟩

/-- What is done between store calls: a beat or a renewal begins, takes note of something, or
is through, or the session is stopped. -/
inductive Turn where
  | beat
  | renew
  | note
  | report
  | stop

/-- The session after a beat or a renewal. -/
def conclude (session : Session) (heartbeat : Heartbeat) (c : Claimant) (beat : Beat) : Session :=
  if session.stopped then
    ⟨c, heartbeat, true, session.beats, beat :: session.renewals, none⟩
  else ⟨c, heartbeat, false, beat :: session.beats, session.renewals, none⟩

/-- A renewal that is no beat. -/
def renewal (session : Session) : LockProgram (Except Failure Renewal × Heartbeat × Claimant) := do
  let (outcome, c) ← session.claimant.renew
  return (outcome, session.heartbeat, c)

instance : Party Session Turn where
  pending? session :=
    match session.work? with
    | some (.step (.store call) next, failed) =>
      some ⟨call, fun reply =>
        { session with work? := some (next reply, failed || StoreCall.fails reply) }⟩
    | _ => none
  turn? turn session :=
    match turn, session.work? with
    | .beat, none =>
      if session.stopped = false ∧ session.heartbeat.running = true then
        some { session with work? := some (session.heartbeat.renew session.claimant, false) }
      else none
    | .renew, none =>
      if session.stopped then some { session with work? := some (session.renewal, false) } else none
    | .note, some (.step (.log _) next, failed) =>
      some { session with work? := some (next (), failed) }
    | .report, some (.done (outcome, heartbeat, c), failed) =>
      some (session.conclude heartbeat c ⟨outcome, failed⟩)
    | .stop, none => some { session with stopped := true }
    | _, _ => none

variable {session session' : Session}

theorem pending?_eq_some_iff {call : StoreCall} {next : call.Reply → Session} :
    Party.pending? session = some ⟨call, next⟩ ↔
      ∃ go failed, session.work? = some (.step (.store call) go, failed) ∧
        next = fun reply =>
          { session with work? := some (go reply, failed || StoreCall.fails reply) } := by
  constructor
  · intro pending
    simp only [Party.pending?] at pending
    split at pending
    next go failed working =>
      cases pending
      exact ⟨go, failed, working, rfl⟩
    next => contradiction
  · rintro ⟨go, failed, working, rfl⟩
    simp only [Party.pending?, working]

/-- The five kinds of turns. -/
theorem turn?_cases {turn : Turn} (turned : Party.turn? turn session = some session') :
    (session.work? = none ∧ session.stopped = false ∧ session.heartbeat.running = true ∧
      session' = { session with work? := some (session.heartbeat.renew session.claimant, false) }) ∨
    (session.work? = none ∧ session.stopped = true ∧
      session' = { session with work? := some (session.renewal, false) }) ∨
    (∃ event next failed, session.work? = some (.step (.log event) next, failed) ∧
      session' = { session with work? := some (next (), failed) }) ∨
    (∃ outcome heartbeat c failed, session.work? = some (.done (outcome, heartbeat, c), failed) ∧
      session' = session.conclude heartbeat c ⟨outcome, failed⟩) ∨
    (session.work? = none ∧ session' = { session with stopped := true }) := by
  simp only [Party.turn?] at turned
  split at turned
  next idle =>
    split at turned
    next goes =>
      cases turned
      exact .inl ⟨idle, goes.1, goes.2, rfl⟩
    next => contradiction
  next idle =>
    split at turned
    next stopped =>
      cases turned
      exact .inr (.inl ⟨idle, stopped, rfl⟩)
    next => contradiction
  next event next failed working =>
    cases turned
    exact .inr (.inr (.inl ⟨event, next, failed, working, rfl⟩))
  next outcome heartbeat c failed working =>
    cases turned
    exact .inr (.inr (.inr (.inl ⟨outcome, heartbeat, c, failed, working, rfl⟩)))
  next idle =>
    cases turned
    exact .inr (.inr (.inr (.inr ⟨idle, rfl⟩)))
  next => contradiction

/-! ## What is left of a beat -/

/-- The heartbeat after a beat or a renewal that came to this: only beats count. -/
def next (session : Session) (outcome : Except Failure Renewal) : Heartbeat :=
  if session.stopped then session.heartbeat else session.heartbeat.after outcome

section

variable {σ : Type} {contract : Contract LockRequest.Reply σ} {state : σ}
  {ends : Except Failure Renewal × Claimant → σ → Prop}

/-- What a contract that lets notes pass says of a renewal, it says of a beat. -/
theorem keeps_beat (going : session.stopped = false)
    (notes : ∀ event state, contract.allows (.log event) state ∧
      ∀ later, contract.leads (.log event) () state later → later = state)
    (kept : session.claimant.renew.Keeps contract ends state) :
    (session.heartbeat.renew session.claimant).Keeps contract (fun result later =>
      result.2.1 = session.next result.1 ∧ ends (result.1, result.2.2) later) state := by
  apply Program.keeps_bind.mpr
  apply kept.mono
  have next_eq (outcome : Except Failure Renewal) :
      session.heartbeat.after outcome = session.next outcome := by
    rw [next, going]
    rfl
  rintro ⟨failure | renewal, c'⟩ later ended
  · -- A renewal that failed is noted before the beat is through.
    refine ⟨(notes _ _).1, fun _ _ leads => ?_⟩
    obtain rfl := (notes _ _).2 _ leads
    exact ⟨next_eq _, ended⟩
  · exact ⟨next_eq _, ended⟩

theorem keeps_renewal (stopped : session.stopped = true)
    (kept : session.claimant.renew.Keeps contract ends state) :
    session.renewal.Keeps contract (fun result later =>
      result.2.1 = session.next result.1 ∧ ends (result.1, result.2.2) later) state := by
  apply Program.keeps_bind.mpr
  apply kept.mono
  intro result later ended
  refine ⟨?_, ended⟩
  rw [next, stopped]
  rfl

end

/-! ## How sessions go -/

/-- That a session goes as it should: its heartbeat goes on exactly as long as no beat has
found the lock lost or not held, so only the last beat can have done so; and a beat fails
exactly where one of its calls does. -/
structure Regular (session : Session) : Prop where
  counted : session.heartbeat.beats = session.beats.length
  running_iff : session.heartbeat.running = true ↔
    ∀ beat ∈ session.beats, Heartbeat.goesOn beat.outcome = true
  earlier : ∀ beat ∈ session.beats.tail, Heartbeat.goesOn beat.outcome = true
  told : ∀ beat ∈ session.beats ++ session.renewals, beat.Told

/-- So a beat can begin exactly between beats of a session that has not been stopped, if no beat
has found the lock lost or not held. -/
theorem Regular.beat_iff (regular : session.Regular) :
    (Party.turn? Turn.beat session).isSome ↔ session.work? = none ∧ session.stopped = false ∧
      ∀ beat ∈ session.beats, Heartbeat.goesOn beat.outcome = true := by
  rw [← regular.running_iff]
  cases working : session.work? with
  | none => simp [Party.turn?, working]
  | some rest => simp [Party.turn?, working]

/-- It matters to that neither whether a session has been stopped nor what is under way. -/
theorem Regular.with (regular : session.Regular) (stopped : Bool)
    (work? : Option (LockProgram (Except Failure Renewal × Heartbeat × Claimant) × Bool)) :
    Regular { session with stopped := stopped, work? := work? } :=
  ⟨regular.counted, regular.running_iff, regular.earlier, regular.told⟩

theorem Regular.conclude (regular : session.Regular)
    (going : session.stopped = false → session.heartbeat.running = true) {c : Claimant}
    {beat : Beat} (told : beat.Told) :
    (session.conclude (session.next beat.outcome) c beat).Regular := by
  rw [Session.conclude, next]
  split
  next stopped =>
    refine ⟨regular.counted, regular.running_iff, regular.earlier, ?_⟩
    intro other member
    rcases List.mem_append.mp member with before | after
    · exact regular.told other (List.mem_append_left _ before)
    · rcases List.mem_cons.mp after with rfl | after
      · exact told
      · exact regular.told other (List.mem_append_right _ after)
  next unstopped =>
    have all := regular.running_iff.mp (going (Bool.eq_false_iff.mpr unstopped))
    constructor
    · exact congrArg Nat.succ regular.counted
    · exact ⟨fun goes => List.forall_mem_cons.mpr ⟨goes, all⟩, fun all => all _ List.mem_cons_self⟩
    · exact all
    · exact List.forall_mem_cons.mpr ⟨told, regular.told⟩

/-- That a session acts for an owner and goes as it should, and that what is under way will
end so. -/
structure Good (key : String) (owner : Pid) (ttl : Duration) (session : Session)
    (history : History) : Prop where
  acts : ∃ standing, session.claimant = ⟨key, owner, ttl, standing⟩
  regular : session.Regular
  within : ∀ rest failed, session.work? = some (rest, failed) →
    (session.stopped = false → session.heartbeat.running = true) ∧
    rest.Keeps (LockProgram.calls (StoreCall.Renews key owner ttl))
      (fun result _ => ∃ standing, result.2.2 = ⟨key, owner, ttl, standing⟩) history ∧
    rest.Keeps (LockProgram.hearing fun _ _ => True)
      (fun result failed => result.2.1 = session.next result.1 ∧
        (Beat.mk result.1 failed).Told) failed

variable {key : String} {owner : Pid} {ttl : Duration} {history : History}

theorem good_begin {c : Claimant} {interval : Duration} {heartbeat : Heartbeat}
    (acts : ∃ standing, c = ⟨key, owner, ttl, standing⟩)
    (started : Heartbeat.start? interval = .ok heartbeat) :
    (begin c heartbeat).Good key owner ttl history := by
  rw [Heartbeat.start?] at started
  split at started
  · contradiction
  · cases started
    exact ⟨acts, ⟨rfl, by simp [begin], by simp [begin], by simp [begin]⟩, nofun⟩

/-- A claimant that acts for an owner renews the lock for it. -/
theorem renew_kept {c : Claimant} (acts : ∃ standing, c = ⟨key, owner, ttl, standing⟩)
    (history : History) :
    c.renew.Keeps (LockProgram.calls (StoreCall.Renews key owner ttl))
      (fun result _ => ∃ standing, result.2 = ⟨key, owner, ttl, standing⟩) history := by
  obtain ⟨standing, rfl⟩ := acts
  exact ((Claimant.mk key owner ttl standing).renew_renews history).mono
    fun _ _ renewing => renewing.same

/-- The call that a session is about to make renews the lock. -/
theorem Good.renews (good : session.Good key owner ttl history) {call : StoreCall}
    {next : call.Reply → Session} (pending : Party.pending? session = some ⟨call, next⟩) :
    call.Renews key owner ttl := by
  obtain ⟨go, failed, working, rfl⟩ := pending?_eq_some_iff.mp pending
  exact (good.within _ failed working).2.1.1

/-- Sessions renew the lock for their owners and go as they should. -/
theorem conduct {ι : Type} (key : String) (owner : ι → Pid) (ttl : ι → Duration) :
    Conduct (fun i call => call.ActsFor key (owner i)) (fun i => Good key (owner i) (ttl i)) where
  call := by
    intro i session history call next good pending
    refine ⟨(good.renews pending).sustains.actsFor, fun reply time => ?_⟩
    obtain ⟨go, failed, working, rfl⟩ := pending?_eq_some_iff.mp pending
    obtain ⟨going, kept, heard⟩ := good.within _ failed working
    refine ⟨good.acts, good.regular.with _ _, ?_⟩
    rintro _ _ ⟨⟩
    exact ⟨going, kept.2 reply _ ⟨time, rfl⟩, heard.2 reply _ ⟨fun _ _ => trivial, rfl⟩⟩
  turn := by
    intro i session history turn session' good turned
    rcases turn?_cases turned with ⟨idle, going, running, rfl⟩ | ⟨idle, stopped, rfl⟩ |
      ⟨event, next, failed, working, rfl⟩ | ⟨outcome, heartbeat, c, failed, working, rfl⟩ |
      ⟨idle, rfl⟩
    · refine ⟨good.acts, good.regular.with _ _, ?_⟩
      rintro _ _ ⟨⟩
      refine ⟨fun _ => running, ?_, ?_⟩
      · have kept := keeps_beat going (fun _ _ => ⟨trivial, fun _ same => same⟩)
          (renew_kept good.acts history)
        exact kept.mono fun _ _ ended => ended.2
      · exact keeps_beat going (fun _ _ => ⟨trivial, fun _ same => same⟩)
          (session.claimant.renew_told _)
    · refine ⟨good.acts, good.regular.with _ _, ?_⟩
      rintro _ _ ⟨⟩
      refine ⟨fun going => absurd (going.symm.trans stopped) nofun, ?_, ?_⟩
      · have kept := keeps_renewal stopped (renew_kept good.acts history)
        exact kept.mono fun _ _ ended => ended.2
      · exact keeps_renewal stopped (session.claimant.renew_told _)
    · obtain ⟨going, kept, heard⟩ := good.within _ failed working
      refine ⟨good.acts, good.regular.with _ _, ?_⟩
      rintro _ _ ⟨⟩
      exact ⟨going, kept.2 () _ rfl, heard.2 () _ rfl⟩
    · obtain ⟨going, acts', same, told⟩ := good.within _ failed working
      obtain rfl : heartbeat = session.next outcome := same
      refine ⟨?_, good.regular.conclude going told, ?_⟩
      · rw [Session.conclude]
        split <;> exact acts'
      · rw [Session.conclude]
        split <;> nofun
    · refine ⟨good.acts, good.regular.with _ _, ?_⟩
      rintro rest failed working
      exact absurd (idle.symm.trans working) nofun

/-! ## Sessions whose lease lasts -/

/-- That a session takes the lock for its claimant's own, that all that has not failed has
extended the record, and that what is under way will do so if its lease lasts. -/
structure Secured (key : String) (owner : Pid) (session : Session) : Prop where
  held : session.claimant.standing = .heldBySelf
  extended : ∀ beat ∈ session.beats ++ session.renewals, beat.failed = false →
    beat.outcome = .ok .extended
  within : ∀ rest failed, session.work? = some (rest, failed) →
    rest.Keeps (LockProgram.hearing (StoreCall.Obliges key owner))
      (fun result failed => result.2.2 = session.claimant ∧
        (failed = false → result.1 = .ok .extended)) failed

theorem secured_begin {c : Claimant} (held : c.standing = .heldBySelf) (heartbeat : Heartbeat) :
    (begin c heartbeat).Secured key owner :=
  ⟨held, by simp [begin], nofun⟩

/-- A call that fails or gets such an answer does not change that. -/
theorem Secured.call (secured : session.Secured key owner) {call : StoreCall}
    {next : call.Reply → Session} (pending : Party.pending? session = some ⟨call, next⟩)
    {reply : call.Reply} (obliges : ∀ answer, reply = .ok answer → call.Obliges key owner answer) :
    (next reply).Secured key owner := by
  obtain ⟨go, failed, working, rfl⟩ := pending?_eq_some_iff.mp pending
  refine ⟨secured.held, secured.extended, ?_⟩
  rintro _ _ ⟨⟩
  exact (secured.within _ failed working).2 reply _ ⟨obliges, rfl⟩

/-- Nor does a turn. -/
theorem Secured.turn (secured : session.Secured key owner)
    (acts : ∃ standing, session.claimant = ⟨key, owner, ttl, standing⟩) {turn : Turn}
    (turned : Party.turn? turn session = some session') : session'.Secured key owner := by
  have renews : session.claimant.renew.Keeps (LockProgram.hearing (StoreCall.Obliges key owner))
      (fun result failed => result.2 = session.claimant ∧
        (failed = false → result.1 = .ok .extended)) false := by
    have obliged := session.claimant.renew_obliged secured.held
    obtain ⟨standing, acts⟩ := acts
    rwa [acts] at obliged ⊢
  rcases turn?_cases turned with ⟨idle, going, running, rfl⟩ | ⟨idle, stopped, rfl⟩ |
    ⟨event, next, failed, working, rfl⟩ | ⟨outcome, heartbeat, c, failed, working, rfl⟩ |
    ⟨idle, rfl⟩
  · refine ⟨secured.held, secured.extended, ?_⟩
    rintro _ _ ⟨⟩
    have kept := keeps_beat going (fun _ _ => ⟨trivial, fun _ same => same⟩) renews
    exact kept.mono fun _ _ ended => ended.2
  · refine ⟨secured.held, secured.extended, ?_⟩
    rintro _ _ ⟨⟩
    exact (keeps_renewal stopped renews).mono fun _ _ ended => ended.2
  · refine ⟨secured.held, secured.extended, ?_⟩
    rintro _ _ ⟨⟩
    exact (secured.within _ failed working).2 () _ rfl
  · obtain ⟨rfl, extended⟩ : c = session.claimant ∧ _ := secured.within _ failed working
    rw [conclude]
    split
    · refine ⟨secured.held, ?_, nofun⟩
      intro beat member
      rcases List.mem_append.mp member with before | after
      · exact secured.extended beat (List.mem_append_left _ before)
      · rcases List.mem_cons.mp after with rfl | after
        · exact extended
        · exact secured.extended beat (List.mem_append_right _ after)
    · exact ⟨secured.held, List.forall_mem_cons.mpr ⟨extended, secured.extended⟩, nofun⟩
  · refine ⟨secured.held, secured.extended, ?_⟩
    intro rest failed working
    exact absurd (idle.symm.trans working) nofun

end Session

end Leasehold
