import Leasehold.Proofs.Lock.Contest
import Leasehold.Proofs.Lock.Status
import Mathlib.Data.List.Infix

/-!
# What a status has been

The owner of the lock is read in one call and its expiry in another, and between the two
others may do to the record what they like. So each half of a status was true when it was
read: a lock that is told to be free was free, and one that is told to be somebody's was. Both
halves were true at one instant too, unless somebody has written the record in between: then
it may have been the owner's with the other kind of expiry, and another's with this kind.
-/

namespace Leasehold

open LockRecord

/-! ## The two calls -/

namespace LockStatus

/-- What is left to do once an owner has been read. -/
def resume (key : String) (owner : Option Pid) : Procedure (Except Failure LockStatus) :=
  .step (.lock (.store (.lifetime key))) fun reply => .done (reply.map (ofLifetime owner))

/-- What comes of reading the owner. -/
def afterOwner (key : String) :
    Except Failure (Option Fields) → Procedure (Except Failure LockStatus)
  | .error failure => .done (.error failure)
  | .ok none => .done (.ok .unlocked)
  | .ok (some fields) => resume key (ownerOf? fields)

theorem ofLock_find (key : String) :
    Procedure.ofLock (find key) = .step (.lock (.store (.fetch key))) (afterOwner key) := by
  refine congrArg (Program.step _) (funext fun reply => ?_)
  rcases reply with failure | _ | fields
  · rfl
  · rfl
  · refine congrArg (Program.step _) (funext fun reply => ?_)
    cases reply <;> rfl

end LockStatus

namespace Commons

variable {ι P Turn : Type} [DecidableEq ι] [Party P Turn]

/-! ## Instants -/

/-- That a property holds at an instant that a run passes, its first and its last one
included. -/
def Passes (commons : Commons ι P) (moves : List (Move ι Turn))
    (property : Commons ι P → Prop) : Prop :=
  ∃ part, part <+: moves ∧ ∃ instant ∈ commons.play part, property instant

instance (commons : Commons ι P) (moves : List (Move ι Turn)) (property : Commons ι P → Prop)
    [DecidablePred property] : Decidable (commons.Passes moves property) :=
  decidable_of_iff (∃ part ∈ moves.inits, ∃ instant ∈ commons.play part, property instant)
    (by simp only [Passes, List.mem_inits])

/-- That there is a live record under a key with this owner, and with an expiry or without. -/
def Stands (key : String) (owner : Option Pid) (expires : Bool) (commons : Commons ι P) : Prop :=
  ∃ entry ∈ commons.keyspace.live? key commons.now,
    ownerOf? entry.fields = owner ∧ entry.expiresAt.isSome = expires

instance (key : String) (owner : Option Pid) (expires : Bool) :
    DecidablePred (Stands key owner expires : Commons ι P → Prop) := fun commons =>
  inferInstanceAs (Decidable (∃ entry ∈ commons.keyspace.live? key commons.now,
    ownerOf? entry.fields = owner ∧ entry.expiresAt.isSome = expires))

/-- That at some instant of a run somebody writes the record under a key: it does not stay as
it is, and that is not because it lapses. -/
def IsWritten (key : String) (commons : Commons ι P) (moves : List (Move ι Turn)) : Prop :=
  ∃ part move rest, moves = part ++ move :: rest ∧
    ∃ instant ∈ commons.play part, ∃ next ∈ instant.perform move,
      ¬Keyspace.Lapses key [instant.now] instant.keyspace next.keyspace

variable {commons later : Commons ι P} {moves : List (Move ι Turn)} {key : String}

/-- A record that nobody writes lapses at most. -/
theorem lapses_or_isWritten (key : String) (played : commons.play moves = some later) :
    (∃ times, Keyspace.Lapses key times commons.keyspace later.keyspace) ∨
      commons.IsWritten key moves := by
  induction moves generalizing commons with
  | nil =>
      obtain rfl := Option.some.inj played
      exact .inl ⟨[], .refl _ _ _⟩
  | cons move moves ih =>
      rcases play_cons_eq_some_iff.mp played with ⟨next, performed, played⟩
      by_cases first : Keyspace.Lapses key [commons.now] commons.keyspace next.keyspace
      · rcases ih played with ⟨times, rest⟩ | ⟨part, other, rest, rfl, instant, reached, written⟩
        · have more : ∀ time ∈ [commons.now], time ∈ commons.now :: times := by simp
          have more' : ∀ time ∈ times, time ∈ commons.now :: times :=
            fun _ => List.mem_cons_of_mem _
          exact .inl ⟨_, (first.mono more).trans (rest.mono more')⟩
        · exact .inr ⟨move :: part, other, rest, rfl, instant,
            play_cons_eq_some_iff.mpr ⟨next, performed, reached⟩, written⟩
      · exact .inr ⟨[], move, moves, rfl, commons, rfl, next, performed, first⟩

/-- That a status names an owner and a kind of expiry for a reason: by the time of the first
of two calls the record had the owner, and by the time of the second it had an expiry or not,
as is said. -/
structure Sighting (key : String) (owner : Option Pid) (expires : Bool) (i : ι)
    (first : Commons ι P) (between : List (Move ι Turn)) (second : Commons ι P) : Prop where
  passes : first.play (.serve i :: between) = some second
  owned : ∃ other, first.Stands key owner other
  timed : ∃ other, second.Stands key other expires
  /-- Both were so at one instant, or the record was written such that neither call found
  both. -/
  together : first.Passes (.serve i :: between) (Stands key owner expires) ∨
    first.Stands key owner (!expires) ∧ (∃ other ≠ owner, second.Stands key other expires) ∧
      first.IsWritten key (.serve i :: between)

theorem sighting_of_live {first second : Commons ι P} {i : ι} {between : List (Move ι Turn)}
    {entry entry' : Entry} (passes : first.play (.serve i :: between) = some second)
    (found : first.keyspace.live? key first.now = some entry)
    (found' : second.keyspace.live? key second.now = some entry') :
    Sighting key (ownerOf? entry.fields) entry'.expiresAt.isSome i first between second := by
  refine ⟨passes, ⟨_, entry, found, rfl, rfl⟩, ⟨_, entry', found', rfl, rfl⟩, ?_⟩
  by_cases together : first.Passes (.serve i :: between)
      (Stands key (ownerOf? entry.fields) entry'.expiresAt.isSome)
  · exact .inl together
  · have otherKind : entry.expiresAt.isSome ≠ entry'.expiresAt.isSome := fun same =>
      together ⟨[], List.nil_prefix, first, rfl, entry, found, rfl, same⟩
    have otherOwner : ownerOf? entry'.fields ≠ ownerOf? entry.fields := fun same =>
      together ⟨_, List.prefix_rfl, second, passes, entry', found', same, rfl⟩
    refine .inr ⟨⟨entry, found, rfl, Bool.eq_not_of_ne otherKind⟩,
      ⟨_, otherOwner, entry', found', rfl, rfl⟩, ?_⟩
    rcases lapses_or_isWritten key passes with ⟨times, same | ⟨gone, -⟩⟩ | written
    · rw [Keyspace.get?_of_live? found, Keyspace.get?_of_live? found'] at same
      exact absurd (congrArg ownerOf? (congrArg Entry.fields (Option.some.inj same))) otherOwner
    · rw [Keyspace.get?_of_live? found'] at gone
      contradiction
    · exact written

/-! ## Procedures that are answered -/

section

variable {α : Type} {i : ι} {moves : List (Move ι Procedure.Turn)}

/-- A procedure that has finished stays as it is. -/
theorem party_of_done {commons later : Commons ι (Procedure α)} {result : α}
    (played : commons.play moves = some later) (done : commons.party i = .done result) :
    later.party i = .done result := by
  apply play_induction (fun _ => True) (fun reached => reached.party i = .done result) _
    (fun _ _ => trivial) played done
  intro reached move next _ done performed
  rcases perform_cases performed i with ⟨party, -⟩ | ⟨call, go, reply, -, pending, -⟩ |
    ⟨turn, -, turned, -⟩
  · exact party.trans done
  · rw [done] at pending
    cases pending
  · rw [done] at turned
    cases turn <;> cases turned

/-- A procedure that waits for the reply to a store call, and would fail if the call did, was
answered if it finishes otherwise. -/
theorem exists_served {commons later : Commons ι (Procedure (Except Failure α))}
    {call : StoreCall} {next : call.Reply → Procedure (Except Failure α)} {value : α}
    (waits : commons.party i = .step (.lock (.store call)) next)
    (fails : ∀ failure, next (.error failure) = .done (.error failure))
    (played : commons.play moves = some later) (told : later.party i = .done (.ok value)) :
    ∃ before after middle reached, moves = before ++ .serve i :: after ∧
      commons.play before = some middle ∧ middle.perform (.serve i) = some reached ∧
      reached.play after = some later ∧
      reached.party i = next (.ok (middle.keyspace.serve middle.now call).1) := by
  induction moves generalizing commons with
  | nil =>
      obtain rfl := Option.some.inj played
      cases waits.symm.trans told
  | cons move moves ih =>
      rcases play_cons_eq_some_iff.mp played with ⟨reached, performed, played⟩
      rcases perform_cases performed i with ⟨party, -⟩ |
        ⟨_, _, _, rfl | ⟨fault, rfl⟩, -⟩ | ⟨turn, -, turned, -⟩
      · rcases ih (party.trans waits) played with
          ⟨before, after, middle, answered, rfl, began, rest⟩
        exact ⟨move :: before, after, middle, answered, rfl,
          play_cons_eq_some_iff.mpr ⟨reached, performed, began⟩, rest⟩
      · rcases perform_serve_eq_some_iff.mp performed with ⟨call', next', pending, rfl⟩
        rw [waits] at pending
        cases pending
        exact ⟨[], moves, commons, _, rfl, rfl, performed, played, record_self_party _ _⟩
      · rcases perform_fail_eq_some_iff.mp performed with ⟨call', next', pending, rfl⟩
        rw [waits] at pending
        cases pending
        have failed := party_of_done played ((record_self_party _ _).trans (fails _))
        cases failed.symm.trans told
      · rw [waits] at turned
        cases turn <;> cases turned

/-! ## Statuses that are told -/

variable {called later : Commons ι (Procedure (Except Failure LockStatus))} {key : String}
  {status : LockStatus}

/-- Whatever others do to the store and the clock, a status that is told has been seen. If
the lock is told to be free there was no live record at some instant; and if it is told to be
an owner's, with an expiry or without, then either half was so at its call, and both were so
together unless the record was written in between. -/
theorem status_was_seen (begins : called.party i = Procedure.ofLock (LockStatus.find key))
    (played : called.play moves = some later) (told : later.party i = .done (.ok status)) :
    (status = .unlocked →
      called.Passes moves fun instant => instant.keyspace.live? key instant.now = none) ∧
    ∀ owner expires, status.named? = some (owner, expires) →
      ∃ early between late first second, moves = early ++ .serve i :: between ++ .serve i :: late ∧
        called.play early = some first ∧ Sighting key owner expires i first between second := by
  rw [LockStatus.ofLock_find] at begins
  rcases exists_served begins (fun _ => rfl) played told with
    ⟨early, rest, first, opened, rfl, reached, performed, played', party⟩
  rw [Keyspace.serve_fetch_answer] at party
  cases found : first.keyspace.live? key first.now with
  | none =>
      rw [found] at party
      obtain rfl : LockStatus.unlocked = status := by
        cases (party_of_done played' party).symm.trans told
        rfl
      exact ⟨fun _ => ⟨early, List.prefix_append _ _, first, reached, found⟩, nofun⟩
  | some entry =>
      rw [found] at party
      rcases exists_served party (fun _ => rfl) played' told with
        ⟨between, late, second, closed, rfl, reached', performed', played'', party'⟩
      have passes : first.play (.serve i :: between) = some second :=
        play_cons_eq_some_iff.mpr ⟨opened, performed, reached'⟩
      rw [Keyspace.serve_lifetime_answer] at party'
      have same := (party_of_done played'' party').symm.trans told
      cases found' : second.keyspace.live? key second.now with
      | none =>
          rw [found'] at same
          cases same
          exact ⟨fun _ => ⟨early ++ .serve i :: between, ⟨.serve i :: late, by simp⟩, second,
            play_append_eq_some_iff.mpr ⟨first, reached, passes⟩, found'⟩, nofun⟩
      | some entry' =>
          rw [found'] at same
          have named : status ≠ .unlocked ∧
              status.named? = some (ownerOf? entry.fields, entry'.expiresAt.isSome) := by
            rcases entry' with ⟨fields', _ | expiry⟩ <;> cases same <;> exact ⟨nofun, rfl⟩
          refine ⟨fun free => absurd free named.1, fun owner expires claimed => ?_⟩
          cases named.2.symm.trans claimed
          exact ⟨early, between, late, first, second, by simp, reached,
            sighting_of_live passes found found'⟩

end

/-- Somebody who looks at a lock that process 1 has without an expiry. -/
def onlooker : Commons Unit (Procedure (Except Failure LockStatus)) :=
  .start ⟨TextMap.empty.insert LockRecord.key ⟨ownedBy 1, none⟩, false⟩ default
    fun _ => .ofLock (LockStatus.find LockRecord.key)

/-- Between the two calls the record is given an expiry. -/
def armedBetween : List (Move Unit Procedure.Turn) :=
  [.serve (), .stranger (.expire LockRecord.key (.ofSeconds 10) .noExpiry), .serve ()]

/-- The onlooker is told of process 1 and an expiry, and at some instant that was so. -/
theorem status_was_seen_of_armedBetween :
    ∃ later, onlooker.play armedBetween = some later ∧
      later.party () = .done (.ok (.held (some 1) (.ofSeconds 10))) ∧
      ∃ early between late first second,
        armedBetween = early ++ .serve () :: between ++ .serve () :: late ∧
        onlooker.play early = some first ∧
        Sighting LockRecord.key (some 1) true () first between second := by
  obtain ⟨later, played, told⟩ : ∃ later, onlooker.play armedBetween = some later ∧
      later.party () = .done (.ok (.held (some 1) (.ofSeconds 10))) := ⟨_, rfl, rfl⟩
  exact ⟨later, played, told, (status_was_seen rfl played told).2 _ _ rfl⟩

/-- Between the two calls the record is deleted, and process 2 makes its own. -/
def succeededBetween : List (Move Unit Procedure.Turn) :=
  [.serve (), .stranger (.delete LockRecord.key .always),
    .stranger (.create LockRecord.key (ownedBy 2) (.ofSeconds 10)), .serve ()]

/-- The onlooker is told of process 1 and an expiry, which was so at no instant. -/
theorem status_never_seen :
    ∃ later, onlooker.play succeededBetween = some later ∧
      later.party () = .done (.ok (.held (some 1) (.ofSeconds 10))) ∧
      ¬onlooker.Passes succeededBetween (Stands LockRecord.key (some 1) true) :=
  ⟨_, rfl, rfl, by decide +kernel⟩

end Commons

end Leasehold
