import Leasehold.Proofs.Store.Change
import Leasehold.Proofs.Store.Lapse

/-!
# Purging and an ideal map

A timed map never loses a record by itself: a record is seen at a time if it has no expiry
or the time is before it, and a call about a record that is not seen acts as on none. A
store that purges what has expired before every call answers every call as such a map
does, as long as the clock does not go back. So when it purges does not matter, and neither
do calls in between that only read.

The two are compared by the records that are seen from some time on; each call keeps
these alike.
-/

namespace Leasehold

/-- Whether a record is seen at a time: it has no expiry, or that has not come. -/
def Entry.isSeen (entry : Entry) (now : Instant) : Bool :=
  entry.expiresAt.all fun expiry => now < expiry

/-- Records that stay for good, each seen until its expiry. -/
structure TimedMap where
  records : TextMap Entry

namespace TimedMap

/-- The records seen at a time. -/
def seenAt (records : TextMap Entry) (now : Instant) : TextMap Entry :=
  records.filter fun _ entry => entry.isSeen now

/-- The record seen under a key. -/
def seen? (map : TimedMap) (key : String) (now : Instant) : Option Entry :=
  (seenAt map.records now).get? key

/-- Puts a record under a key, in place of any that is there, seen or not. -/
def put (map : TimedMap) (key : String) (entry : Entry) : TimedMap :=
  ⟨map.records.insert key entry⟩

/-- Does what a call asks at a time. -/
def perform (map : TimedMap) (now : Instant) : (call : StoreCall) → call.Answer × TimedMap
  | .create key fields ttl =>
    match map.seen? key now with
    | some _ => (false, map)
    | none => (true, map.put key ⟨fields, some (now.add ttl)⟩)
  | .merge key fields =>
    match map.seen? key now with
    | some entry => ((), map.put key ⟨entry.fields.overlay fields, entry.expiresAt⟩)
    | none => ((), map.put key ⟨fields, none⟩)
  | .fetch key => ((map.seen? key now).map Entry.fields, map)
  | .expire key ttl condition =>
    match map.seen? key now with
    | some entry =>
      if condition.holds entry then (true, map.put key ⟨entry.fields, some (now.add ttl)⟩)
      else (false, map)
    | none => (false, map)
  | .lifetime key =>
    match map.seen? key now with
    | some ⟨_, some expiry⟩ => (.expires (now.elapsed expiry), map)
    | some ⟨_, none⟩ => (.persistent, map)
    | none => (.missing, map)
  | .delete key condition =>
    match map.seen? key now with
    | some entry => if condition.holds entry then (true, ⟨map.records.erase key⟩) else (false, map)
    | none => (false, map)
  | .keys => ((seenAt map.records now).keys, map)
  | .dump filter =>
    ((seenAt map.records now).toList.foldl
      (fun found (key, entry) => Keyspace.addRecord filter found key entry.fields) .empty, map)
  | .replace tables filter =>
    let given := Keyspace.recordsOf (tables.filter fun table _ => filter table)
    let others := map.records.filter fun key _ => !Keyspace.inTables filter key
    (given.length, ⟨others.insertMany (given.map fun (key, fields) => (key, ⟨fields, none⟩))⟩)

end TimedMap

/-! ## Runs -/

/-- A call with what it was answered. -/
abbrev AnsweredCall : Type :=
  (call : StoreCall) × call.Answer

/-- What can happen to a store: a call that somebody waits for, or, in between, a purge or
a call that reads and that nobody waits for. -/
inductive Occasion where
  | call (call : StoreCall)
  | purge
  | glance (call : StoreCall) (reads : call.isRead)

/-- The call that somebody waits for. -/
def Occasion.call? : Occasion → Option StoreCall
  | .call asked => some asked
  | .purge => none
  | .glance .. => none

/-- The calls that somebody waits for, each with its time. -/
def Occasion.calls (occasions : List (Instant × Occasion)) : List (Instant × StoreCall) :=
  occasions.filterMap fun (now, occasion) => occasion.call?.map (now, ·)

/-- What a store answers to the calls that somebody waits for. -/
def Keyspace.answers (keyspace : Keyspace) : List (Instant × Occasion) → List AnsweredCall
  | [] => []
  | (now, .call call) :: rest =>
    ⟨call, (keyspace.serve now call).1⟩ :: (keyspace.serve now call).2.answers rest
  | (now, .purge) :: rest => (keyspace.purge now).answers rest
  | (now, .glance call _) :: rest => (keyspace.serve now call).2.answers rest

/-- What a timed map answers to calls. -/
def TimedMap.answers (map : TimedMap) : List (Instant × StoreCall) → List AnsweredCall
  | [] => []
  | (now, call) :: rest =>
    ⟨call, (map.perform now call).1⟩ :: (map.perform now call).2.answers rest

/-! ## Seen alike -/

namespace TimedMap

variable {a b : TextMap Entry} {since now : Instant} {key : String}

/-- What is seen at a time has been seen before. -/
theorem isSeen_of_le {entry : Entry} {later : Instant} (le : now ≤ later)
    (seen : entry.isSeen later = true) : entry.isSeen now = true := by
  obtain ⟨fields, _ | expiry⟩ := entry
  · rfl
  · simp only [Entry.isSeen, Option.all_some, decide_eq_true_eq] at seen ⊢
    exact lt_of_le_of_lt le seen

theorem get?_seenAt (records : TextMap Entry) (now : Instant) (key : String) :
    (seenAt records now).get? key = (records.get? key).filter fun entry => entry.isSeen now :=
  TextMap.get?_filter records _ key

/-- A purge leaves the records that are seen. -/
theorem entries_purge (keyspace : Keyspace) (now : Instant) :
    (keyspace.purge now).entries = seenAt keyspace.entries now := by
  have same (entry : Entry) : (!entry.isExpired now) = entry.isSeen now := by
    obtain ⟨fields, _ | expiry⟩ := entry
    · rfl
    · simp [Entry.isExpired, Entry.isSeen, ← decide_not]
  simp only [Keyspace.purge, seenAt, same]

/-- That the same records are seen from some time on. -/
def SeenAlike (since : Instant) (a b : TextMap Entry) : Prop :=
  ∀ time, since ≤ time → seenAt a time = seenAt b time

namespace SeenAlike

theorem refl (since : Instant) (records : TextMap Entry) : SeenAlike since records records :=
  fun _ _ => rfl

theorem symm (alike : SeenAlike since a b) : SeenAlike since b a :=
  fun time le => (alike time le).symm

theorem get? (alike : SeenAlike since a b) {time : Instant} (le : since ≤ time) (key : String) :
    (a.get? key).filter (fun entry => entry.isSeen time) =
      (b.get? key).filter fun entry => entry.isSeen time := by
  rw [← get?_seenAt, ← get?_seenAt, alike time le]

/-- It is enough that each key shows the same record. -/
theorem of_get? (same : ∀ time, since ≤ time → ∀ key,
    (a.get? key).filter (fun entry => entry.isSeen time) =
      (b.get? key).filter fun entry => entry.isSeen time) : SeenAlike since a b := by
  intro time le
  refine TextMap.ext fun key => ?_
  rw [get?_seenAt, get?_seenAt, same time le key]

/-- Leaving out what is not seen leaves the same records seen from then on. -/
theorem seenAt (alike : SeenAlike since a b) (later : since ≤ now) :
    SeenAlike now (TimedMap.seenAt a now) b := by
  apply of_get?
  intro time le key
  rw [get?_seenAt, ← alike.get? (le_trans later le) key, Option.filter_filter]
  congr 1
  funext entry
  cases seen : entry.isSeen time with
  | true => rw [isSeen_of_le le seen, Bool.and_true]
  | false => rw [Bool.and_false]

theorem insert (alike : SeenAlike since a b) (key : String) (entry : Entry) :
    SeenAlike since (a.insert key entry) (b.insert key entry) := by
  apply of_get?
  intro time le other
  rw [TextMap.get?_insert, TextMap.get?_insert]
  split
  · rfl
  · exact alike.get? le other

theorem insertMany (alike : SeenAlike since a b) (pairs : List (String × Entry)) :
    SeenAlike since (a.insertMany pairs) (b.insertMany pairs) := by
  induction pairs generalizing a b with
  | nil => exact alike
  | cons pair rest ih => exact ih (alike.insert pair.1 pair.2)

/-- Taking keys away takes the same records away. -/
theorem filterKeys (alike : SeenAlike since a b) (keep : String → Bool) :
    SeenAlike since (a.filter fun key _ => keep key) (b.filter fun key _ => keep key) := by
  apply of_get?
  intro time le key
  rw [TextMap.get?_filter, TextMap.get?_filter]
  cases keep key with
  | true => simpa using alike.get? le key
  | false => simp

theorem erase (alike : SeenAlike since a b) (key : String) :
    SeenAlike since (a.erase key) (b.erase key) :=
  alike.filterKeys fun other => other != key

end SeenAlike

/-! ## Calls -/

/-- What is done to the records that are seen has the answer and the effect that it has on
all records. -/
theorem apply_perform (keyspace : Keyspace) (map : TimedMap) (now : Instant) (call : StoreCall)
    (same : keyspace.entries = seenAt map.records now) :
    (keyspace.apply now call).1 = (map.perform now call).1 ∧
      SeenAlike now (keyspace.apply now call).2.entries (map.perform now call).2.records := by
  have alike : SeenAlike now keyspace.entries map.records :=
    same ▸ (SeenAlike.refl now map.records).seenAt le_rfl
  have found (key : String) : keyspace.entries.get? key = map.seen? key now := by
    rw [same, seen?]
  cases call with
  | create key fields ttl =>
      simp only [Keyspace.apply, Keyspace.create, perform, TextMap.contains, found]
      cases map.seen? key now with
      | none => exact ⟨rfl, alike.insert key _⟩
      | some entry => exact ⟨rfl, alike⟩
  | merge key fields =>
      simp only [Keyspace.apply, Keyspace.merge, perform, found]
      cases map.seen? key now with
      | none =>
          have whole : TextMap.empty.overlay fields = fields := TextMap.ofList_toList fields
          simp only [Option.getD_none, whole]
          exact ⟨trivial, alike.insert key _⟩
      | some entry => exact ⟨trivial, alike.insert key _⟩
  | fetch key => exact ⟨congrArg (Option.map Entry.fields) (found key), alike⟩
  | expire key ttl condition =>
      simp only [Keyspace.apply, Keyspace.expire, perform, found]
      cases map.seen? key now with
      | none => exact ⟨rfl, alike⟩
      | some entry =>
          simp only
          split
          · exact ⟨rfl, alike.insert key _⟩
          · exact ⟨rfl, alike⟩
  | lifetime key =>
      simp only [Keyspace.apply, Keyspace.lifetime, perform, found]
      rcases map.seen? key now with _ | ⟨fields, _ | expiry⟩ <;> exact ⟨rfl, alike⟩
  | delete key condition =>
      simp only [Keyspace.apply, Keyspace.delete, perform, found]
      cases map.seen? key now with
      | none => exact ⟨rfl, alike⟩
      | some entry =>
          simp only [Option.any_some]
          split
          · exact ⟨rfl, alike.erase key⟩
          · exact ⟨rfl, alike⟩
  | keys => exact ⟨congrArg TextMap.keys same, alike⟩
  | dump filter => exact ⟨by simp only [Keyspace.apply, Keyspace.tables, perform, same], alike⟩
  | replace tables filter => exact ⟨rfl, (alike.filterKeys _).insertMany _⟩

/-- A call to a store is answered as by the map, and leaves the same records seen from then
on. -/
theorem serve_perform {keyspace : Keyspace} {map : TimedMap}
    (alike : SeenAlike since keyspace.entries map.records) (later : since ≤ now)
    (call : StoreCall) :
    (keyspace.serve now call).1 = (map.perform now call).1 ∧
      SeenAlike now (keyspace.serve now call).2.entries (map.perform now call).2.records := by
  apply apply_perform
  rw [entries_purge, alike now later]

/-- A call that reads leaves the same records seen. -/
theorem seenAlike_of_isRead {keyspace : Keyspace} {map : TimedMap}
    (alike : SeenAlike since keyspace.entries map.records) (later : since ≤ now)
    {call : StoreCall} (reads : call.isRead) :
    SeenAlike now (keyspace.serve now call).2.entries map.records := by
  have served := (serve_perform alike later call).2
  cases call with
  | fetch key => exact served
  | lifetime key =>
      rw [perform] at served
      split at served <;> exact served
  | keys => exact served
  | dump filter => exact served
  | create | merge | expire | delete | replace => contradiction

/-! ## Runs of calls -/

variable {keyspace : Keyspace} {map : TimedMap} {occasions : List (Instant × Occasion)}

/-- In order, the calls are answered as by the map, whatever else happens in between. -/
theorem answers_eq (inOrder : occasions.Pairwise fun a b => a.1 ≤ b.1)
    (after : ∀ occasion ∈ occasions, since ≤ occasion.1)
    (alike : SeenAlike since keyspace.entries map.records) :
    keyspace.answers occasions = map.answers (Occasion.calls occasions) := by
  induction occasions generalizing since keyspace map with
  | nil => rfl
  | cons occasion rest ih =>
      obtain ⟨now, occasion⟩ := occasion
      rcases List.pairwise_cons.mp inOrder with ⟨after', inOrder'⟩
      have later : since ≤ now := after (now, occasion) List.mem_cons_self
      cases occasion with
      | call call =>
          rcases serve_perform alike later call with ⟨same, alike'⟩
          rw [Keyspace.answers, same, ih inOrder' after' alike']
          rfl
      | purge =>
          have purged : SeenAlike now (keyspace.purge now).entries map.records := by
            rw [entries_purge]
            exact alike.seenAt later
          exact ih inOrder' after' purged
      | glance call reads => exact ih inOrder' after' (seenAlike_of_isRead alike later reads)

/-- Where a record is not seen any more, there might as well be none. -/
theorem seenAlike_erase (unseen : map.seen? key now = none) :
    SeenAlike now (map.records.erase key) map.records := by
  apply SeenAlike.of_get?
  intro time le other
  rw [TextMap.get?_erase]
  split
  next same =>
    subst same
    rw [seen?, get?_seenAt] at unseen
    cases found : map.records.get? other with
    | none => rfl
    | some entry =>
        simp only [found, Option.filter_some, ite_eq_right_iff, reduceCtorEq, imp_false,
          Bool.not_eq_true] at unseen ⊢
        exact (Bool.eq_false_iff.mpr fun seen =>
          absurd (isSeen_of_le le seen) (Bool.eq_false_iff.mp unseen)).symm ▸ rfl
  next => rfl

end TimedMap

/-- The calls that somebody waits for and nothing else. -/
def Occasion.callsOnly (occasions : List (Instant × Occasion)) : List (Instant × Occasion) :=
  (calls occasions).map fun (now, asked) => (now, .call asked)

theorem Occasion.calls_callsOnly (occasions : List (Instant × Occasion)) :
    calls (callsOnly occasions) = calls occasions := by
  rw [callsOnly, calls, List.filterMap_map]
  exact List.filterMap_some

theorem Occasion.inOrder_callsOnly {occasions : List (Instant × Occasion)}
    (inOrder : occasions.Pairwise fun a b => a.1 ≤ b.1) :
    (callsOnly occasions).Pairwise fun a b => a.1 ≤ b.1 := by
  rw [callsOnly, calls, List.pairwise_map, List.pairwise_filterMap]
  refine inOrder.imp fun {a b} le call called call' called' => ?_
  obtain ⟨_, -, rfl⟩ := Option.map_eq_some_iff.mp called
  obtain ⟨_, -, rfl⟩ := Option.map_eq_some_iff.mp called'
  exact le

/-- As long as the clock does not go back, a store answers every call as a map would that
never purges; so it would without the purges and reads in between; and a record that is not
seen any more makes no difference. -/
theorem Keyspace.answers_of_inOrder (keyspace : Keyspace) {occasions : List (Instant × Occasion)}
    (inOrder : occasions.Pairwise fun a b => a.1 ≤ b.1) :
    keyspace.answers occasions =
      (TimedMap.mk keyspace.entries).answers (Occasion.calls occasions) ∧
    keyspace.answers occasions = keyspace.answers (Occasion.callsOnly occasions) ∧
    ∀ key now, (∀ occasion ∈ occasions, now ≤ occasion.1) →
      (TimedMap.mk keyspace.entries).seen? key now = none →
        keyspace.answers occasions =
          (TimedMap.mk (keyspace.entries.erase key)).answers (Occasion.calls occasions) := by
  have ideal {others : List (Instant × Occasion)} (inOrder : others.Pairwise fun a b => a.1 ≤ b.1) :
      keyspace.answers others = (TimedMap.mk keyspace.entries).answers (Occasion.calls others) :=
    TimedMap.answers_eq inOrder (fun occasion _ => occasion.1.min_le)
      (.refl Instant.min keyspace.entries)
  refine ⟨ideal inOrder, ?_, ?_⟩
  · rw [ideal inOrder, ideal (Occasion.inOrder_callsOnly inOrder), Occasion.calls_callsOnly]
  · intro key now after unseen
    exact TimedMap.answers_eq inOrder after (TimedMap.seenAlike_erase unseen).symm

/-- A record with one second to live. -/
def shortLived : Keyspace :=
  ⟨TextMap.empty.insert "a" ⟨TextMap.empty.insert "old" "1", some (.ofSinceEpoch 1000000000)⟩,
    false⟩

/-- Fields put under its key when the second is over, and read after a purge. -/
def putAtExpiry : List (Instant × Occasion) :=
  [(.ofSinceEpoch 1000000000, .call (.merge "a" (TextMap.empty.insert "new" "2"))),
    (.ofSinceEpoch 1000000001, .purge),
    (.ofSinceEpoch 1000000002, .glance .keys rfl),
    (.ofSinceEpoch 1000000002, .call (.fetch "a")),
    (.ofSinceEpoch 1000000002, .call (.lifetime "a"))]

/-- What is put under a key at the expiry of its record has neither its fields nor its
expiry. -/
theorem Keyspace.answers_of_inOrder_of_putAtExpiry :
    shortLived.answers putAtExpiry =
      (TimedMap.mk shortLived.entries).answers (Occasion.calls putAtExpiry) ∧
    shortLived.answers putAtExpiry = shortLived.answers (Occasion.callsOnly putAtExpiry) ∧
    shortLived.answers putAtExpiry =
      [⟨.merge "a" (TextMap.empty.insert "new" "2"), ()⟩,
        ⟨.fetch "a", some (TextMap.empty.insert "new" "2")⟩, ⟨.lifetime "a", .persistent⟩] := by
  have inOrder : putAtExpiry.Pairwise fun a b => a.1 ≤ b.1 := by decide
  rcases answers_of_inOrder shortLived inOrder with ⟨ideal, undisturbed, unseen⟩
  have absent := unseen "a" (.ofSinceEpoch 1000000000) (by decide) (by decide)
  exact ⟨ideal, undisturbed, absent.trans rfl⟩

end Leasehold
