import Leasehold.Proofs.Snapshot.Restore

/-!
# Restored tables dumped again

A dump after a restore gives back the tables that were restored, except for those without
records, provided that none of their names has a separator in it. A name with a separator
is cut at it when its records are taken from the store again, so with such a name it never
does. Whatever the names are, no record that is then in a saved table has an expiry.
-/

namespace Leasehold

open Keyspace Tables LockRecord

namespace Tables

/-- The tables that have a record. -/
def populated (tables : Tables) : Tables :=
  tables.filter fun _ records => records.size != 0

/-- The number of records in all tables. -/
def recordCount (tables : Tables) : Nat :=
  tables.toList.foldr (fun (_, records) count => records.size + count) 0

theorem populated_populated (tables : Tables) : Populated tables.populated := by
  intro table records found
  rw [populated, TextMap.get?_filter, Option.filter_eq_some_iff] at found
  have some : records.toList ≠ [] := fun none => by simp [TextMap.size, none] at found
  rcases List.exists_mem_of_ne_nil _ some with ⟨⟨record, fields⟩, listed⟩
  exact ⟨record, fields, TextMap.get?_of_mem listed⟩

/-- No record is lost with the empty tables. -/
theorem recordsOf_populated (tables : Tables) : recordsOf tables.populated = recordsOf tables := by
  show (tables.toList.filter fun (_, records) => records.size != 0).flatMap _ =
    tables.toList.flatMap _
  induction tables.toList with
  | nil => rfl
  | cons pair rest ih =>
      by_cases empty : pair.2.size = 0
      · simp [empty, ih, List.length_eq_zero_iff.mp empty]
      · simp [empty, ih]

theorem length_recordsOf (tables : Tables) : (recordsOf tables).length = tables.recordCount := by
  rw [recordsOf, recordCount]
  induction tables.toList with
  | nil => rfl
  | cons pair rest ih =>
      rw [List.flatMap_cons, List.length_append, ih, List.length_map]
      rfl

end Tables

variable {keyspace : Keyspace} {restored dumped : Instant} {tables : Tables} {key : String}

/-! ## Tables without records -/

theorem populated_filter (tables : Tables) (filter : TableFilter) :
    Tables.populated (tables.filter fun table _ => filter table) =
      tables.populated.filter fun table _ => filter table := by
  refine TextMap.ext fun table => ?_
  simp only [populated, TextMap.get?_filter, Option.filter_filter, Bool.and_comm]

/-- Tables without records do not count when tables are replaced. -/
theorem replaceTables_populated (keyspace : Keyspace) (tables : Tables) (filter : TableFilter) :
    keyspace.replaceTables tables.populated filter = keyspace.replaceTables tables filter := by
  simp only [replaceTables, ← populated_filter, recordsOf_populated]

theorem serve_restore_populated (keyspace : Keyspace) (restored : Instant) (tables : Tables) :
    keyspace.serve restored (Snapshot.restore tables.populated) =
      keyspace.serve restored (Snapshot.restore tables) :=
  replaceTables_populated (keyspace.purge restored) tables isPersistable

/-! ## After a restore -/

theorem Snapshot.persistable_persistable (tables : Tables) :
    Snapshot.persistable (Snapshot.persistable tables) = Snapshot.persistable tables := by
  refine TextMap.ext fun table => ?_
  simp [Snapshot.persistable, TextMap.get?_filter, Option.filter_filter]

/-- As many records are put in as there are in the tables that may be saved. -/
theorem restore_answer (keyspace : Keyspace) (restored : Instant) (tables : Tables) :
    (keyspace.serve restored (Snapshot.restore tables)).1 =
      (Snapshot.persistable tables).recordCount :=
  length_recordsOf (Snapshot.persistable tables)

/-- No record in a saved table has an expiry after a restore. -/
theorem expiresAt_restore {entry : Entry} (saved : isSaved key)
    (found : (keyspace.serve restored (Snapshot.restore tables)).2.entries.get? key = some entry) :
    entry.expiresAt = none := by
  rcases TextMap.mem_of_get?_insertMany found with listed | kept
  · rcases List.mem_map.mp listed with ⟨_, _, same⟩
    cases same
    rfl
  · rw [TextMap.get?_filter, Option.filter_eq_some_iff] at kept
    have : inTables isPersistable key = true := saved
    simp [this] at kept

/-- A dump takes the tables as they are if no record in them has an expiry. -/
theorem dump_of_lasting (lasting : ∀ key entry, isSaved key →
    keyspace.entries.get? key = some entry → entry.expiresAt = none) :
    (keyspace.serve dumped Snapshot.dump).1 = keyspace.tables isPersistable := by
  refine tables_congr fun key saved => ?_
  rw [get?_purge, live?]
  cases found : keyspace.entries.get? key with
  | none => rfl
  | some entry => simp [Option.filter, Entry.isExpired, lasting key entry saved found]

/-- Tables with records and plain names are what a dump gives after they were restored. -/
theorem dump_restore_of_areTaken (taken : AreTaken isPersistable tables) :
    ((keyspace.serve restored (Snapshot.restore tables)).2.serve dumped Snapshot.dump).1 =
      tables :=
  (dump_of_lasting fun _ _ => expiresAt_restore).trans (tables_replaceTables taken)

theorem areTaken_populated (plain : PlainNames (Snapshot.persistable tables).populated) :
    AreTaken isPersistable (Snapshot.persistable tables).populated := by
  refine ⟨fun table listed => ?_, plain, populated_populated _⟩
  rcases TextMap.mem_keys_iff.mp listed with ⟨records, found⟩
  rw [populated, TextMap.get?_filter, Option.filter_eq_some_iff, Snapshot.persistable,
    TextMap.get?_filter, Option.filter_eq_some_iff] at found
  exact found.1.2

/-! ## Back and forth -/

/-- That restoring tables and dumping them gives them back, and that their records have been
counted right. -/
structure DumpedBack (keyspace : Keyspace) (restored dumped : Instant) (tables : Tables) :
    Prop where
  same : ((keyspace.serve restored (Snapshot.restore tables)).2.serve dumped Snapshot.dump).1 =
    tables.populated
  given : (keyspace.serve restored (Snapshot.restore tables)).1 = tables.recordCount
  present : (keyspace.serve restored (Snapshot.restore tables)).1 =
    ((keyspace.serve restored (Snapshot.restore tables)).2.keys.filter isSaved).length

/-- What is read from a file is dumped back after it was restored exactly if no table that
has a record has a separator in its name. In any case the records in the saved tables have no
expiry then. -/
theorem dumpedBack_iff_plainNames (keyspace : Keyspace) (restored dumped : Instant)
    (tables : Tables) :
    (DumpedBack keyspace restored dumped (Snapshot.persistable tables) ↔
        PlainNames (Snapshot.persistable tables).populated) ∧
      ∀ key entry, isSaved key →
        (keyspace.serve restored (Snapshot.restore (Snapshot.persistable tables))).2.entries.get?
          key = some entry → entry.expiresAt = none := by
  refine ⟨⟨fun back => ?_, fun plain => ?_⟩, fun key entry => expiresAt_restore⟩
  · rw [← back.same]
    exact (areTaken_dump _ dumped).plain
  · have counted := @restore_count keyspace restored _ plain
    have same := @dump_restore_of_areTaken keyspace restored dumped _ (areTaken_populated plain)
    rw [serve_restore_populated] at counted same
    refine ⟨same, ?_, counted⟩
    rw [restore_answer, Snapshot.persistable_persistable]

/-- Two tables with a record each, which have the same key. -/
def sharingKey : Tables :=
  let fields (value : String) : Fields := TextMap.empty.insert "k" value
  TextMap.ofList [("A", TextMap.empty.insert "B|c" (fields "1")),
    ("A|B", TextMap.empty.insert "c" (fields "2"))]

/-- So it is not true that what is read from a file is always dumped back: of two records
with one key the second one is left, in the table of the first one. -/
theorem not_always_dumpedBack :
    ¬∀ (keyspace : Keyspace) (restored dumped : Instant) (tables : Tables),
      DumpedBack keyspace restored dumped (Snapshot.persistable tables) := by
  intro always
  have back := always .empty default default sharingKey
  have fewer : ((Keyspace.empty.serve default (Snapshot.restore
      (Snapshot.persistable sharingKey))).2.keys.filter isSaved).length <
        (Snapshot.persistable sharingKey).recordCount := by decide
  exact Nat.ne_of_gt fewer (back.given.symm.trans back.present)

end Leasehold
