import Leasehold.Proofs.Keyspace.Replacement
import Leasehold.Proofs.Store.Lapse
import Leasehold.Snapshot

/-!
# Dumping and restoring

A dump holds the live records of the tables that may be saved. Restoring it puts just
these into a store, without expiries and in place of what the store has in such tables,
and leaves all other keys alone. A second dump gives the same tables, as long as nobody
writes a record of theirs.
-/

namespace Leasehold

open Keyspace Tables LockRecord

variable {keyspace other : Keyspace} {now time : Instant} {tables : Tables}
  {key table record : String}

/-! ## Keys that are saved -/

/-- Whether the record under a key is saved and loaded. -/
def isSaved (key : String) : Bool :=
  inTables isPersistable key

/-- The key of the lock is not saved. -/
theorem isSaved_lockKey : isSaved LockRecord.key = false := by
  decide

theorem ne_lockKey_of_isSaved (saved : isSaved key) : key ≠ LockRecord.key := by
  rintro rfl
  rw [isSaved_lockKey] at saved
  contradiction

/-! ## Dumping -/

/-- A dump holds the live records of the tables that may be saved. -/
theorem record?_dump (keyspace : Keyspace) (now : Instant) (table record : String) :
    record? (keyspace.serve now Snapshot.dump).1 table record =
      if isPersistable table ∧ Key.separator ∉ table.toList then
        (keyspace.live? (Key.compose table record) now).map Entry.fields
      else none := by
  rw [← get?_purge]
  exact record?_tables (keyspace.purge now) isPersistable table record

theorem areTaken_dump (keyspace : Keyspace) (now : Instant) :
    AreTaken isPersistable (keyspace.serve now Snapshot.dump).1 :=
  areTaken_tables (keyspace.purge now) isPersistable

/-- Dumps of stores with the same live records are the same. -/
theorem dump_congr
    (same : ∀ key, isSaved key → (keyspace.live? key now).map Entry.fields =
      (other.live? key time).map Entry.fields) :
    (keyspace.serve now Snapshot.dump).1 = (other.serve time Snapshot.dump).1 :=
  tables_congr fun key saved => by
    rw [get?_purge, get?_purge]
    exact same key saved

/-- Tables that were taken for saving are saved whole. -/
theorem Snapshot.persistable_of_areTaken (taken : AreTaken isPersistable tables) :
    Snapshot.persistable tables = tables := by
  refine TextMap.ext fun table => ?_
  rw [Snapshot.persistable, TextMap.get?_filter]
  cases found : tables.get? table with
  | none => rfl
  | some records =>
      have accepted := taken.accepted table (TextMap.mem_keys_iff.mpr ⟨records, found⟩)
      simp [Option.filter, accepted]

/-- The table of the lock is in no dump. -/
theorem lockTable_notMem_keys (taken : AreTaken isPersistable tables) :
    LockRecord.table ∉ tables.keys := fun listed =>
  absurd (taken.accepted _ listed) (by decide)

/-! ## Restoring -/

/-- Putting tables with plain names in spares the keys of other tables. -/
theorem spares_restore_of_plain (plain : PlainNames tables) (outside : isSaved key = false) :
    (Snapshot.restore tables).Spares key :=
  ⟨outside, ne_of_mem_accepted plain outside⟩

/-- A restored dump holds what was live, without expiries. -/
theorem get?_restore_dump (saved : isSaved key) (dumped restored : Instant) :
    (other.serve restored (Snapshot.restore (keyspace.serve dumped Snapshot.dump).1)).2.entries.get?
        key =
      (keyspace.live? key dumped).map fun entry => ⟨entry.fields, none⟩ := by
  rcases inTables_iff.mp saved with ⟨table, record, accepts, plain, rfl⟩
  have put : ((other.purge restored).replaceTables (keyspace.serve dumped Snapshot.dump).1
      isPersistable).2.entries.get? (Key.compose table record) = _ :=
    get?_replaceTables_compose (areTaken_dump keyspace dumped).plain accepts plain
  rw [record?_dump, if_pos ⟨accepts, plain⟩, Option.map_map] at put
  exact put

/-- The keys of a keyspace of some kind, by the records under keys of that kind. -/
theorem filter_keys_congr {kind : String → Bool}
    (same : ∀ key, kind key → keyspace.entries.get? key = other.entries.get? key) :
    keyspace.keys.filter kind = other.keys.filter kind := by
  have kept (keyspace : Keyspace) :
      keyspace.keys.filter kind = (keyspace.entries.filter fun key _ => kind key).keys := by
    simp [keys, TextMap.keys, TextMap.filter, List.filter_map, Function.comp_def]
  rw [kept, kept]
  refine congrArg TextMap.keys (TextMap.ext fun key => ?_)
  rw [TextMap.get?_filter, TextMap.get?_filter]
  by_cases within : kind key
  · rw [same key within]
  · cases keyspace.entries.get? key <;> cases other.entries.get? key <;>
      simp [Option.filter, within]

/-- Restoring answers with the number of records that are then in the saved tables. -/
theorem restore_count (plain : PlainNames tables) :
    (keyspace.serve now (Snapshot.restore tables)).1 =
      ((keyspace.serve now (Snapshot.restore tables)).2.keys.filter isSaved).length :=
  replaceTables_count plain

end Leasehold
