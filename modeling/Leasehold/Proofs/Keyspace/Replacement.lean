import Leasehold.Lock.Record
import Leasehold.Proofs.Keyspace.Tables
import Mathlib.Data.List.Nodup

/-!
# Putting tables into a keyspace

Replacing tables removes what belongs to them and puts the given records in. What
belongs to other tables, or to none, is kept unless a given table has a separator in
its name: then a record of it comes to lie on a key of another table. With plain
names the keyspace holds exactly the given records in the replaced tables, and as
many as the answer says.
-/

namespace Leasehold.Keyspace

open Tables

variable {keyspace : Keyspace} {filter : TableFilter} {tables : Tables} {key table record : String}

/-! ## The records put in -/

/-- The records that a replacement puts in: those of the tables of the filter. -/
def accepted (tables : Tables) (filter : TableFilter) : List (String × Fields) :=
  recordsOf (tables.filter fun table _ => filter table)

theorem mem_recordsOf_iff {fields : Fields} :
    (key, fields) ∈ recordsOf tables ↔
      ∃ table record, record? tables table record = some fields ∧
        key = Key.compose table record := by
  constructor
  · intro listed
    rcases List.mem_flatMap.mp listed with ⟨⟨table, records⟩, inTables, listed⟩
    rcases List.mem_map.mp listed with ⟨⟨record, found⟩, inRecords, same⟩
    cases same
    have present := TextMap.get?_of_mem inTables
    exact ⟨table, record, by simp [record?, present, TextMap.get?_of_mem inRecords], rfl⟩
  · rintro ⟨table, record, found, rfl⟩
    rcases get?_of_record? found with ⟨records, present, inTable⟩
    refine List.mem_flatMap.mpr ⟨(table, records), ?_, List.mem_map.mpr ⟨(record, fields), ?_, rfl⟩⟩
    · exact (TextMap.get?_eq_some_iff _ _ _).mp present
    · exact (TextMap.get?_eq_some_iff _ _ _).mp inTable

theorem mem_accepted_iff {fields : Fields} :
    (key, fields) ∈ accepted tables filter ↔
      ∃ table record, filter table ∧ record? tables table record = some fields ∧
        key = Key.compose table record := by
  rw [accepted, mem_recordsOf_iff]
  refine exists_congr fun table => exists_congr fun record => ?_
  rw [record?_filter]
  by_cases accepts : filter table <;> simp [accepts]

/-- Records of tables with plain names have distinct keys. -/
theorem distinct_recordsOf (plain : PlainNames tables) :
    (recordsOf tables).Pairwise fun a b => a.1 ≠ b.1 := by
  have names {pair : String × TextMap Fields} (member : pair ∈ tables.toList) :
      Key.separator ∉ pair.1.toList :=
    plain pair.1 (List.mem_map_of_mem member)
  refine List.pairwise_flatMap.mpr ⟨?_, ?_⟩
  · intro pair member
    refine List.pairwise_map.mpr (pair.2.distinct_toList.imp fun unlike same => unlike ?_)
    have split := congrArg Key.split? same
    rw [Key.split?_compose (names member), Key.split?_compose (names member)] at split
    exact (Prod.mk.inj (Option.some.inj split)).2
  · refine List.Pairwise.imp_of_mem ?_ tables.distinct_toList
    intro pair pair' member member' unlike x inPair y inPair' same
    rcases List.mem_map.mp inPair with ⟨_, -, rfl⟩
    rcases List.mem_map.mp inPair' with ⟨_, -, rfl⟩
    have split := congrArg Key.split? same
    rw [Key.split?_compose (names member), Key.split?_compose (names member')] at split
    exact unlike (Prod.mk.inj (Option.some.inj split)).1

theorem plainNames_filter (plain : PlainNames tables) :
    PlainNames (tables.filter fun table _ => filter table) := by
  intro table listed
  rcases TextMap.mem_keys_iff.mp listed with ⟨records, found⟩
  rw [TextMap.get?_filter, Option.filter_eq_some_iff] at found
  exact plain table (TextMap.mem_keys_iff.mpr ⟨records, found.1⟩)

/-! ## What is kept -/

theorem get?_replaceTables (keyspace : Keyspace) (tables : Tables) (filter : TableFilter)
    (key : String) :
    (keyspace.replaceTables tables filter).2.entries.get? key =
      ((keyspace.entries.filter fun key _ => !inTables filter key).insertMany
        ((accepted tables filter).map fun (key, fields) => (key, ⟨fields, none⟩))).get? key :=
  rfl

/-- A key that no given record is composed to keeps its record, unless it belongs to the
replaced tables. -/
theorem get?_replaceTables_of_ne (others : ∀ pair ∈ accepted tables filter, pair.1 ≠ key) :
    (keyspace.replaceTables tables filter).2.entries.get? key =
      if inTables filter key then none else keyspace.entries.get? key := by
  rw [get?_replaceTables, TextMap.get?_insertMany_of_ne, TextMap.get?_filter]
  · by_cases inside : inTables filter key <;>
      cases found : keyspace.entries.get? key <;> simp [inside, Option.filter]
  · intro pair listed
    rcases List.mem_map.mp listed with ⟨given, member, rfl⟩
    exact others given member

/-- A key of the replaced tables is composed of a plain name that the filter accepts. -/
theorem inTables_iff : inTables filter key ↔
    ∃ table record, filter table ∧ Key.separator ∉ table.toList ∧
      key = Key.compose table record := by
  rw [inTables, Option.any_eq_true]
  constructor
  · rintro ⟨⟨table, record⟩, split, accepts⟩
    rcases Key.split?_eq_some_iff.mp split with ⟨rfl, plain⟩
    exact ⟨table, record, accepts, plain, rfl⟩
  · rintro ⟨table, record, accepts, plain, rfl⟩
    exact ⟨(table, record), Key.split?_compose plain record, accepts⟩

/-- Keyspaces with the same fields under the keys of the tables of a filter have the same
tables of the filter. -/
theorem tables_congr {other : Keyspace} (same : ∀ key, inTables filter key →
    (keyspace.entries.get? key).map Entry.fields = (other.entries.get? key).map Entry.fields) :
    keyspace.tables filter = other.tables filter := by
  refine ext_of_populated (areTaken_tables keyspace filter).populated
    (areTaken_tables other filter).populated fun table record => ?_
  rw [record?_tables, record?_tables]
  by_cases seen : filter table ∧ Key.separator ∉ table.toList
  · rw [if_pos seen, if_pos seen]
    exact same _ (inTables_iff.mpr ⟨table, record, seen.1, seen.2, rfl⟩)
  · rw [if_neg seen, if_neg seen]

/-! ## Plain names -/

/-- With plain names, a given record is put under a key of the replaced tables. -/
theorem ne_of_mem_accepted (plain : PlainNames tables) (outside : inTables filter key = false) :
    ∀ pair ∈ accepted tables filter, pair.1 ≠ key := by
  rintro ⟨_, fields⟩ member rfl
  rcases mem_accepted_iff.mp member with ⟨table, record, accepts, found, rfl⟩
  have inside := inTables_iff.mpr ⟨table, record, accepts, plain.of_record? found, rfl⟩
  rw [outside] at inside
  contradiction

/-- With plain names, the replaced tables hold the given records, without expiry. -/
theorem get?_replaceTables_compose (plain : PlainNames tables) (accepts : filter table)
    (plainTable : Key.separator ∉ table.toList) :
    (keyspace.replaceTables tables filter).2.entries.get? (Key.compose table record) =
      (record? tables table record).map fun fields => ⟨fields, none⟩ := by
  cases found : record? tables table record with
  | some fields =>
      have listed : (Key.compose table record, fields) ∈ accepted tables filter :=
        mem_accepted_iff.mpr ⟨table, record, accepts, found, rfl⟩
      have distinct : ((accepted tables filter).map fun (key, fields) =>
          (key, (⟨fields, none⟩ : Entry))).Pairwise fun a b => a.1 ≠ b.1 :=
        List.pairwise_map.mpr (distinct_recordsOf (plainNames_filter plain))
      rw [get?_replaceTables]
      exact TextMap.get?_insertMany_of_mem distinct (List.mem_map.mpr ⟨_, listed, rfl⟩) _
  | none =>
      rw [get?_replaceTables_of_ne,
        if_pos (inTables_iff.mpr ⟨table, record, accepts, plainTable, rfl⟩)]
      · rfl
      · rintro ⟨_, fields⟩ member same
        rcases mem_accepted_iff.mp member with ⟨other, name, -, present, rfl⟩
        have split := congrArg Key.split? same
        rw [Key.split?_compose (plain.of_record? present), Key.split?_compose plainTable] at split
        cases Option.some.inj split
        rw [found] at present
        contradiction

/-- Taking the replaced tables gives what was put in. -/
theorem tables_replaceTables (taken : AreTaken filter tables) :
    (keyspace.replaceTables tables filter).2.tables filter = tables := by
  refine ext_of_populated (areTaken_tables _ filter).populated taken.populated
    fun table record => ?_
  rw [record?_tables]
  by_cases seen : filter table ∧ Key.separator ∉ table.toList
  · rw [if_pos seen, get?_replaceTables_compose taken.plain seen.1 seen.2]
    cases record? tables table record <;> rfl
  · rw [if_neg seen]
    cases found : record? tables table record with
    | none => rfl
    | some fields =>
        rcases get?_of_record? found with ⟨records, present, -⟩
        have listed := TextMap.mem_keys_iff.mpr ⟨records, present⟩
        exact absurd ⟨taken.accepted table listed, taken.plain table listed⟩ seen

/-- The keys of the replaced tables are those of the given records. -/
theorem mem_keys_replaceTables_iff (plain : PlainNames tables) :
    (key ∈ (keyspace.replaceTables tables filter).2.keys ∧ inTables filter key) ↔
      key ∈ (accepted tables filter).map Prod.fst := by
  constructor
  · rintro ⟨listed, inside⟩
    rcases inTables_iff.mp inside with ⟨table, record, accepts, plainTable, rfl⟩
    rcases TextMap.mem_keys_iff.mp listed with ⟨entry, found⟩
    rw [get?_replaceTables_compose plain accepts plainTable] at found
    rcases Option.map_eq_some_iff.mp found with ⟨fields, given, -⟩
    exact List.mem_map.mpr ⟨_, mem_accepted_iff.mpr ⟨table, record, accepts, given, rfl⟩, rfl⟩
  · intro listed
    rcases List.mem_map.mp listed with ⟨⟨_, fields⟩, member, rfl⟩
    rcases mem_accepted_iff.mp member with ⟨table, record, accepts, given, rfl⟩
    have plainTable := plain.of_record? given
    have found : (keyspace.replaceTables tables filter).2.entries.get? (Key.compose table record) =
        _ := get?_replaceTables_compose plain accepts plainTable
    rw [given] at found
    exact ⟨TextMap.mem_keys_iff.mpr ⟨_, found⟩,
      inTables_iff.mpr ⟨table, record, accepts, plainTable, rfl⟩⟩

/-- The answer is the number of records that are in the replaced tables afterwards. -/
theorem replaceTables_count (plain : PlainNames tables) :
    (keyspace.replaceTables tables filter).1 =
      ((keyspace.replaceTables tables filter).2.keys.filter (inTables filter)).length := by
  have given : ((accepted tables filter).map Prod.fst).Nodup :=
    List.pairwise_map.mpr (distinct_recordsOf (plainNames_filter plain))
  have present : ((keyspace.replaceTables tables filter).2.keys.filter (inTables filter)).Nodup :=
    List.Pairwise.filter _ (List.pairwise_map.mpr (TextMap.distinct_toList _))
  have same : ((accepted tables filter).map Prod.fst).Perm
      ((keyspace.replaceTables tables filter).2.keys.filter (inTables filter)) := by
    refine (List.perm_ext_iff_of_nodup given present).mpr fun key => ?_
    rw [List.mem_filter, mem_keys_replaceTables_iff plain]
  have lengths := same.length_eq
  rw [List.length_map] at lengths
  exact lengths

/-! ## Names with a separator -/

/-- A key outside the replaced tables keeps its record, or there is a table whose name
has a separator in it, and a record of it that is composed to this very key: then the
key has that record, whatever it had before. -/
theorem replaceTables_outside (keyspace : Keyspace) (tables : Tables) {filter : TableFilter}
    {key : String} (outside : inTables filter key = false) :
    (keyspace.replaceTables tables filter).2.entries.get? key = keyspace.entries.get? key ∨
      ∃ table record fields, filter table ∧ Key.separator ∈ table.toList ∧
        record? tables table record = some fields ∧ key = Key.compose table record ∧
        (keyspace.replaceTables tables filter).2.entries.get? key = some ⟨fields, none⟩ := by
  by_cases composed : ∃ pair ∈ accepted tables filter, pair.1 = key
  · right
    have listed : ∃ pair ∈ (accepted tables filter).map fun (key, fields) =>
        (key, (⟨fields, none⟩ : Entry)), pair.1 = key := by
      rcases composed with ⟨pair, member, same⟩
      exact ⟨_, List.mem_map_of_mem member, same⟩
    rcases TextMap.exists_get?_insertMany listed
      (keyspace.entries.filter fun key _ => !inTables filter key) with ⟨entry, member, found⟩
    rcases List.mem_map.mp member with ⟨⟨_, fields⟩, given, same⟩
    cases same
    rcases mem_accepted_iff.mp given with ⟨table, record, accepts, present, rfl⟩
    refine ⟨table, record, fields, accepts, ?_, present, rfl, found⟩
    by_contra plain
    rw [inTables_iff.mpr ⟨table, record, accepts, plain, rfl⟩] at outside
    contradiction
  · left
    have others : ∀ pair ∈ accepted tables filter, pair.1 ≠ key :=
      fun pair member same => composed ⟨pair, member, same⟩
    rw [get?_replaceTables_of_ne others, outside, if_neg (by decide)]

/-- A table whose name begins like that of the lock, with one record. -/
def lockLookalike : Tables :=
  TextMap.empty.insert "LOCK|a" (TextMap.empty.insert "b" (TextMap.empty.insert "k" "2"))

/-- A keyspace with a record of the lock table. -/
def lockRecords : Keyspace :=
  ⟨TextMap.empty.insert "LOCK|a|b" ⟨TextMap.empty.insert "k" "1", none⟩, false⟩

/-- The record of the lock table is overwritten by that of another table. -/
theorem replaceTables_outside_overwrites :
    inTables LockRecord.isPersistable "LOCK|a|b" = false ∧
      ((lockRecords.replaceTables lockLookalike LockRecord.isPersistable).2.entries.get?
          "LOCK|a|b" = lockRecords.entries.get? "LOCK|a|b" ∨
        ∃ table record fields, LockRecord.isPersistable table ∧
          Key.separator ∈ table.toList ∧ record? lockLookalike table record = some fields ∧
          "LOCK|a|b" = Key.compose table record ∧
          (lockRecords.replaceTables lockLookalike LockRecord.isPersistable).2.entries.get?
            "LOCK|a|b" = some ⟨fields, none⟩) :=
  ⟨by decide, replaceTables_outside lockRecords lockLookalike (by decide)⟩

/-- So it is not true that what lies outside the replaced tables is always kept. -/
theorem not_always_kept_outside :
    ¬∀ (keyspace : Keyspace) (tables : Tables) (filter : TableFilter) (key : String),
      inTables filter key = false →
        (keyspace.replaceTables tables filter).2.entries.get? key =
          keyspace.entries.get? key := by
  intro kept
  have same := kept lockRecords lockLookalike LockRecord.isPersistable "LOCK|a|b" (by decide)
  exact absurd same (by decide)

end Leasehold.Keyspace
