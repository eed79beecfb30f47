import Leasehold.Keyspace.Basic
import Leasehold.Proofs.TextMap

/-!
# The tables of a keyspace

Tables are described by the record they hold under a table name and a record name.
Those taken from a keyspace hold what its keys of that form hold; those put into one
are found under the composed keys again, provided that no table name has a separator
in it. Names that have one compose to keys of other tables.
-/

namespace Leasehold

/-! ## Keys -/

/-- A key that is split is composed of its parts. -/
theorem Key.split?_eq_some_iff {key table record : String} :
    split? key = some (table, record) ↔
      key = compose table record ∧ separator ∉ table.toList := by
  constructor
  · intro found
    rcases Option.map_eq_some_iff.mp found with ⟨⟨before, after⟩, splits, same⟩
    rcases Text.eq_append_of_splitFirst? splits with ⟨chars, plain⟩
    cases same
    constructor
    · apply String.toList_inj.mp
      simp [chars, compose, String.toList_append]
    · simpa using plain
  · rintro ⟨rfl, plain⟩
    exact split?_compose plain record

/-! ## Records by table and name -/

namespace Tables

/-- The record of some name in some table. -/
def record? (tables : Tables) (table record : String) : Option Fields :=
  (tables.get? table).bind fun records => records.get? record

/-- That no table name has a separator in it. -/
def PlainNames (tables : Tables) : Prop :=
  ∀ table ∈ tables.keys, Key.separator ∉ table.toList

/-- That every table has a record. -/
def Populated (tables : Tables) : Prop :=
  ∀ table records, tables.get? table = some records → ∃ record fields,
    records.get? record = some fields

variable {tables others : Tables} {filter : TableFilter} {table record : String}

@[simp]
theorem record?_empty : record? .empty table record = none :=
  rfl

/-- The tables of a filter, without the others. -/
theorem record?_filter : record? (tables.filter fun table _ => filter table) table record =
    if filter table then record? tables table record else none := by
  rw [record?, TextMap.get?_filter, record?]
  cases tables.get? table with
  | none => simp
  | some records => by_cases accepted : filter table <;> simp [Option.filter, accepted]

theorem get?_of_record? {fields : Fields} (found : record? tables table record = some fields) :
    ∃ records, tables.get? table = some records ∧ records.get? record = some fields :=
  Option.bind_eq_some_iff.mp found

theorem PlainNames.of_record? {fields : Fields} (plain : PlainNames tables)
    (found : record? tables table record = some fields) : Key.separator ∉ table.toList := by
  rcases get?_of_record? found with ⟨records, present, -⟩
  exact plain table (TextMap.mem_keys_iff.mpr ⟨records, present⟩)

/-- Tables without empty ones are the same if they hold the same records. -/
theorem ext_of_populated (first : Populated tables) (second : Populated others)
    (same : ∀ table record, record? tables table record = record? others table record) :
    tables = others := by
  refine TextMap.ext fun table => ?_
  have lookups := same table
  simp only [record?] at lookups
  cases left : tables.get? table with
  | none =>
      cases right : others.get? table with
      | none => rfl
      | some records =>
          rcases second table records right with ⟨record, fields, found⟩
          have missing := lookups record
          simp [left, right, found] at missing
  | some records =>
      cases right : others.get? table with
      | none =>
          rcases first table records left with ⟨record, fields, found⟩
          have missing := lookups record
          simp [left, right, found] at missing
      | some records' =>
          refine congrArg some (TextMap.ext fun record => ?_)
          simpa [left, right] using lookups record

end Tables

/-! ## Taking tables from a keyspace -/

namespace Keyspace

open Tables

variable {keyspace : Keyspace} {filter : TableFilter} {tables : Tables} {key table record : String}

/-- A record is added where its key belongs, if the filter accepts the table. -/
theorem record?_addRecord (fields : Fields) :
    record? (addRecord filter tables key fields) table record =
      if filter table ∧ Key.split? key = some (table, record) then some fields
      else record? tables table record := by
  unfold addRecord
  cases split : Key.split? key with
  | none => simp
  | some parts =>
      obtain ⟨table', record'⟩ := parts
      by_cases accepted : filter table'
      · by_cases sameTable : table' = table
        · subst sameTable
          by_cases sameRecord : record' = record
          · subst sameRecord
            simp [record?, accepted]
          · cases found : tables.get? table' <;> simp [record?, accepted, sameRecord, found]
        · simp [record?, accepted, sameTable]
      · have apart : ¬(filter table ∧ (table', record') = (table, record)) := by
          rintro ⟨accepts, same⟩
          cases same
          exact accepted accepts
        simp only [if_neg accepted, Option.some.injEq, if_neg apart]

/-- The last record with a key counts, and in a keyspace there is but one. -/
theorem record?_foldl_addRecord {pairs : List (String × Entry)}
    (sorted : pairs.Pairwise fun a b => a.1 < b.1) (accepted : filter table)
    (plain : Key.separator ∉ table.toList) (tables : Tables) :
    record? (pairs.foldl (fun found pair => addRecord filter found pair.1 pair.2.fields) tables)
        table record =
      ((TextMap.lookup (Key.compose table record) pairs).map Entry.fields).or
        (record? tables table record) := by
  induction pairs generalizing tables with
  | nil => rfl
  | cons pair rest ih =>
      obtain ⟨key, entry⟩ := pair
      rcases List.pairwise_cons.mp sorted with ⟨below, sortedRest⟩
      have split := @Key.split?_eq_some_iff key table record
      rw [List.foldl_cons, ih sortedRest, record?_addRecord, TextMap.lookup]
      by_cases same : key = Key.compose table record
      · subst same
        have absent : TextMap.lookup (Key.compose table record) rest = none :=
          TextMap.lookup_eq_none_of_lt below
        simp [absent, split, accepted, plain]
      · simp [split, same]

theorem record?_foldl_of_not {pairs : List (String × Entry)}
    (unseen : ¬(filter table ∧ Key.separator ∉ table.toList)) (tables : Tables) :
    record? (pairs.foldl (fun found pair => addRecord filter found pair.1 pair.2.fields) tables)
        table record = record? tables table record := by
  induction pairs generalizing tables with
  | nil => rfl
  | cons pair rest ih =>
      have outside : ¬(filter table ∧ Key.split? pair.1 = some (table, record)) :=
        fun ⟨accepted, split⟩ => unseen ⟨accepted, (Key.split?_eq_some_iff.mp split).2⟩
      rw [List.foldl_cons, ih, record?_addRecord, if_neg outside]

/-- The tables of a filter hold what the keyspace holds under the composed keys. -/
theorem record?_tables (keyspace : Keyspace) (filter : TableFilter) (table record : String) :
    record? (keyspace.tables filter) table record =
      if filter table ∧ Key.separator ∉ table.toList then
        (keyspace.entries.get? (Key.compose table record)).map Entry.fields
      else none := by
  by_cases seen : filter table ∧ Key.separator ∉ table.toList
  · rw [if_pos seen]
    exact (record?_foldl_addRecord keyspace.entries.sorted seen.1 seen.2 _).trans (by
      simp [TextMap.get?])
  · rw [if_neg seen]
    exact (record?_foldl_of_not seen _).trans rfl

/-- What `addRecord` keeps of tables: their names are accepted and plain, and they have
records. -/
structure AreTaken (filter : TableFilter) (tables : Tables) : Prop where
  accepted : ∀ table ∈ tables.keys, filter table
  plain : PlainNames tables
  populated : Populated tables

theorem AreTaken.addRecord (taken : AreTaken filter tables) (key : String) (fields : Fields) :
    AreTaken filter (addRecord filter tables key fields) := by
  unfold Keyspace.addRecord
  split
  next table record split =>
    split
    next accepts =>
      have names {other : String} (listed : other ∈ (tables.insert table
          (((tables.get? table).getD .empty).insert record fields)).keys) :
          other = table ∨ other ∈ tables.keys := by
        rcases TextMap.mem_keys_iff.mp listed with ⟨records, found⟩
        rw [TextMap.get?_insert] at found
        split at found
        next same => exact .inl same.symm
        next => exact .inr (TextMap.mem_keys_iff.mpr ⟨records, found⟩)
      constructor
      · intro other listed
        rcases names listed with rfl | listed
        · exact accepts
        · exact taken.accepted other listed
      · intro other listed
        rcases names listed with rfl | listed
        · exact (Key.split?_eq_some_iff.mp split).2
        · exact taken.plain other listed
      · intro other records found
        rw [TextMap.get?_insert] at found
        split at found
        next =>
          cases found
          exact ⟨record, fields, by simp⟩
        next => exact taken.populated other records found
    next => exact taken
  next => exact taken

/-- Tables that were taken from a keyspace have accepted and plain names, and records. -/
theorem areTaken_tables (keyspace : Keyspace) (filter : TableFilter) :
    AreTaken filter (keyspace.tables filter) := by
  have step (pairs : List (String × Entry)) {tables : Tables} (taken : AreTaken filter tables) :
      AreTaken filter (pairs.foldl
        (fun found pair => Keyspace.addRecord filter found pair.1 pair.2.fields) tables) := by
    induction pairs generalizing tables with
    | nil => exact taken
    | cons pair rest ih => exact ih (taken.addRecord pair.1 pair.2.fields)
  refine step _ ⟨?_, ?_, ?_⟩
  · intro table listed
    contradiction
  · intro table listed
    contradiction
  · intro table records found
    contradiction

end Keyspace

end Leasehold
