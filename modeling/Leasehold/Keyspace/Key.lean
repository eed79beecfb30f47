import Leasehold.Text.Split

/-!
# Keys of records

A record's key is its table and its name with a bar between them. A table name
has no bar, so a key is taken apart at the first one, and a key without a bar
belongs to no table.
-/

namespace Leasehold.Key

/-- The character between table and record. -/
def separator : Char :=
  '|'

/-- The key of a record. -/
def compose (table record : String) : String :=
  table ++ String.singleton separator ++ record

/-- The table and the name of the record of a key. -/
def split? (key : String) : Option (String × String) :=
  (Text.splitFirst? separator key.toList).map fun (table, record) =>
    (String.ofList table, String.ofList record)

/-- Composing and splitting give a table without separator back. -/
theorem split?_compose {table : String} (plain : separator ∉ table.toList) (record : String) :
    split? (compose table record) = some (table, record) := by
  have chars : (compose table record).toList = table.toList ++ separator :: record.toList := by
    simp [compose, String.toList_append]
  rw [split?, chars, Text.splitFirst?_append plain]
  simp

end Leasehold.Key
