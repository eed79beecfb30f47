import Leasehold.Proofs.Keyspace.Codec
import Leasehold.Snapshot

/-!
# Snapshots read back

A snapshot is read back from its text, whatever the names and values in it. The
text has the names of its tables at the top level, in order, and no other.
-/

namespace Leasehold.Snapshot

open Json

theorem isWhole_toJson (tables : Tables) : (toJson tables).IsWhole :=
  isWhole_ofMap fun _ => isWhole_ofMap fun _ => isWhole_ofMap fun _ => trivial

/-- The tree of a snapshot's text. -/
theorem tree_write (tables : Tables) :
    Raw.read? (write tables).toList = some (toJson tables).raw := by
  rw [write, String.toList_append, Json.pretty, String.toList_ofList]
  exact read?_writePretty (isWhole_toJson tables) (List.forall_mem_singleton.mpr rfl)

/-- A snapshot is read back from its text. -/
@[simp]
theorem read?_write (tables : Tables) : read? (write tables) = some tables := by
  rw [read?, tree_write, Option.bind_eq_bind, Option.bind_some, toJson]
  exact map?_raw_ofMap fun _ _ => map?_raw_ofMap fun _ _ => Fields.ofRaw?_toJson _

/-- The keys at the top level of a snapshot's text are the names of its tables. -/
theorem keys_write (tables : Tables) :
    ∃ members, Raw.read? (write tables).toList = some (.object members) ∧
      members.map (fun member => member.1.text?) = tables.keys.map some := by
  refine ⟨_, tree_write tables, ?_⟩
  simp [rawMembers_eq_map, TextMap.keys]

end Leasehold.Snapshot
