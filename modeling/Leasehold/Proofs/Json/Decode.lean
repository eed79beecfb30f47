import Leasehold.Json.Decode
import Leasehold.Proofs.Json.Document
import Leasehold.Proofs.TextMap

/-!
# Taking a printed value apart

What the readers of known shapes find in the tree of a printed value: text, maps
whose values are read one by one, and the fields of records.
-/

namespace Leasehold.Json

variable {α : Type}

@[simp]
theorem text?_raw_text (s : String) : (raw (.text s)).text? = some s :=
  text?_rawText s

/-- The pairs of a printed object are read if its values are. -/
theorem pairs?_raw_object {decode : Raw → Option α} {encode : α → Json}
    {pairs : List (String × α)}
    (reads : ∀ pair ∈ pairs, decode (encode pair.2).raw = some pair.2) :
    (raw (.object (pairs.map fun pair => (pair.1, encode pair.2)))).pairs? decode = some pairs := by
  induction pairs with
  | nil => rfl
  | cons pair rest ih =>
      rw [List.forall_mem_cons] at reads
      have others := ih reads.2
      simp only [raw, Raw.pairs?] at others
      simp only [raw, rawMembers, Raw.pairs?, List.map_cons, List.mapM_cons, others]
      simp [reads.1]

/-- A printed map is read if its values are. -/
theorem map?_raw_ofMap {decode : Raw → Option α} {encode : α → Json} {map : TextMap α}
    (reads : ∀ pair ∈ map.toList, decode (encode pair.2).raw = some pair.2) :
    (ofMap (map.map encode)).raw.map? decode = some map := by
  rw [ofMap, TextMap.toList_map, Raw.map?, pairs?_raw_object reads]
  simp

/-- The pairs that were read are those of the members of an object, one by one. -/
theorem members_of_pairs? {decode : Raw → Option α} {raw : Raw} {pairs : List (String × α)}
    (read : raw.pairs? decode = some pairs) :
    ∃ members, raw = .object members ∧
      members.map (fun member => (member.1.text?, decode member.2)) =
        pairs.map fun pair => (some pair.1, some pair.2) := by
  cases raw with
  | object members =>
      refine ⟨members, rfl, ?_⟩
      simp only [Raw.pairs?] at read
      induction members generalizing pairs with
      | nil =>
          cases read
          rfl
      | cons member rest ih =>
          simp only [List.mapM_cons, Option.bind_eq_bind, Option.bind_eq_some_iff,
            Option.pure_def, Option.some.injEq] at read
          obtain ⟨_, ⟨_, name, _, decoded, rfl⟩, others, othersRead, rfl⟩ := read
          rw [List.map_cons, List.map_cons, name, decoded, ih othersRead]
  | _ => contradiction

/-- Every value of a map was read. -/
theorem exists_decode_of_map? {decode : Raw → Option α} {raw : Raw} {map : TextMap α}
    (read : raw.map? decode = some map) {key : String} {value : α}
    (found : map.get? key = some value) : ∃ part, decode part = some value := by
  rcases Option.map_eq_some_iff.mp read with ⟨pairs, pairsRead, rfl⟩
  rcases members_of_pairs? pairsRead with ⟨members, -, same⟩
  have listed := List.mem_map_of_mem (f := fun pair : String × α => (some pair.1, some pair.2))
    (TextMap.mem_of_get?_ofList found)
  rw [← same] at listed
  rcases List.mem_map.mp listed with ⟨member, -, decoded⟩
  exact ⟨member.2, (Prod.mk.inj decoded).2⟩

/-- The keys of a map that was read are those of the members of an object. -/
theorem mem_keys_of_map? {decode : Raw → Option α} {raw : Raw} {map : TextMap α}
    (read : raw.map? decode = some map) :
    ∃ members, raw = .object members ∧
      ∀ key, key ∈ map.keys ↔ ∃ member ∈ members, member.1.text? = some key := by
  rcases Option.map_eq_some_iff.mp read with ⟨pairs, pairsRead, rfl⟩
  rcases members_of_pairs? pairsRead with ⟨members, rfl, same⟩
  have names : members.map (fun member => member.1.text?) = pairs.map fun pair => some pair.1 := by
    simpa [Function.comp_def] using congrArg (List.map Prod.fst) same
  refine ⟨members, rfl, fun key => ?_⟩
  have spelt : (∃ member ∈ members, member.1.text? = some key) ↔ ∃ pair ∈ pairs, pair.1 = key := by
    rw [← List.mem_map, names]
    simp
  rw [spelt, TextMap.mem_keys_iff]
  constructor
  · rintro ⟨value, found⟩
    exact ⟨_, TextMap.mem_of_get?_ofList found, rfl⟩
  · intro listed
    rcases TextMap.exists_get?_insertMany listed .empty with ⟨value, -, found⟩
    exact ⟨value, found⟩

/-- What may be missing is missing or was read. -/
theorem optional?_eq_some {decode : Raw → Option α} {raw : Raw} {found : Option α}
    (read : raw.optional? decode = some found) :
    found = none ∨ ∃ value, decode raw = some value ∧ found = some value := by
  unfold Raw.optional? at read
  split at read
  · cases read
    exact .inl rfl
  · rcases Option.map_eq_some_iff.mp read with ⟨value, decoded, rfl⟩
    exact .inr ⟨value, decoded, rfl⟩

theorem rawMembers_eq_map (members : List (String × Json)) :
    rawMembers members = members.map fun member => (rawText member.1, member.2.raw) := by
  induction members with
  | nil => rfl
  | cons member rest ih => rw [rawMembers, ih, List.map_cons]

/-- The members of a printed object, with their keys. -/
theorem mapM_rawMembers (members : List (String × Json)) :
    ((rawMembers members).mapM fun (key, value) => do return (← key.text?, value)) =
      some (members.map fun member => (member.1, member.2.raw)) := by
  induction members with
  | nil => rfl
  | cons member rest ih =>
      rw [rawMembers, List.mapM_cons, ih]
      simp

/-- The fields of a printed object. -/
theorem fields?_raw_object (names : List String) (members : List (String × Json)) :
    (raw (.object members)).fields? names = names.mapM fun name =>
      match Raw.valuesOf name (members.map fun member => (member.1, member.2.raw)) with
      | [] => some none
      | [value] => some (some value)
      | _ => none := by
  simp only [raw, Raw.fields?, mapM_rawMembers]
  rfl

/-! ## Whole numbers -/

theorem haveWhole_of_forall {members : List (String × Json)}
    (whole : ∀ member ∈ members, IsWhole member.2) : HaveWhole members := by
  induction members with
  | nil => trivial
  | cons member rest ih =>
      rw [List.forall_mem_cons] at whole
      exact ⟨whole.1, ih whole.2⟩

theorem isWhole_ofMap {map : TextMap α} {encode : α → Json}
    (whole : ∀ value, (encode value).IsWhole) : (ofMap (map.map encode)).IsWhole := by
  refine haveWhole_of_forall fun member listed => ?_
  rcases List.mem_map.mp listed with ⟨pair, _, rfl⟩
  exact whole pair.2

end Leasehold.Json
