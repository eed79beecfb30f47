import Leasehold.Command.Record
import Leasehold.Proofs.Keyspace.Tables

/-!
# What a record is assigned

A record is addressed by a table and a name of its own, and its fields are assigned by
pairs. What can be wrong with these is wrong before anything is asked of a host: an empty
name, a separator in the name of the table, or a pair without a name before an equals sign.
Otherwise different names have different keys, and a field is assigned what stands behind
the first equals sign of the last pair that names it.
-/

namespace Leasehold

namespace TextMap

variable {α : Type}

/-- Of pairs with one key the last stays. -/
theorem get?_insertMany (map : TextMap α) (pairs : List (String × α)) (key : String) :
    (map.insertMany pairs).get? key =
      ((pairs.reverse.find? fun pair => pair.1 == key).map Prod.snd).or (map.get? key) := by
  induction pairs generalizing map with
  | nil => rfl
  | cons pair rest ih =>
      have step := ih (map.insert pair.1 pair.2)
      rw [get?_insert] at step
      rw [List.reverse_cons, List.find?_append, Option.map_or, Option.or_assoc]
      refine step.trans (congrArg _ ?_)
      by_cases same : pair.1 = key
      · simp [same]
      · simp [same]

/-- Each key has its value in the upper map or else in the lower one. -/
theorem get?_overlay (lower upper : TextMap α) (key : String) :
    (lower.overlay upper).get? key = (upper.get? key).or (lower.get? key) := by
  have alone := get?_insertMany empty upper.toList key
  rw [overlay, get?_insertMany]
  rw [← ofList, ofList_toList, get?_empty, Option.or_none] at alone
  rw [alone]

end TextMap

namespace RecordCommand

/-! ## Pairs -/

/-- The name in a pair: what stands before the first equals sign. -/
def pairName (pair : String) : String :=
  String.ofList (pair.toList.takeWhile (· != '='))

/-- The value in a pair: what stands behind the first equals sign. -/
def pairValue (pair : String) : String :=
  String.ofList (pair.toList.dropWhile (· != '=')).tail

/-- That a pair has an equals sign and a name before the first one. -/
structure IsPair (pair : String) : Prop where
  splits : '=' ∈ pair.toList
  named : pair.toList.head? ≠ some '='

instance (pair : String) : Decidable (IsPair pair) :=
  decidable_of_iff ('=' ∈ pair.toList ∧ pair.toList.head? ≠ some '=')
    ⟨fun ⟨splits, named⟩ => ⟨splits, named⟩, fun isPair => ⟨isPair.splits, isPair.named⟩⟩

/-- The fields in pairs. -/
def fieldsOf (pairs : List String) : Fields :=
  TextMap.ofList (pairs.map fun pair => (pairName pair, pairValue pair))

/-- What some pairs assign to a field: the value of the last one that names it. -/
def assigned? (pairs : List String) (name : String) : Option String :=
  (pairs.reverse.find? fun pair => pairName pair == name).map pairValue

variable {pair : String} {pairs : List String}

theorem splitFirst?_eq {separator : Char} (cs : List Char) : Text.splitFirst? separator cs =
    if separator ∈ cs then
      some (cs.takeWhile (· != separator), (cs.dropWhile (· != separator)).tail)
    else none := by
  induction cs with
  | nil => rfl
  | cons c cs ih =>
      rw [Text.splitFirst?, ih]
      by_cases here : c = separator
      · simp [here]
      · by_cases later : separator ∈ cs <;> simp [here, later, Ne.symm here]

theorem readPair_of_isPair (isPair : IsPair pair) :
    readPair pair = .ok (pairName pair, pairValue pair) := by
  rw [readPair, splitFirst?_eq, if_pos isPair.splits]
  cases name : pair.toList.takeWhile (· != '=') with
  | nil =>
      cases chars : pair.toList with
      | nil =>
          have splits := isPair.splits
          simp [chars] at splits
      | cons c cs =>
          have named := isPair.named
          simp_all
  | cons c cs => rw [pairName, pairValue, name]

theorem readPair_of_not_isPair (not : ¬IsPair pair) :
    ∃ problem, readPair pair = .error (.user problem) := by
  rw [readPair, splitFirst?_eq]
  by_cases splits : '=' ∈ pair.toList
  · have nameless : pair.toList.head? = some '=' :=
      Decidable.not_not.mp fun named => not ⟨splits, named⟩
    rcases List.head?_eq_some_iff.mp nameless with ⟨cs, chars⟩
    rw [if_pos splits, chars]
    exact ⟨_, rfl⟩
  · rw [if_neg splits]
    exact ⟨_, rfl⟩

theorem readPairs_of_isPair (arePairs : ∀ pair ∈ pairs, IsPair pair) :
    readPairs pairs = .ok (fieldsOf pairs) := by
  have read : pairs.mapM readPair =
      .ok (pairs.map fun pair => (pairName pair, pairValue pair)) := by
    induction pairs with
    | nil => rfl
    | cons pair pairs ih =>
        rw [List.forall_mem_cons] at arePairs
        rw [List.mapM_cons, readPair_of_isPair arePairs.1, ih arePairs.2]
        rfl
  rw [readPairs, read]
  rfl

theorem readPairs_of_not_isPair (wrong : ∃ pair ∈ pairs, ¬IsPair pair) :
    ∃ problem, readPairs pairs = .error (.user problem) := by
  have read : ∃ problem, pairs.mapM readPair = .error (.user problem) := by
    induction pairs with
    | nil => simp at wrong
    | cons pair pairs ih =>
        rw [List.mapM_cons]
        by_cases isPair : IsPair pair
        · rcases wrong with ⟨other, member, not⟩
          have later : other ∈ pairs := by
            rcases List.mem_cons.mp member with rfl | later
            · contradiction
            · exact later
          rcases ih ⟨other, later, not⟩ with ⟨problem, failed⟩
          rw [readPair_of_isPair isPair, failed]
          exact ⟨problem, rfl⟩
        · rcases readPair_of_not_isPair isPair with ⟨problem, failed⟩
          rw [failed]
          exact ⟨problem, rfl⟩
  rcases read with ⟨problem, failed⟩
  rw [readPairs, failed]
  exact ⟨problem, rfl⟩

/-- The fields in pairs are those that the pairs assign. -/
theorem get?_fieldsOf (pairs : List String) (name : String) :
    (fieldsOf pairs).get? name = assigned? pairs name := by
  rw [fieldsOf, TextMap.ofList, TextMap.get?_insertMany, TextMap.get?_empty, Option.or_none, assigned?,
    ← List.map_reverse, List.find?_map, Option.map_map]
  rfl

/-- What later pairs assign goes before what earlier ones do. -/
theorem assigned?_append (earlier later : List String) (name : String) :
    assigned? (earlier ++ later) name = (assigned? later name).or (assigned? earlier name) := by
  rw [assigned?, List.reverse_append, List.find?_append, Option.map_or]
  rfl

/-! ## Names -/

variable {table record table' record' : String}

/-- That a record can be addressed by a table and a name. -/
structure AreNames (table record : String) : Prop where
  hasTable : table ≠ ""
  hasRecord : record ≠ ""
  plain : Key.separator ∉ table.toList

instance (table record : String) : Decidable (AreNames table record) :=
  decidable_of_iff (table ≠ "" ∧ record ≠ "" ∧ Key.separator ∉ table.toList)
    ⟨fun ⟨hasTable, hasRecord, plain⟩ => ⟨hasTable, hasRecord, plain⟩,
      fun areNames => ⟨areNames.hasTable, areNames.hasRecord, areNames.plain⟩⟩

theorem recordKey_of_areNames (areNames : AreNames table record) :
    recordKey table record = .ok (Key.compose table record) := by
  simp [recordKey, areNames.hasTable, areNames.hasRecord, areNames.plain]

theorem recordKey_of_not_areNames (not : ¬AreNames table record) :
    ∃ problem, recordKey table record = .error (.user problem) := by
  rw [recordKey]
  by_cases empty : table = "" ∨ record = ""
  · rw [if_pos empty]
    exact ⟨_, rfl⟩
  · rw [not_or] at empty
    have separated : Key.separator ∈ table.toList :=
      Decidable.not_not.mp fun plain => not ⟨empty.1, empty.2, plain⟩
    rw [if_neg (not_or.mpr empty), if_pos (by simpa using separated)]
    exact ⟨_, rfl⟩

/-- Different records that can be addressed have different keys. -/
theorem AreNames.eq_of_compose_eq (areNames : AreNames table record)
    (areNames' : AreNames table' record')
    (same : Key.compose table record = Key.compose table' record') :
    table = table' ∧ record = record' := by
  have split := Key.split?_compose areNames.plain record
  rw [same, Key.split?_compose areNames'.plain record'] at split
  cases split
  exact ⟨rfl, rfl⟩

/-- That the arguments of an assignment make sense. -/
structure AreValid (table record : String) (pairs : List String) : Prop
    extends AreNames table record where
  arePairs : ∀ pair ∈ pairs, IsPair pair

instance (table record : String) (pairs : List String) : Decidable (AreValid table record pairs) :=
  decidable_of_iff (AreNames table record ∧ ∀ pair ∈ pairs, IsPair pair)
    ⟨fun ⟨areNames, arePairs⟩ => ⟨areNames, arePairs⟩,
      fun valid => ⟨valid.toAreNames, valid.arePairs⟩⟩

theorem readAssignment_of_areValid (valid : AreValid table record pairs) :
    readAssignment table record pairs = .ok (Key.compose table record, fieldsOf pairs) := by
  rw [readAssignment, recordKey_of_areNames valid.toAreNames, readPairs_of_isPair valid.arePairs]
  rfl

theorem readAssignment_of_not_areValid (not : ¬AreValid table record pairs) :
    ∃ problem, readAssignment table record pairs = .error (.user problem) := by
  rw [readAssignment]
  by_cases areNames : AreNames table record
  · have wrong : ∃ pair ∈ pairs, ¬IsPair pair :=
      Classical.byContradiction fun none => not ⟨areNames, fun pair member =>
        Classical.byContradiction fun wrong => none ⟨pair, member, wrong⟩⟩
    rcases readPairs_of_not_isPair wrong with ⟨problem, failed⟩
    rw [recordKey_of_areNames areNames, failed]
    exact ⟨problem, rfl⟩
  · rcases recordKey_of_not_areNames areNames with ⟨problem, failed⟩
    rw [failed]
    exact ⟨problem, rfl⟩

end RecordCommand

end Leasehold
