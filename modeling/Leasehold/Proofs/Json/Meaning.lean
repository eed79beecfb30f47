import Leasehold.Json.Value
import Leasehold.Proofs.Json.Document
import Leasehold.Proofs.TextMap

/-!
# The meaning of a printed value

The tree of a printed value means that value again, if its numbers are whole ones within
64 bits, its objects have every key once and in order, and it nests no deeper than what the
reader puts up with.
-/

namespace Leasehold.Json

/-! ## Proper values -/

/-- Whether a whole number fits into 64 bits, as a signed or as an unsigned one. -/
def Number.IsProper : Number → Prop
  | .integer value => -(Nat.pow 2 63 : Int) ≤ value ∧ value ≤ greatest
  | .float _ => True

mutual

/-- Whether all whole numbers in a value fit into 64 bits and all objects in it have every
key once and in order. -/
def IsProper : Json → Prop
  | .number n => n.IsProper
  | .array items => AreProper items
  | .object members => members.Pairwise (fun a b => a.1 < b.1) ∧ HaveProper members
  | _ => True
  termination_by structural value => value

@[inherit_doc IsProper]
def AreProper : List Json → Prop
  | [] => True
  | item :: items => IsProper item ∧ AreProper items
  termination_by structural values => values

@[inherit_doc IsProper]
def HaveProper : List (String × Json) → Prop
  | [] => True
  | (_, value) :: members => IsProper value ∧ HaveProper members
  termination_by structural pairs => pairs

end

mutual

/-- How deep the containers of a value nest. -/
def nesting : Json → Nat
  | .array items => nestingOfItems items + 1
  | .object members => nestingOfMembers members + 1
  | _ => 0
  termination_by structural value => value

@[inherit_doc nesting]
def nestingOfItems : List Json → Nat
  | [] => 0
  | item :: items => max (nesting item) (nestingOfItems items)
  termination_by structural values => values

@[inherit_doc nesting]
def nestingOfMembers : List (String × Json) → Nat
  | [] => 0
  | (_, value) :: members => max (nesting value) (nestingOfMembers members)
  termination_by structural pairs => pairs

end

/-! ## Numbers -/

/-- Further digits make a number no smaller. -/
theorem Number.le_ofDigitChars (digits : List Char) (front : Nat) :
    front ≤ Nat.ofDigitChars 10 digits front := by
  induction digits generalizing front with
  | nil => exact Nat.le_refl front
  | cons c digits ih =>
      rw [Nat.ofDigitChars_cons]
      exact Nat.le_trans (by omega) (ih _)

/-- All digits of a number that fits are collected. -/
theorem Number.collect_eq {digits : List Char} {front : Nat}
    (bound : Nat.ofDigitChars 10 digits front ≤ greatest) :
    collect front digits = (Nat.ofDigitChars 10 digits front, []) := by
  induction digits generalizing front with
  | nil => rfl
  | cons c digits ih =>
      rw [Nat.ofDigitChars_cons] at bound ⊢
      rw [Nat.mul_comm 10 front] at bound ⊢
      have fits : fits front (c.toNat - '0'.toNat) = true :=
        decide_eq_true (Nat.le_trans (le_ofDigitChars digits _) bound)
      rw [collect, if_pos fits, ih bound]

/-- A whole number that fits is read back. -/
theorem Number.ofLiteral?_literal {n : Number} (whole : n.IsWhole) (proper : n.IsProper) :
    ofLiteral? n.literal = some n := by
  cases n with
  | float => exact whole.elim
  | integer value =>
      have last : greatest = 18446744073709551615 := by decide
      have power : Nat.pow 2 63 = 9223372036854775808 := by decide
      simp only [IsProper, last, power] at proper
      have number : Nat.ofDigitChars 10 (Text.decimal value.natAbs) 0 = value.natAbs :=
        Nat.ofDigitChars_ten_toDigits
      have collected : collect 0 (Text.decimal value.natAbs) = (value.natAbs, []) := by
        have bound : Nat.ofDigitChars 10 (Text.decimal value.natAbs) 0 ≤ greatest := by
          rw [number, last]
          omega
        rw [collect_eq bound, number]
      by_cases negative : value < 0
      · have shown : (Number.integer value).write = '-' :: Text.decimal value.natAbs := by
          simp [write, negative]
        have signed : 1 ≤ value.natAbs ∧ value.natAbs ≤ Nat.pow 2 63 := by omega
        have same : -(value.natAbs : Int) = value := by omega
        rw [literal, shown, read?_minus_decimal, Option.getD_some, ofLiteral?]
        simp only [collected, Bool.not_true, Bool.false_eq_true, if_false, if_pos signed, same]
      · have shown : (Number.integer value).write = Text.decimal value.natAbs := by
          simp [write, negative]
        have same : (value.natAbs : Int) = value := by omega
        rw [literal, shown, read?_decimal, Option.getD_some, ofLiteral?]
        simp only [collected, Bool.not_false, if_true, same]

/-! ## Values -/

mutual

/-- The tree of a value means that value. -/
theorem ofRaw?_raw :
    ∀ (value : Json) (depth : Nat), value.IsWhole → value.IsProper → value.nesting ≤ depth →
      ofRaw? depth value.raw = some value
  | .null, _, _, _, _ => rfl
  | .boolean _, _, _, _, _ => rfl
  | .number _, _, whole, proper, _ => by
    simp only [raw, ofRaw?, Number.ofLiteral?_literal whole proper, Option.map_some]
  | .text s, _, _, _, _ => by
    simp only [raw, ofRaw?, text?_rawText, Option.map_some]
  | .array items, depth, whole, proper, shallow => by
    simp only [nesting] at shallow
    have inside := itemsOfRaw?_rawItems items (depth - 1) whole proper (by omega)
    have nested : depth ≠ 0 := by omega
    simp only [raw, ofRaw?, if_neg nested, inside, Option.map_some]
  | .object members, depth, whole, proper, shallow => by
    simp only [nesting] at shallow
    have inside := membersOfRaw?_rawMembers members (depth - 1) whole proper.2 (by omega)
    have nested : depth ≠ 0 := by omega
    have again := TextMap.ofList_toList ⟨members, proper.1⟩
    simp only [raw, ofRaw?, if_neg nested, inside, Option.map_some, again, ofMap]
  termination_by structural value => value

theorem itemsOfRaw?_rawItems :
    ∀ (items : List Json) (depth : Nat), AreWhole items → AreProper items →
      nestingOfItems items ≤ depth → itemsOfRaw? depth (rawItems items) = some items
  | [], _, _, _, _ => rfl
  | item :: items, depth, whole, proper, shallow => by
    simp only [nestingOfItems] at shallow
    have first := ofRaw?_raw item depth whole.1 proper.1 (by omega)
    have others := itemsOfRaw?_rawItems items depth whole.2 proper.2 (by omega)
    simp [rawItems, itemsOfRaw?, first, others]
  termination_by structural items => items

theorem membersOfRaw?_rawMembers :
    ∀ (members : List (String × Json)) (depth : Nat), HaveWhole members → HaveProper members →
      nestingOfMembers members ≤ depth → membersOfRaw? depth (rawMembers members) = some members
  | [], _, _, _, _ => rfl
  | (key, value) :: members, depth, whole, proper, shallow => by
    simp only [nestingOfMembers] at shallow
    have first := ofRaw?_raw value depth whole.1 proper.1 (by omega)
    have others := membersOfRaw?_rawMembers members depth whole.2 proper.2 (by omega)
    simp [rawMembers, membersOfRaw?, first, others]
  termination_by structural members => members

end

end Leasehold.Json
