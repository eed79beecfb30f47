import Leasehold.Json.Reader
import Leasehold.Proofs.Json.Spelling
import Leasehold.Proofs.Text.Decimal

/-!
# Printed values read back

A value has a tree as which it is written: text of which some control characters
are given by their codes, objects with their members in order. The main result
is that a printed value is read as its tree, whatever text is in it; the numbers
in it have to be whole ones.
-/

namespace Leasehold.Json

/-! ## Text in quotes -/

/-- A character as it is written in quotes: a control character without a letter
of its own by its code. -/
def textUnit (c : Char) : TextUnit :=
  if c.toNat < 0x20 ∧ c ∉ ['\x08', '\x0c', '\n', '\r', '\t'] then .code c.toNat else .char c

/-- A text as it is written in quotes. -/
def rawText (s : String) : RawText :=
  s.toList.map textUnit

theorem hexDigit?_hexChar : ∀ n < 16, Reading.hexDigit? (hexChar n) = some n := by
  decide

theorem readAll?_escapeChar (before : List Token) (units : List TextUnit) (c : Char) :
    Reading.readAll? ⟨before, .text units⟩ (escapeChar c) =
      some ⟨before, .text (textUnit c :: units)⟩ := by
  by_cases named : c ∈ ['"', '\\', '\x08', '\x0c', '\n', '\r', '\t']
  · simp only [List.mem_cons, List.not_mem_nil, or_false] at named
    rcases named with rfl | rfl | rfl | rfl | rfl | rfl | rfl <;> rfl
  · simp only [List.mem_cons, List.not_mem_nil, or_false, not_or] at named
    by_cases control : c.toNat < 0x20
    · have code : textUnit c = .code c.toNat := if_pos ⟨control, by simp [named]⟩
      have high := hexDigit?_hexChar (c.toNat / 16) (by omega)
      have low := hexDigit?_hexChar (c.toNat % 16) (by omega)
      have zero : Reading.hexDigit? '0' = some 0 := rfl
      have value : c.toNat / 16 * 16 + c.toNat % 16 = c.toNat := by omega
      simp [escapeChar, named, control, Reading.readAll?, Reading.next, high, low, zero, value,
        code]
    · have plain : textUnit c = .char c := if_neg fun both => control both.1
      simp [escapeChar, named, control, Reading.readAll?, Reading.next, plain]

theorem readAll?_escape (before : List Token) (units : List TextUnit) (cs : List Char) :
    Reading.readAll? ⟨before, .text units⟩ (escape cs) =
      some ⟨before, .text ((cs.map textUnit).reverse ++ units)⟩ := by
  induction cs generalizing units with
  | nil => rfl
  | cons c cs ih =>
    rw [escape, List.flatMap_cons, Reading.readAll?_append, readAll?_escapeChar, Option.bind_some]
    exact (ih (textUnit c :: units)).trans (by simp)

/-- A text in quotes is one token. -/
theorem spells_quote (s : String) : Spells (quote s) [.text (rawText s)] := by
  intro before rest _
  have opened : Reading.begin before '"' = some ⟨before, .text []⟩ := rfl
  simp [tokensAfter?, quote, Reading.readAll?, Reading.readAll?_append, Reading.next, opened,
    readAll?_escape, rawText]

/-- The code of a control character is not half of a surrogate pair, so it stands
for itself whatever comes after it. -/
theorem decode_code_cons {n : Nat} (control : n < 0x20) (rest : RawText) :
    RawText.decode (.code n :: rest) = (RawText.decode rest).map (Char.ofNat n :: ·) := by
  have single : ¬(0xd800 ≤ n ∧ n ≤ 0xdfff) := by omega
  have noHigh : ¬(0xd800 ≤ n ∧ n ≤ 0xdbff) := by omega
  have noLow : ¬(0xdc00 ≤ n ∧ n ≤ 0xdfff) := by omega
  cases rest with
  | nil => simp [RawText.decode, single]
  | cons unit rest => cases unit <;> simp [RawText.decode, single, noHigh, noLow]

theorem decode_map_textUnit (cs : List Char) : RawText.decode (cs.map textUnit) = some cs := by
  induction cs with
  | nil => rfl
  | cons c cs ih =>
    rw [List.map_cons]
    by_cases control : c.toNat < 0x20 ∧ c ∉ ['\x08', '\x0c', '\n', '\r', '\t']
    · rw [textUnit, if_pos control, decode_code_cons control.1, ih]
      simp [Char.ofNat_toNat]
    · rw [textUnit, if_neg control, RawText.decode, ih, Option.map_some]

/-- A text in quotes stands for that text. -/
@[simp]
theorem text?_rawText (s : String) : (rawText s).text? = some s := by
  simp [RawText.text?, rawText, decode_map_textUnit]

/-! ## Numbers -/

/-- A number as it is written. -/
def Number.literal (n : Number) : NumberLiteral :=
  (NumberLiteral.read? n.write).getD ⟨false, [], none, none⟩

/-- Whether a number is a whole one. -/
def Number.IsWhole : Number → Prop
  | .integer _ => True
  | .float _ => False

theorem takeWhole_decimal (n : Nat) :
    NumberLiteral.takeWhole (Text.decimal n) = some (Text.decimal n, []) := by
  by_cases zero : n = 0
  · subst zero
    rfl
  · have front := Text.head?_decimal_ne_zero (Nat.pos_of_ne_zero zero)
    have all : ∀ c ∈ Text.decimal n, c.isDigit := fun _ => Text.isDigit_of_mem_decimal
    have taken := Text.takeWhile_digits_append all Text.endsDigits_nil
    have dropped := Text.dropWhile_digits_append all Text.endsDigits_nil
    rw [List.append_nil] at taken dropped
    unfold NumberLiteral.takeWhole
    split
    next shown => exact absurd (by rw [shown]; rfl) front
    next =>
      rw [digits1, taken, dropped]
      cases shown : Text.decimal n with
      | nil => exact absurd shown (Text.decimal_ne_nil n)
      | cons => rfl

theorem read?_decimal (n : Nat) :
    NumberLiteral.read? (Text.decimal n) = some ⟨false, Text.decimal n, none, none⟩ := by
  have unsigned : ∀ rest, Text.decimal n ≠ '-' :: rest := fun rest shown =>
    absurd (Text.isDigit_of_mem_decimal (shown ▸ List.mem_cons_self)) (by decide)
  unfold NumberLiteral.read?
  split
  next _ _ _ matched =>
    split at matched
    next rest shown => exact absurd shown (unsigned rest)
    next =>
      cases matched
      simp [takeWhole_decimal, NumberLiteral.takeFraction, NumberLiteral.takeExponent]

theorem read?_minus_decimal (n : Nat) :
    NumberLiteral.read? ('-' :: Text.decimal n) = some ⟨true, Text.decimal n, none, none⟩ := by
  simp [NumberLiteral.read?, takeWhole_decimal, NumberLiteral.takeFraction,
    NumberLiteral.takeExponent]

theorem isNumberChar_of_isDigit {c : Char} (digit : c.isDigit) : Reading.isNumberChar c := by
  simp [Reading.isNumberChar, digit]

theorem begin_digit {c : Char} (digit : c.isDigit) (before : List Token) :
    Reading.begin before c = some ⟨before, .number [c]⟩ := by
  have notSpace : Reading.isSpace c = false := by
    cases space : Reading.isSpace c with
    | false => rfl
    | true =>
      simp only [Reading.isSpace, Bool.or_eq_true, beq_iff_eq] at space
      rcases space with ((rfl | rfl) | rfl) | rfl <;> contradiction
  have notQuote : c ≠ '"' := by
    rintro rfl
    contradiction
  simp [Reading.begin, notSpace, notQuote, digit]

/-- A whole number is one token. -/
theorem spells_number {n : Number} (whole : n.IsWhole) : Spells n.write [.number n.literal] := by
  cases n with
  | float => exact whole.elim
  | integer value =>
    have numeric : ∀ c ∈ Text.decimal value.natAbs, Reading.isNumberChar c := fun _ member =>
      isNumberChar_of_isDigit (Text.isDigit_of_mem_decimal member)
    by_cases negative : value < 0
    · have shown : (Number.integer value).write = '-' :: Text.decimal value.natAbs := by
        simp [Number.write, negative]
      have read := read?_minus_decimal value.natAbs
      rw [Number.literal, shown, read]
      exact Spells.number (fun _ => rfl) numeric read
    · have shown : (Number.integer value).write = Text.decimal value.natAbs := by
        simp [Number.write, negative]
      have read := read?_decimal value.natAbs
      rw [Number.literal, shown, read]
      cases digits : Text.decimal value.natAbs with
      | nil => exact absurd digits (Text.decimal_ne_nil _)
      | cons c cs =>
        rw [digits] at read numeric
        have digit : c.isDigit := Text.isDigit_of_mem_decimal (digits ▸ List.mem_cons_self)
        exact Spells.number (begin_digit digit)
          (fun _ member => numeric _ (List.mem_cons_of_mem _ member)) read

/-! ## Trees and tokens -/

mutual

/-- The tree as which a value is written. -/
def raw : Json → Raw
  | .null => .null
  | .boolean b => .boolean b
  | .number n => .number n.literal
  | .text s => .text (rawText s)
  | .array items => .array (rawItems items)
  | .object members => .object (rawMembers members)
  termination_by structural value => value

/-- The trees of items. -/
def rawItems : List Json → List Raw
  | [] => []
  | item :: items => raw item :: rawItems items
  termination_by structural values => values

/-- The trees of members. -/
def rawMembers : List (String × Json) → List (RawText × Raw)
  | [] => []
  | (key, value) :: members => (rawText key, raw value) :: rawMembers members
  termination_by structural pairs => pairs

end

mutual

/-- The tokens as which a value is written. -/
def tokens : Json → List Token
  | .null => [.null]
  | .boolean b => [.boolean b]
  | .number n => [.number n.literal]
  | .text s => [.text (rawText s)]
  | .array [] => [.openBracket, .closeBracket]
  | .array (item :: items) =>
    .openBracket :: tokens item ++ (tokensOfItems items ++ [.closeBracket])
  | .object [] => [.openBrace, .closeBrace]
  | .object ((key, value) :: members) =>
    .openBrace :: .text (rawText key) :: .colon :: tokens value ++
      (tokensOfMembers members ++ [.closeBrace])
  termination_by structural value => value

/-- The tokens of the items after the first one. -/
def tokensOfItems : List Json → List Token
  | [] => []
  | item :: items => .comma :: tokens item ++ tokensOfItems items
  termination_by structural values => values

/-- The tokens of the members after the first one. -/
def tokensOfMembers : List (String × Json) → List Token
  | [] => []
  | (key, value) :: members =>
    .comma :: .text (rawText key) :: .colon :: tokens value ++ tokensOfMembers members
  termination_by structural pairs => pairs

end

mutual

/-- Whether all numbers in a value are whole ones. -/
def IsWhole : Json → Prop
  | .number n => n.IsWhole
  | .array items => AreWhole items
  | .object members => HaveWhole members
  | _ => True
  termination_by structural value => value

@[inherit_doc IsWhole]
def AreWhole : List Json → Prop
  | [] => True
  | item :: items => IsWhole item ∧ AreWhole items
  termination_by structural values => values

@[inherit_doc IsWhole]
def HaveWhole : List (String × Json) → Prop
  | [] => True
  | (_, value) :: members => IsWhole value ∧ HaveWhole members
  termination_by structural pairs => pairs

end

/-! ## What the printer spells -/

theorem spells_null : Spells ['n', 'u', 'l', 'l'] [.null] :=
  Spells.word (fun _ => rfl) (by simp) rfl

theorem spells_true : Spells ['t', 'r', 'u', 'e'] [.boolean true] :=
  Spells.word (fun _ => rfl) (by simp) rfl

theorem spells_false : Spells ['f', 'a', 'l', 's', 'e'] [.boolean false] :=
  Spells.word (fun _ => rfl) (by simp) rfl

theorem delimited_newLine (level : Nat) (rest : List Char) : Delimited (newLine level ++ rest) := by
  rw [newLine, List.cons_append, delimited_cons]
  decide

theorem delimited_writePrettyItems (level : Nat) (items : List Json) :
    Delimited (writePrettyItems level items) := by
  cases items <;> simp [writePrettyItems]; decide

theorem delimited_writePrettyMembers (level : Nat) (members : List (String × Json)) :
    Delimited (writePrettyMembers level members) := by
  cases members <;> simp [writePrettyMembers]; decide

mutual

/-- A value over several lines is a spelling of its tokens. -/
theorem spells_writePretty (level : Nat) :
    ∀ value : Json, value.IsWhole → Spells (writePretty level value) value.tokens
  | .null, _ => spells_null
  | .boolean true, _ => spells_true
  | .boolean false, _ => spells_false
  | .number _, whole => spells_number whole
  | .text s, _ => spells_quote s
  | .array [], _ => .mark rfl (.mark rfl .nil)
  | .array (item :: items), whole => by
    have first := spells_writePretty (level + 1) item whole.1
    have others := spells_writePrettyItems (level + 1) items whole.2
    simp only [writePretty, tokens, List.cons_append, List.append_assoc]
    exact .mark rfl (.newLine _ (.append first
      (.append others (.newLine _ (.mark rfl .nil)) (delimited_newLine _ _))
      ((delimited_writePrettyItems _ _).append (delimited_newLine _ _))))
  | .object [], _ => .mark rfl (.mark rfl .nil)
  | .object ((key, value) :: members), whole => by
    have first := spells_writePretty (level + 1) value whole.1
    have others := spells_writePrettyMembers (level + 1) members whole.2
    simp only [writePretty, tokens, List.cons_append, List.append_assoc]
    exact .mark rfl (.newLine _ (.append (spells_quote key) (.mark rfl (.space rfl (.append first
      (.append others (.newLine _ (.mark rfl .nil)) (delimited_newLine _ _))
      ((delimited_writePrettyMembers _ _).append (delimited_newLine _ _)))))
      (by simp; decide)))
  termination_by structural value => value

theorem spells_writePrettyItems (level : Nat) :
    ∀ items : List Json, AreWhole items →
      Spells (writePrettyItems level items) (tokensOfItems items)
  | [], _ => .nil
  | item :: items, whole => by
    have first := spells_writePretty level item whole.1
    have others := spells_writePrettyItems level items whole.2
    simp only [writePrettyItems, tokensOfItems, List.cons_append, List.append_assoc]
    exact .mark rfl (.newLine _ (.append first others (delimited_writePrettyItems _ _)))
  termination_by structural items => items

theorem spells_writePrettyMembers (level : Nat) :
    ∀ members : List (String × Json), HaveWhole members →
      Spells (writePrettyMembers level members) (tokensOfMembers members)
  | [], _ => .nil
  | (key, value) :: members, whole => by
    have first := spells_writePretty level value whole.1
    have others := spells_writePrettyMembers level members whole.2
    simp only [writePrettyMembers, tokensOfMembers, List.cons_append, List.append_assoc]
    exact .mark rfl (.newLine _ (.append (spells_quote key) (.mark rfl (.space rfl
      (.append first others (delimited_writePrettyMembers _ _)))) (by simp; decide)))
  termination_by structural members => members

end

/-! ## The tree that is built -/

/-- Where an item may stand or the array may end, a value is an item. -/
theorem useAll?_firstItem (value : Json) (frames : List Frame) (rest : List Token) :
    Building.useAll? (.unfinished .firstItem frames) (value.tokens ++ rest) =
      Building.useAll? (.unfinished .value frames) (value.tokens ++ rest) := by
  cases value with
  | array items => cases items <;> rfl
  | object members => cases members <;> rfl
  | _ => rfl

mutual

/-- The tokens of a value put its tree where one is awaited. -/
theorem useAll?_tokens :
    ∀ (value : Json) (frames : List Frame) (rest : List Token),
      Building.useAll? (.unfinished .value frames) (value.tokens ++ rest) =
        (Building.put value.raw frames).bind fun building => building.useAll? rest
  | .null, _, _ => rfl
  | .boolean _, _, _ => rfl
  | .number _, _, _ => rfl
  | .text _, _, _ => rfl
  | .array [], _, _ => rfl
  | .array (item :: items), frames, rest => by
    have opened : Building.useAll? (.unfinished .value frames)
        ((Json.array (item :: items)).tokens ++ rest) =
          Building.useAll? (.unfinished .firstItem (.array [] :: frames))
            (item.tokens ++ (tokensOfItems items ++ .closeBracket :: rest)) := by
      simp [tokens, Building.useAll?, Building.next, Building.beginValue]
    rw [opened, useAll?_firstItem, useAll?_tokens item (.array [] :: frames)]
    exact useAll?_tokensOfItems items [item.raw] frames rest
  | .object [], _, _ => rfl
  | .object ((key, value) :: members), frames, rest => by
    have opened : Building.useAll? (.unfinished .value frames)
        ((Json.object ((key, value) :: members)).tokens ++ rest) =
          Building.useAll? (.unfinished .value (.member [] (rawText key) :: frames))
            (value.tokens ++ (tokensOfMembers members ++ .closeBrace :: rest)) := by
      simp [tokens, Building.useAll?, Building.next, Building.beginValue, Building.beginMember]
    rw [opened, useAll?_tokens value (.member [] (rawText key) :: frames)]
    exact useAll?_tokensOfMembers members [(rawText key, value.raw)] frames rest
  termination_by structural value => value

/-- The tokens of further items complete an array. -/
theorem useAll?_tokensOfItems :
    ∀ (items : List Json) (found : List Raw) (frames : List Frame) (rest : List Token),
      Building.useAll? (.unfinished .separator (.array found :: frames))
          (tokensOfItems items ++ .closeBracket :: rest) =
        (Building.put (.array (found.reverse ++ rawItems items)) frames).bind fun building =>
          building.useAll? rest
  | [], found, frames, rest => by simp [tokensOfItems, rawItems]; rfl
  | item :: items, found, frames, rest => by
    have comma : Building.useAll? (.unfinished .separator (.array found :: frames))
        (tokensOfItems (item :: items) ++ .closeBracket :: rest) =
          Building.useAll? (.unfinished .value (.array found :: frames))
            (item.tokens ++ (tokensOfItems items ++ .closeBracket :: rest)) := by
      simp [tokensOfItems, Building.useAll?, Building.next, Building.another]
    have others := useAll?_tokensOfItems items (item.raw :: found) frames rest
    rw [comma, useAll?_tokens item (.array found :: frames)]
    simpa [rawItems, Building.put] using others
  termination_by structural items => items

/-- The tokens of further members complete an object. -/
theorem useAll?_tokensOfMembers :
    ∀ (members : List (String × Json)) (found : List (RawText × Raw)) (frames : List Frame)
      (rest : List Token),
      Building.useAll? (.unfinished .separator (.object found :: frames))
          (tokensOfMembers members ++ .closeBrace :: rest) =
        (Building.put (.object (found.reverse ++ rawMembers members)) frames).bind fun building =>
          building.useAll? rest
  | [], found, frames, rest => by simp [tokensOfMembers, rawMembers]; rfl
  | (key, value) :: members, found, frames, rest => by
    have comma : Building.useAll? (.unfinished .separator (.object found :: frames))
        (tokensOfMembers ((key, value) :: members) ++ .closeBrace :: rest) =
          Building.useAll? (.unfinished .value (.member found (rawText key) :: frames))
            (value.tokens ++ (tokensOfMembers members ++ .closeBrace :: rest)) := by
      simp [tokensOfMembers, Building.useAll?, Building.next, Building.another,
        Building.beginMember]
    have others := useAll?_tokensOfMembers members ((rawText key, value.raw) :: found) frames rest
    rw [comma, useAll?_tokens value (.member found (rawText key) :: frames)]
    simpa [rawMembers, Building.put] using others
  termination_by structural members => members

end

/-- A spelling of the tokens of a value is read as its tree. -/
theorem read?_of_spells {value : Json} {cs : List Char} (spells : Spells cs value.tokens) :
    Raw.read? cs = some value.raw := by
  have built := useAll?_tokens value [] []
  rw [List.append_nil] at built
  simp [Raw.read?, spells.tokens?, Building.start, built, Building.put, Building.useAll?,
    Building.finish?]

/-- A printed value is read as its tree, whatever blanks come after it. -/
theorem read?_writePretty {value : Json} (whole : value.IsWhole) {blanks : List Char}
    (blank : ∀ c ∈ blanks, Reading.isSpace c) :
    Raw.read? (writePretty 0 value ++ blanks) = some value.raw := by
  have ends : Delimited blanks := fun c first => by
    have space := blank c (List.mem_of_head? first)
    simp only [Reading.isSpace, Bool.or_eq_true, beq_iff_eq] at space
    rcases space with ((rfl | rfl) | rfl) | rfl <;> decide
  have trailing : Spells blanks [] := by
    simpa using Spells.spaces blank .nil
  have all := (spells_writePretty 0 value whole).append trailing ends
  rw [List.append_nil] at all
  exact read?_of_spells all

end Leasehold.Json
