import Leasehold.Proofs.Json.Document
import Leasehold.Text.Blank

/-!
# Values on one line

A value is written on one line without control characters, and is read as its tree from
there, with or without blanks before it. Text that is complete in itself cannot be
continued by a value.
-/

namespace Leasehold.Json

/-! ## What the printer spells -/

mutual

/-- A value on one line is a spelling of its tokens. -/
theorem spells_writeLine : ∀ value : Json, value.IsWhole → Spells (writeLine value) value.tokens
  | .null, _ => spells_null
  | .boolean true, _ => spells_true
  | .boolean false, _ => spells_false
  | .number _, whole => spells_number whole
  | .text s, _ => spells_quote s
  | .array [], _ => .mark rfl (.mark rfl .nil)
  | .array (item :: items), whole => by
    have all := spells_writeItems (item :: items) whole
    simp only [tokensOfItems, List.cons_append, List.tail_cons] at all
    simp only [writeLine, tokens, List.cons_append, ← List.append_assoc]
    exact .mark rfl (.append all (.mark rfl .nil) (delimited_mark rfl []))
  | .object [], _ => .mark rfl (.mark rfl .nil)
  | .object ((key, value) :: members), whole => by
    have all := spells_writeMembers ((key, value) :: members) whole
    simp only [tokensOfMembers, List.cons_append, List.tail_cons] at all
    simp only [writeLine, tokens, List.cons_append, ← List.append_assoc]
    exact .mark rfl (.append all (.mark rfl .nil) (delimited_mark rfl []))
  termination_by structural value => value

/-- Items are spelt with commas between them, so there is none before the first one. -/
theorem spells_writeItems :
    ∀ items : List Json, AreWhole items → Spells (writeItems items) (tokensOfItems items).tail
  | [], _ => .nil
  | [item], whole => by
    have only := spells_writeLine item whole.1
    simpa [writeItems, tokensOfItems] using only
  | item :: next :: items, whole => by
    have first := spells_writeLine item whole.1
    have others := spells_writeItems (next :: items) whole.2
    exact .append first (.mark rfl others) (delimited_mark rfl _)
  termination_by structural items => items

/-- So it is with members. -/
theorem spells_writeMembers :
    ∀ members : List (String × Json), HaveWhole members →
      Spells (writeMembers members) (tokensOfMembers members).tail
  | [], _ => .nil
  | [(key, value)], whole => by
    have only := spells_writeLine value whole.1
    have all : Spells (quote key ++ ':' :: writeLine value)
        ([.text (rawText key)] ++ .colon :: value.tokens) :=
      .append (spells_quote key) (.mark rfl only) (delimited_mark rfl _)
    simpa [writeMembers, tokensOfMembers] using all
  | (key, value) :: next :: members, whole => by
    have first := spells_writeLine value whole.1
    have others := spells_writeMembers (next :: members) whole.2
    have all : Spells
        (quote key ++ ':' :: (writeLine value ++ ',' :: writeMembers (next :: members)))
        ([.text (rawText key)] ++ .colon :: (value.tokens ++ tokensOfMembers (next :: members))) :=
      .append (spells_quote key)
        (.mark rfl (.append first (.mark rfl others) (delimited_mark rfl _))) (delimited_mark rfl _)
    simpa [writeMembers, tokensOfMembers] using all
  termination_by structural members => members

end

/-- A value is read back from its line as its tree, whatever blanks stand before it. -/
theorem read?_writeLine {value : Json} (whole : value.IsWhole) {blanks : List Char}
    (blank : ∀ c ∈ blanks, Reading.isSpace c) :
    Raw.read? (blanks ++ writeLine value) = some value.raw :=
  read?_of_spells (.spaces blank (spells_writeLine value whole))

/-! ## No control characters -/

theorem printable_hexChar : ∀ n < 16, 0x20 ≤ (hexChar n).toNat := by
  decide

/-- A control character is escaped, and what escapes it is none. -/
theorem printable_escapeChar (c : Char) : ∀ d ∈ escapeChar c, 0x20 ≤ d.toNat := by
  by_cases named : c ∈ ['"', '\\', '\x08', '\x0c', '\n', '\r', '\t']
  · simp only [List.mem_cons, List.not_mem_nil, or_false] at named
    rcases named with rfl | rfl | rfl | rfl | rfl | rfl | rfl <;> simp [escapeChar]
  · simp only [List.mem_cons, List.not_mem_nil, or_false, not_or] at named
    by_cases control : c.toNat < 0x20
    · have high := printable_hexChar (c.toNat / 16) (by omega)
      have low := printable_hexChar (c.toNat % 16) (by omega)
      simp [escapeChar, named, control, high, low]
    · simp [escapeChar, named, control]
      omega

theorem printable_quote (s : String) : ∀ c ∈ quote s, 0x20 ≤ c.toNat := by
  have inside : ∀ c ∈ escape s.toList, 0x20 ≤ c.toNat := by
    intro c member
    rcases List.mem_flatMap.mp member with ⟨d, -, here⟩
    exact printable_escapeChar d c here
  have mark : 0x20 ≤ '"'.toNat := by decide
  simp only [quote, List.cons_append, List.forall_mem_cons, List.forall_mem_append]
  exact ⟨mark, inside, mark, List.forall_mem_nil _⟩

theorem printable_decimal (n : Nat) : ∀ c ∈ Text.decimal n, 0x20 ≤ c.toNat := by
  intro c member
  have bounds := Text.toNat_of_isDigit (Text.isDigit_of_mem_decimal member)
  have zero : '0'.toNat = 48 := rfl
  omega

theorem printable_number {n : Number} (whole : n.IsWhole) : ∀ c ∈ n.write, 0x20 ≤ c.toNat := by
  cases n with
  | float => exact whole.elim
  | integer value =>
      rw [Number.write]
      split
      · exact List.forall_mem_cons.mpr ⟨by decide, printable_decimal _⟩
      · exact printable_decimal _

mutual

/-- There is no control character in a line, whatever text is in the value. -/
theorem printable_writeLine : ∀ value : Json, value.IsWhole → ∀ c ∈ writeLine value, 0x20 ≤ c.toNat
  | .null, _ => by simp [writeLine]
  | .boolean true, _ => by simp [writeLine]
  | .boolean false, _ => by simp [writeLine]
  | .number _, whole => printable_number whole
  | .text s, _ => printable_quote s
  | .array items, whole => by
    have inside := printable_writeItems items whole
    simp only [writeLine, List.cons_append, List.forall_mem_cons, List.forall_mem_append]
    exact ⟨by decide, inside, by simp⟩
  | .object members, whole => by
    have inside := printable_writeMembers members whole
    simp only [writeLine, List.cons_append, List.forall_mem_cons, List.forall_mem_append]
    exact ⟨by decide, inside, by simp⟩
  termination_by structural value => value

theorem printable_writeItems :
    ∀ items : List Json, AreWhole items → ∀ c ∈ writeItems items, 0x20 ≤ c.toNat
  | [], _ => List.forall_mem_nil _
  | [item], whole => printable_writeLine item whole.1
  | item :: next :: items, whole => by
    have first := printable_writeLine item whole.1
    have others := printable_writeItems (next :: items) whole.2
    exact List.forall_mem_append.mpr ⟨first, List.forall_mem_cons.mpr ⟨by decide, others⟩⟩
  termination_by structural items => items

theorem printable_writeMembers :
    ∀ members : List (String × Json), HaveWhole members →
      ∀ c ∈ writeMembers members, 0x20 ≤ c.toNat
  | [], _ => List.forall_mem_nil _
  | [(key, value)], whole => by
    have only := printable_writeLine value whole.1
    exact List.forall_mem_append.mpr
      ⟨printable_quote key, List.forall_mem_cons.mpr ⟨by decide, only⟩⟩
  | (key, value) :: next :: members, whole => by
    have first := printable_writeLine value whole.1
    have others := printable_writeMembers (next :: members) whole.2
    simp only [writeMembers, List.forall_mem_cons, List.forall_mem_append]
    exact ⟨⟨printable_quote key, by decide, first⟩, by decide, others⟩
  termination_by structural members => members

end

/-! ## After other text -/

/-- Text that begins a token of its own leaves the tokens before it as they are. -/
theorem tokens?_append {cs ds : List Char} {found : List Token} (first : tokens? cs = some found)
    (ends : Delimited ds) : tokens? (cs ++ ds) = tokensAfter? found.reverse ds := by
  rcases Option.bind_eq_some_iff.mp first with ⟨⟨before, pending⟩, read, finished⟩
  have all : tokens? (cs ++ ds) =
      (Reading.readAll? ⟨before, pending⟩ ds).bind Reading.finish? := by
    rw [tokens?, Reading.readAll?_append, read, Option.bind_some]
  rw [all]
  cases ds with
  | nil => simpa [tokensAfter?, Reading.readAll?, Reading.finish?] using finished
  | cons c ds =>
      rw [delimited_cons] at ends
      -- What was pending is ended by the next character as it is by the end of the text.
      have step : Reading.next ⟨before, pending⟩ c = Reading.next ⟨found.reverse, .nothing⟩ c := by
        cases pending with
        | nothing =>
            obtain rfl := Option.some.inj finished
            rw [List.reverse_reverse]
        | word letters =>
            rcases Option.map_eq_some_iff.mp finished with ⟨token, word, rfl⟩
            simp [Reading.next, ends.1, word]
        | number chars =>
            rcases Option.map_eq_some_iff.mp finished with ⟨literal, number, rfl⟩
            simp [Reading.next, ends.2, number]
        | _ => contradiction
      rw [tokensAfter?, Reading.readAll?, Reading.readAll?, step]

theorem tokens_ne_nil (value : Json) : value.tokens ≠ [] := by
  cases value with
  | array items => cases items <;> exact List.cons_ne_nil _ _
  | object members => cases members <;> exact List.cons_ne_nil _ _
  | _ => exact List.cons_ne_nil _ _

theorem Building.useAll?_append (building : Building) (tokens others : List Token) :
    building.useAll? (tokens ++ others) =
      (building.useAll? tokens).bind fun building => building.useAll? others := by
  induction tokens generalizing building with
  | nil => rfl
  | cons token tokens ih =>
      rw [List.cons_append, useAll?, useAll?]
      cases building.next token with
      | none => rfl
      | some building => exact ih building

/-- A text that is a value is none any more when another one follows. -/
theorem read?_append_writeLine {cs : List Char} {raw : Raw} (first : Raw.read? cs = some raw)
    {value : Json} (whole : value.IsWhole) (ends : Delimited (writeLine value)) :
    Raw.read? (cs ++ writeLine value) = none := by
  rcases Option.bind_eq_some_iff.mp first with ⟨found, tokens, built⟩
  rcases Option.bind_eq_some_iff.mp built with ⟨building, used, finished⟩
  have continued := spells_writeLine value whole found.reverse [] delimited_nil
  rw [List.append_nil] at continued
  have all : tokens? (cs ++ writeLine value) = some (found ++ value.tokens) := by
    rw [tokens?_append tokens ends, continued]
    simp [tokensAfter?, Reading.readAll?, Reading.finish?]
  cases building with
  | unfinished => contradiction
  | complete raw =>
      have refused : Building.useAll? (.complete raw) value.tokens = none := by
        cases shown : value.tokens with
        | nil => exact absurd shown (tokens_ne_nil value)
        | cons token tokens => rfl
      simp [Raw.read?, all, Building.useAll?_append, used, refused]

/-! ## Blanks -/

theorem Reading.isBlank_of_isSpace {c : Char} (space : Reading.isSpace c) : Text.isBlank c := by
  simp only [Reading.isSpace, Bool.or_eq_true, beq_iff_eq] at space
  rcases space with ((rfl | rfl) | rfl) | rfl <;> decide

theorem Reading.readAll?_spaces {cs : List Char} (spaces : ∀ c ∈ cs, Reading.isSpace c)
    (before : List Token) : readAll? ⟨before, .nothing⟩ cs = some ⟨before, .nothing⟩ := by
  induction cs with
  | nil => rfl
  | cons c cs ih =>
      rw [List.forall_mem_cons] at spaces
      have step : next ⟨before, .nothing⟩ c = some ⟨before, .nothing⟩ := if_pos spaces.1
      rw [readAll?, step, Option.bind_some, ih spaces.2]

/-- A character that is blank but no space begins no token. -/
theorem Reading.begin_of_isBlank {c : Char} (blank : Text.isBlank c)
    (other : Reading.isSpace c = false) (before : List Token) : Reading.begin before c = none := by
  have apart {d : Char} (visible : Text.isBlank d = false) : c ≠ d := by
    rintro rfl
    exact Bool.false_ne_true (visible.symm.trans blank)
  have outside : c.toNat ≤ 0x20 ∨ 0x85 ≤ c.toNat := by
    simp only [Text.isBlank, Bool.or_eq_true, Bool.and_eq_true, decide_eq_true_eq,
      beq_iff_eq] at blank
    omega
  have notDigit : c.isDigit = false := by
    refine Bool.eq_false_iff.mpr fun digit => ?_
    have bounds := Text.toNat_of_isDigit digit
    have zero : '0'.toNat = 48 := rfl
    omega
  have notLower : c.isLower = false := by
    refine Bool.eq_false_iff.mpr fun lower => ?_
    rcases Bool.and_eq_true_iff.mp lower with ⟨first, last⟩
    have low : 97 ≤ c.toNat := UInt32.le_iff_toNat_le.mp (of_decide_eq_true first)
    have high : c.toNat ≤ 122 := UInt32.le_iff_toNat_le.mp (of_decide_eq_true last)
    omega
  have notMark : Token.ofMark? c = none := by
    unfold Token.ofMark?
    split
    case h_7 => rfl
    all_goals exact absurd rfl (apart rfl)
  have notQuote : c ≠ '"' := apart rfl
  have notMinus : c ≠ '-' := apart rfl
  simp [Reading.begin, other, notQuote, notMinus, notDigit, notLower, notMark]

/-- Text is no value that begins with blanks some of which are no spaces. -/
theorem read?_append_of_isBlank {front : List Char} (blank : front.all Text.isBlank)
    (unspaced : ¬front.all Reading.isSpace) (rest : List Char) :
    Raw.read? (front ++ rest) = none := by
  have isSome : (front.find? fun c => !Reading.isSpace c).isSome := by
    simpa using unspaced
  rcases Option.isSome_iff_exists.mp isSome with ⟨c, found⟩
  rcases List.find?_eq_some_iff_append.mp found with ⟨other, blanks, more, rfl, before⟩
  have spaces : ∀ d ∈ blanks, Reading.isSpace d := by simpa using before
  have refused : Reading.next ⟨[], .nothing⟩ c = none :=
    Reading.begin_of_isBlank (List.all_eq_true.mp blank c (by simp)) (by simpa using other) []
  have skipped : Reading.readAll? ⟨[], .nothing⟩ blanks = some ⟨[], .nothing⟩ :=
    Reading.readAll?_spaces spaces []
  have none : tokens? (blanks ++ c :: more ++ rest) = none := by
    rw [tokens?, Reading.start, List.append_assoc, Reading.readAll?_append, skipped,
      Option.bind_some, List.cons_append, Reading.readAll?, refused]
    rfl
  rw [Raw.read?, none]
  rfl

end Leasehold.Json
