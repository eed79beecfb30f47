import Leasehold.Json.Printer
import Leasehold.Json.Token

/-!
# The tokens of a printed value

What the printer writes is a spelling of tokens: whatever was read before it and
whatever follows, reading it adds exactly these tokens. A word or a number ends
only where the next character says so, so what follows must not go on with it.
The tokens of a value do not depend on how it is laid out.
-/

namespace Leasehold.Json

/-! ## Spellings -/

/-- The tokens of a text that follows `before`, which is latest first. -/
def tokensAfter? (before : List Token) (cs : List Char) : Option (List Token) :=
  (Reading.readAll? ⟨before, .nothing⟩ cs).bind Reading.finish?

/-- A text that does not go on with a word or a number. -/
def Delimited (cs : List Char) : Prop :=
  ∀ c ∈ cs.head?, c.isLower = false ∧ Reading.isNumberChar c = false

/-- A text that is read as the given tokens. -/
def Spells (cs : List Char) (tokens : List Token) : Prop :=
  ∀ before rest, Delimited rest →
    tokensAfter? before (cs ++ rest) = tokensAfter? (tokens.reverse ++ before) rest

@[simp]
theorem delimited_nil : Delimited [] := by
  simp [Delimited]

@[simp]
theorem delimited_cons (c : Char) (cs : List Char) :
    Delimited (c :: cs) ↔ c.isLower = false ∧ Reading.isNumberChar c = false := by
  simp [Delimited]

theorem Delimited.append {cs ds : List Char} (first : Delimited cs) (second : Delimited ds) :
    Delimited (cs ++ ds) := by
  cases cs with
  | nil => exact second
  | cons c cs => simpa using first

/-- A mark goes on with neither. -/
theorem delimited_mark {c : Char} {token : Token} (marks : Token.ofMark? c = some token)
    (cs : List Char) : Delimited (c :: cs) := by
  unfold Token.ofMark? at marks
  split at marks <;> cases marks <;> simp <;> decide

namespace Spells

variable {cs ds : List Char} {tokens others : List Token}

theorem nil : Spells [] [] :=
  fun _ _ _ => rfl

/-- Spellings are put together where the second one ends the first. -/
theorem append (first : Spells cs tokens) (second : Spells ds others) (ends : Delimited ds) :
    Spells (cs ++ ds) (tokens ++ others) := by
  intro before rest delimited
  rw [List.append_assoc, first before (ds ++ rest) (ends.append delimited),
    second _ rest delimited, List.reverse_append, List.append_assoc]

/-- A mark needs nothing to end it. -/
theorem mark {c : Char} {token : Token} (marks : Token.ofMark? c = some token)
    (second : Spells ds others) : Spells (c :: ds) (token :: others) := by
  intro before rest delimited
  have read : Reading.begin before c = some ⟨token :: before, .nothing⟩ := by
    unfold Token.ofMark? at marks
    split at marks <;> cases marks <;> rfl
  have step : tokensAfter? before (c :: (ds ++ rest)) =
      tokensAfter? (token :: before) (ds ++ rest) := by
    simp [tokensAfter?, Reading.readAll?, Reading.next, read]
  rw [List.cons_append, step, second _ rest delimited]
  simp

/-- Blanks between tokens spell none. -/
theorem space {c : Char} (isSpace : Reading.isSpace c) (second : Spells ds others) :
    Spells (c :: ds) others := by
  intro before rest delimited
  rw [← second before rest delimited]
  simp [tokensAfter?, Reading.readAll?, Reading.next, Reading.begin, isSpace]

theorem spaces (blank : ∀ c ∈ cs, Reading.isSpace c) (second : Spells ds others) :
    Spells (cs ++ ds) others := by
  induction cs with
  | nil => exact second
  | cons c cs ih =>
    rw [List.forall_mem_cons] at blank
    exact space blank.1 (ih blank.2)

theorem newLine (level : Nat) (second : Spells ds others) :
    Spells (newLine level ++ ds) others := by
  refine spaces (fun c member => ?_) second
  rcases List.mem_cons.mp member with rfl | blank
  · rfl
  · rw [List.eq_of_mem_replicate blank]
    rfl

/-- The tokens of a text that spells them. -/
theorem tokens? (spells : Spells cs tokens) : tokens? cs = some tokens := by
  have all := spells [] [] delimited_nil
  rw [List.append_nil] at all
  exact all.trans (by simp [tokensAfter?, Reading.readAll?, Reading.finish?])

end Spells

/-! ## Words and numbers -/

/-- The state of a reader within a word or number, one more character of it read at a time. -/
theorem readAll?_word (before : List Token) (letters cs : List Char)
    (lower : ∀ c ∈ cs, c.isLower) :
    Reading.readAll? ⟨before, .word letters⟩ cs = some ⟨before, .word (cs.reverse ++ letters)⟩ := by
  induction cs generalizing letters with
  | nil => rfl
  | cons c cs ih =>
    rw [List.forall_mem_cons] at lower
    simp [Reading.readAll?, Reading.next, lower.1, ih (c :: letters) lower.2]

theorem readAll?_number (before : List Token) (chars cs : List Char)
    (numeric : ∀ c ∈ cs, Reading.isNumberChar c) :
    Reading.readAll? ⟨before, .number chars⟩ cs =
      some ⟨before, .number (cs.reverse ++ chars)⟩ := by
  induction cs generalizing chars with
  | nil => rfl
  | cons c cs ih =>
    rw [List.forall_mem_cons] at numeric
    simp [Reading.readAll?, Reading.next, numeric.1, ih (c :: chars) numeric.2]

/-- A word is ended by the character after it, or by the end of the text. -/
theorem Spells.word {c : Char} {cs : List Char} {token : Token}
    (begins : ∀ before, Reading.begin before c = some ⟨before, .word [c]⟩)
    (lower : ∀ c ∈ cs, c.isLower) (isWord : Token.ofWord? (c :: cs) = some token) :
    Spells (c :: cs) [token] := by
  intro before rest delimited
  have read := readAll?_word before [c] cs lower
  cases rest with
  | nil =>
    simp [tokensAfter?, Reading.readAll?, Reading.next, begins, read, Reading.finish?, isWord]
  | cons d rest =>
    rw [delimited_cons] at delimited
    simp [tokensAfter?, Reading.readAll?, Reading.readAll?_append, Reading.next, begins, read,
      delimited.1, isWord]

/-- A number is ended by the character after it, or by the end of the text. -/
theorem Spells.number {c : Char} {cs : List Char} {literal : NumberLiteral}
    (begins : ∀ before, Reading.begin before c = some ⟨before, .number [c]⟩)
    (numeric : ∀ c ∈ cs, Reading.isNumberChar c)
    (isNumber : NumberLiteral.read? (c :: cs) = some literal) :
    Spells (c :: cs) [.number literal] := by
  intro before rest delimited
  have read := readAll?_number before [c] cs numeric
  cases rest with
  | nil =>
    simp [tokensAfter?, Reading.readAll?, Reading.next, begins, read, Reading.finish?, isNumber]
  | cons d rest =>
    rw [delimited_cons] at delimited
    simp [tokensAfter?, Reading.readAll?, Reading.readAll?_append, Reading.next, begins, read,
      delimited.2, isNumber]

end Leasehold.Json
