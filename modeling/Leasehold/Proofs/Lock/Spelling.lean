import Leasehold.Proofs.Lock.Tally
import Leasehold.Proofs.Text.Decimal

/-!
# Spellings of owners

An owner is read from any text that has its number between blanks, with or without a plus
sign and with any zeros at the front. It is written in one way only, as a plain numeral, so
of all the texts that read as an owner exactly one is the owner's text.
-/

namespace Leasehold

namespace Text

variable {before after cs : List Char}

theorem trimStart_append (blank : ∀ c ∈ before, isBlank c) :
    trimStart (before ++ cs) = trimStart cs :=
  List.dropWhile_append_of_pos blank

/-- Only the blanks at the ends of a text are trimmed. -/
theorem trim_append {mid : List Char} (blank : ∀ c ∈ before, isBlank c)
    (blank' : ∀ c ∈ after, isBlank c) (solid : ∀ c ∈ mid, isBlank c = false) :
    trim (before ++ mid ++ after) = mid := by
  cases mid with
  | nil =>
      have blanks : trimStart (before ++ [] ++ after) = [] := by
        rw [List.append_nil, trimStart_append blank]
        exact (congrArg trimStart (List.append_nil after)).symm.trans (trimStart_append blank')
      rw [trim, blanks]
      rfl
  | cons c cs =>
      have front : trimStart (c :: cs ++ after) = c :: cs ++ after := by
        simp [trimStart, solid c List.mem_cons_self]
      have back : ∀ d ∈ after.reverse, isBlank d := by simpa using blank'
      have solid' : ∀ d ∈ (c :: cs).reverse, isBlank d = false :=
        fun d member => solid d (List.mem_reverse.mp member)
      rw [trim, List.append_assoc, trimStart_append blank, front, List.reverse_append,
        trimStart_append back, trimStart_eq_self solid', List.reverse_reverse]

theorem exists_trimStart (cs : List Char) :
    ∃ before, (∀ c ∈ before, isBlank c) ∧ cs = before ++ trimStart cs :=
  ⟨cs.takeWhile isBlank, List.all_eq_true.mp List.all_takeWhile, (List.takeWhile_append_dropWhile).symm⟩

/-- A text is what is left of it by trimming, between blanks. -/
theorem exists_trim (cs : List Char) :
    ∃ before after, (∀ c ∈ before, isBlank c) ∧ (∀ c ∈ after, isBlank c) ∧
      cs = before ++ trim cs ++ after := by
  rcases exists_trimStart cs with ⟨before, blank, split⟩
  rcases exists_trimStart (trimStart cs).reverse with ⟨after, blank', split'⟩
  refine ⟨before, after.reverse, blank, by simpa using blank', ?_⟩
  have whole : trimStart cs = trim cs ++ after.reverse := by
    rw [trim, ← List.reverse_append, ← split', List.reverse_reverse]
  rw [List.append_assoc, ← whole]
  exact split

end Text

namespace LockRecord

/-- That a text spells an owner: its number padded with zeros to any width, with or without
a plus sign, between any blanks. -/
def Spells (text : String) (owner : Pid) : Prop :=
  ∃ before sign width after, (∀ c ∈ before, Text.isBlank c) ∧ (∀ c ∈ after, Text.isBlank c) ∧
    (sign = [] ∨ sign = ['+']) ∧
    text.toList = before ++ (sign ++ Text.padded width owner.toNat) ++ after

/-- A text without a plus sign at its front. -/
def unsigned : List Char → List Char
  | '+' :: rest => rest
  | cs => cs

theorem readOwner?_eq (text : String) :
    readOwner? text = (Text.readDecimal? (unsigned (Text.trim text.toList))).bind fun n =>
      if n < UInt32.size then some (UInt32.ofNat n) else none := by
  dsimp only [readOwner?]
  split
  case h_1 n read =>
      replace read : Text.readDecimal? (unsigned (Text.trim text.toList)) = some n := read
      rw [read, Option.bind_some]
  case h_2 unread =>
      replace unread : Text.readDecimal? (unsigned (Text.trim text.toList)) = none := unread
      rw [unread, Option.bind_none]

theorem exists_sign (cs : List Char) :
    ∃ sign, (sign = [] ∨ sign = ['+']) ∧ cs = sign ++ unsigned cs := by
  unfold unsigned
  split
  · exact ⟨['+'], .inr rfl, rfl⟩
  · exact ⟨[], .inl rfl, rfl⟩

theorem unsigned_append {sign digits : List Char} (signs : sign = [] ∨ sign = ['+'])
    (all : ∀ c ∈ digits, c.isDigit) : unsigned (sign ++ digits) = digits := by
  rcases signs with rfl | rfl
  · cases digits with
    | nil => rfl
    | cons c digits =>
        by_cases plus : c = '+'
        · exact absurd (all c List.mem_cons_self) (by simp [plus])
        · simp [unsigned, plus]
  · rfl

/-- An owner is read from the texts that spell it, and from no others. -/
theorem readOwner?_eq_some_iff {text : String} {owner : Pid} :
    readOwner? text = some owner ↔ Spells text owner := by
  rw [readOwner?_eq, Option.bind_eq_some_iff]
  constructor
  · rintro ⟨n, read, named⟩
    rcases Text.readDecimal?_eq_some_iff.mp read with ⟨nonempty, all, rfl⟩
    obtain ⟨fits, named⟩ := Option.ite_none_right_eq_some.mp named
    obtain rfl := Option.some.inj named
    rcases Text.exists_trim text.toList with ⟨before, after, blank, blank', split⟩
    rcases exists_sign (Text.trim text.toList) with ⟨sign, signs, split'⟩
    refine ⟨before, sign, (unsigned (Text.trim text.toList)).length, after, blank, blank', signs, ?_⟩
    rw [UInt32.toNat_ofNat_of_lt' fits, ← Text.eq_padded nonempty all, ← split']
    exact split
  · rintro ⟨before, sign, width, after, blank, blank', signs, split⟩
    have all : ∀ c ∈ Text.padded width owner.toNat, c.isDigit :=
      fun _ => Text.isDigit_of_mem_padded
    have solid : ∀ c ∈ sign ++ Text.padded width owner.toNat, Text.isBlank c = false := by
      intro c member
      rcases List.mem_append.mp member with plus | digit
      · rcases signs with rfl | rfl
        · contradiction
        · rw [List.mem_singleton.mp plus]
          rfl
      · exact Text.isBlank_of_isDigit (all c digit)
    have read : Text.readDecimal? (unsigned (Text.trim text.toList)) = some owner.toNat := by
      rw [split, Text.trim_append blank blank' solid, unsigned_append signs all,
        Text.readDecimal?_eq_some (Text.padded_ne_nil _ _) all, Text.ofDigitChars_padded]
    exact ⟨owner.toNat, read, by simp [UInt32.toNat_lt_size owner]⟩

/-- Of the texts that read as an owner, the plain numeral is the one that is written. -/
theorem eq_ownerText_iff {text : String} {owner : Pid} :
    text = ownerText owner ↔ readOwner? text = some owner ∧ Text.IsNumeral text.toList := by
  constructor
  · rintro rfl
    refine ⟨readOwner?_ownerText owner, ?_⟩
    rw [ownerText, String.toList_ofList]
    exact Text.isNumeral_decimal _
  · rintro ⟨reads, numeral⟩
    rw [readOwner?_eq, Text.trim_eq_self fun c member => Text.isBlank_of_isDigit
      (numeral.digits c member), show unsigned text.toList = text.toList from
        unsigned_append (.inl rfl) numeral.digits,
      Text.readDecimal?_eq_some numeral.nonempty numeral.digits, Option.bind_some] at reads
    obtain ⟨fits, named⟩ := Option.ite_none_right_eq_some.mp reads
    rw [ownerText, ← Option.some.inj named, UInt32.toNat_ofNat_of_lt' fits,
      Text.decimal_ofDigitChars numeral, String.ofList_toList]

end LockRecord

end Leasehold
