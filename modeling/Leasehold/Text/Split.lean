/-!
# Splitting text

Text is cut at every occurrence of a character, which leaves one piece more than
there are occurrences, at the first one only, or into lines. A line ends at a
line feed, which is not part of it, nor is a carriage return right before that;
what follows the last line feed is a line unless it is empty.
-/

namespace Leasehold.Text

/-- The pieces of a text between the occurrences of a character. -/
def splitOn (separator : Char) : List Char → List (List Char)
  | [] => [[]]
  | c :: cs =>
    if c = separator then [] :: splitOn separator cs
    else
      match splitOn separator cs with
      | [] => [[c]]
      | piece :: pieces => (c :: piece) :: pieces

theorem splitOn_ne_nil (separator : Char) (cs : List Char) : splitOn separator cs ≠ [] := by
  cases cs with
  | nil => exact List.cons_ne_nil _ _
  | cons c cs =>
    rw [splitOn]
    split
    · exact List.cons_ne_nil _ _
    · split <;> exact List.cons_ne_nil _ _

theorem splitOn_eq_singleton {separator : Char} {cs : List Char} (absent : separator ∉ cs) :
    splitOn separator cs = [cs] := by
  induction cs with
  | nil => rfl
  | cons c cs ih =>
    rw [List.mem_cons, not_or] at absent
    rw [splitOn, if_neg (Ne.symm absent.1), ih absent.2]

theorem splitOn_append {separator : Char} {cs : List Char} (absent : separator ∉ cs)
    (rest : List Char) :
    splitOn separator (cs ++ separator :: rest) = cs :: splitOn separator rest := by
  induction cs with
  | nil => simp [splitOn]
  | cons c cs ih =>
    rw [List.mem_cons, not_or] at absent
    rw [List.cons_append, splitOn, if_neg (Ne.symm absent.1), ih absent.2]

/-- The parts of a text before and after the first occurrence of a character. -/
def splitFirst? (separator : Char) : List Char → Option (List Char × List Char)
  | [] => none
  | c :: cs =>
    if c = separator then some ([], cs)
    else (splitFirst? separator cs).map fun (before, after) => (c :: before, after)

theorem splitFirst?_append {separator : Char} {before : List Char} (absent : separator ∉ before)
    (after : List Char) :
    splitFirst? separator (before ++ separator :: after) = some (before, after) := by
  induction before with
  | nil => simp [splitFirst?]
  | cons c before ih =>
    have other : c ≠ separator := fun same => absent (same ▸ List.mem_cons_self)
    have rest : separator ∉ before := fun member => absent (List.mem_cons_of_mem _ member)
    rw [List.cons_append, splitFirst?, if_neg other, ih rest]
    rfl

theorem eq_append_of_splitFirst? {separator : Char} {cs before after : List Char}
    (found : splitFirst? separator cs = some (before, after)) :
    cs = before ++ separator :: after ∧ separator ∉ before := by
  induction cs generalizing before with
  | nil => simp [splitFirst?] at found
  | cons c cs ih =>
    rw [splitFirst?] at found
    by_cases here : c = separator
    · rw [if_pos here] at found
      rcases Prod.mk.inj (Option.some.inj found) with ⟨rfl, rfl⟩
      exact ⟨by rw [here]; rfl, List.not_mem_nil⟩
    · rw [if_neg here, Option.map_eq_some_iff] at found
      obtain ⟨⟨front, back⟩, inner, same⟩ := found
      rcases Prod.mk.inj same with ⟨rfl, rfl⟩
      rcases ih inner with ⟨rfl, absent⟩
      refine ⟨rfl, fun member => ?_⟩
      rcases List.mem_cons.mp member with same | member
      · exact here same.symm
      · exact absent member

/-- A line without the carriage return that it may end with. -/
def dropReturn (line : List Char) : List Char :=
  if line.getLast? = some '\r' then line.dropLast else line

/-- The lines of the pieces between line feeds. -/
def linesOfPieces : List (List Char) → List (List Char)
  | [] => []
  | [last] => if last.isEmpty then [] else [last]
  | piece :: pieces => dropReturn piece :: linesOfPieces pieces

/-- The lines of a text. -/
def lines (cs : List Char) : List (List Char) :=
  linesOfPieces (splitOn '\n' cs)

end Leasehold.Text
