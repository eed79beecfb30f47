import Leasehold.Text.Split
import Mathlib.Data.List.Basic

/-!
# The pieces and lines of a longer text

What is split at a separator are the pieces before and after it. The lines of a text are
those that a line feed ends and, unless it is empty, what follows the last line feed. Adding
to a text leaves the former as they are and goes on with the latter.
-/

namespace Leasehold.Text

/-! ## Pieces -/

/-- What is split at a separator are the pieces on both sides of it. -/
theorem splitOn_append_cons (separator : Char) (front back : List Char) :
    splitOn separator (front ++ separator :: back) =
      splitOn separator front ++ splitOn separator back := by
  induction front with
  | nil => simp [splitOn]
  | cons c front ih =>
      rw [List.cons_append, splitOn, splitOn, ih]
      split
      · rfl
      · cases pieces : splitOn separator front with
        | nil => exact absurd pieces (splitOn_ne_nil separator front)
        | cons piece rest => rfl

/-- What is added goes on with the last piece. -/
theorem splitOn_append_of_notMem {separator : Char} {cs ds : List Char} (absent : separator ∉ ds)
    {pieces : List (List Char)} {last : List Char}
    (split : splitOn separator cs = pieces ++ [last]) :
    splitOn separator (cs ++ ds) = pieces ++ [last ++ ds] := by
  induction cs generalizing pieces last with
  | nil =>
      have same : [] ++ [[]] = pieces ++ [last] := split
      obtain ⟨rfl, rfl⟩ := List.append_singleton_inj.mp same
      exact splitOn_eq_singleton absent
  | cons c cs ih =>
      rcases List.eq_nil_or_concat (splitOn separator cs) with none | ⟨before, ending, inner⟩
      · exact absurd none (splitOn_ne_nil separator cs)
      · rw [List.concat_eq_append] at inner
        rw [splitOn, inner] at split
        rw [List.cons_append, splitOn, ih inner]
        by_cases here : c = separator
        · rw [if_pos here] at split ⊢
          obtain ⟨rfl, rfl⟩ := List.append_singleton_inj.mp
            (show ([] :: before) ++ [ending] = pieces ++ [last] from split)
          rfl
        · rw [if_neg here] at split ⊢
          cases before with
          | nil =>
              obtain ⟨rfl, rfl⟩ := List.append_singleton_inj.mp
                (show [] ++ [c :: ending] = pieces ++ [last] from split)
              rfl
          | cons piece before =>
              obtain ⟨rfl, rfl⟩ := List.append_singleton_inj.mp
                (show ((c :: piece) :: before) ++ [ending] = pieces ++ [last] from split)
              rfl

/-- No piece has a separator in it. -/
theorem not_mem_of_mem_splitOn {separator : Char} {cs piece : List Char}
    (member : piece ∈ splitOn separator cs) : separator ∉ piece := by
  induction cs generalizing piece with
  | nil => simp_all [splitOn]
  | cons c cs ih =>
      rw [splitOn] at member
      split at member
      · rcases List.mem_cons.mp member with rfl | later
        · exact List.not_mem_nil
        · exact ih later
      next other =>
        cases pieces : splitOn separator cs with
        | nil => exact absurd pieces (splitOn_ne_nil separator cs)
        | cons first rest =>
            rw [pieces] at member ih
            rcases List.mem_cons.mp member with rfl | later
            · intro found
              rcases List.mem_cons.mp found with same | inside
              · exact other same.symm
              · exact ih List.mem_cons_self inside
            · exact ih (List.mem_cons_of_mem _ later)

/-- What stands before the last separator of a text. -/
theorem front_eq_of_append_cons {separator : Char} {front front' back back' : List Char}
    (absent : separator ∉ back) (absent' : separator ∉ back')
    (same : front ++ separator :: back = front' ++ separator :: back') : front = front' := by
  rcases List.append_eq_append_iff.mp same with ⟨more, longer, rest⟩ | ⟨more, longer, rest⟩
  · rcases more with _ | ⟨first, more⟩
    · simpa using longer.symm
    · rcases List.cons.inj rest with ⟨rfl, after⟩
      exact absurd (after ▸ by simp) absent
  · rcases more with _ | ⟨first, more⟩
    · simpa using longer
    · rcases List.cons.inj rest with ⟨rfl, after⟩
      exact absurd (after ▸ by simp) absent'

/-! ## Lines -/

/-- The lines of a text that are ended by a line feed. -/
def endedLines (cs : List Char) : List (List Char) :=
  (splitOn '\n' cs).dropLast.map dropReturn

/-- What follows the last line feed of a text, or all of it if there is none. -/
def unended (cs : List Char) : List Char :=
  (splitOn '\n' cs).getLast (splitOn_ne_nil '\n' cs)

theorem linesOfPieces_append (pieces : List (List Char)) (last : List Char) :
    linesOfPieces (pieces ++ [last]) =
      pieces.map dropReturn ++ if last.isEmpty then [] else [last] := by
  induction pieces with
  | nil => rfl
  | cons piece pieces ih =>
      have step : linesOfPieces (piece :: (pieces ++ [last])) =
          dropReturn piece :: linesOfPieces (pieces ++ [last]) := by
        cases pieces <;> rfl
      rw [List.cons_append, step, ih]
      rfl

theorem lines_eq (cs : List Char) :
    lines cs = endedLines cs ++ if (unended cs).isEmpty then [] else [unended cs] := by
  have pieces := List.dropLast_append_getLast (splitOn_ne_nil '\n' cs)
  have all := linesOfPieces_append (splitOn '\n' cs).dropLast (unended cs)
  rwa [unended, pieces] at all

/-- A line that is added to a text goes on with what no line feed ends. -/
theorem lines_append_line {line : List Char} (unbroken : '\n' ∉ line) (cs : List Char) :
    lines (cs ++ (line ++ ['\n'])) = endedLines cs ++ [dropReturn (unended cs ++ line)] := by
  have pieces := splitOn_append_of_notMem unbroken
    (List.dropLast_append_getLast (splitOn_ne_nil '\n' cs)).symm
  have all := splitOn_append_cons '\n' (cs ++ line) []
  rw [lines, ← List.append_assoc, all, pieces]
  exact (linesOfPieces_append _ []).trans (by simp [endedLines, unended])

theorem endedLines_of_notMem {cs : List Char} (unbroken : '\n' ∉ cs) : endedLines cs = [] := by
  simp [endedLines, splitOn_eq_singleton unbroken]

theorem unended_of_notMem {cs : List Char} (unbroken : '\n' ∉ cs) : unended cs = cs := by
  simp [unended, splitOn_eq_singleton unbroken]

/-- After a line feed there is nothing that none ends. -/
theorem unended_concat (cs : List Char) : unended (cs ++ ['\n']) = [] := by
  have pieces := splitOn_append_cons '\n' cs []
  simp [unended, pieces, splitOn]

/-- A line that does not end with a carriage return is a line as it is. -/
theorem dropReturn_append {line : List Char} (nonempty : line ≠ []) (absent : '\r' ∉ line)
    (front : List Char) : dropReturn (front ++ line) = front ++ line := by
  refine if_neg fun last => absent (List.mem_of_getLast? ?_)
  rwa [List.getLast?_append_of_ne_nil _ nonempty] at last

end Leasehold.Text
