import Leasehold.Proofs.FileSystem.Neighbour
import Mathlib.Algebra.Order.BigOperators.Group.List
import Mathlib.Algebra.Order.Ring.Nat

/-!
# Parents of paths

The parent of a path is put together from some of its pieces, so it is no longer than the
path. Where the path can be walked its parent can be, and where the path leads to a file
its parent leads to the directory of the file.
-/

namespace Leasehold

/-! ## Pieces -/

namespace Text

theorem mem_of_mem_splitOn {separator c : Char} {cs piece : List Char}
    (member : piece ∈ splitOn separator cs) (inside : c ∈ piece) : c ∈ cs := by
  induction cs generalizing piece with
  | nil =>
      obtain rfl := List.mem_singleton.mp member
      exact inside
  | cons d cs ih =>
      rw [splitOn] at member
      split at member
      · rcases List.mem_cons.mp member with rfl | later
        · contradiction
        · exact List.mem_cons_of_mem d (ih later inside)
      · cases pieces : splitOn separator cs with
        | nil => exact absurd pieces (splitOn_ne_nil separator cs)
        | cons first rest =>
            rw [pieces] at member ih
            rcases List.mem_cons.mp member with rfl | later
            · rcases List.mem_cons.mp inside with rfl | inside
              · exact List.mem_cons_self
              · exact List.mem_cons_of_mem d (ih List.mem_cons_self inside)
            · exact List.mem_cons_of_mem d (ih (List.mem_cons_of_mem first later) inside)

end Text

namespace Path

/-- The bytes of pieces with a slash after each. -/
def extent (pieces : List String) : Nat :=
  (pieces.map fun piece => piece.utf8ByteSize + 1).sum

@[simp]
theorem extent_nil : extent [] = 0 :=
  rfl

@[simp]
theorem extent_cons (piece : String) (pieces : List String) :
    extent (piece :: pieces) = piece.utf8ByteSize + 1 + extent pieces := by
  simp [extent]

@[simp]
theorem extent_append (front back : List String) :
    extent (front ++ back) = extent front + extent back := by
  simp [extent]

theorem extent_le_of_sublist {pieces pieces' : List String} (sublist : pieces.Sublist pieces') :
    extent pieces ≤ extent pieces' :=
  (sublist.map _).sum_le_sum fun _ _ => Nat.zero_le _

/-- The pieces of a path take its bytes and one for a slash at the end. -/
theorem extent_pieces (path : Path) : extent path.pieces = path.utf8ByteSize + 1 := by
  have split (cs : List Char) : extent ((Text.splitOn '/' cs).map String.ofList) =
      (String.ofList cs).utf8ByteSize + 1 := by
    induction cs with
    | nil => simp [Text.splitOn]
    | cons c cs ih =>
        rw [Text.splitOn, FileSystem.utf8ByteSize_ofList_cons]
        split
        next slash =>
          have size : '/'.utf8Size = 1 := by decide
          rw [List.map_cons, extent_cons, ih, slash, size]
          simp
          omega
        next =>
          cases pieces : Text.splitOn '/' cs with
          | nil => exact absurd pieces (Text.splitOn_ne_nil '/' cs)
          | cons piece rest =>
              rw [pieces, List.map_cons, extent_cons] at ih
              rw [List.map_cons, extent_cons, FileSystem.utf8ByteSize_ofList_cons]
              omega
  have whole := split path.toList
  rwa [String.ofList_toList] at whole

theorem utf8ByteSize_intercalate_le (names : List String) :
    ("/".intercalate names).utf8ByteSize ≤ extent names := by
  induction names with
  | nil => simp
  | cons name names ih =>
      cases names with
      | nil => simp
      | cons second rest =>
          have slash : "/".utf8ByteSize = 1 := by decide
          rw [String.intercalate_cons_cons, extent_cons, String.utf8ByteSize_append,
            String.utf8ByteSize_append, slash]
          omega

theorem mem_intercalate {names : List String} {c : Char} (inside : c ∈ ("/".intercalate names).toList) :
    c = '/' ∨ ∃ name ∈ names, c ∈ name.toList := by
  induction names with
  | nil => simp at inside
  | cons name names ih =>
      cases names with
      | nil => exact .inr ⟨name, List.mem_cons_self, by simpa using inside⟩
      | cons second rest =>
          rw [String.intercalate_cons_cons, String.toList_append, String.toList_append,
            List.mem_append, List.mem_append] at inside
          rcases inside with (here | slash) | later
          · exact .inr ⟨name, List.mem_cons_self, here⟩
          · exact .inl (List.mem_singleton.mp slash)
          · refine (ih later).imp_right ?_
            rintro ⟨other, member, inside⟩
            exact ⟨other, List.mem_cons_of_mem name member, inside⟩

/-! ## Names -/

theorem names_sublist (path : Path) : path.names.Sublist path.pieces := by
  rw [names]
  split
  next pieces same =>
    rw [same]
    exact List.filter_sublist.cons_cons "."
  next => exact List.filter_sublist

/-- The first piece of a path that begins at the root is empty and not among its names. -/
theorem names_sublist_of_isAbsolute {path : Path} (absolute : path.isAbsolute = true) :
    ("" :: path.names).Sublist path.pieces := by
  have first : ∃ rest, path.pieces = "" :: rest := by
    rw [isAbsolute, beq_iff_eq] at absolute
    rcases List.head?_eq_some_iff.mp absolute with ⟨cs, chars⟩
    exact ⟨(Text.splitOn '/' cs).map String.ofList, by simp [pieces, chars, Text.splitOn]⟩
  rcases first with ⟨rest, pieces⟩
  have named : path.names = rest.filter isName := by
    have blank : isName "" = false := by decide
    simp [names, pieces, blank]
  rw [named, pieces]
  exact List.filter_sublist.cons_cons ""

/-- A parent is no longer than its path. -/
theorem utf8ByteSize_parent?_le {path parent : Path} (found : path.parent? = some parent) :
    parent.utf8ByteSize ≤ path.utf8ByteSize := by
  rw [parent?] at found
  split at found
  · contradiction
  next nonempty =>
    obtain rfl := Option.some.inj found
    have joined := utf8ByteSize_intercalate_le path.names.dropLast
    have whole : extent path.names.dropLast + 1 ≤ extent path.names := by
      rw [← List.dropLast_concat_getLast nonempty]
      simp
    have size := extent_pieces path
    split
    next absolute =>
      have slash : "/".utf8ByteSize = 1 := by decide
      have within := extent_le_of_sublist (names_sublist_of_isAbsolute absolute)
      rw [extent_cons] at within
      rw [String.utf8ByteSize_append, slash]
      omega
    next =>
      have within := extent_le_of_sublist path.names_sublist
      omega

/-- There is no character in a parent that is not in its path, except for slashes. -/
theorem mem_of_mem_parent? {path parent : Path} (found : path.parent? = some parent) {c : Char}
    (inside : c ∈ parent.toList) : c = '/' ∨ c ∈ path.toList := by
  have joined (inside : c ∈ ("/".intercalate path.names.dropLast).toList) :
      c = '/' ∨ c ∈ path.toList := by
    refine (mem_intercalate inside).imp_right ?_
    rintro ⟨name, member, inside⟩
    have piece := path.names_sublist.subset (List.dropLast_subset _ member)
    rcases List.mem_map.mp piece with ⟨cs, split, rfl⟩
    rw [String.toList_ofList] at inside
    exact Text.mem_of_mem_splitOn split inside
  rw [parent?] at found
  split at found
  · contradiction
  · obtain rfl := Option.some.inj found
    split at inside
    · rw [String.toList_append, List.mem_append] at inside
      rcases inside with slash | inside
      · exact .inl (List.mem_singleton.mp slash)
      · exact joined inside
    · exact joined inside

end Path

/-! ## Walks -/

namespace Tree

open Leasehold.Path

variable {tree : Tree} {path parent : Path} {place : Place} {name : String}

theorem walkable_parent? (walks : walkable path = .ok path.pieces)
    (found : path.parent? = some parent) (nonempty : parent ≠ "") :
    walkable parent = .ok parent.pieces := by
  rw [walkable_eq_ok_iff] at walks ⊢
  refine ⟨fun inside => ?_, nonempty, Nat.le_trans (utf8ByteSize_parent?_le found) walks.2.2⟩
  rcases mem_of_mem_parent? found inside with slash | inside
  · exact absurd slash (by decide)
  · exact walks.1 inside

/-- The parent of a path that leads to a file leads to the directory of the file, unless it
is empty. -/
theorem Reaches.parent? (reaches : tree.Reaches path place) (named : path.fileName? = some name) :
    ∃ parent folder, path.parent? = some parent ∧ place = name :: folder ∧
      tree.node? folder = some .directory ∧
      (parent = "" ∧ folder = tree.workingDirectory ∨ parent ≠ "" ∧ tree.Reaches parent folder) := by
  rcases reaches.walk_dropLast named with ⟨folder, same, isDirectory, walked, nonempty⟩
  obtain ⟨parent, found⟩ : ∃ parent, path.parent? = some parent := by
    rw [Path.parent?]
    split
    next none => exact absurd none nonempty
    next => exact ⟨_, rfl⟩
  refine ⟨parent, folder, found, same, isDirectory, ?_⟩
  refine (walk_parent found walked isDirectory).imp_right ?_
  rintro ⟨nonempty, leads⟩
  exact ⟨nonempty, walkable_parent? reaches.walkable found nonempty, leads⟩

end Tree

end Leasehold
