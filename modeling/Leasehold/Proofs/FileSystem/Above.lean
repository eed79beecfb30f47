import Leasehold.Proofs.FileSystem.Disk

/-!
# Directories on the way to a path

The parent of a path has all names of the path but the last, so the directories that are
made when some on the way to a path are missing are those that the names at its front lead
to. The path itself leads to another place than all of these, unless two dots lead back.
-/

namespace Leasehold

namespace Path

/-! ## Names of parents -/

/-- The names of a path are its pieces that count, after a dot at the front if there is
one. -/
theorem names_eq (path : Path) :
    path.names = (if path.pieces.head? = some "." then ["."] else []) ++
      path.pieces.filter isName := by
  rw [names]
  split
  next rest pieces =>
    have dot : isName "." = false := by decide
    simp [pieces, dot]
  next undotted =>
    rw [if_neg]
    · rfl
    · intro dotted
      rcases List.head?_eq_some_iff.mp dotted with ⟨rest, pieces⟩
      exact undotted rest pieces

theorem head?_pieces_of_isAbsolute {path : Path} (absolute : path.isAbsolute = true) :
    path.pieces.head? = some "" := by
  rw [isAbsolute, beq_iff_eq] at absolute
  rcases List.head?_eq_some_iff.mp absolute with ⟨cs, chars⟩
  simp [pieces, chars, Text.splitOn]

/-- What can be the names of a path: all of them count, but the first one may be a dot. -/
structure AreNames (names : List String) : Prop where
  plain : ∀ name ∈ names, IsPlain name
  first : ∀ name ∈ names.head?, name = "." ∨ isName name = true
  counts : ∀ name ∈ names.tail, isName name = true

theorem AreNames.dropLast {names : List String} (are : AreNames names) :
    AreNames names.dropLast := by
  refine ⟨fun name member => are.plain name (List.dropLast_subset _ member), ?_, ?_⟩
  · cases names with
    | nil => exact are.first
    | cons first rest =>
        cases rest with
        | nil => exact nofun
        | cons second rest => exact are.first
  · rw [List.tail_dropLast]
    exact fun name member => are.counts name (List.dropLast_subset _ member)

theorem areNames_names (path : Path) : AreNames path.names := by
  have counts {name : String} (member : name ∈ path.pieces.filter isName) : isName name = true :=
    (List.mem_filter.mp member).2
  refine ⟨fun name member => (isPlain_of_mem_names member).1, ?_, ?_⟩
  · rw [names_eq]
    split
    · simp
    · intro name first
      exact .inr (counts (List.mem_of_mem_head? first))
  · rw [names_eq]
    split
    · exact fun name => counts
    · exact fun name member => counts (List.mem_of_mem_tail member)

theorem names_intercalate {names : List String} (are : AreNames names) :
    Path.names ("/".intercalate names) = names := by
  cases names with
  | nil => decide
  | cons first rest =>
      have kept : rest.filter isName = rest := List.filter_eq_self.mpr are.counts
      have dot : isName "." = false := by decide
      rw [names_eq, pieces_intercalate are.plain (List.cons_ne_nil _ _)]
      rcases are.first first rfl with rfl | counts
      · simp [dot, kept]
      · have undotted : first ≠ "." := by
          rintro rfl
          contradiction
        simp [undotted, counts, kept]

theorem names_root {names : List String} (are : AreNames names)
    (counts : ∀ name ∈ names, isName name = true) :
    Path.names ("/" ++ "/".intercalate names) = names := by
  have blank : isName "" = false := by decide
  cases names with
  | nil => decide
  | cons first rest =>
      rw [names_eq, pieces_root, pieces_intercalate are.plain (List.cons_ne_nil _ _),
        List.filter_cons_of_neg (by simp [blank]), List.filter_eq_self.mpr counts]
      rfl

/-- The parent of a path has all of its names but the last. -/
theorem names_parent? {path parent : Path} (found : path.parent? = some parent) :
    parent.names = path.names.dropLast := by
  have are := path.areNames_names.dropLast
  rw [parent?] at found
  split at found
  · contradiction
  · obtain rfl := Option.some.inj found
    split
    next absolute =>
      have undotted : path.names = path.pieces.filter isName := by
        rw [names_eq, if_neg (by simp [head?_pieces_of_isAbsolute absolute]), List.nil_append]
      refine names_root are fun name member => ?_
      rw [undotted] at member
      exact (List.mem_filter.mp (List.dropLast_subset _ member)).2
    next => exact names_intercalate are

/-! ## Places above a path -/

/-- Whether a place is that of the parent of a path, or of the parent of that, and so on. -/
inductive Above (home : Place) : Path → Place → Prop
  | parent {path parent : Path} (found : path.parent? = some parent) :
      Above home path (parent.placeFrom home)
  | further {path parent : Path} {place : Place} (found : path.parent? = some parent)
      (above : Above home parent place) : Above home path place

variable {home : Place} {path parent : Path} {place : Place}

theorem above_of_mem_ancestors {n : Nat} {ancestor : Path} (found : path.parent? = some parent)
    (member : ancestor ∈ parent.ancestors n) : Above home path (ancestor.placeFrom home) := by
  induction n generalizing path parent with
  | zero =>
      obtain rfl := List.mem_singleton.mp member
      exact .parent found
  | succ n ih =>
      rw [ancestors] at member
      split at member
      next grandparent found' =>
        rcases List.mem_cons.mp member with rfl | member
        · exact .parent found
        · exact .further found (ih found' member)
      next =>
        obtain rfl := List.mem_singleton.mp member
        exact .parent found

/-- Names that do not lead back lead further down. -/
theorem length_le_foldl_step {names : List String} (down : ".." ∉ names) (start : Place) :
    start.length ≤ (names.foldl step start).length := by
  induction names generalizing start with
  | nil => exact Nat.le_refl _
  | cons name names ih =>
      rw [List.mem_cons, not_or] at down
      refine Nat.le_trans ?_ (ih down.2 _)
      rw [step]
      split
      · exact Nat.le_refl _
      · rw [if_neg (Ne.symm down.1)]
        exact Nat.le_succ _

theorem length_foldl_step_dropLast {names : List String} (down : ".." ∉ names) (start : Place) :
    (names.dropLast.foldl step start).length ≤ (names.foldl step start).length := by
  by_cases none : names = []
  · rw [none]
    exact Nat.le_refl _
  · have split := List.dropLast_concat_getLast none
    have last : ".." ∉ [names.getLast none] := fun member =>
      down (split ▸ List.mem_append_right _ member)
    conv => rhs; rw [← split, List.foldl_append]
    exact length_le_foldl_step last _

theorem Above.length_le (above : Above home path place) (down : ".." ∉ path.names) :
    place.length ≤
      (path.names.dropLast.foldl step (if path.isAbsolute then [] else home)).length := by
  induction above with
  | parent found => exact Nat.le_of_eq (by rw [placeFrom_parent? found])
  | further found above ih =>
      have names := names_parent? found
      have down' : ".." ∉ Path.names _ := fun member =>
        down (List.dropLast_subset _ (names ▸ member))
      refine Nat.le_trans (ih down') (Nat.le_trans (length_foldl_step_dropLast down' _) ?_)
      exact Nat.le_of_eq (by rw [← placeFrom_parent? found, placeFrom, foldl_step_names])

theorem Above.exists_parent (above : Above home path place) :
    ∃ parent, path.parent? = some parent := by
  cases above with
  | parent found | further found => exact ⟨_, found⟩

/-- A path that ends with a name and does not lead back leads below all places above it. -/
theorem not_above_placeFrom {name : String} (named : path.fileName? = some name)
    (down : ".." ∉ path.names) : ¬Above home path (path.placeFrom home) := by
  intro above
  have short := above.length_le down
  rcases placeFrom_of_fileName? named home with ⟨-, place⟩
  rcases above.exists_parent with ⟨parent, found⟩
  rw [place, found, Option.getD_some, placeFrom_parent? found, List.length_cons] at short
  omega

end Path

end Leasehold
