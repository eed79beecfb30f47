import Leasehold.Database
import Leasehold.FileSystem.Tree
import Leasehold.Proofs.Text.Split
import Leasehold.Text.Decimal
import Mathlib.Data.List.Basic

/-!
# The places that paths name

Where a path leads can be told from its text, if there is a directory at every name on
the way. So paths can be compared before anything is known of the tree: a temporary path
leads to the directory of the file that it is for, and two of them lead to the same place
only if the files do.
-/

namespace Leasehold

/-! ## Pieces -/

namespace Path

/-- Whether a text can stand between two slashes. -/
def IsPlain (piece : String) : Prop :=
  '/' ∉ piece.toList

instance (piece : String) : Decidable (IsPlain piece) :=
  inferInstanceAs (Decidable ('/' ∉ piece.toList))

theorem isPlain_of_mem_pieces {path : Path} {piece : String} (member : piece ∈ path.pieces) :
    IsPlain piece := by
  rcases List.mem_map.mp member with ⟨chars, split, rfl⟩
  rw [IsPlain, String.toList_ofList]
  exact Text.not_mem_of_mem_splitOn split

theorem pieces_of_isPlain {piece : String} (plain : IsPlain piece) : pieces piece = [piece] := by
  rw [pieces, Text.splitOn_eq_singleton plain, List.map_singleton, String.ofList_toList]

theorem pieces_slash (front back : String) :
    pieces (front ++ "/" ++ back) = pieces front ++ pieces back := by
  have chars : (front ++ "/" ++ back).toList = front.toList ++ '/' :: back.toList := by
    simp
  rw [pieces, chars, Text.splitOn_append_cons, List.map_append, pieces, pieces]

/-! ## Places -/

/-- Where a piece of a path leads to from a directory. -/
def step (place : Place) (piece : String) : Place :=
  if !isName piece then place else if piece = ".." then place.tail else piece :: place

/-- The place that a path names, seen from a working directory. -/
def placeFrom (home : Place) (path : Path) : Place :=
  path.pieces.foldl step (if path.isAbsolute then [] else home)

theorem step_of_not_isName {piece : String} (blank : isName piece = false) (place : Place) :
    step place piece = place := by
  simp [step, blank]

theorem step_empty (place : Place) : step place "" = place :=
  step_of_not_isName (by decide) place

theorem step_of_isName {piece : String} (name : isName piece = true) (up : piece ≠ "..")
    (place : Place) : step place piece = piece :: place := by
  simp [step, name, up]

/-- What is no name does not count. -/
theorem foldl_step_filter (place : Place) (pieces : List String) :
    (pieces.filter isName).foldl step place = pieces.foldl step place := by
  induction pieces generalizing place with
  | nil => rfl
  | cons piece pieces ih =>
      cases name : isName piece with
      | true => rw [List.filter_cons_of_pos name, List.foldl_cons, List.foldl_cons, ih]
      | false =>
          rw [List.filter_cons_of_neg (by simp [name]), ih, List.foldl_cons,
            step_of_not_isName name]

theorem foldl_step_names (place : Place) (path : Path) :
    path.names.foldl step place = path.pieces.foldl step place := by
  rw [names]
  split
  next pieces same =>
    have dot : step place "." = place := step_of_not_isName (by decide) place
    rw [same, List.foldl_cons, List.foldl_cons, dot, foldl_step_filter]
  next => exact foldl_step_filter place path.pieces

/-! ## Joining -/

theorem isAbsolute_append {front : String} (nonempty : front ≠ "") (back : String) :
    isAbsolute (front ++ back) = isAbsolute front := by
  have chars : front.toList ≠ [] := fun same => nonempty (String.toList_eq_nil_iff.mp same)
  rw [isAbsolute, isAbsolute, String.toList_append, List.head?_append_of_ne_nil _ chars]

theorem isAbsolute_of_isPlain {piece : String} (plain : IsPlain piece) :
    isAbsolute piece = false := by
  rw [isAbsolute, beq_eq_false_iff_ne]
  exact fun same => plain (List.mem_of_mem_head? same)

theorem isPlain_empty : IsPlain "" :=
  List.not_mem_nil

/-- A path that ends with a slash. -/
theorem eq_slash_of_getLast? {base : String} (nonempty : base ≠ "")
    (ends : base.toList.getLast?.all (· == '/') = true) : ∃ front, base = front ++ "/" := by
  cases last : base.toList.getLast? with
  | none => exact absurd (String.toList_eq_nil_iff.mp (List.getLast?_eq_none_iff.mp last)) nonempty
  | some c =>
      rw [last, Option.all_some, beq_iff_eq] at ends
      rcases List.getLast?_eq_some_iff.mp last with ⟨chars, same⟩
      refine ⟨String.ofList chars, String.toList_inj.mp ?_⟩
      rw [String.toList_append, String.toList_ofList, same, ends]
      rfl

/-- Joining a name to a path leads on from the place of the path. -/
theorem placeFrom_join (base : Path) {name : String} (plain : IsPlain name) (home : Place) :
    placeFrom home (base.join name) = step (placeFrom home base) name := by
  rw [join, if_neg (by simp [isAbsolute_of_isPlain plain])]
  by_cases empty : base = ""
  · subst empty
    simp [placeFrom, isAbsolute_of_isPlain, plain, isPlain_empty, pieces_of_isPlain, step_empty]
  · split
    next ends =>
      -- The path ends with a slash, so the name takes the place of an empty piece.
      rcases eq_slash_of_getLast? empty ends with ⟨front, rfl⟩
      have last : pieces (front ++ "/") = pieces front ++ [""] := by
        rw [← pieces_of_isPlain isPlain_empty, ← pieces_slash, String.append_empty]
      rw [placeFrom, placeFrom, isAbsolute_append empty, pieces_slash, pieces_of_isPlain plain, last,
        List.foldl_concat, List.foldl_concat, step_empty]
    next =>
      rw [placeFrom, placeFrom, pieces_slash, pieces_of_isPlain plain, String.append_assoc,
        isAbsolute_append empty, List.foldl_concat]

/-! ## Parents -/

/-- What is joined by slashes is what stands between slashes. -/
theorem foldl_step_intercalate {names : List String} (plain : ∀ name ∈ names, IsPlain name)
    (place : Place) :
    (pieces ("/".intercalate names)).foldl step place = names.foldl step place := by
  induction names generalizing place with
  | nil => simp [pieces_of_isPlain isPlain_empty, step_empty]
  | cons name names ih =>
      rw [List.forall_mem_cons] at plain
      cases names with
      | nil => simp [pieces_of_isPlain plain.1]
      | cons second rest =>
          rw [String.intercalate_cons_cons, pieces_slash, pieces_of_isPlain plain.1,
            List.foldl_append, ih plain.2]
          rfl

theorem isPlain_of_mem_names {path : Path} {name : String} (member : name ∈ path.names) :
    IsPlain name ∧ name ≠ "" := by
  have counts {pieces : List String} (within : ∀ piece ∈ pieces, IsPlain piece)
      (kept : name ∈ pieces.filter isName) : IsPlain name ∧ name ≠ "" := by
    rcases List.mem_filter.mp kept with ⟨piece, isName⟩
    refine ⟨within name piece, ?_⟩
    rintro rfl
    contradiction
  have plain : ∀ piece ∈ path.pieces, IsPlain piece := fun _ piece => isPlain_of_mem_pieces piece
  rw [names] at member
  split at member
  next pieces same =>
    rw [same, List.forall_mem_cons] at plain
    rcases List.mem_cons.mp member with rfl | later
    · exact ⟨plain.1, by decide⟩
    · exact counts plain.2 later
  next => exact counts plain member

theorem isAbsolute_intercalate {names : List String}
    (counts : ∀ name ∈ names, IsPlain name ∧ name ≠ "") :
    isAbsolute ("/".intercalate names) = false := by
  cases names with
  | nil => exact isAbsolute_of_isPlain isPlain_empty
  | cons name names =>
      rcases counts name List.mem_cons_self with ⟨plain, nonempty⟩
      cases names with
      | nil => rw [String.intercalate_singleton, isAbsolute_of_isPlain plain]
      | cons second rest =>
          rw [String.intercalate_cons_cons, String.append_assoc, isAbsolute_append nonempty,
            isAbsolute_of_isPlain plain]

/-- The place of the parent of a path. -/
theorem placeFrom_parent? {path parent : Path} (found : path.parent? = some parent)
    (home : Place) : placeFrom home parent =
      path.names.dropLast.foldl step (if path.isAbsolute then [] else home) := by
  have counts : ∀ name ∈ path.names.dropLast, IsPlain name ∧ name ≠ "" :=
    fun name member => isPlain_of_mem_names (List.dropLast_subset _ member)
  have plain : ∀ name ∈ path.names.dropLast, IsPlain name := fun name member => (counts name member).1
  rw [parent?] at found
  split at found
  · contradiction
  · obtain rfl := Option.some.inj found
    split
    next absolute =>
      have rooted (path : Path) : isAbsolute ("/" ++ path) = true := by simp [isAbsolute]
      have first (path : Path) : pieces ("/" ++ path) = "" :: pieces path := by
        have split := pieces_slash "" path
        rwa [String.empty_append, pieces_of_isPlain isPlain_empty] at split
      rw [placeFrom, if_pos (rooted _), first, List.foldl_cons, step_empty,
        foldl_step_intercalate plain]
    next relative =>
      rw [placeFrom, isAbsolute_intercalate counts, foldl_step_intercalate plain]
      rfl

/-- A path with a name at its end leads from the place of its parent to that name. -/
theorem placeFrom_of_fileName? {path : Path} {name : String} (named : path.fileName? = some name)
    (home : Place) :
    IsPlain name ∧ placeFrom home path = name :: placeFrom home (path.parent?.getD ".") := by
  rw [fileName?] at named
  cases last : path.names.getLast? with
  | none => simp [last] at named
  | some name' =>
      simp only [last, Option.ite_none_left_eq_some, not_or, Option.some.injEq] at named
      obtain ⟨⟨dot, up⟩, rfl⟩ := named
      rcases List.getLast?_eq_some_iff.mp last with ⟨before, names⟩
      have member : name' ∈ path.names := by simp [names]
      rcases isPlain_of_mem_names member with ⟨plain, nonempty⟩
      obtain ⟨parent, found⟩ : ∃ parent, path.parent? = some parent := by
        rw [parent?]
        split
        next empty => simp [empty] at names
        next => exact ⟨_, rfl⟩
      have counts : isName name' = true := by simp [isName, nonempty, dot]
      refine ⟨plain, ?_⟩
      rw [found, Option.getD_some, placeFrom_parent? found, placeFrom, ← foldl_step_names, names,
        List.foldl_concat, List.dropLast_concat, step_of_isName counts up]

end Path

/-! ## Temporary paths -/

namespace FileSystem

open Leasehold.Path

/-- The name of the temporary file of a process for a file. -/
def temporaryName (pid : Nat) (name : String) : String :=
  "." ++ name ++ "." ++ toString pid ++ ".tmp"

theorem temporaryName_ne (pid : Nat) (name : String) : temporaryName pid name ≠ name := by
  intro same
  have length := congrArg (fun text => text.toList.length) same
  simp [temporaryName] at length
  omega

theorem toList_temporaryName (pid : Nat) (name : String) :
    (temporaryName pid name).toList =
      '.' :: (name.toList ++ '.' :: Text.decimal pid) ++ ['.', 't', 'm', 'p'] := by
  simp [temporaryName, Text.decimal]

/-- A temporary name begins with a dot. -/
theorem temporaryName_ne_of_head? {pid : Nat} {name text : String}
    (plain : text.toList.head? ≠ some '.') : temporaryName pid name ≠ text := by
  rintro rfl
  exact plain (by rw [toList_temporaryName]; rfl)

/-- Only one file of a directory has a temporary file of some name. -/
theorem temporaryName_injective {pid pid' : Nat} {name name' : String}
    (same : temporaryName pid name = temporaryName pid' name') : name = name' := by
  have pointless (n : Nat) : '.' ∉ Text.decimal n :=
    fun member => absurd (Text.isDigit_of_mem_decimal member) (by decide)
  have chars := congrArg String.toList same
  rw [toList_temporaryName, toList_temporaryName] at chars
  have names := (List.cons.inj (List.append_cancel_right chars)).2
  exact String.toList_inj.mp (Text.front_eq_of_append_cons (pointless pid) (pointless pid') names)

/-- A temporary name is one that can be given to a file. -/
theorem step_temporaryName (pid : Nat) (name : String) (place : Place) :
    step place (temporaryName pid name) = temporaryName pid name :: place := by
  have long : 5 < (temporaryName pid name).toList.length := by
    have digits := List.length_pos_iff.mpr (Text.decimal_ne_nil pid)
    simp [toList_temporaryName]
    omega
  have other (text : String) (short : text.toList.length ≤ 5) : temporaryName pid name ≠ text := by
    rintro same
    rw [same] at long
    omega
  apply step_of_isName
  · simp [isName, other "" (by decide), other "." (by decide)]
  · exact other ".." (by decide)

theorem isPlain_temporaryName (pid : Nat) {name : String} (plain : IsPlain name) :
    IsPlain (temporaryName pid name) := by
  have digits : '/' ∉ Text.decimal pid :=
    fun member => absurd (Text.isDigit_of_mem_decimal member) (by decide)
  have plain' : '/' ∉ name.toList := plain
  simp [IsPlain, toList_temporaryName, plain', digits]

/-- The temporary path for a path leads to the same directory. -/
theorem placeFrom_temporary? {pid : Nat} {path temporary : Path}
    (found : temporary? pid path = some temporary) (home : Place) :
    ∃ name directory, placeFrom home path = name :: directory ∧
      placeFrom home temporary = temporaryName pid name :: directory := by
  rcases Option.map_eq_some_iff.mp found with ⟨name, named, rfl⟩
  rcases placeFrom_of_fileName? named home with ⟨plain, place⟩
  refine ⟨name, _, place, ?_⟩
  rw [← temporaryName, placeFrom_join _ (isPlain_temporaryName pid plain), step_temporaryName]

theorem placeFrom_temporary?_ne {pid : Nat} {path temporary : Path}
    (found : temporary? pid path = some temporary) (home : Place) :
    placeFrom home temporary ≠ placeFrom home path := by
  rcases placeFrom_temporary? found home with ⟨name, directory, place, place'⟩
  rw [place, place']
  exact fun same => temporaryName_ne pid name (List.cons.inj same).1

end FileSystem

/-! ## The files of a database -/

namespace Database

open FileSystem Leasehold.Path

/-- Whether a place is that of one of the files of a database: its keyspace, its guard,
or a temporary file for the keyspace. -/
inductive Owns (home : Place) (directory : Path) : Place → Prop
  | keyspace : Owns home directory ((keyspacePath directory).placeFrom home)
  | guard : Owns home directory ((guardPath directory).placeFrom home)
  | temporary {pid : Nat} {temporary : Path}
      (found : temporary? pid (keyspacePath directory) = some temporary) :
      Owns home directory (temporary.placeFrom home)

variable {home : Place} {directory path temporary : Path} {pid : Nat}

theorem placeFrom_keyspacePath :
    (keyspacePath directory).placeFrom home = "db.json" :: directory.placeFrom home := by
  rw [keyspacePath, placeFrom_join directory (by decide), step_of_isName (by decide) (by decide)]

theorem placeFrom_guardPath :
    (guardPath directory).placeFrom home = "db.lock" :: directory.placeFrom home := by
  rw [guardPath, placeFrom_join directory (by decide), step_of_isName (by decide) (by decide)]

/-- The files of a database lie in its directory. -/
theorem Owns.eq_cons {place : Place} (owns : Owns home directory place) :
    ∃ name, place = name :: directory.placeFrom home := by
  cases owns with
  | keyspace => exact ⟨_, placeFrom_keyspacePath⟩
  | guard => exact ⟨_, placeFrom_guardPath⟩
  | temporary found =>
      rcases placeFrom_temporary? found home with ⟨name, parent, place, place'⟩
      rw [placeFrom_keyspacePath] at place
      rw [place', ← (List.cons.inj place).2]
      exact ⟨_, rfl⟩

/-- They have names of their own. -/
theorem Owns.name {name : String} {folder : Place} (owns : Owns home directory (name :: folder)) :
    name = "db.json" ∨ name = "db.lock" ∨ name.toList.head? = some '.' := by
  generalize whole : name :: folder = place at owns
  cases owns with
  | keyspace =>
      rw [placeFrom_keyspacePath] at whole
      exact .inl (List.cons.inj whole).1
  | guard =>
      rw [placeFrom_guardPath] at whole
      exact .inr (.inl (List.cons.inj whole).1)
  | temporary found =>
      rcases placeFrom_temporary? found home with ⟨name', parent, -, place⟩
      rw [place] at whole
      refine .inr (.inr ?_)
      rw [(List.cons.inj whole).1, toList_temporaryName]
      rfl

/-- A temporary file is one of a database only if the file that it is for is. -/
theorem owns_of_owns_temporary (found : temporary? pid path = some temporary)
    (owns : Owns home directory (temporary.placeFrom home)) :
    Owns home directory (path.placeFrom home) := by
  rcases placeFrom_temporary? found home with ⟨name, parent, place, place'⟩
  rw [place'] at owns
  generalize owned : temporaryName pid name :: parent = place₀ at owns
  cases owns with
  | keyspace =>
      rw [placeFrom_keyspacePath] at owned
      exact absurd (List.cons.inj owned).1 (temporaryName_ne_of_head? (by decide))
  | guard =>
      rw [placeFrom_guardPath] at owned
      exact absurd (List.cons.inj owned).1 (temporaryName_ne_of_head? (by decide))
  | temporary found' =>
      -- Then the file is the one that the keyspace is in.
      rcases placeFrom_temporary? found' home with ⟨name', parent', place₁, place₁'⟩
      rw [place₁'] at owned
      rcases List.cons.inj owned with ⟨same, rfl⟩
      rw [place, temporaryName_injective same, ← place₁]
      exact .keyspace

end Database

end Leasehold
