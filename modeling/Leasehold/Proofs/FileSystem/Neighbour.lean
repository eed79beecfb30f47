import Leasehold.Proofs.FileSystem.Walk

/-!
# Neighbours of a file

A path that leads to a file tells of the directory that the file lies in: its parent
leads there, and so do the paths of other files in it, as far as their names are short
enough. A file whose path leads somewhere can be made and replaced there unless it is
a directory.
-/

namespace Leasehold

namespace Path

/-- That a file can be called by a name. -/
structure IsFileName (name : String) : Prop where
  plain : IsPlain name
  counts : isName name = true
  down : name ≠ ".."
  short : name.utf8ByteSize ≤ Tree.nameLimit
  clean : '\x00' ∉ name.toList

/-- A join differs from another with the same base in the name at its end only. -/
theorem join_eq_append (base : Path) : ∃ front : String,
    ∀ name, IsPlain name → base.join name = front ++ name := by
  by_cases ends : base.toList.getLast?.all (· == '/')
  · refine ⟨base, fun name plain => ?_⟩
    rw [join, if_neg (by simp [isAbsolute_of_isPlain plain]), if_pos ends]
  · refine ⟨base ++ "/", fun name plain => ?_⟩
    rw [join, if_neg (by simp [isAbsolute_of_isPlain plain]), if_neg ends]

/-- The last piece of a join is the name, and the others lead on from where the base
begins. -/
theorem pieces_join (base : Path) : ∃ before, ∀ name, IsPlain name →
    (base.join name).pieces = before ++ [name] ∧
      (base.join name).isAbsolute = base.isAbsolute := by
  by_cases empty : base = ""
  · subst empty
    refine ⟨[], fun name plain => ?_⟩
    have joined : join "" name = name := by
      simp [join, isAbsolute_of_isPlain plain]
    rw [joined, pieces_of_isPlain plain, isAbsolute_of_isPlain plain]
    exact ⟨rfl, rfl⟩
  · by_cases ends : base.toList.getLast?.all (· == '/')
    · rcases eq_slash_of_getLast? empty ends with ⟨front, same⟩
      refine ⟨pieces front, fun name plain => ?_⟩
      rw [join, if_neg (by simp [isAbsolute_of_isPlain plain]), if_pos ends,
        isAbsolute_append empty]
      refine ⟨?_, rfl⟩
      rw [same, pieces_slash, pieces_of_isPlain plain]
    · refine ⟨base.pieces, fun name plain => ?_⟩
      rw [join, if_neg (by simp [isAbsolute_of_isPlain plain]), if_neg ends, String.append_assoc,
        isAbsolute_append empty, ← String.append_assoc, pieces_slash, pieces_of_isPlain plain]
      exact ⟨rfl, rfl⟩

theorem pieces_intercalate {names : List String} (plain : ∀ name ∈ names, IsPlain name)
    (nonempty : names ≠ []) : pieces ("/".intercalate names) = names := by
  induction names with
  | nil => contradiction
  | cons name names ih =>
      rw [List.forall_mem_cons] at plain
      cases names with
      | nil => simp [pieces_of_isPlain plain.1]
      | cons second rest =>
          rw [String.intercalate_cons_cons, pieces_slash, pieces_of_isPlain plain.1,
            ih plain.2 (List.cons_ne_nil _ _)]
          rfl

theorem pieces_root (path : Path) : pieces ("/" ++ path) = "" :: pieces path := by
  have split := pieces_slash "" path
  rwa [String.empty_append, pieces_of_isPlain isPlain_empty] at split

/-- A file in a directory has the name that it is called by, and a parent. -/
theorem fileName?_join (base : Path) {name : String} (isName : IsFileName name) :
    (base.join name).fileName? = some name ∧ ∃ parent, (base.join name).parent? = some parent := by
  have named : (base.join name).names.getLast? = some name := by
    rcases pieces_join base with ⟨before, joined⟩
    have pieces := (joined name isName.plain).1
    rw [names]
    split
    next rest dotted =>
      rw [pieces] at dotted
      cases before with
      | nil =>
          rw [(List.cons.inj dotted).1] at isName
          exact absurd isName.counts (by decide)
      | cons first before =>
          obtain rfl : before ++ [name] = rest := (List.cons.inj dotted).2
          rw [List.filter_append, List.filter_cons_of_pos isName.counts, ← List.cons_append]
          exact List.getLast?_concat
    next =>
      rw [pieces, List.filter_append, List.filter_cons_of_pos isName.counts]
      exact List.getLast?_concat
  have undotted : name ≠ "." := by
    rintro rfl
    exact absurd isName.counts (by decide)
  constructor
  · simp [fileName?, named, undotted, isName.down]
  · rw [parent?]
    split
    next none => simp [none] at named
    next => exact ⟨_, rfl⟩

end Path

/-! ## Temporary names -/

namespace FileSystem

open Leasehold.Path

theorem utf8ByteSize_ofList_cons (c : Char) (cs : List Char) :
    (String.ofList (c :: cs)).utf8ByteSize = c.utf8Size + (String.ofList cs).utf8ByteSize := by
  have front : String.ofList (c :: cs) = String.singleton c ++ String.ofList cs :=
    String.toList_inj.mp (by simp)
  rw [front, String.utf8ByteSize_append, String.utf8ByteSize_singleton]

/-- A character takes four bytes at most. -/
theorem utf8ByteSize_ofList_le (cs : List Char) :
    (String.ofList cs).utf8ByteSize ≤ 4 * cs.length := by
  induction cs with
  | nil => simp
  | cons c cs ih =>
      have size := c.utf8Size_le_four
      rw [utf8ByteSize_ofList_cons, List.length_cons]
      omega

/-- A temporary file can be called by its name if the name that it is for is not too
long. -/
theorem isFileName_temporaryName {name : String} (isName : IsFileName name) (pid : Pid)
    (short : name.toList.length ≤ 40) : IsFileName (temporaryName pid.toNat name) := by
  have stepped := step_temporaryName pid.toNat name []
  constructor
  · exact isPlain_temporaryName _ isName.plain
  · cases counts : Path.isName (temporaryName pid.toNat name) with
    | true => rfl
    | false =>
        rw [step_of_not_isName counts] at stepped
        contradiction
  · intro up
    rw [up] at stepped
    exact absurd stepped (by decide)
  · have digits : (Text.decimal pid.toNat).length ≤ 10 := by
      refine (Nat.length_toDigits_le_iff (by decide) (by decide)).mpr ?_
      exact Nat.lt_trans pid.toNat_lt (by decide)
    have size := utf8ByteSize_ofList_le (temporaryName pid.toNat name).toList
    rw [String.ofList_toList, toList_temporaryName] at size
    simp only [List.length_cons, List.length_append, List.length_nil] at size
    exact Nat.le_trans size (by rw [Tree.nameLimit]; omega)
  · have plain : '\x00' ∉ Text.decimal pid.toNat := fun member =>
      absurd (Text.isDigit_of_mem_decimal member) (by decide)
    simp [toList_temporaryName, isName.clean, plain]

end FileSystem

namespace Tree

open Leasehold.Path

variable {tree : Tree} {path base : Path} {place folder : Place} {name other : String}
  {pieces : List String}

/-! ## Walks -/

theorem foldlM_append_eq_ok {before : List String} {start : Place} :
    (before ++ pieces).foldlM tree.enter start = .ok place ↔
      ∃ middle, before.foldlM tree.enter start = .ok middle ∧
        pieces.foldlM tree.enter middle = .ok place := by
  rw [List.foldlM_append]
  exact bind_eq_ok_iff

theorem foldlM_singleton_eq_ok {start : Place} :
    [name].foldlM tree.enter start = .ok place ↔ tree.enter start name = .ok place := by
  rw [List.foldlM_cons]
  constructor
  · intro walked
    rcases bind_eq_ok_iff.mp walked with ⟨_, entered, same⟩
    cases same
    exact entered
  · intro entered
    exact bind_eq_ok_iff.mpr ⟨place, entered, rfl⟩

/-- A name is entered from a directory. -/
theorem enter_name (isName : IsFileName name) (found : tree.node? folder = some .directory) :
    tree.enter folder name = .ok (name :: folder) :=
  enter_eq_ok_iff.mpr ⟨found, (step_of_isName isName.counts isName.down _).symm,
    fun _ _ => isName.short⟩

/-- Leaving out what is no name does not change where a walk ends. -/
theorem foldlM_filter_isName {start : Place}
    (walked : pieces.foldlM tree.enter start = .ok place) :
    (pieces.filter isName).foldlM tree.enter start = .ok place := by
  induction pieces generalizing start with
  | nil => exact walked
  | cons piece pieces ih =>
      rcases bind_eq_ok_iff.mp walked with ⟨next, entered, rest⟩
      cases counts : isName piece with
      | true =>
          rw [List.filter_cons_of_pos counts]
          exact bind_eq_ok_iff.mpr ⟨next, entered, ih rest⟩
      | false =>
          rw [List.filter_cons_of_neg (by simp [counts])]
          have stays := (enter_eq_ok_iff.mp entered).2.1
          rw [step_of_not_isName counts] at stays
          exact stays ▸ ih rest

theorem foldlM_names {start : Place} (walked : path.pieces.foldlM tree.enter start = .ok place) :
    path.names.foldlM tree.enter start = .ok place := by
  rw [names]
  split
  next rest same =>
    rw [same] at walked
    rcases bind_eq_ok_iff.mp walked with ⟨next, entered, rest⟩
    exact bind_eq_ok_iff.mpr ⟨next, entered, foldlM_filter_isName rest⟩
  next => exact foldlM_filter_isName walked

/-! ## Siblings -/

theorem walkable_eq_ok_iff : walkable path = .ok path.pieces ↔
    '\x00' ∉ path.toList ∧ path ≠ "" ∧ path.utf8ByteSize ≤ pathLimit := by
  rw [walkable]
  by_cases nul : '\x00' ∈ path.toList
  · simp [nul]
  · by_cases empty : path = ""
    · simp [empty]
    · by_cases short : path.utf8ByteSize ≤ pathLimit <;> simp [nul, empty, short]

/-- A path that leads to a file in a directory comes to the directory first. -/
theorem Reaches.eq_cons (reaches : tree.Reaches (base.join name) place)
    (isName : IsFileName name) :
    place = name :: base.placeFrom tree.workingDirectory ∧
      tree.node? (base.placeFrom tree.workingDirectory) = some .directory := by
  have named := reaches.eq_placeFrom
  rw [placeFrom_join base isName.plain, step_of_isName isName.counts isName.down] at named
  rcases pieces_join base with ⟨before, joined⟩
  have walked := reaches.walk
  rw [(joined name isName.plain).1] at walked
  rcases foldlM_append_eq_ok.mp walked with ⟨middle, -, last⟩
  rcases enter_eq_ok_iff.mp (foldlM_singleton_eq_ok.mp last) with ⟨found, stepped, -⟩
  rw [named, step_of_isName isName.counts isName.down] at stepped
  exact ⟨named, (List.cons.inj stepped).2 ▸ found⟩

/-- Another file in the directory is reached if its name is no longer. -/
theorem Reaches.sibling (reaches : tree.Reaches (base.join name) place)
    (isName : IsFileName name) (isName' : IsFileName other)
    (shorter : other.utf8ByteSize ≤ name.utf8ByteSize) :
    tree.Reaches (base.join other) (other :: base.placeFrom tree.workingDirectory) := by
  rcases reaches.eq_cons isName with ⟨rfl, found⟩
  rcases pieces_join base with ⟨before, joined⟩
  constructor
  · rcases join_eq_append base with ⟨front, appended⟩
    have walks := walkable_eq_ok_iff.mp reaches.walkable
    rw [appended name isName.plain] at walks
    rw [appended other isName'.plain]
    simp only [String.toList_append, List.mem_append, not_or, String.utf8ByteSize_append] at walks
    refine walkable_eq_ok_iff.mpr ⟨?_, ?_, ?_⟩
    · simp [walks.1.1, isName'.clean]
    · have named := isName'.counts
      intro empty
      rw [(String.append_eq_empty_iff.mp empty).2] at named
      contradiction
    · simp only [String.utf8ByteSize_append]
      omega
  · have walked := reaches.walk
    rw [(joined name isName.plain).1] at walked
    rw [origin, (joined other isName'.plain).1, (joined other isName'.plain).2]
    rw [origin, (joined name isName.plain).2] at walked
    rcases foldlM_append_eq_ok.mp walked with ⟨middle, first, last⟩
    rcases enter_eq_ok_iff.mp (foldlM_singleton_eq_ok.mp last) with ⟨-, stepped, -⟩
    rw [step_of_isName isName.counts isName.down] at stepped
    refine foldlM_append_eq_ok.mpr ⟨middle, first, foldlM_singleton_eq_ok.mpr ?_⟩
    rw [← (List.cons.inj stepped).2]
    exact enter_name isName' found

/-- A path to a file in a directory leads by way of the directory. -/
theorem Reaches.directory (reaches : tree.Reaches (base.join name) place) (isName : IsFileName name)
    (nonempty : base ≠ "") : tree.Reaches base (base.placeFrom tree.workingDirectory) := by
  have relative : ¬isAbsolute name = true := by simp [isAbsolute_of_isPlain isName.plain]
  have walked := reaches.walk
  have walks := walkable_eq_ok_iff.mp reaches.walkable
  have leads (middle : Place)
      (walked : base.pieces.foldlM tree.enter (tree.origin base) = .ok middle)
      (chars : '\x00' ∉ base.toList) (short : base.utf8ByteSize ≤ pathLimit) :
      tree.Reaches base (base.placeFrom tree.workingDirectory) := by
    have leads : tree.Reaches base middle :=
      ⟨walkable_eq_ok_iff.mpr ⟨chars, nonempty, short⟩, walked⟩
    exact leads.eq_placeFrom ▸ leads
  rw [join, if_neg relative] at walked walks
  split at walked
  next ends =>
    -- The base ends with a slash, so it has an empty piece in place of the name.
    rw [if_pos ends] at walks
    rcases eq_slash_of_getLast? nonempty ends with ⟨front, rfl⟩
    rw [origin, isAbsolute_append nonempty, pieces_slash, pieces_of_isPlain isName.plain] at walked
    rcases foldlM_append_eq_ok.mp walked with ⟨middle, first, entered⟩
    have found := (enter_eq_ok_iff.mp (foldlM_singleton_eq_ok.mp entered)).1
    have last : pieces (front ++ "/") = pieces front ++ [""] := by
      rw [← pieces_of_isPlain isPlain_empty, ← pieces_slash, String.append_empty]
    simp only [String.toList_append, List.mem_append, not_or, String.utf8ByteSize_append] at walks
    refine leads middle ?_ (by simp [walks.1.1]) (by simp only [String.utf8ByteSize_append]; omega)
    rw [last]
    exact foldlM_append_eq_ok.mpr ⟨middle, first, foldlM_singleton_eq_ok.mpr
      (enter_eq_ok_iff.mpr ⟨found, (step_empty middle).symm,
        fun counts => absurd counts (by decide)⟩)⟩
  next ends =>
    rw [if_neg ends] at walks
    rw [origin, String.append_assoc, isAbsolute_append nonempty, ← String.append_assoc,
      pieces_slash, pieces_of_isPlain isName.plain] at walked
    rcases foldlM_append_eq_ok.mp walked with ⟨middle, first, -⟩
    simp only [String.toList_append, List.mem_append, not_or, String.utf8ByteSize_append] at walks
    exact leads middle first walks.1.1.1 (by omega)

/-! ## Parents -/

/-- A path that leads to a file, walked by its names, comes to the directory that the
file lies in before the last of them. -/
theorem Reaches.walk_dropLast (reaches : tree.Reaches path place)
    (named : path.fileName? = some name) :
    ∃ folder, place = name :: folder ∧ tree.node? folder = some .directory ∧
      path.names.dropLast.foldlM tree.enter (tree.origin path) = .ok folder ∧
      path.names ≠ [] := by
  have walked := foldlM_names reaches.walk
  rw [fileName?] at named
  cases last : path.names.getLast? with
  | none => simp [last] at named
  | some name' =>
      simp only [last, Option.ite_none_left_eq_some, not_or, Option.some.injEq] at named
      obtain ⟨⟨dot, up⟩, rfl⟩ := named
      rcases List.getLast?_eq_some_iff.mp last with ⟨before, names⟩
      have member : name' ∈ path.names := by simp [names]
      have nonempty := (isPlain_of_mem_names member).2
      have counts : isName name' = true := by simp [isName, nonempty, dot]
      rw [names] at walked ⊢
      rcases foldlM_append_eq_ok.mp walked with ⟨folder, first, entered⟩
      rcases enter_eq_ok_iff.mp (foldlM_singleton_eq_ok.mp entered) with ⟨found, stepped, -⟩
      rw [step_of_isName counts up] at stepped
      exact ⟨folder, stepped, found, by rwa [List.dropLast_concat], by simp⟩

/-- A walk goes along the pieces of its names joined together. With no name left, these are
one empty piece, which stays where it is. -/
theorem foldlM_pieces_intercalate {names : List String} {start : Place}
    (plain : ∀ name ∈ names, IsPlain name) (isDirectory : tree.node? folder = some .directory)
    (walked : names.foldlM tree.enter start = .ok folder) :
    (Path.pieces ("/".intercalate names)).foldlM tree.enter start = .ok folder := by
  by_cases none : names = []
  · rw [none] at walked ⊢
    cases walked
    rw [String.intercalate_nil, pieces_of_isPlain isPlain_empty]
    exact foldlM_singleton_eq_ok.mpr
      (enter_eq_ok_iff.mpr ⟨isDirectory, (step_empty _).symm, fun named => by contradiction⟩)
  · rwa [pieces_intercalate plain none]

/-- The parent of a path is empty or leads where the path does before its last name. -/
theorem walk_parent {parent : Path} (found : path.parent? = some parent)
    (walked : path.names.dropLast.foldlM tree.enter (tree.origin path) = .ok folder)
    (isDirectory : tree.node? folder = some .directory) :
    parent = "" ∧ folder = tree.workingDirectory ∨
      parent ≠ "" ∧ parent.pieces.foldlM tree.enter (tree.origin parent) = .ok folder := by
  have counts : ∀ name ∈ path.names.dropLast, IsPlain name ∧ name ≠ "" :=
    fun name member => isPlain_of_mem_names (List.dropLast_subset _ member)
  have plain : ∀ name ∈ path.names.dropLast, IsPlain name :=
    fun name member => (counts name member).1
  rw [parent?] at found
  split at found
  · contradiction
  · obtain rfl := Option.some.inj found
    split
    next absolute =>
      right
      have rooted (path : Path) : isAbsolute ("/" ++ path) = true := by simp [isAbsolute]
      refine ⟨fun empty => ?_, ?_⟩
      · simp at empty
      · rw [origin, if_pos absolute] at walked
        rw [origin, if_pos (rooted _), pieces_root]
        exact bind_eq_ok_iff.mpr ⟨[], enter_eq_ok_iff.mpr
          ⟨rfl, (step_empty _).symm, fun named => by contradiction⟩,
          foldlM_pieces_intercalate plain isDirectory walked⟩
    next relative =>
      rw [origin, if_neg relative] at walked
      by_cases none : path.names.dropLast = []
      · rw [none] at walked
        cases walked
        exact .inl ⟨by rw [none]; rfl, rfl⟩
      · right
        refine ⟨fun empty => ?_, ?_⟩
        · have pieces := pieces_intercalate plain none
          rw [empty, pieces_of_isPlain isPlain_empty] at pieces
          exact absurd rfl (counts "" (pieces ▸ List.mem_singleton_self "")).2
        · rw [origin, isAbsolute_intercalate counts, if_neg (by decide)]
          exact foldlM_pieces_intercalate plain isDirectory walked

/-- What is a file name in a directory, and walked to from its parent, is reached. -/
theorem reaches_of_parent {parent : Path} {folder : Place} (isName : IsFileName name)
    (isDirectory : tree.node? folder = some .directory)
    (leads : parent = "" ∧ folder = tree.workingDirectory ∨
      parent ≠ "" ∧ parent.pieces.foldlM tree.enter (tree.origin parent) = .ok folder)
    (walks : walkable (parent.join name) = .ok (parent.join name).pieces) :
    tree.Reaches (parent.join name) (name :: folder) := by
  refine ⟨walks, ?_⟩
  rcases leads with ⟨rfl, rfl⟩ | ⟨nonempty, walked⟩
  · have joined : join "" name = name := by
      simp [join, isAbsolute_of_isPlain isName.plain]
    rw [joined, origin, isAbsolute_of_isPlain isName.plain, if_neg (by decide),
      pieces_of_isPlain isName.plain]
    exact foldlM_singleton_eq_ok.mpr (enter_name isName isDirectory)
  · rw [join, if_neg (by simp [isAbsolute_of_isPlain isName.plain])]
    split
    next ends =>
      -- The parent ends with a slash, and the name takes the place of an empty piece.
      rcases eq_slash_of_getLast? nonempty ends with ⟨front, rfl⟩
      have last : pieces (front ++ "/") = pieces front ++ [""] := by
        rw [← pieces_of_isPlain isPlain_empty, ← pieces_slash, String.append_empty]
      rw [last] at walked
      rcases foldlM_append_eq_ok.mp walked with ⟨middle, first, stays⟩
      have same := (enter_eq_ok_iff.mp (foldlM_singleton_eq_ok.mp stays)).2.1
      rw [step_empty] at same
      rw [origin, isAbsolute_append nonempty, pieces_slash, pieces_of_isPlain isName.plain]
      exact foldlM_append_eq_ok.mpr ⟨middle, first,
        foldlM_singleton_eq_ok.mpr (same ▸ enter_name isName isDirectory)⟩
    next =>
      rw [origin, String.append_assoc, isAbsolute_append nonempty, ← String.append_assoc,
        pieces_slash, pieces_of_isPlain isName.plain]
      exact foldlM_append_eq_ok.mpr ⟨folder, walked,
        foldlM_singleton_eq_ok.mpr (enter_name isName isDirectory)⟩

/-! ## Targets -/

/-- What a path that leads to a file asks to be made is a name in the directory of the
file. -/
theorem target_join (reaches : tree.Reaches (base.join name) (name :: folder))
    (isName : IsFileName name) :
    tree.target (base.join name) = .ok (some ⟨folder, name, false⟩) := by
  rcases pieces_join base with ⟨before, joined⟩
  have last := (joined name isName.plain).1
  have walked := reaches.walk
  rw [last] at walked
  rcases foldlM_append_eq_ok.mp walked with ⟨folder', first, entered⟩
  rcases enter_eq_ok_iff.mp (foldlM_singleton_eq_ok.mp entered) with ⟨found, stepped, -⟩
  rw [step_of_isName isName.counts isName.down] at stepped
  rcases List.cons.inj stepped with ⟨-, rfl⟩
  have proper : name ≠ "" ∧ name ≠ "." := by
    simpa [Path.isName] using isName.counts
  have dots : ¬(name = "." ∨ name = "..") := fun either => either.elim proper.2 isName.down
  have short : ¬nameLimit < name.utf8ByteSize := Nat.not_lt.mpr isName.short
  have reversed : (base.join name).pieces.reverse = name :: before.reverse := by simp [last]
  have front : (name :: before.reverse).dropWhile (· == "") = name :: before.reverse := by
    simp [proper.1]
  have unslashed : (some name == some "") = false := by simp [proper.1]
  rw [Tree.target, reaches.walkable]
  refine bind_eq_ok_iff.mpr ⟨_, rfl, ?_⟩
  rw [reversed]
  simp only [front]
  rw [List.reverse_reverse]
  refine bind_eq_ok_iff.mpr ⟨folder, first,
    bind_eq_ok_iff.mpr ⟨(), requireDirectory_eq_ok_iff.mpr found, ?_⟩⟩
  rw [if_neg dots, if_neg short, List.head?_cons, unslashed]
  rfl

/-- A file is changed at its target, unless a directory is there or asked for. -/
theorem change_eq (tree : Tree) (path : Path) (change : Option ByteArray → ByteArray) :
    tree.change path change = tree.target path >>= fun
      | none => .error .isDirectory
      | some target =>
        if target.slash = true ∨ tree.node? target.place = some .directory then .error .isDirectory
        else .ok (tree.put target.place (.file (change (tree.content? target.place)))) := by
  rw [Tree.change, writable]
  rcases tree.target path with failure | _ | target
  · rfl
  · rfl
  · simp only [bind, Except.bind, content?]
    cases target.slash with
    | true => rfl
    | false => rcases tree.node? target.place with _ | _ | _ <;> rfl

/-- A file that can be reached can be changed, whether it is there or not. -/
theorem change_join {change : Option ByteArray → ByteArray}
    (reaches : tree.Reaches (base.join name) (name :: folder)) (isName : IsFileName name)
    (file : tree.node? (name :: folder) ≠ some .directory) :
    tree.change (base.join name) change =
      .ok (tree.put (name :: folder) (.file (change (tree.content? (name :: folder))))) := by
  rw [change_eq, target_join reaches isName]
  exact if_neg (not_or.mpr ⟨Bool.false_ne_true, file⟩)

/-- A file that is there can be moved to where a file is or nothing. -/
theorem rename_join {base' : Path} {content : ByteArray}
    (reaches : tree.Reaches (base.join name) (name :: folder)) (isName : IsFileName name)
    (reaches' : tree.Reaches (base'.join other) (other :: folder)) (isName' : IsFileName other)
    (stored : tree.node? (name :: folder) = some (.file content))
    (file : tree.node? (other :: folder) ≠ some .directory) :
    tree.rename (base.join name) (base'.join other) =
      .ok ((tree.drop (name :: folder)).put (other :: folder) (.file content)) := by
  have stored' : tree.node? (Target.place ⟨folder, name, false⟩) = some (.file content) := stored
  have file' : tree.node? (Target.place ⟨folder, other, false⟩) ≠ some .directory := file
  rw [Tree.rename, target_join reaches isName, target_join reaches' isName']
  refine bind_eq_ok_iff.mpr ⟨_, rfl, bind_eq_ok_iff.mpr ⟨_, rfl, ?_⟩⟩
  simp only [stored', Bool.or_self, Bool.false_eq_true, if_false, if_neg file']
  rfl

end Tree

end Leasehold
