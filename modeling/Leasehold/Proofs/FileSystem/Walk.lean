import Leasehold.Proofs.FileSystem.Place

/-!
# Walks in trees

A walk that comes to its end comes to the place that its path names. Trees vary: files
come and go and there may be more directories. But as directories stay, a path that leads
to a file goes on doing so.
-/

namespace Leasehold

namespace Tree

open Leasehold.Path

/-- The content of the file at a place. -/
def content? (tree : Tree) (place : Place) : Option ByteArray :=
  match tree.node? place with
  | some (.file content) => some content
  | _ => none

/-- That a tree has become another, in which only the files at certain places may differ,
and there may be more directories. -/
structure Varies (touched : Place → Prop) (tree tree' : Tree) : Prop where
  home : tree'.workingDirectory = tree.workingDirectory
  content : ∀ place, ¬touched place → tree'.content? place = tree.content? place
  directory : ∀ place, tree.node? place = some .directory → tree'.node? place = some .directory

variable {touched touched' : Place → Prop} {tree tree' tree'' : Tree} {path : Path}
  {place next : Place} {name : String} {content : ByteArray} {node : Node}

theorem Varies.refl (touched : Place → Prop) (tree : Tree) : tree.Varies touched tree :=
  ⟨rfl, fun _ _ => rfl, fun _ directory => directory⟩

theorem Varies.trans (first : tree.Varies touched tree') (second : tree'.Varies touched tree'') :
    tree.Varies touched tree'' := by
  constructor
  · exact second.home.trans first.home
  · exact fun place untouched =>
      (second.content place untouched).trans (first.content place untouched)
  · exact fun place directory => second.directory place (first.directory place directory)

theorem Varies.mono (wider : ∀ place, touched place → touched' place)
    (varies : tree.Varies touched tree') : tree.Varies touched' tree' :=
  ⟨varies.home, fun place untouched => varies.content place fun member =>
    untouched (wider place member), varies.directory⟩

theorem content?_eq_some_iff : tree.content? place = some content ↔
    tree.node? place = some (.file content) := by
  rw [content?]
  split <;> simp_all

/-! ## Walks and the places of paths -/

theorem bind_eq_ok_iff {ε α β : Type} {first : Except ε α} {next : α → Except ε β} {result : β} :
    first >>= next = .ok result ↔ ∃ value, first = .ok value ∧ next value = .ok result := by
  cases first with
  | error failure => exact ⟨nofun, fun ⟨_, same, _⟩ => nomatch same⟩
  | ok value => exact ⟨fun same => ⟨value, rfl, same⟩, fun ⟨_, rfl, same⟩ => same⟩

theorem requireDirectory_eq_ok_iff :
    tree.requireDirectory place = .ok () ↔ tree.node? place = some .directory := by
  rw [requireDirectory]
  split <;> simp_all

theorem enter_eq_ok_iff : tree.enter place name = .ok next ↔
    tree.node? place = some .directory ∧ next = step place name ∧
      (isName name = true → name ≠ ".." → name.utf8ByteSize ≤ nameLimit) := by
  rw [enter, bind_eq_ok_iff, step]
  constructor
  · rintro ⟨_, required, rest⟩
    refine ⟨requireDirectory_eq_ok_iff.mp required, ?_⟩
    split at rest
    · cases rest
      simp_all
    · split at rest
      · cases rest
        simp_all
      · split at rest
        · contradiction
        · cases rest
          simp_all
  · rintro ⟨directory, rfl, short⟩
    refine ⟨(), requireDirectory_eq_ok_iff.mpr directory, ?_⟩
    split
    · rfl
    · split
      · rfl
      · rw [if_neg]
        · rfl
        · simp_all

/-- That a walk along a path comes to a place, where there need not be anything. -/
structure Reaches (tree : Tree) (path : Path) (place : Place) : Prop where
  walkable : walkable path = .ok path.pieces
  walk : path.pieces.foldlM tree.enter (tree.origin path) = .ok place

theorem pieces_of_walkable {pieces : List String} (walks : walkable path = .ok pieces) :
    pieces = path.pieces := by
  rw [walkable] at walks
  split at walks
  · contradiction
  · split at walks
    · contradiction
    · split at walks
      · exact (Except.ok.inj walks).symm
      · contradiction

theorem eq_foldl_of_foldlM {pieces : List String}
    (entered : pieces.foldlM tree.enter place = .ok next) : next = pieces.foldl step place := by
  induction pieces generalizing place with
  | nil => exact (Except.ok.inj entered).symm
  | cons piece pieces ih =>
      rcases bind_eq_ok_iff.mp entered with ⟨reached, first, rest⟩
      rw [List.foldl_cons, ← (enter_eq_ok_iff.mp first).2.1]
      exact ih rest

/-- A walk comes to the place that the path names. -/
theorem Reaches.eq_placeFrom (reaches : tree.Reaches path place) :
    place = path.placeFrom tree.workingDirectory :=
  eq_foldl_of_foldlM reaches.walk

theorem locate_eq_ok_iff : tree.locate path = .ok (place, node) ↔
    tree.Reaches path place ∧ tree.node? place = some node := by
  rw [locate, bind_eq_ok_iff]
  constructor
  · rintro ⟨pieces, walks, rest⟩
    obtain rfl := pieces_of_walkable walks
    rcases bind_eq_ok_iff.mp rest with ⟨reached, walked, found⟩
    split at found
    next node' stored =>
      cases found
      exact ⟨⟨walks, walked⟩, stored⟩
    next => contradiction
  · rintro ⟨⟨walks, walked⟩, stored⟩
    refine ⟨_, walks, bind_eq_ok_iff.mpr ⟨place, walked, ?_⟩⟩
    rw [stored]
    rfl

theorem read_eq_ok_iff : tree.read path = .ok content ↔
    ∃ place, tree.Reaches path place ∧ tree.node? place = some (.file content) := by
  rw [read, bind_eq_ok_iff]
  constructor
  · rintro ⟨⟨place, _ | content'⟩, located, same⟩
    · contradiction
    · cases same
      exact ⟨place, locate_eq_ok_iff.mp located⟩
  · rintro ⟨place, located⟩
    exact ⟨_, locate_eq_ok_iff.mpr located, rfl⟩

/-- What is read is the content at the place that the path names. -/
theorem content?_of_read (read : tree.read path = .ok content) :
    tree.content? (path.placeFrom tree.workingDirectory) = some content := by
  rcases read_eq_ok_iff.mp read with ⟨place, reaches, found⟩
  rw [← reaches.eq_placeFrom]
  exact content?_eq_some_iff.mpr found

/-- A walk still ends where it did when there may be more directories. -/
theorem Varies.foldlM_enter (varies : tree.Varies touched tree') {pieces : List String}
    {start : Place} (entered : pieces.foldlM tree.enter start = .ok place) :
    pieces.foldlM tree'.enter start = .ok place := by
  induction pieces generalizing start with
  | nil => exact entered
  | cons piece pieces ih =>
      rcases bind_eq_ok_iff.mp entered with ⟨reached, first, rest⟩
      rcases enter_eq_ok_iff.mp first with ⟨directory, stepped⟩
      exact bind_eq_ok_iff.mpr ⟨reached,
        enter_eq_ok_iff.mpr ⟨varies.directory start directory, stepped⟩, ih rest⟩

theorem Varies.reaches (varies : tree.Varies touched tree') (reaches : tree.Reaches path place) :
    tree'.Reaches path place := by
  refine ⟨reaches.walkable, ?_⟩
  rw [origin, varies.home]
  exact varies.foldlM_enter reaches.walk

/-- A file that is not touched goes on being read. -/
theorem Varies.read (varies : tree.Varies touched tree')
    (untouched : ¬touched (path.placeFrom tree.workingDirectory))
    (read : tree.read path = .ok content) : tree'.read path = .ok content := by
  rcases read_eq_ok_iff.mp read with ⟨place, reaches, found⟩
  refine read_eq_ok_iff.mpr ⟨place, varies.reaches reaches, ?_⟩
  rw [← content?_eq_some_iff, varies.content place (reaches.eq_placeFrom ▸ untouched)]
  exact content?_eq_some_iff.mpr found

/-! ## Targets -/

theorem foldl_step_empties {pieces : List String} (empty : ∀ piece ∈ pieces, piece = "")
    (place : Place) : pieces.foldl step place = place := by
  induction pieces with
  | nil => rfl
  | cons piece pieces ih =>
      rw [List.forall_mem_cons] at empty
      rw [List.foldl_cons, empty.1, step_empty, ih empty.2]

/-- What is left of pieces without the empty ones in front. -/
theorem eq_append_of_dropWhile {pieces before : List String}
    (cut : pieces.dropWhile (· == "") = name :: before) :
    name ≠ "" ∧ ∃ empties : List String, (∀ piece ∈ empties, piece = "") ∧
      pieces = empties ++ name :: before := by
  induction pieces with
  | nil => contradiction
  | cons piece pieces ih =>
      by_cases empty : piece = ""
      · rw [List.dropWhile_cons_of_pos (by simp [empty])] at cut
        rcases ih cut with ⟨proper, empties, all, rfl⟩
        exact ⟨proper, piece :: empties, List.forall_mem_cons.mpr ⟨empty, all⟩, rfl⟩
      · rw [List.dropWhile_cons_of_neg (by simp [empty])] at cut
        rcases List.cons.inj cut with ⟨rfl, rfl⟩
        exact ⟨empty, [], by simp, rfl⟩

/-- The place of what a path asks to be made is the one that it names; the path leads there
unless a slash follows it. -/
theorem target_place {target : Target} (found : tree.target path = .ok (some target)) :
    target.place = path.placeFrom tree.workingDirectory ∧
      (target.slash = false → tree.Reaches path target.place) := by
  rw [Tree.target, bind_eq_ok_iff] at found
  rcases found with ⟨pieces, walks, found⟩
  obtain rfl := pieces_of_walkable walks
  simp only at found
  split at found
  · cases found
  next name before cut =>
    rcases eq_append_of_dropWhile cut with ⟨proper, empties, empty, reversed⟩
    rcases bind_eq_ok_iff.mp found with ⟨directory, walked, found⟩
    rcases bind_eq_ok_iff.mp found with ⟨_, required, found⟩
    have whole : path.pieces = before.reverse ++ name :: empties.reverse := by
      rw [← List.reverse_reverse path.pieces, reversed]
      simp
    split at found
    · cases found
    next undotted =>
      rw [not_or] at undotted
      have counts : isName name = true := by simp [isName, proper, undotted.1]
      have stepped := step_of_isName counts undotted.2 directory
      split at found
      · contradiction
      next short =>
        cases found
        constructor
        · rw [placeFrom, whole, List.foldl_append, ← origin, ← eq_foldl_of_foldlM walked,
            List.foldl_cons, foldl_step_empties (by simpa using empty), stepped]
          rfl
        · intro unslashed
          have none : empties = [] := by
            cases empties with
            | nil => rfl
            | cons piece rest => simp [reversed, empty piece List.mem_cons_self] at unslashed
          refine ⟨walks, ?_⟩
          rw [whole, none, List.foldlM_append, walked]
          have entered : tree.enter directory name = .ok (name :: directory) :=
            enter_eq_ok_iff.mpr
              ⟨requireDirectory_eq_ok_iff.mp required, stepped.symm, fun _ _ => Nat.le_of_not_lt short⟩
          exact bind_eq_ok_iff.mpr ⟨directory, rfl, bind_eq_ok_iff.mpr ⟨_, entered, rfl⟩⟩

theorem writable_place {found : Option ByteArray}
    (writable : tree.writable path = .ok (place, found)) :
    place = path.placeFrom tree.workingDirectory ∧ place ≠ [] ∧
      tree.node? place ≠ some .directory ∧ tree.Reaches path place := by
  rw [Tree.writable, bind_eq_ok_iff] at writable
  rcases writable with ⟨_ | target, targeted, rest⟩
  · contradiction
  · rcases target_place targeted with ⟨place, reaches⟩
    simp only at rest
    split at rest
    · contradiction
    next plain =>
      have reaches := reaches (by simpa using plain)
      have proper : target.place ≠ [] := List.cons_ne_nil _ _
      split at rest
      · contradiction
      next content stored =>
        cases rest
        exact ⟨place, proper, by simp [stored], reaches⟩
      next vacant =>
        cases rest
        exact ⟨place, proper, by simp [vacant], reaches⟩

/-- What is found where a file can be written to is its content, if it is there. -/
theorem found_of_writable {found : Option ByteArray}
    (writable : tree.writable path = .ok (place, found)) : found = tree.content? place := by
  rw [Tree.writable, bind_eq_ok_iff] at writable
  rcases writable with ⟨_ | target, -, rest⟩
  · contradiction
  · simp only at rest
    split at rest
    · contradiction
    · split at rest
      · contradiction
      next content stored =>
        cases rest
        exact (content?_eq_some_iff.mpr stored).symm
      next vacant =>
        cases rest
        rw [content?, vacant]

end Tree

end Leasehold
