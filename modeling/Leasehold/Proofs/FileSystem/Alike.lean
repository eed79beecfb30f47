import Leasehold.Proofs.FileSystem.Neighbour
import Leasehold.Proofs.FileSystem.Replacement

/-!
# Trees that are alike

Two trees are alike but for certain places if they have the same directories and the same
files, except that at those places one may have a file where the other has another or none.
A path whose walk wants no directory that is missing has the same target in both, so a file
is changed or moved in both or, for the same reason, in neither.
-/

namespace Leasehold

namespace Tree

open Leasehold.Path

/-- That two trees have the same directories, and the same files but for those at certain
places. -/
structure Alike (loose : Place → Prop) (a b : Tree) : Prop extends a.Varies loose b where
  fewer : ∀ place, b.node? place = some .directory → a.node? place = some .directory

variable {loose loose' : Place → Prop} {a b c tree : Tree} {path source : Path} {place : Place}
  {content : ByteArray}

namespace Alike

theorem refl (loose : Place → Prop) (tree : Tree) : tree.Alike loose tree :=
  ⟨.refl loose tree, fun _ directory => directory⟩

theorem symm (alike : a.Alike loose b) : b.Alike loose a :=
  ⟨⟨alike.home.symm, fun place strict => (alike.content place strict).symm, alike.fewer⟩,
    alike.directory⟩

theorem trans (first : a.Alike loose b) (second : b.Alike loose c) : a.Alike loose c :=
  ⟨first.toVaries.trans second.toVaries, fun place directory =>
    first.fewer place (second.fewer place directory)⟩

theorem mono (wider : ∀ place, loose place → loose' place) (alike : a.Alike loose b) :
    a.Alike loose' b :=
  ⟨alike.toVaries.mono wider, alike.fewer⟩

theorem directory_iff (alike : a.Alike loose b) :
    b.node? place = some .directory ↔ a.node? place = some .directory :=
  ⟨alike.fewer place, alike.directory place⟩

/-- Elsewhere there is the same in both. -/
theorem node?_eq (alike : a.Alike loose b) (strict : ¬loose place) :
    b.node? place = a.node? place := by
  have directory : b.node? place = some .directory ↔ a.node? place = some .directory :=
    alike.directory_iff
  have content := alike.content place strict
  rw [content?, content?] at content
  revert directory content
  rcases a.node? place with _ | _ | _ <;> rcases b.node? place with _ | _ | _ <;> simp

/-- A place where both have the same file need not be loose. -/
theorem narrow (alike : a.Alike loose b) (same : b.content? place = a.content? place) :
    a.Alike (fun other => loose other ∧ other ≠ place) b := by
  refine ⟨⟨alike.home, fun other strict => ?_, alike.directory⟩, alike.fewer⟩
  by_cases here : other = place
  · rw [here, same]
  · exact alike.content other fun member => strict ⟨member, here⟩

end Alike

/-! ## Calls -/

theorem directory_of_put {other : Place} (proper : place ≠ [])
    (found : (tree.put place (.file content)).node? other = some .directory) :
    tree.node? other = some .directory := by
  rw [node?_put _ proper] at found
  split at found
  · cases found
  · exact found

theorem directory_of_drop {other : Place} (proper : place ≠ [])
    (found : (tree.drop place).node? other = some .directory) :
    tree.node? other = some .directory := by
  rw [node?_drop _ proper] at found
  split at found
  · cases found
  · exact found

theorem directory_of_settle {outcome : Except IoFailure Tree}
    (fewer : ∀ later, outcome = .ok later →
      later.node? place = some .directory → tree.node? place = some .directory)
    (found : (tree.settle outcome).2.node? place = some .directory) :
    tree.node? place = some .directory := by
  cases outcome with
  | ok later => exact fewer later rfl found
  | error failure => exact found

theorem directory_of_change {change : Option ByteArray → ByteArray} {later : Tree}
    (changed : tree.change path change = .ok later) (found : later.node? place = some .directory) :
    tree.node? place = some .directory := by
  rcases change_eq_ok changed with ⟨_, _, writable, rfl⟩
  exact directory_of_put (writable_place writable).2.1 found

end Tree

/-- Whether a call can make a directory. -/
def FileCall.isMaking : FileCall → Bool
  | .makeDirectory _ => true
  | _ => false

open Leasehold.Tree in
/-- However a call is answered that makes no directory, the trees before and after are alike
but for the files at the paths that it names. -/
theorem FileCall.Replies.alike {loose : Place → Prop} {tree later : Tree} {call : FileCall}
    {reply : call.Reply} (replies : call.Replies tree reply later) (plain : call.isMaking = false)
    (within : call.Touches loose tree.workingDirectory) : tree.Alike loose later := by
  refine ⟨replies.varies within, fun place found => ?_⟩
  cases replies with
  | served =>
      cases call with
      | create | openFile | write | append =>
          exact directory_of_settle (fun _ changed => directory_of_change changed) found
      | rename source target =>
          refine directory_of_settle (fun later renamed found => ?_) found
          rcases rename_eq_ok renamed with ⟨_, _, stored, -, proper, -, -, rfl⟩
          exact directory_of_drop (proper_of_file stored) (directory_of_put proper found)
      | remove path =>
          refine directory_of_settle (fun later removed found => ?_) found
          rcases bind_eq_ok_iff.mp removed with ⟨⟨_, _ | _⟩, located, same⟩
          · contradiction
          · cases same
            exact directory_of_drop (proper_of_file (locate_eq_ok_iff.mp located).2) found
      | makeDirectory => contradiction
      | isPresent | isFile | isDirectory | read | lock | unlock => exact found
  | refused => exact found
  | spoilt failure risks writable content =>
      exact directory_of_put (writable_place writable).2.1 found

namespace Tree

variable {loose : Place → Prop} {a b : Tree} {path source : Path}

/-! ## Targets -/

/-- That a path cannot be walked at all, or that its walk wants no directory. -/
def Settles (tree : Tree) (path : Path) : Prop :=
  (∃ failure, walkable path = .error failure) ∨ ∃ target?, tree.target path = .ok target?

theorem Varies.target {touched : Place → Prop} {target? : Option Target}
    (varies : a.Varies touched b) (found : a.target path = .ok target?) :
    b.target path = .ok target? := by
  rw [Tree.target, bind_eq_ok_iff] at found
  rcases found with ⟨pieces, walks, found⟩
  rw [Tree.target]
  refine bind_eq_ok_iff.mpr ⟨pieces, walks, ?_⟩
  simp only at found ⊢
  split at found
  next => exact found
  next name before cut =>
    rcases bind_eq_ok_iff.mp found with ⟨directory, walked, found⟩
    rcases bind_eq_ok_iff.mp found with ⟨_, required, rest⟩
    have required := varies.directory _ (requireDirectory_eq_ok_iff.mp required)
    rw [origin, varies.home]
    exact bind_eq_ok_iff.mpr ⟨directory, varies.foldlM_enter walked,
      bind_eq_ok_iff.mpr ⟨(), requireDirectory_eq_ok_iff.mpr required, rest⟩⟩

theorem Settles.of_varies {touched : Place → Prop} (settles : a.Settles path)
    (varies : a.Varies touched b) : b.Settles path :=
  settles.imp_right fun ⟨target?, found⟩ => ⟨target?, varies.target found⟩

theorem Settles.target_eq {touched : Place → Prop} (settles : a.Settles path)
    (varies : a.Varies touched b) : b.target path = a.target path := by
  rcases settles with ⟨failure, stuck⟩ | ⟨target?, found⟩
  · rw [target, target, stuck]
    rfl
  · rw [found, varies.target found]

/-! ## Replies -/

/-- Files of trees that are alike can be changed or, for the same reason, not. -/
theorem Alike.change_reply (alike : a.Alike loose b) (settles : a.Settles path)
    (change : Option ByteArray → ByteArray) :
    (b.settle (b.change path change)).1 = (a.settle (a.change path change)).1 := by
  rw [change_eq, change_eq, settles.target_eq alike.toVaries]
  rcases a.target path with failure | _ | target
  · rfl
  · rfl
  · simp only [bind, Except.bind, alike.directory_iff]
    split <;> rfl

/-- A file that both have can be moved in both or, for the same reason, in neither. -/
theorem Alike.rename_reply (alike : a.Alike loose b) (settles : a.Settles source)
    (settles' : a.Settles path) (same : ¬loose (source.placeFrom a.workingDirectory)) :
    (b.settle (b.rename source path)).1 = (a.settle (a.rename source path)).1 := by
  rw [rename, rename, settles.target_eq alike.toVaries, settles'.target_eq alike.toVaries]
  cases found : a.target source with
  | error failure => rfl
  | ok source? =>
      rcases a.target path with failure | path?
      · rfl
      · rcases source? with _ | source'
        · rfl
        · rcases path? with _ | path'
          · rfl
          · have node : b.node? source'.place = a.node? source'.place := by
              rw [(target_place found).1]
              exact alike.node?_eq same
            simp only [bind, Except.bind, node, alike.directory_iff]
            rcases a.node? source'.place with _ | _ | content
            · rfl
            · rfl
            · simp only
              split
              · rfl
              · split <;> rfl

end Tree

end Leasehold
