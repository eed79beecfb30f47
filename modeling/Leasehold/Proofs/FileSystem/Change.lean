import Leasehold.Proofs.FileSystem.Walk
import Leasehold.Proofs.Surroundings.Basic

/-!
# What file calls change

A file call changes the contents at the places that its paths name, and makes a directory
where nothing was. That is so however it is answered, for a call that fails may have
spoilt the file that it was to write to, but no other.
-/

namespace Leasehold

/-- The paths at which a call may change the content of a file. -/
def FileCall.touches : FileCall → List Path
  | .create path => [path]
  | .openFile path => [path]
  | .write path _ => [path]
  | .append path _ => [path]
  | .rename source target => [source, target]
  | .remove path => [path]
  | _ => []

namespace Tree

open Leasehold.Path

variable {touched : Place → Prop} {tree tree' : Tree} {path : Path} {place : Place}
  {content : ByteArray}

theorem Varies.put (proper : place ≠ []) (file : tree.node? place ≠ some .directory)
    (here : touched place) : tree.Varies touched (tree.put place (.file content)) := by
  constructor
  · rfl
  · intro other untouched
    have different : other ≠ place := fun same => untouched (same ▸ here)
    rw [content?, content?, node?_put tree proper, if_neg different]
  · intro other directory
    have different : other ≠ place := fun same => file (same ▸ directory)
    rw [node?_put tree proper, if_neg different, directory]

theorem Varies.drop (proper : place ≠ []) (file : tree.node? place ≠ some .directory)
    (here : touched place) : tree.Varies touched (tree.drop place) := by
  constructor
  · rfl
  · intro other untouched
    have different : other ≠ place := fun same => untouched (same ▸ here)
    rw [content?, content?, node?_drop tree proper, if_neg different]
  · intro other directory
    have different : other ≠ place := fun same => file (same ▸ directory)
    rw [node?_drop tree proper, if_neg different, directory]

/-- A new directory is where nothing was. -/
theorem Varies.putDirectory (proper : place ≠ []) (vacant : tree.node? place = none) :
    tree.Varies touched (tree.put place .directory) := by
  constructor
  · rfl
  · intro other _
    rw [content?, content?, node?_put tree proper]
    by_cases same : other = place
    · rw [if_pos same, same, vacant]
    · rw [if_neg same]
  · intro other directory
    have different : other ≠ place := by
      rintro rfl
      rw [vacant] at directory
      contradiction
    rw [node?_put tree proper, if_neg different, directory]

theorem proper_of_file (found : tree.node? place = some (.file content)) : place ≠ [] := by
  rintro rfl
  exact absurd found nofun

/-- What a call that changes the content of a file does. -/
theorem change_eq_ok {change : Option ByteArray → ByteArray}
    (changed : tree.change path change = .ok tree') : ∃ place found,
      tree.writable path = .ok (place, found) ∧ tree' = tree.put place (.file (change found)) := by
  rcases bind_eq_ok_iff.mp changed with ⟨⟨place, found⟩, writable, same⟩
  exact ⟨place, found, writable, (Except.ok.inj same).symm⟩

theorem Varies.change {change : Option ByteArray → ByteArray}
    (changed : tree.change path change = .ok tree')
    (here : touched (path.placeFrom tree.workingDirectory)) : tree.Varies touched tree' := by
  rcases change_eq_ok changed with ⟨place, found, writable, rfl⟩
  rcases writable_place writable with ⟨rfl, proper, file, -⟩
  exact .put proper file here

/-- A file that was changed can be read. -/
theorem read_of_change {change : Option ByteArray → ByteArray}
    (changed : tree.change path change = .ok tree') :
    tree'.read path =
      .ok (change (tree.content? (path.placeFrom tree.workingDirectory))) := by
  have varies : tree.Varies (fun _ => True) tree' := .change changed trivial
  rcases change_eq_ok changed with ⟨place, found, writable, rfl⟩
  obtain rfl := found_of_writable writable
  rcases writable_place writable with ⟨rfl, proper, -, reaches⟩
  refine read_eq_ok_iff.mpr ⟨_, varies.reaches reaches, ?_⟩
  rw [node?_put tree proper, if_pos rfl]

/-- A change that is reported to be done was done. -/
theorem eq_ok_of_settle {outcome : Except IoFailure Tree}
    (done : (tree.settle outcome).1 = .ok ()) : outcome = .ok (tree.settle outcome).2 := by
  cases outcome with
  | ok tree' => rfl
  | error failure => contradiction

/-- What moving a file does. -/
theorem rename_eq_ok {source target : Path} (renamed : tree.rename source target = .ok tree') :
    ∃ place content, tree.node? (source.placeFrom tree.workingDirectory) = some (.file content) ∧
      place = target.placeFrom tree.workingDirectory ∧ place ≠ [] ∧
      tree.node? place ≠ some .directory ∧ tree.Reaches target place ∧
      tree' = (tree.drop (source.placeFrom tree.workingDirectory)).put place (.file content) := by
  rw [Tree.rename] at renamed
  rcases bind_eq_ok_iff.mp renamed with ⟨_ | source', first, rest⟩
  · rcases bind_eq_ok_iff.mp rest with ⟨_ | _, -, rest⟩ <;> contradiction
  · rcases bind_eq_ok_iff.mp rest with ⟨_ | target', second, rest⟩
    · contradiction
    · rcases target_place first with ⟨place, -⟩
      rcases target_place second with ⟨place', reaches⟩
      rw [← place, ← place']
      simp only at rest
      split at rest
      · contradiction
      · contradiction
      next content stored =>
        split at rest
        · contradiction
        next plain =>
          split at rest
          · contradiction
          next file =>
            cases rest
            rw [Bool.or_eq_true, not_or] at plain
            exact ⟨_, content, stored, rfl, List.cons_ne_nil _ _, file,
              reaches (by simpa using plain.2), rfl⟩

theorem Varies.rename {source target : Path} (renamed : tree.rename source target = .ok tree')
    (here : touched (source.placeFrom tree.workingDirectory))
    (here' : touched (target.placeFrom tree.workingDirectory)) : tree.Varies touched tree' := by
  rcases rename_eq_ok renamed with ⟨place, content, stored, rfl, proper, file, -, rfl⟩
  have proper' := proper_of_file stored
  have file' : tree.node? (source.placeFrom tree.workingDirectory) ≠ some .directory := by
    simp [stored]
  refine (Varies.drop proper' file' here).trans (.put proper ?_ here')
  rw [node?_drop tree proper']
  split
  · simp
  · exact file

theorem Varies.remove (removed : tree.remove path = .ok tree')
    (here : touched (path.placeFrom tree.workingDirectory)) : tree.Varies touched tree' := by
  rcases bind_eq_ok_iff.mp removed with ⟨⟨place, _ | content⟩, located, same⟩
  · contradiction
  · cases same
    rcases locate_eq_ok_iff.mp located with ⟨reaches, stored⟩
    exact .drop (proper_of_file stored) (by simp [stored]) (reaches.eq_placeFrom ▸ here)

theorem Varies.makeDirectory (made : tree.makeDirectory path = .ok tree') :
    tree.Varies touched tree' := by
  rcases bind_eq_ok_iff.mp made with ⟨_ | target, -, rest⟩
  · contradiction
  · simp only at rest
    split at rest
    · contradiction
    next vacant =>
      cases rest
      exact .putDirectory (List.cons_ne_nil _ _) vacant

/-- A call that may fail changes nothing if it does. -/
theorem Varies.settle {outcome : Except IoFailure Tree}
    (varies : ∀ tree', outcome = .ok tree' → tree.Varies touched tree') :
    tree.Varies touched (tree.settle outcome).2 := by
  cases outcome with
  | ok tree' => exact varies tree' rfl
  | error failure => exact .refl touched tree

end Tree

/-- However a call is answered, only the files at the paths that it names may differ. -/
theorem FileCall.Replies.varies {touched : Place → Prop} {tree tree' : Tree} {call : FileCall}
    {reply : call.Reply} (replies : call.Replies tree reply tree')
    (within : ∀ path ∈ call.touches, touched (path.placeFrom tree.workingDirectory)) :
    tree.Varies touched tree' := by
  cases replies with
  | served =>
      cases call with
      | create path | openFile path | write path content | append path content =>
          exact .settle fun _ changed => .change changed (within path List.mem_cons_self)
      | rename source target =>
          exact .settle fun _ renamed => .rename renamed (within source List.mem_cons_self)
            (within target (List.mem_cons_of_mem _ List.mem_cons_self))
      | remove path => exact .settle fun _ removed => .remove removed (within path List.mem_cons_self)
      | makeDirectory path => exact .settle fun _ made => .makeDirectory made
      | isPresent | isFile | isDirectory | read | lock | unlock => exact .refl touched tree
  | refused failure => exact .refl touched tree
  | spoilt failure risks writable content =>
      rcases Tree.writable_place writable with ⟨rfl, proper, file, -⟩
      refine .put proper file (within _ ?_)
      cases call <;> cases risks <;> exact List.mem_cons_self

/-- A call that is to write to a file is refused and alters nothing, or its path leads
somewhere. -/
theorem FileCall.Replies.unaltered_or_reaches {tree later : Tree} {call : FileCall}
    {reply : call.Reply} {path : Path} (replies : call.Replies tree reply later)
    (risks : call.risks? = some path) :
    (∃ failure, reply = call.refusal failure) ∧ later = tree ∨ ∃ place, tree.Reaches path place := by
  have leads {place : Place} {found : Option ByteArray}
      (writable : tree.writable path = .ok (place, found)) : ∃ place, tree.Reaches path place :=
    ⟨place, (Tree.writable_place writable).2.2.2⟩
  have settled (change : Option ByteArray → ByteArray) :
      (∃ failure, (tree.settle (tree.change path change)).1 = .error failure) ∧
          (tree.settle (tree.change path change)).2 = tree ∨
        ∃ place, tree.Reaches path place := by
    cases changed : tree.change path change with
    | error failure => exact .inl ⟨⟨failure, rfl⟩, rfl⟩
    | ok later =>
        rcases Tree.change_eq_ok changed with ⟨place, found, writable, -⟩
        exact .inr (leads writable)
  cases replies with
  | served =>
      cases call with
      | create | openFile | write | append =>
          obtain rfl := Option.some.inj risks
          exact settled _
      | _ => cases risks
  | refused failure => exact .inl ⟨⟨failure, rfl⟩, rfl⟩
  | spoilt failure risks' writable content =>
      obtain rfl := Option.some.inj (risks.symm.trans risks')
      exact .inr (leads writable)

end Leasehold
