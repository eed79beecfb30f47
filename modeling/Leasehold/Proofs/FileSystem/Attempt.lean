import Leasehold.Proofs.FileSystem.Disk

/-!
# Attempts to replace a file

A file is replaced by way of a temporary one. If a call fails on the way the replacement
fails; then it has altered the temporary file at most, and that is gone, unless it could
not be written to in the first place. Where the same goes wrong the replacement goes alike,
whether or not there was a temporary file before.
-/

namespace Leasehold

open Leasehold.Path

/-! ## Temporary files -/

namespace Tree

variable {tree : Tree} {path base : Path} {place folder : Place} {name : String}

/-- Where the path of a file leads a file is removed, if it is there. -/
theorem node?_remove (reaches : tree.Reaches path place)
    (file : tree.node? place ≠ some .directory) :
    (tree.settle (tree.remove path)).2.node? place = none := by
  cases found : tree.node? place with
  | none =>
      cases located : tree.locate path with
      | error failure =>
          rw [remove, located]
          exact found
      | ok entry =>
          rcases locate_eq_ok_iff.mp located with ⟨reaches', found'⟩
          rw [reaches'.eq_placeFrom, ← reaches.eq_placeFrom, found] at found'
          contradiction
  | some node =>
      rw [remove, locate_eq_ok_iff.mpr ⟨reaches, found⟩]
      cases node with
      | directory => exact absurd found file
      | file content =>
          change (tree.drop place).node? place = none
          rw [node?_drop _ (proper_of_file found), if_pos rfl]

/-- That a path cannot be walked at all, or leads to a place. -/
def LeadsAtMost (tree : Tree) (path : Path) (place : Place) : Prop :=
  (∃ failure, walkable path = .error failure) ∨ tree.Reaches path place

theorem Reaches.settles (reaches : tree.Reaches (base.join name) (name :: folder))
    (isName : IsFileName name) : tree.Settles (base.join name) :=
  .inr ⟨_, target_join reaches isName⟩

theorem LeadsAtMost.settles (leads : tree.LeadsAtMost (base.join name) (name :: folder))
    (isName : IsFileName name) : tree.Settles (base.join name) :=
  leads.elim .inl fun reaches => reaches.settles isName

/-- The file of a path can neither be changed nor removed, or the path leads to where a
file is or can be. -/
theorem fixed_or_free (tree : Tree) (path : Path) :
    ((∀ change, ∃ failure, tree.change path change = .error failure) ∧
      (tree.settle (tree.remove path)).2 = tree) ∨
    ∃ place, tree.Reaches path place ∧ tree.node? place ≠ some .directory := by
  by_cases free : ∃ place, tree.Reaches path place ∧ tree.node? place ≠ some .directory
  · exact .inr free
  · refine .inl ⟨fun change => ?_, ?_⟩
    · cases changed : tree.change path change with
      | error failure => exact ⟨failure, rfl⟩
      | ok later =>
          rcases change_eq_ok changed with ⟨place, _, writable, -⟩
          rcases writable_place writable with ⟨-, -, file, reaches⟩
          exact absurd ⟨place, reaches, file⟩ free
    · cases removed : tree.remove path with
      | error failure => rfl
      | ok later =>
          rcases bind_eq_ok_iff.mp removed with ⟨⟨place, _ | content⟩, located, same⟩
          · contradiction
          · rcases locate_eq_ok_iff.mp located with ⟨reaches, found⟩
            exact absurd ⟨place, reaches, by simp [found]⟩ free

/-- Where a file cannot be changed no attempt to make it succeeds or alters anything. -/
theorem serveAmid_create_of_fixed
    (fixed : ∀ change, ∃ failure, tree.change path change = .error failure)
    (mishap? : Option Mishap) :
    ∃ failure, tree.serveAmid mishap? (.create path) = (.error failure, tree) := by
  rw [serveAmid]
  split
  next mishap _ =>
    refine ⟨mishap.failure, congrArg (Prod.mk _) ?_⟩
    rw [spoil.eq_def]
    split
    next risked content risks _ =>
      obtain rfl := Option.some.inj risks
      rcases fixed fun _ => content with ⟨_, stuck⟩
      rw [stuck]
      rfl
    next => rfl
  next =>
    rcases fixed fun _ => ByteArray.empty with ⟨failure, stuck⟩
    refine ⟨failure, ?_⟩
    rw [serve, stuck]
    rfl

/-- A move that fails moves nothing. -/
theorem serveAmid_rename_error {mishap? : Option Mishap} {source target : Path}
    {failure : IoFailure}
    (failed : (tree.serveAmid mishap? (.rename source target)).1 = .error failure) :
    (tree.serveAmid mishap? (.rename source target)).2 = tree := by
  rcases (tree.replies_serveAmid mishap? (.rename source target)).served_or_refused with
    ⟨said, same⟩ | ⟨_, -, unchanged⟩
  · rw [failed] at said
    rw [same]
    cases renamed : tree.rename source target with
    | error _ => simp [serve, renamed, settle]
    | ok later => simp [serve, renamed, settle] at said
  · exact unchanged rfl

end Tree

namespace FileSystem

variable {a b disk : Disk} {temporary path base : Path} {folder : Place} {name : String}
  {content : ByteArray} {failure : IoFailure}

/-! ## Failures -/

theorem fails_abandon (temporary : Path) (failure : IoFailure) :
    FileProgram.Fails (abandon temporary failure) :=
  fun _ => ⟨failure, rfl⟩

theorem heeds_abandon (temporary : Path) (failure : IoFailure) :
    FileProgram.Heeds (abandon temporary failure) :=
  fun _ => ⟨fun _ => ⟨failure, rfl⟩, trivial⟩

theorem heeds_replaceBy (temporary path : Path) (content : ByteArray) :
    FileProgram.Heeds (replaceBy temporary path content) := by
  rintro (failure | _)
  · exact ⟨fun _ => fails_abandon temporary failure, heeds_abandon temporary failure⟩
  · refine ⟨nofun, ?_⟩
    rintro (failure | _)
    · exact ⟨fun _ => fails_abandon temporary failure, heeds_abandon temporary failure⟩
    · refine ⟨nofun, ?_⟩
      rintro (failure | _)
      · exact ⟨fun _ => fails_abandon temporary failure, heeds_abandon temporary failure⟩
      · exact ⟨nofun, trivial⟩

/-- A replacement fails once a call has. -/
theorem heeds_replaceFile (pid : Nat) (path : Path) (content : ByteArray) :
    FileProgram.Heeds (replaceFile pid path content) := by
  have ensures : FileProgram.Heeds (ensureParent path) :=
    .of_only ((ensureParent_only path).mono fun call about => by
      cases call <;> first | contradiction | exact fun _ => rfl)
  refine ensures.bind (fun failure => ⟨failure, rfl⟩) ?_
  rintro (failure | _)
  · trivial
  · simp only
    split
    · trivial
    · exact heeds_replaceBy _ path content

/-! ## What is left of a replacement that fails -/

/-- That a program, whatever it has altered of the file at a place, ends by giving up a
replacement. -/
inductive Abandons (temporary : Path) (place : Place) :
    Disk → FileProgram (Except IoFailure Unit) → Prop
  | last (disk : Disk) (failure : IoFailure) :
      Abandons temporary place disk (abandon temporary failure)
  | step {disk : Disk} {call : FileCall}
      {next : call.Reply → FileProgram (Except IoFailure Unit)}
      (alters : (disk.visit call).Alters (· = place))
      (rest : Abandons temporary place (disk.serve call).2 (next (disk.serve call).1)) :
      Abandons temporary place disk (.step call next)

variable {place : Place} {program : FileProgram (Except IoFailure Unit)}

/-- A call that names one path alters the file there only. -/
theorem alters_visit (disk : Disk) (call : FileCall) (plain : call.isMaking = false)
    (only : call.touches = [temporary])
    (begins : temporary.placeFrom disk.tree.workingDirectory = place) :
    (disk.visit call).Alters (· = place) := by
  refine FileVisit.alters plain fun touched member => ?_
  obtain rfl := List.mem_singleton.mp (only ▸ member)
  exact begins

/-- A replacement that fails gives up, having altered no file but the temporary one. -/
theorem replaceBy_abandons (begins : temporary.placeFrom disk.tree.workingDirectory = place)
    (failed : (disk.run (replaceBy temporary path content)).1 = .error failure) :
    Abandons temporary place disk (replaceBy temporary path content) := by
  rw [replaceBy, FileCall.perform, Program.perform_bind] at failed ⊢
  have created := alters_visit disk (.create temporary) rfl rfl begins
  refine .step created ?_
  rw [Disk.run_step] at failed
  have begins₁ : temporary.placeFrom (disk.serve (.create temporary)).2.tree.workingDirectory =
      place := by
    rw [← begins]
    exact congrArg temporary.placeFrom created.home
  generalize (disk.serve (.create temporary)) = outcome at failed begins₁ ⊢
  obtain ⟨failure | _, disk₁⟩ := outcome
  · exact .last disk₁ failure
  · have written := alters_visit disk₁ (.write temporary content) rfl rfl begins₁
    refine .step written ?_
    simp only [FileCall.perform, Program.perform_bind, Disk.run_step] at failed
    generalize (disk₁.serve (.write temporary content)) = outcome at failed ⊢
    obtain ⟨failure | _, disk₂⟩ := outcome
    · exact .last disk₂ failure
    · have moved (failure : IoFailure)
          (said : (disk₂.serve (.rename temporary path)).1 = .error failure) :
          (disk₂.visit (.rename temporary path)).Alters (· = place) := by
        have same : (disk₂.visit (.rename temporary path)).left = disk₂.tree :=
          Tree.serveAmid_rename_error said
        rw [FileVisit.Alters, same]
        exact .refl _ disk₂.tree
      simp only [Disk.run_step] at failed
      cases said : (disk₂.serve (.rename temporary path)).1 with
      | error failure =>
          refine .step (moved failure said) ?_
          rw [said]
          exact .last _ failure
      | ok _ => simp [said] at failed

/-- It has altered no other file when it ends. -/
theorem Abandons.alters (abandons : Abandons temporary place disk program)
    (begins : temporary.placeFrom disk.tree.workingDirectory = place) :
    ∀ visit ∈ disk.visits program, visit.Alters (· = place) := by
  induction abandons with
  | last disk failure =>
      exact List.forall_mem_singleton.mpr
        (FileVisit.alters rfl (List.forall_mem_singleton.mpr begins))
  | step altered rest ih =>
      rw [Disk.visits_step, List.forall_mem_cons]
      refine ⟨altered, ih ?_⟩
      rw [← begins]
      exact congrArg temporary.placeFrom altered.home

/-- The temporary file is gone if it can be reached. -/
theorem Abandons.gone (abandons : Abandons temporary place disk program)
    (reaches : disk.tree.Reaches temporary place)
    (file : disk.tree.node? place ≠ some .directory) :
    (disk.run program).2.tree.node? place = none := by
  induction abandons with
  | last disk failure =>
      have removed : (disk.run (abandon temporary failure)).2.tree =
          (disk.tree.settle (disk.tree.remove temporary)).2 :=
        congrArg Prod.snd (Tree.serveAmid_of_safe fun _ => rfl)
      rw [removed]
      exact Tree.node?_remove reaches file
  | step altered rest ih =>
      exact ih (altered.reaches reaches) (mt altered.directory_iff.mp file)

/-- A replacement that fails is undone: it has altered no file but the temporary one, and
that is gone or has not been altered either. -/
theorem replaceBy_undone (begins : temporary.placeFrom disk.tree.workingDirectory = place)
    (failed : (disk.run (replaceBy temporary path content)).1 = .error failure) :
    Disk.Undone (fun _ => False) place disk (replaceBy temporary path content) := by
  have abandons := replaceBy_abandons begins failed
  refine ⟨fun visit member => (abandons.alters begins visit member).mono fun _ => .inr, ?_⟩
  rcases disk.tree.fixed_or_free temporary with ⟨fixed, stays⟩ | ⟨reached, reaches, file⟩
  · right
    rcases Tree.serveAmid_create_of_fixed fixed disk.mishaps.head?.join with ⟨failure, unmade⟩
    have created : disk.serve (.create temporary) =
        (.error failure, ⟨disk.tree, disk.mishaps.tail⟩) := by
      simp only [Disk.serve, FileVisit.reply, FileVisit.left, Disk.visit, unmade]
    have visits : disk.visits (replaceBy temporary path content) =
        [disk.visit (.create temporary),
          Disk.visit ⟨disk.tree, disk.mishaps.tail⟩ (.remove temporary)] := by
      rw [replaceBy, FileCall.perform, Program.perform_bind, Disk.visits_step, created]
      rfl
    have idle (disk : Disk) (call : FileCall) (same : (disk.visit call).left = disk.tree) :
        (disk.visit call).Alters fun _ => False := by
      rw [FileVisit.Alters, same]
      exact .refl _ disk.tree
    rw [visits, List.forall_mem_cons, List.forall_mem_singleton]
    refine ⟨idle disk _ (congrArg Prod.snd unmade), idle _ _ ?_⟩
    exact (congrArg Prod.snd (Tree.serveAmid_of_safe fun _ => rfl)).trans stays
  · obtain rfl : reached = place := reaches.eq_placeFrom.trans begins
    exact .inl (abandons.gone reaches file)

/-! ## Replacements where the same goes wrong -/

variable {loose : Place → Prop}

theorem runAlike_abandon (alike : a.Alike loose b)
    (here : loose (temporary.placeFrom a.tree.workingDirectory)) (failure : IoFailure) :
    Disk.RunAlike loose a b (abandon temporary failure) :=
  ⟨rfl, alike.serve rfl (List.forall_mem_singleton.mpr here)⟩

/-- A file that has been written on both disks is moved alike. -/
theorem alike_rename (alike : a.Alike loose b)
    (written : a.tree.content? (temporary.placeFrom a.tree.workingDirectory) = some content)
    (written' : b.tree.content? (temporary.placeFrom b.tree.workingDirectory) = some content)
    (settles : a.tree.Settles temporary) (settles' : a.tree.Settles path)
    (here : loose (temporary.placeFrom a.tree.workingDirectory)) :
    (b.serve (.rename temporary path)).1 = (a.serve (.rename temporary path)).1 ∧
      (a.serve (.rename temporary path)).2.Alike loose (b.serve (.rename temporary path)).2 := by
  have same : (b.serve (.rename temporary path)).1 = (a.serve (.rename temporary path)).1 := by
    have content := written'.trans written.symm
    rw [alike.tree.home] at content
    exact alike.reply ((alike.tree.narrow content).rename_reply settles settles' fun h => h.2 rfl)
  refine ⟨same, ?_⟩
  cases said : (a.serve (.rename temporary path)).1 with
  | error failure =>
      have unmoved : (a.serve (.rename temporary path)).2.tree = a.tree :=
        Tree.serveAmid_rename_error said
      have unmoved' : (b.serve (.rename temporary path)).2.tree = b.tree :=
        Tree.serveAmid_rename_error (same.trans said)
      refine ⟨?_, congrArg List.tail alike.mishaps⟩
      rw [unmoved, unmoved']
      exact alike.tree
  | ok _ =>
      have led := a.leads_serve (.rename temporary path)
      have led' := b.leads_serve (.rename temporary path)
      rw [same, said] at led'
      rw [said] at led
      have content := Tree.content?_of_read (read_of_rename id written led)
      have content' := Tree.content?_of_read (read_of_rename id written' led')
      rw [Disk.home_serve] at content
      rw [Disk.home_serve, alike.tree.home] at content'
      -- Where the file has been moved to both now hold the same.
      let wider (place : Place) : Prop := loose place ∨ place = path.placeFrom a.tree.workingDirectory
      have within : (FileCall.rename temporary path).Touches wider a.tree.workingDirectory :=
        List.forall_mem_cons.mpr ⟨.inl here, List.forall_mem_singleton.mpr (.inr rfl)⟩
      have alike' : a.Alike wider b := ⟨alike.tree.mono fun _ => .inl, alike.mishaps⟩
      have after := alike'.serve rfl within
      refine ⟨(after.tree.narrow (content'.trans content.symm)).mono ?_, after.mishaps⟩
      rintro place ⟨member | here, elsewhere⟩
      · exact member
      · contradiction

/-- A replacement goes alike on disks on which the same goes wrong, even if there is a
temporary file on one and not on the other. -/
theorem runAlike_replaceBy (alike : a.Alike loose b) (settles : a.tree.Settles temporary)
    (settles' : a.tree.Settles path)
    (here : loose (temporary.placeFrom a.tree.workingDirectory)) :
    Disk.RunAlike loose a b (replaceBy temporary path content) := by
  have touches (disk : Disk) (begins : disk.tree.workingDirectory = a.tree.workingDirectory)
      (call : FileCall) (only : call.touches = [temporary]) :
      call.Touches loose disk.tree.workingDirectory := by
    rw [FileCall.Touches, only, begins]
    exact List.forall_mem_singleton.mpr here
  rw [replaceBy, FileCall.perform, Program.perform_bind]
  have alike₁ := alike.serve rfl (touches a rfl (.create temporary) rfl)
  have varies₁ := a.varies_serve (.create temporary)
  refine .step (alike.reply (alike.tree.change_reply settles _)) ?_
  generalize (a.serve (.create temporary)).2 = a₁ at alike₁ varies₁ ⊢
  generalize (b.serve (.create temporary)).2 = b₁ at alike₁ ⊢
  rintro (failure | _) -
  · exact runAlike_abandon alike₁ (varies₁.home ▸ here) failure
  · have alike₂ := alike₁.serve rfl (touches a₁ varies₁.home (.write temporary content) rfl)
    have varies₂ := varies₁.trans (a₁.varies_serve (.write temporary content))
    have here₂ := varies₂.home.symm ▸ here
    have same : (b₁.serve (.write temporary content)).1 = (a₁.serve (.write temporary content)).1 :=
      alike₁.reply (alike₁.tree.change_reply (settles.of_varies varies₁) _)
    refine .step same ?_
    rintro (failure | _) said
    · exact runAlike_abandon alike₂ here₂ failure
    · have led := a₁.leads_serve (.write temporary content)
      have led' := b₁.leads_serve (.write temporary content)
      rw [same, said] at led'
      rw [said] at led
      have written := content?_of_write led
      have written' := content?_of_write led'
      rw [← Disk.home_serve] at written written'
      rcases alike_rename alike₂ written written' (settles.of_varies varies₂)
        (settles'.of_varies varies₂) here₂ with ⟨same, alike₃⟩
      refine .step same ?_
      rintro (failure | _) -
      · exact runAlike_abandon alike₃ ((Disk.home_serve _ _).symm ▸ here₂) failure
      · exact .done alike₃ _

end FileSystem

end Leasehold
