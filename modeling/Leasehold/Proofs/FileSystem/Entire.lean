import Leasehold.Proofs.FileSystem.Above
import Leasehold.Proofs.FileSystem.Attempt

/-!
# Files are replaced entirely or not at all

Whatever goes wrong while a file is replaced, the file holds all of its old content or all
of the new one after every call, and the old one in the end unless the replacement is
reported to have succeeded. The temporary file is gone, no other file has changed, and
where nothing was there may be one of the directories above the path. So after any number
of replacements, of which some may have failed, a file holds what the last one of it that
succeeded has put there.
-/

namespace Leasehold

open FileSystem Leasehold.Path

/-! ## What stays where it is -/

namespace Tree

/-- That there is the same at a place in two trees, or that nothing was there and it is one
of the directories that were made. -/
def Retains (made : Place → Prop) (place : Place) (tree later : Tree) : Prop :=
  later.node? place = tree.node? place ∨
    made place ∧ tree.node? place = none ∧ later.node? place = some .directory

variable {made loose : Place → Prop} {place : Place} {tree later last : Tree}

theorem Retains.trans (first : tree.Retains made place later)
    (second : later.Retains made place last) : tree.Retains made place last := by
  rcases first with same | ⟨made, vacant, directory⟩
  · rcases second with same' | ⟨made, vacant, directory⟩
    · exact .inl (same'.trans same)
    · exact .inr ⟨made, same.symm.trans vacant, directory⟩
  · rcases second with same' | ⟨-, vacant', -⟩
    · exact .inr ⟨made, vacant, same'.trans directory⟩
    · exact absurd (vacant'.symm.trans directory) nofun

theorem Retains.content?_eq (retains : tree.Retains made place later) :
    later.content? place = tree.content? place := by
  rcases retains with same | ⟨-, vacant, directory⟩
  · rw [content?, content?, same]
  · rw [content?, content?, vacant, directory]

theorem Alike.retains (alike : tree.Alike loose later) (strict : ¬loose place) :
    tree.Retains made place later :=
  .inl (alike.node?_eq strict)

end Tree

/-- A call that is about directories keeps all that is there. -/
theorem FileCall.Replies.retains {made : Place → Prop} {tree later : Tree} {call : FileCall}
    {reply : call.Reply} (replies : call.Replies tree reply later)
    (about : call.isAboutDirectories = true)
    (makes : ∀ path, call = .makeDirectory path → made (path.placeFrom tree.workingDirectory))
    (place : Place) : tree.Retains made place later := by
  cases replies with
  | refused failure => exact .inl rfl
  | spoilt failure risks => cases call <;> contradiction
  | served =>
      cases call with
      | isPresent | isDirectory => exact .inl rfl
      | makeDirectory path =>
          rw [Tree.serve]
          cases outcome : tree.makeDirectory path with
          | error failure => exact .inl rfl
          | ok later =>
              rcases Tree.bind_eq_ok_iff.mp outcome with ⟨_ | target, targeted, rest⟩
              · contradiction
              · simp only at rest
                split at rest
                · contradiction
                next vacant =>
                  cases rest
                  have there := (Tree.target_place targeted).1
                  have proper : target.place ≠ [] := List.cons_ne_nil _ _
                  rw [Tree.settle, Tree.Retains, Tree.node?_put _ proper]
                  by_cases here : place = target.place
                  · rw [here, if_pos rfl, there]
                    exact .inr ⟨makes path rfl, there ▸ vacant, rfl⟩
                  · exact .inl (if_neg here)
      | _ => contradiction

namespace Disk

variable {α : Type} {disk : Disk} {program : FileProgram α}

/-- Every call of a program is one of those that it is limited to, and meets the same
working directory. -/
theorem call_of_only {allowed : FileCall → Prop} (only : program.Only allowed) :
    ∀ visit ∈ disk.visits program,
      allowed visit.call ∧ visit.met.workingDirectory = disk.tree.workingDirectory := by
  induction program generalizing disk with
  | done result => exact List.forall_mem_nil _
  | step call next ih =>
      rw [visits_step, List.forall_mem_cons]
      refine ⟨⟨only.1, rfl⟩, fun visit member => ?_⟩
      rcases ih _ (only.2 _) visit member with ⟨allowed, home⟩
      exact ⟨allowed, home.trans (disk.home_serve call)⟩

/-- What holds of the trees before and after each call, holds of those before a run and
after any of its calls, and of those before and after the run. -/
theorem of_visits {relation : Tree → Tree → Prop} (refl : ∀ tree, relation tree tree)
    (trans : ∀ {a b c}, relation a b → relation b c → relation a c)
    (each : ∀ visit ∈ disk.visits program, relation visit.met visit.left) :
    (∀ visit ∈ disk.visits program, relation disk.tree visit.left) ∧
      relation disk.tree (disk.run program).2.tree := by
  induction program generalizing disk with
  | done result => exact ⟨List.forall_mem_nil _, refl disk.tree⟩
  | step call next ih =>
      rw [visits_step, List.forall_mem_cons] at each
      rcases ih _ each.2 with ⟨visits, last⟩
      have first : relation disk.tree (disk.serve call).2.tree := each.1
      refine ⟨?_, trans first last⟩
      rw [visits_step, List.forall_mem_cons]
      exact ⟨first, fun visit member => trans first (visits visit member)⟩

end Disk

namespace FileSystem

variable {disk : Disk} {path temporary : Path} {content : ByteArray} {place : Place}

/-! ## Making the directories above a path -/

theorem makeMissing_makes (paths : List Path) :
    (makeMissing paths).Only fun call => ∀ path, call = .makeDirectory path → path ∈ paths := by
  have orDirectory (path : Path) (paths : List Path) (failure : IoFailure) :
      (do if ← (FileCall.isDirectory path).perform then return .ok () else return .error failure :
        FileProgram (Except IoFailure Unit)).Only
          fun call => ∀ path, call = .makeDirectory path → path ∈ paths := by
    refine ⟨nofun, ?_⟩
    rintro (_ | _) <;> trivial
  induction paths with
  | nil => trivial
  | cons path parents ih =>
      by_cases empty : path = ""
      · subst empty
        trivial
      · rw [makeMissing.eq_3 path parents empty]
        have here : ∀ other, FileCall.makeDirectory path = .makeDirectory other →
            other ∈ path :: parents := by
          rintro _ ⟨⟩
          exact List.mem_cons_self
        refine ⟨here, ?_⟩
        rintro (failure | _)
        · cases failure with
          | notFound =>
              have above := ih.mono fun call within other same =>
                List.mem_cons_of_mem path (within other same)
              apply Program.only_bind above
              rintro (failure | _)
              · trivial
              · refine ⟨here, ?_⟩
                rintro (failure | _)
                · exact orDirectory path _ failure
                · trivial
          | _ => exact orDirectory path _ _
        · trivial

/-- The directories that are made for a path are above it. -/
theorem ensureParent_makes (home : Place) (path : Path) :
    (ensureParent path).Only fun call =>
      ∀ made, call = .makeDirectory made → Above home path (made.placeFrom home) := by
  rw [ensureParent]
  split
  · trivial
  next parent found =>
    split
    · trivial
    · refine ⟨fun _ same => FileCall.noConfusion same, ?_⟩
      rintro (_ | _)
      · refine (makeMissing_makes _).mono fun call within made same => ?_
        exact above_of_mem_ancestors found (within made same)
      · trivial

/-- Making the directories above a path keeps all that is there, call by call. -/
theorem ensureParent_retains (disk : Disk) (path : Path) (place : Place) :
    (∀ visit ∈ disk.visits (ensureParent path),
      disk.tree.Retains (Above disk.tree.workingDirectory path) place visit.left) ∧
    disk.tree.Retains (Above disk.tree.workingDirectory path) place
      (disk.run (ensureParent path)).2.tree := by
  refine Disk.of_visits (fun _ => .inl rfl) Tree.Retains.trans fun visit member => ?_
  have about := (Disk.call_of_only (ensureParent_only path) visit member).1
  rcases Disk.call_of_only (ensureParent_makes disk.tree.workingDirectory path) visit member with
    ⟨makes, home⟩
  have replies := visit.met.replies_serveAmid visit.mishap? visit.call
  exact replies.retains about (fun made same => home.symm ▸ makes made same) place

/-! ## Moving the temporary file over the old one -/

variable {failure : IoFailure}

/-- A replacement that fails keeps all files but the temporary one, call by call. -/
theorem replaceBy_failed (begins : temporary.placeFrom disk.tree.workingDirectory = place)
    (failed : (disk.run (replaceBy temporary path content)).1 = .error failure) :
    (∀ visit ∈ disk.visits (replaceBy temporary path content),
      disk.tree.Alike (· = place) visit.left) ∧
    disk.tree.Alike (· = place) (disk.run (replaceBy temporary path content)).2.tree :=
  Disk.of_visits (Tree.Alike.refl _) Tree.Alike.trans
    ((replaceBy_abandons begins failed).alters begins)

/-- Nothing is left where a file has been moved from. -/
theorem vacant_of_rename {tree later : Tree}
    (replies : (FileCall.rename temporary path).Replies tree (.ok ()) later)
    (apart : temporary.placeFrom tree.workingDirectory ≠ path.placeFrom tree.workingDirectory) :
    later.node? (temporary.placeFrom tree.workingDirectory) = none := by
  rcases replies.served_or_refused with ⟨said, rfl⟩ | ⟨failure, said, -⟩
  · have renamed := Tree.eq_ok_of_settle said.symm
    rcases Tree.rename_eq_ok renamed with ⟨_, _, stored, rfl, proper, -, -, same⟩
    change (tree.settle (tree.rename temporary path)).2.node? _ = none
    rw [same, Tree.node?_put _ proper, if_neg apart, Tree.node?_drop _ (Tree.proper_of_file stored),
      if_pos rfl]
  · cases said

/-- A temporary file that has been moved is gone, its content is where it was moved to, and
all other files are kept. -/
theorem serve_rename (begins : temporary.placeFrom disk.tree.workingDirectory = place)
    (apart : place ≠ path.placeFrom disk.tree.workingDirectory)
    (written : disk.tree.content? place = some content)
    (moved : (disk.serve (.rename temporary path)).1 = .ok ()) :
    disk.tree.Alike (fun other => other = place ∨ other = path.placeFrom disk.tree.workingDirectory)
      (disk.serve (.rename temporary path)).2.tree ∧
    (disk.serve (.rename temporary path)).2.tree.read path = .ok content ∧
    (disk.serve (.rename temporary path)).2.tree.node? place = none := by
  have alters : (disk.visit (.rename temporary path)).Alters
      fun other => other = place ∨ other = path.placeFrom disk.tree.workingDirectory :=
    FileVisit.alters rfl <| List.forall_mem_cons.mpr
      ⟨.inl begins, List.forall_mem_singleton.mpr (.inr rfl)⟩
  have led := disk.leads_serve (.rename temporary path)
  have replies := disk.tree.replies_serveAmid disk.mishaps.head?.join (.rename temporary path)
  rw [moved] at led
  rw [show (disk.tree.serveAmid disk.mishaps.head?.join (.rename temporary path)).1 = .ok () from
    moved] at replies
  subst begins
  exact ⟨alters, read_of_rename id written led, vacant_of_rename replies apart⟩

/-- A replacement that succeeds moves the new content to its place with its last call; up to
then it keeps all files but the temporary one, which is gone after that. -/
theorem replaceBy_succeeded (begins : temporary.placeFrom disk.tree.workingDirectory = place)
    (apart : place ≠ path.placeFrom disk.tree.workingDirectory)
    (succeeds : (disk.run (replaceBy temporary path content)).1 = .ok ()) :
    (∀ visit ∈ disk.visits (replaceBy temporary path content),
      disk.tree.Alike (· = place) visit.left ∨
        visit.left = (disk.run (replaceBy temporary path content)).2.tree) ∧
    disk.tree.Alike (fun other => other = place ∨ other = path.placeFrom disk.tree.workingDirectory)
      (disk.run (replaceBy temporary path content)).2.tree ∧
    (disk.run (replaceBy temporary path content)).2.tree.read path = .ok content ∧
    (disk.run (replaceBy temporary path content)).2.tree.node? place = none := by
  rw [replaceBy, FileCall.perform, Program.perform_bind] at succeeds ⊢
  simp only [Disk.run_step, Disk.visits_step] at succeeds ⊢
  have created : disk.tree.Alike (· = place) (disk.serve (.create temporary)).2.tree :=
    alters_visit disk (.create temporary) rfl rfl begins
  have first : (disk.visit (.create temporary)).left = (disk.serve (.create temporary)).2.tree := rfl
  generalize disk.visit (.create temporary) = visit₁ at first ⊢
  generalize disk.serve (.create temporary) = outcome at created first succeeds ⊢
  obtain ⟨failure | _, disk₁⟩ := outcome
  · cases succeeds
  · simp only [FileCall.perform, Program.perform_bind, Disk.run_step,
      Disk.visits_step] at succeeds ⊢
    have begins₁ := created.home.symm ▸ begins
    have led := disk₁.leads_serve (.write temporary content)
    have written : disk₁.tree.Alike (· = place) (disk₁.serve (.write temporary content)).2.tree :=
      alters_visit disk₁ (.write temporary content) rfl rfl begins₁
    have second : (disk₁.visit (.write temporary content)).left =
      (disk₁.serve (.write temporary content)).2.tree := rfl
    generalize disk₁.visit (.write temporary content) = visit₂ at second ⊢
    generalize disk₁.serve (.write temporary content) = outcome at led written second succeeds ⊢
    obtain ⟨failure | _, disk₂⟩ := outcome
    · cases succeeds
    · simp only [Disk.run_step, Disk.visits_step] at succeeds ⊢
      have kept := created.trans written
      have home : disk₂.tree.workingDirectory = disk.tree.workingDirectory := kept.home
      have begins₂ : temporary.placeFrom disk₂.tree.workingDirectory = place := home ▸ begins
      have written : disk₂.tree.content? place = some content := by
        have written := content?_of_write led
        rwa [begins₁] at written
      cases said : (disk₂.serve (.rename temporary path)).1 with
      | error failure => rw [said] at succeeds; cases succeeds
      | ok _ =>
          rcases serve_rename begins₂ (home ▸ apart) written said with ⟨moved, reads, vacant⟩
          rw [home] at moved
          rw [List.forall_mem_cons, List.forall_mem_cons]
          exact ⟨⟨.inl (first ▸ created), .inl (second ▸ kept),
            List.forall_mem_singleton.mpr (.inr rfl)⟩,
            (kept.mono fun _ => .inl).trans moved, reads, vacant⟩

/-- A replacement ends without a temporary file once the directories above the path have
been seen to, or goes on by way of one. -/
theorem replaceFile_course (disk : Disk) (pid : Nat) (path : Path) (content : ByteArray) :
    (∃ failure, disk.run (replaceFile pid path content) =
        (.error failure, (disk.run (ensureParent path)).2) ∧
      disk.visits (replaceFile pid path content) = disk.visits (ensureParent path)) ∨
    ∃ temporary, temporary? pid path = some temporary ∧
      disk.run (replaceFile pid path content) =
        (disk.run (ensureParent path)).2.run (replaceBy temporary path content) ∧
      disk.visits (replaceFile pid path content) = disk.visits (ensureParent path) ++
        (disk.run (ensureParent path)).2.visits (replaceBy temporary path content) := by
  rw [replaceFile, Disk.run_bind, Disk.visits_bind]
  rcases (disk.run (ensureParent path)).1 with failure | _
  · exact .inl ⟨failure, rfl, List.append_nil _⟩
  · cases found : temporary? pid path with
    | none => exact .inl ⟨.invalidTarget path, rfl, List.append_nil _⟩
    | some temporary => exact .inr ⟨temporary, rfl, rfl, rfl⟩

/-! ## Single replacements -/

/-- A call to replace a file. -/
structure Replacement where
  pid : Nat
  path : Path
  content : ByteArray

namespace Replacement

/-- What the call does. -/
def program (call : Replacement) : FileProgram (Except IoFailure Unit) :=
  replaceFile call.pid call.path call.content

/-- Whether a place is that of the temporary file of a call. -/
def IsTemporary (call : Replacement) (home place : Place) : Prop :=
  ∃ temporary, temporary? call.pid call.path = some temporary ∧ place = temporary.placeFrom home

/-- That a call on a disk replaces its file entirely or not at all. -/
structure AllOrNothing (call : Replacement) (disk : Disk) : Prop where
  /-- If it succeeds the file holds the new content. -/
  replaced : (disk.run call.program).1 = .ok () →
    (disk.run call.program).2.tree.read call.path = .ok call.content
  /-- If it fails there is at the path what was there. -/
  kept : ∀ failure, (disk.run call.program).1 = .error failure →
    disk.tree.Retains (Above disk.tree.workingDirectory call.path)
      (call.path.placeFrom disk.tree.workingDirectory) (disk.run call.program).2.tree
  /-- There is no temporary file, unless it was there before and was never written to. -/
  cleared : ∀ place, call.IsTemporary disk.tree.workingDirectory place →
    (disk.run call.program).2.tree.node? place = none ∨
      disk.tree.Retains (Above disk.tree.workingDirectory call.path) place
          (disk.run call.program).2.tree ∧
        ∀ visit ∈ disk.visits call.program, visit.left.content? place = disk.tree.content? place
  /-- Everywhere else there is what was there. -/
  others : ∀ place, place ≠ call.path.placeFrom disk.tree.workingDirectory →
    ¬call.IsTemporary disk.tree.workingDirectory place →
      disk.tree.Retains (Above disk.tree.workingDirectory call.path) place
        (disk.run call.program).2.tree
  /-- After every step there is at the path what was there or all of the new content. -/
  entire : ∀ visit ∈ disk.visits call.program,
    disk.tree.Retains (Above disk.tree.workingDirectory call.path)
        (call.path.placeFrom disk.tree.workingDirectory) visit.left ∨
      visit.left.node? (call.path.placeFrom disk.tree.workingDirectory) =
        some (.file call.content)

variable {call : Replacement} {disk : Disk} {temporary : Path}

theorem isTemporary_iff (found : temporary? call.pid call.path = some temporary)
    {home place : Place} : call.IsTemporary home place ↔ place = temporary.placeFrom home := by
  simp [IsTemporary, found]

/-- A call that makes no temporary file only sees to the directories above its path. -/
theorem allOrNothing_of_ensureParent {failure : IoFailure}
    (ran : disk.run call.program = (.error failure, (disk.run (ensureParent call.path)).2))
    (visits : disk.visits call.program = disk.visits (ensureParent call.path)) :
    call.AllOrNothing disk := by
  have retained := ensureParent_retains disk call.path
  constructor
  · rw [ran]
    exact nofun
  · rw [ran]
    exact fun _ _ => (retained _).2
  · rw [ran, visits]
    exact fun place _ => .inr ⟨(retained place).2, fun visit member =>
      ((retained place).1 visit member).content?_eq⟩
  · rw [ran]
    exact fun place _ _ => (retained place).2
  · rw [visits]
    exact fun visit member => .inl ((retained _).1 visit member)

section

variable {reached : Disk} {before : List FileVisit}
  (ran : disk.run call.program = reached.run (replaceBy temporary call.path call.content))
  (visits : disk.visits call.program =
    before ++ reached.visits (replaceBy temporary call.path call.content))
  (found : temporary? call.pid call.path = some temporary)
  (home : reached.tree.workingDirectory = disk.tree.workingDirectory)
  (retained : ∀ place,
    (∀ visit ∈ before,
      disk.tree.Retains (Above disk.tree.workingDirectory call.path) place visit.left) ∧
    disk.tree.Retains (Above disk.tree.workingDirectory call.path) place reached.tree)
include ran visits found home retained

theorem allOrNothing_of_failed {failure : IoFailure}
    (failed : (reached.run (replaceBy temporary call.path call.content)).1 = .error failure) :
    call.AllOrNothing disk := by
  have begins : temporary.placeFrom reached.tree.workingDirectory =
      temporary.placeFrom disk.tree.workingDirectory := by rw [home]
  have apart := placeFrom_temporary?_ne found disk.tree.workingDirectory
  rcases replaceBy_failed begins failed with ⟨steps, last⟩
  have final {place : Place} (strict : place ≠ temporary.placeFrom disk.tree.workingDirectory) :
      disk.tree.Retains (Above disk.tree.workingDirectory call.path) place
        (disk.run call.program).2.tree := by
    rw [ran]
    exact (retained place).2.trans (last.retains strict)
  constructor
  · rw [ran, failed]
    exact nofun
  · exact fun _ _ => final apart.symm
  · intro place isTemporary
    obtain rfl := (isTemporary_iff found).mp isTemporary
    rw [ran, visits]
    refine (replaceBy_undone begins failed).gone.imp_right fun unaltered => ?_
    rcases Disk.of_visits (Tree.Alike.refl _) Tree.Alike.trans unaltered with ⟨steps, last⟩
    refine ⟨(retained _).2.trans (last.retains id), fun visit member => ?_⟩
    rcases List.mem_append.mp member with earlier | later
    · exact ((retained _).1 visit earlier).content?_eq
    · exact ((retained _).2.trans ((steps visit later).retains id)).content?_eq
  · exact fun place _ other => final fun same => other ((isTemporary_iff found).mpr same)
  · rw [visits]
    intro visit member
    rcases List.mem_append.mp member with earlier | later
    · exact .inl ((retained _).1 visit earlier)
    · exact .inl ((retained _).2.trans ((steps visit later).retains apart.symm))

theorem allOrNothing_of_succeeded
    (succeeds : (reached.run (replaceBy temporary call.path call.content)).1 = .ok ()) :
    call.AllOrNothing disk := by
  have begins : temporary.placeFrom reached.tree.workingDirectory =
      temporary.placeFrom disk.tree.workingDirectory := by rw [home]
  have apart := placeFrom_temporary?_ne found disk.tree.workingDirectory
  rcases replaceBy_succeeded begins (home.symm ▸ apart) succeeds with ⟨steps, last, reads, gone⟩
  rw [home] at last
  have holds : (reached.run (replaceBy temporary call.path call.content)).2.tree.node?
      (call.path.placeFrom disk.tree.workingDirectory) = some (.file call.content) := by
    rw [← home, ← (reached.varies_run (replaceBy temporary call.path call.content)).home]
    exact Tree.content?_eq_some_iff.mp (Tree.content?_of_read reads)
  constructor
  · rw [ran]
    exact fun _ => reads
  · rw [ran, succeeds]
    exact nofun
  · intro place isTemporary
    obtain rfl := (isTemporary_iff found).mp isTemporary
    rw [ran]
    exact .inl gone
  · intro place elsewhere other
    rw [ran]
    refine (retained place).2.trans (last.retains ?_)
    rintro (here | here)
    · exact other ((isTemporary_iff found).mpr here)
    · exact elsewhere here
  · rw [visits]
    intro visit member
    rcases List.mem_append.mp member with earlier | later
    · exact .inl ((retained _).1 visit earlier)
    · rcases steps visit later with alike | same
      · exact .inl ((retained _).2.trans (alike.retains apart.symm))
      · exact .inr (same ▸ holds)

end

/-- Every call on every disk replaces its file entirely or not at all. -/
theorem allOrNothing (call : Replacement) (disk : Disk) : call.AllOrNothing disk := by
  rcases replaceFile_course disk call.pid call.path call.content with
    ⟨failure, ran, visits⟩ | ⟨temporary, found, ran, visits⟩
  · exact allOrNothing_of_ensureParent ran visits
  · have home := (disk.varies_run (ensureParent call.path)).home
    have retained := ensureParent_retains disk call.path
    cases outcome : ((disk.run (ensureParent call.path)).2.run
        (replaceBy temporary call.path call.content)).1 with
    | error failure => exact allOrNothing_of_failed ran visits found home retained outcome
    | ok _ => exact allOrNothing_of_succeeded ran visits found home retained outcome

/-- What a call that fails leaves at a path that ends with a name and does not lead back is
what was there. -/
theorem node?_of_failed {failure : IoFailure} {name : String}
    (failed : (disk.run call.program).1 = .error failure)
    (named : call.path.fileName? = some name) (down : ".." ∉ call.path.names) :
    (disk.run call.program).2.tree.node? (call.path.placeFrom disk.tree.workingDirectory) =
      disk.tree.node? (call.path.placeFrom disk.tree.workingDirectory) :=
  ((call.allOrNothing disk).kept failure failed).resolve_right fun made =>
    not_above_placeFrom named down made.1

/-- A call on a path that leads back through its own place. -/
def roundabout : Replacement :=
  ⟨7, "a/../a", "x".toUTF8⟩

/-- A call on such a path that fails has made a directory there, for the place is one of the
directories that the path leads through. -/
theorem roundabout_leaves_directory :
    let disk : Disk := ⟨⟨[], []⟩, []⟩
    (disk.run roundabout.program).1 = .error .isDirectory ∧
      disk.tree.isPresent roundabout.path = false ∧
      (disk.run roundabout.program).2.tree.isDirectory roundabout.path = true := by
  decide +kernel

/-! ## Replacements one after another -/

/-- The content that is left at a place by a call that went in a certain way. -/
def leaves (home place : Place) (found : Option ByteArray) :
    Replacement × Except IoFailure Unit → Option ByteArray
  | (call, .ok ()) => if place = call.path.placeFrom home then some call.content else found
  | (_, .error _) => found

/-- A call leaves at a place that is not its temporary one what it says. -/
theorem content?_run {place : Place}
    (other : ¬call.IsTemporary disk.tree.workingDirectory place) :
    (disk.run call.program).2.tree.content? place =
      leaves disk.tree.workingDirectory place (disk.tree.content? place)
        (call, (disk.run call.program).1) := by
  have spec := call.allOrNothing disk
  by_cases here : place = call.path.placeFrom disk.tree.workingDirectory
  · subst here
    cases outcome : (disk.run call.program).1 with
    | error failure => exact (spec.kept failure outcome).content?_eq
    | ok _ =>
        have reads := Tree.content?_of_read (spec.replaced outcome)
        rw [(disk.varies_run call.program).home] at reads
        rw [reads, leaves, if_pos rfl]
  · rw [(spec.others place here other).content?_eq]
    cases (disk.run call.program).1 with
    | error failure => rfl
    | ok _ => rw [leaves, if_neg here]

end Replacement

end FileSystem

namespace Disk

open FileSystem

/-- A disk after calls, one after another. -/
def after (disk : Disk) : List Replacement → Disk
  | [] => disk
  | call :: calls => (disk.run call.program).2.after calls

/-- How the calls have gone. -/
def outcomes (disk : Disk) : List Replacement → List (Except IoFailure Unit)
  | [] => []
  | call :: calls => (disk.run call.program).1 :: (disk.run call.program).2.outcomes calls

/-- After any number of calls there is at a place that is not a temporary one what the last
call for it that succeeded has put there. -/
theorem content?_after (disk : Disk) (calls : List Replacement) {place : Place}
    (other : ∀ call ∈ calls, ¬call.IsTemporary disk.tree.workingDirectory place) :
    (disk.after calls).tree.content? place =
      (calls.zip (disk.outcomes calls)).foldl (Replacement.leaves disk.tree.workingDirectory place)
        (disk.tree.content? place) := by
  induction calls generalizing disk with
  | nil => rfl
  | cons call calls ih =>
      rw [List.forall_mem_cons] at other
      have home := (disk.varies_run call.program).home
      have rest := ih (disk.run call.program).2 (by rw [home]; exact other.2)
      rw [home, Replacement.content?_run other.1] at rest
      exact rest

/-- Each of a number of calls replaces its file entirely or not at all, on the disk that the
calls before it leave, and what they all leave at a place that is not a temporary one is what
the last call for it that succeeded has put there. -/
theorem replacements_all_or_nothing (disk : Disk) (calls : List Replacement) :
    (∀ before call after, calls = before ++ call :: after →
      call.AllOrNothing (disk.after before)) ∧
    ∀ place, (∀ call ∈ calls, ¬call.IsTemporary disk.tree.workingDirectory place) →
      (disk.after calls).tree.content? place =
        (calls.zip (disk.outcomes calls)).foldl
          (Replacement.leaves disk.tree.workingDirectory place) (disk.tree.content? place) :=
  ⟨fun before call _ _ => call.allOrNothing (disk.after before),
    fun _ other => disk.content?_after calls other⟩

end Disk

end Leasehold
