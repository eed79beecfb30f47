import Leasehold.Proofs.Database.Ready

/-!
# Calls to a database on which something goes wrong

A call to a database fails once one of its file calls has. Then it is undone: it may have
made the guard, but the keyspace has not been altered, nor any file but the temporary one,
and that is gone. A call that leaves the keyspace clean touches the guard at most.
-/

namespace Leasehold

open FileSystem Leasehold.Path

/-! ## Honest answers -/

/-- No mishap says of a file that is there that it is not. -/
theorem Tree.answers_serveAmid (tree : Tree) (mishap? : Option Mishap) (call : FileCall) :
    Tree.Answers call (tree.serveAmid mishap? call).1 tree (tree.serveAmid mishap? call).2 := by
  refine ⟨tree.replies_serveAmid mishap? call, ?_⟩
  cases call with
  | read path =>
      intro missing
      rw [serveAmid] at missing
      split at missing
      next mishap befalls =>
        have prone := (Option.filter_eq_some_iff.mp befalls).2
        simp [FileCall.isProneTo, Except.error.inj missing] at prone
      next => exact missing
  | _ => trivial

theorem Disk.answers_serve (disk : Disk) (call : FileCall) :
    Tree.Answers call (disk.serve call).1 disk.tree (disk.serve call).2.tree :=
  disk.tree.answers_serveAmid disk.mishaps.head?.join call

theorem Disk.runs_answers {α : Type} (disk : Disk) (program : FileProgram α) :
    program.Runs Tree.Answers disk.tree (disk.run program).1 (disk.run program).2.tree := by
  induction program generalizing disk with
  | done result => exact ⟨rfl, rfl⟩
  | step call next ih =>
      exact ⟨_, _, disk.answers_serve call, ih _ (disk.serve call).2⟩

namespace Database

variable {disk : Disk} {directory temporary : Path} {folder : Place} {pid : Pid}
  {keyspace : Keyspace} {now : Instant} {call : StoreCall} {content : ByteArray}

/-! ## Failures -/

theorem heeds_load (directory : Path) : FileProgram.Heeds (load directory) := by
  rw [load_eq]
  rintro (failure | content)
  · refine ⟨fun failed => ?_, trivial⟩
    have other : failure ≠ .notFound := by
      rintro rfl
      contradiction
    exact ⟨_, loaded_of_failed other _⟩
  · exact ⟨nofun, trivial⟩

theorem heeds_persist (pid : Pid) (directory : Path) (keyspace : Keyspace) :
    FileProgram.Heeds (persist pid directory keyspace) := by
  refine (heeds_replaceFile pid.toNat (keyspacePath directory) keyspace.write.toUTF8).bind
    (fun failure => ⟨_, rfl⟩) ?_
  rintro (failure | _) <;> trivial

theorem heeds_transact (pid : Pid) (directory : Path) (now : Instant) (call : StoreCall) :
    FileProgram.Heeds (transact pid directory now call) := by
  refine (heeds_load directory).bind (fun failure => ⟨failure, rfl⟩) ?_
  rintro (failure | keyspace)
  · trivial
  · simp only
    split
    · refine (heeds_persist pid directory _).bind (fun failure => ⟨failure, rfl⟩) ?_
      rintro (failure | _) <;> trivial
    · trivial

/-- A call to a database fails once a file call has. -/
theorem heeds_serve (pid : Pid) (directory : Path) (now : Instant) (call : StoreCall) :
    FileProgram.Heeds (serve pid directory now call) := by
  rintro (failure | _)
  · exact ⟨fun _ => ⟨_, rfl⟩, trivial⟩
  · refine ⟨nofun, ?_⟩
    rintro (failure | _)
    · exact ⟨fun _ => ⟨_, rfl⟩, trivial⟩
    · refine ⟨nofun, (heeds_transact pid directory now call).bind ?_ ?_⟩
      · exact fun failure _ => ⟨failure, rfl⟩
      · exact fun reply _ => ⟨nofun, trivial⟩

/-! ## What is left of a call that fails -/

theorem placeFrom_temporary (found : temporary? pid.toNat (keyspacePath directory) = some temporary)
    (home : Place) : temporary.placeFrom home =
      temporaryName pid.toNat "db.json" :: directory.placeFrom home := by
  rcases placeFrom_temporary? found home with ⟨name, parent, place, place'⟩
  rw [placeFrom_keyspacePath] at place
  rcases List.cons.inj place with ⟨rfl, rfl⟩
  exact place'

theorem exists_temporary (pid : Pid) (directory : Path) :
    ∃ temporary, temporary? pid.toNat (keyspacePath directory) = some temporary := by
  have named : (keyspacePath directory).fileName? = some "db.json" :=
    (fileName?_join directory isFileName_keyspace).1
  rw [temporary?, named]
  exact ⟨_, rfl⟩

/-- Where the keyspace can be reached its directory need not be made. -/
theorem run_ensureParent (reaches : disk.tree.Reaches (keyspacePath directory) ("db.json" :: folder)) :
    ∃ later, disk.run (ensureParent (keyspacePath directory)) = (.ok (), later) ∧
      later.tree = disk.tree ∧
      ∀ visit ∈ disk.visits (ensureParent (keyspacePath directory)), visit.Alters fun _ => False := by
  rcases temporary_leads reaches 0 with ⟨parent, found, leads, -, -⟩
  rw [ensureParent, found]
  simp only
  split
  · exact ⟨disk, rfl, rfl, List.forall_mem_nil _⟩
  next nonempty =>
    have present : disk.serve (.isPresent parent) = (true, ⟨disk.tree, disk.mishaps.tail⟩) := by
      rw [Disk.serve_of_safe fun _ => rfl, Tree.serve, leads.resolve_left nonempty]
    rw [FileCall.perform, Program.perform_bind, Disk.run_step, Disk.visits_step, present]
    exact ⟨_, rfl, rfl, List.forall_mem_singleton.mpr (Disk.alters_visit_of_touches _ _ rfl rfl)⟩

/-- A replacement of the keyspace that fails is undone. -/
theorem replaceFile_undone {failure : IoFailure}
    (reaches : disk.tree.Reaches (keyspacePath directory) ("db.json" :: folder))
    (failed : (disk.run (replaceFile pid.toNat (keyspacePath directory) content)).1 =
      .error failure) :
    Disk.Undone (fun _ => False) (temporaryName pid.toNat "db.json" :: folder) disk
      (replaceFile pid.toNat (keyspacePath directory) content) := by
  rcases temporary_leads reaches pid with ⟨parent, -, -, temporary, -⟩
  rcases run_ensureParent reaches with ⟨later, ran, same, idle⟩
  have begins := placeFrom_temporary temporary later.tree.workingDirectory
  have place := reaches.eq_placeFrom
  rw [placeFrom_keyspacePath, ← same] at place
  rw [← (List.cons.inj place).2] at begins
  rw [replaceFile, Disk.run_bind, ran] at failed
  simp only [temporary] at failed
  refine .after idle ?_
  rw [ran]
  simp only [temporary]
  exact replaceBy_undone begins failed

theorem persist_undone {failure : Failure}
    (reaches : disk.tree.Reaches (keyspacePath directory) ("db.json" :: folder))
    (failed : (disk.run (persist pid directory keyspace)).1 = .error failure) :
    Disk.Undone (fun _ => False) (temporaryName pid.toNat "db.json" :: folder) disk
      (persist pid directory keyspace) := by
  rw [persist] at failed ⊢
  simp only [Disk.run_bind] at failed
  cases replaced : (disk.run (replaceFile pid.toNat (keyspacePath directory)
      keyspace.write.toUTF8)).1 with
  | error cause =>
      refine (replaceFile_undone reaches replaced).before ?_
      rw [replaced]
      exact List.forall_mem_nil _
  | ok _ =>
      rw [replaced] at failed
      cases failed

/-- What is done while the database is locked is undone if it fails. -/
theorem transact_undone {failure : Failure}
    (reaches : disk.tree.Reaches (keyspacePath directory) ("db.json" :: folder))
    (failed : (disk.run (transact pid directory now call)).1 = .error failure) :
    Disk.Undone (fun _ => False) (temporaryName pid.toNat "db.json" :: folder) disk
      (transact pid directory now call) := by
  have idle : ∀ visit ∈ disk.visits (load directory), visit.Alters fun _ => False := by
    rw [load_eq]
    exact List.forall_mem_singleton.mpr (Disk.alters_visit_of_touches _ _ rfl rfl)
  have kept := disk.varies_run (load directory)
  rw [transact] at failed ⊢
  refine .after idle ?_
  rw [Disk.run_bind] at failed
  generalize disk.run (load directory) = outcome at kept failed ⊢
  obtain ⟨failure | keyspace, later⟩ := outcome
  · exact .of_alters (List.forall_mem_nil _)
  · simp only at failed ⊢
    split at failed
    next dirty =>
      rw [if_pos dirty]
      rw [Disk.run_bind] at failed
      cases persisted : (later.run (persist pid directory (keyspace.serve now call).2)).1 with
      | error failure =>
          refine (persist_undone (kept.reaches reaches) persisted).before ?_
          rw [persisted]
          exact List.forall_mem_nil _
      | ok _ =>
          rw [persisted] at failed
          cases failed
    next => cases failed

/-- A call that fails is undone. -/
theorem serve_undone {failure : Failure}
    (failed : (disk.run (serve pid directory now call)).1 = .error failure) :
    Disk.Undone (· = (guardPath directory).placeFrom disk.tree.workingDirectory)
      (temporaryName pid.toNat "db.json" :: directory.placeFrom disk.tree.workingDirectory) disk
      (serve pid directory now call) := by
  have opening : (disk.visit (.openFile (guardPath directory))).Alters
      (· = (guardPath directory).placeFrom disk.tree.workingDirectory) :=
    FileVisit.alters rfl (List.forall_mem_singleton.mpr rfl)
  have opened := disk.answers_serve (.openFile (guardPath directory))
  have home := disk.home_serve (.openFile (guardPath directory))
  simp only [serve, FileCall.perform, Program.perform_bind, Disk.run_step] at failed ⊢
  refine .step opening ?_
  generalize disk.serve (.openFile (guardPath directory)) = outcome at opened home failed ⊢
  obtain ⟨failure | _, disk₁⟩ := outcome
  · exact .of_alters (List.forall_mem_nil _)
  · have locking := disk₁.alters_visit_of_touches (.lock (guardPath directory)) rfl rfl
    rcases reaches_of_opened opened with ⟨place, reaches⟩
    have reaches := (disk₁.varies_serve (.lock (guardPath directory))).reaches reaches
    have home := (disk₁.home_serve (.lock (guardPath directory))).trans home
    rw [Disk.run_step] at failed
    refine .step (locking.mono fun _ => False.elim) ?_
    generalize disk₁.serve (.lock (guardPath directory)) = outcome at reaches home failed ⊢
    obtain ⟨failure | _, disk₂⟩ := outcome
    · exact .of_alters (List.forall_mem_nil _)
    · have place := reaches.eq_placeFrom
      rw [placeFrom_keyspacePath, home] at place
      rw [place] at reaches
      rw [Disk.run_bind] at failed
      refine ((transact_undone reaches failed).before ?_).mono fun _ => False.elim
      exact List.forall_mem_singleton.mpr (Disk.alters_visit_of_touches _ _ rfl rfl)

/-- A call either leaves the tree as it was or comes to where the guard is. -/
theorem unaltered_or_reaches (disk : Disk) (pid : Pid) (directory : Path) (now : Instant)
    (call : StoreCall) :
    (disk.run (serve pid directory now call)).2.tree = disk.tree ∨
      ∃ place, disk.tree.Reaches (guardPath directory) place := by
  have opened := disk.answers_serve (.openFile (guardPath directory))
  refine (opened.replies.unaltered_or_reaches rfl).imp_left ?_
  rintro ⟨⟨failure, said⟩, same⟩
  simp only [serve, FileCall.perform, Program.perform_bind, Disk.run_step]
  rw [said]
  exact same

/-! ## Calls that write nothing -/

/-- What is done while the database is locked only reads if it leaves the keyspace clean. -/
theorem transact_idle {place : Place} (reaches : disk.tree.Reaches (keyspacePath directory) place)
    (stored : stored? disk.tree directory = some keyspace)
    (clean : (keyspace.serve now call).2.dirty = false) :
    ∀ visit ∈ disk.visits (transact pid directory now call), visit.call.touches = [] := by
  rw [transact, Disk.visits_bind, List.forall_mem_append]
  constructor
  · rw [load_eq]
    exact List.forall_mem_singleton.mpr rfl
  · have loading := disk.runs_answers (load directory)
    generalize disk.run (load directory) = outcome at loading ⊢
    obtain ⟨loaded, later⟩ := outcome
    rcases runs_load reaches loading with ⟨-, ⟨fault, rfl⟩ | ⟨keyspace', rfl, stored'⟩⟩
    · exact List.forall_mem_nil _
    · obtain rfl := Option.some.inj (stored.symm.trans stored')
      simp only [clean, Bool.false_eq_true, if_false]
      exact List.forall_mem_nil _

/-- A call that leaves the keyspace clean touches no file but the guard. -/
theorem serve_idle (stored : stored? disk.tree directory = some keyspace)
    (clean : (keyspace.serve now call).2.dirty = false) :
    ∀ visit ∈ disk.visits (serve pid directory now call),
      ∀ path ∈ visit.call.touches, path = guardPath directory := by
  have opened := disk.answers_serve (.openFile (guardPath directory))
  have kept := stored?_of_guarded (fun _ => List.mem_singleton.mp) opened
  simp only [serve, FileCall.perform, Program.perform_bind, Disk.visits_step]
  refine List.forall_mem_cons.mpr ⟨fun path => List.mem_singleton.mp, ?_⟩
  generalize disk.serve (.openFile (guardPath directory)) = outcome at opened kept ⊢
  obtain ⟨failure | _, disk₁⟩ := outcome
  · exact List.forall_mem_nil _
  · refine List.forall_mem_cons.mpr ⟨List.forall_mem_nil _, ?_⟩
    have locked := disk₁.answers_serve (.lock (guardPath directory))
    have kept := (stored?_of_guarded (List.forall_mem_nil _) locked).trans kept
    rcases reaches_of_opened opened with ⟨place, reaches⟩
    have reaches := (disk₁.varies_serve (.lock (guardPath directory))).reaches reaches
    generalize disk₁.serve (.lock (guardPath directory)) = outcome at kept reaches ⊢
    obtain ⟨failure | _, disk₂⟩ := outcome
    · exact List.forall_mem_nil _
    · rw [Disk.visits_bind, List.forall_mem_append]
      constructor
      · intro visit member
        rw [transact_idle reaches (kept.trans stored) clean visit member]
        exact List.forall_mem_nil _
      · exact List.forall_mem_singleton.mpr (List.forall_mem_nil _)

end Database

end Leasehold
