import Leasehold.Proofs.Database.Serve
import Leasehold.Proofs.FileSystem.Attempt
import Leasehold.Proofs.FileSystem.Parent

/-!
# Databases that work

Where a directory is there, no directory has the name of a file of the database, and the
paths are short enough, no call to the database fails, if the files are served as a tree
serves them; and so it goes on with the next call, for no call makes a directory. What else
is in the directory, files or directories of other names, does not matter.
-/

namespace Leasehold

open FileSystem Leasehold.Path

namespace Tree

/-! ## Directories that stay as they are -/

/-- That a tree has become another that has the same directories. -/
structure KeepsDirectories (tree later : Tree) : Prop where
  home : later.workingDirectory = tree.workingDirectory
  directory : ∀ place, later.node? place = some .directory ↔ tree.node? place = some .directory

namespace KeepsDirectories

variable {tree middle later : Tree} {place : Place}

theorem refl (tree : Tree) : tree.KeepsDirectories tree :=
  ⟨rfl, fun _ => Iff.rfl⟩

theorem symm (keeps : tree.KeepsDirectories later) : later.KeepsDirectories tree :=
  ⟨keeps.home.symm, fun place => (keeps.directory place).symm⟩

theorem trans (first : tree.KeepsDirectories middle) (second : middle.KeepsDirectories later) :
    tree.KeepsDirectories later :=
  ⟨second.home.trans first.home,
    fun place => (second.directory place).trans (first.directory place)⟩

/-- A file may come to be where no directory is. -/
theorem put (proper : place ≠ []) (file : tree.node? place ≠ some .directory)
    (content : ByteArray) : tree.KeepsDirectories (tree.put place (.file content)) := by
  refine ⟨rfl, fun other => ?_⟩
  rw [node?_put _ proper]
  split
  next same =>
    subst same
    exact iff_of_false nofun file
  next => exact Iff.rfl

/-- A file may go. -/
theorem drop (proper : place ≠ []) (file : tree.node? place ≠ some .directory) :
    tree.KeepsDirectories (tree.drop place) := by
  refine ⟨rfl, fun other => ?_⟩
  rw [node?_drop _ proper]
  split
  next same =>
    subst same
    exact iff_of_false nofun file
  next => exact Iff.rfl

/-- Paths then lead where they led. -/
theorem varies (keeps : tree.KeepsDirectories later) : tree.Varies (fun _ => True) later :=
  ⟨keeps.home, fun _ untouched => absurd trivial untouched,
    fun place => (keeps.directory place).mpr⟩

end KeepsDirectories

end Tree

namespace Database

variable {tree : Tree} {directory base : Path} {folder : Place} {pid : Pid} {name : String}
  {keyspace : Keyspace}

/-- Where the keyspace can be reached its parent is there, and the temporary file can be
reached if its path can be walked at all. -/
theorem temporary_leads (reaches : tree.Reaches (keyspacePath directory) ("db.json" :: folder))
    (pid : Pid) : ∃ parent, (keyspacePath directory).parent? = some parent ∧
      (parent = "" ∨ tree.isPresent parent = true) ∧
      temporary? pid.toNat (keyspacePath directory) =
        some (parent.join (temporaryName pid.toNat "db.json")) ∧
      tree.LeadsAtMost (parent.join (temporaryName pid.toNat "db.json"))
        (temporaryName pid.toNat "db.json" :: folder) := by
  have named : (keyspacePath directory).fileName? = some "db.json" :=
    (fileName?_join directory isFileName_keyspace).1
  have isName := isFileName_temporaryName isFileName_keyspace pid (by decide)
  rcases reaches.parent? named with ⟨parent, folder', found, same, isDirectory, leads⟩
  obtain rfl := (List.cons.inj same).2
  refine ⟨parent, found, ?_, ?_, ?_⟩
  · refine leads.imp And.left ?_
    rintro ⟨-, reaches⟩
    rw [Tree.isPresent, Tree.locate_eq_ok_iff.mpr ⟨reaches, isDirectory⟩]
  · rw [temporary?, named, found]
    rfl
  · cases walks : Tree.walkable (parent.join (temporaryName pid.toNat "db.json")) with
    | error failure => exact .inl ⟨failure, walks⟩
    | ok pieces =>
        rw [Tree.pieces_of_walkable walks] at walks
        refine .inr (Tree.reaches_of_parent isName isDirectory ?_ walks)
        exact leads.imp_right fun ⟨nonempty, reaches⟩ => ⟨nonempty, reaches.walk⟩

/-- The parent of the keyspace is there and need not be made. -/
theorem ensureParent_keyspace
    (reaches : tree.Reaches (keyspacePath directory) ("db.json" :: folder)) :
    tree.run (ensureParent (keyspacePath directory)) = (.ok (), tree) := by
  rcases temporary_leads reaches 0 with ⟨parent, found, leads, -, -⟩
  rw [ensureParent, found]
  simp only
  split
  · rfl
  next nonempty =>
    have present := leads.resolve_left nonempty
    simp [Tree.run, FileCall.perform, Tree.serve, present]

/-! ## Databases that nothing keeps from working -/

/-- The names of the files in the directory of a database that a process uses. -/
def fileNames (pid : Pid) : List String :=
  ["db.json", "db.lock", temporaryName pid.toNat "db.json"]

theorem keyspace_mem_fileNames (pid : Pid) : "db.json" ∈ fileNames pid :=
  List.mem_cons_self

theorem guard_mem_fileNames (pid : Pid) : "db.lock" ∈ fileNames pid :=
  List.mem_cons_of_mem _ List.mem_cons_self

theorem temporary_mem_fileNames (pid : Pid) :
    temporaryName pid.toNat "db.json" ∈ fileNames pid :=
  List.mem_cons_of_mem _ (List.mem_cons_of_mem _ List.mem_cons_self)

/-- That nothing keeps a database from working in a directory, for a process: its paths can
be walked, and no directory has the name of one of its files. -/
structure Ready (pid : Pid) (directory : Path) (folder : Place) (tree : Tree) : Prop where
  reaches : tree.Reaches (keyspacePath directory) ("db.json" :: folder)
  files : ∀ name ∈ fileNames pid, tree.node? (name :: folder) ≠ some .directory
  temporary : ∀ temporary, temporary? pid.toNat (keyspacePath directory) = some temporary →
    Tree.walkable temporary = .ok temporary.pieces

namespace Ready

/-! ## Files -/

/-- A database goes on working where directories stay as they are. -/
theorem of_keeps {later : Tree} (ready : Ready pid directory folder tree)
    (keeps : tree.KeepsDirectories later) : Ready pid directory folder later :=
  ⟨keeps.varies.reaches ready.reaches,
    fun name member directory => ready.files name member ((keeps.directory _).mp directory),
    ready.temporary⟩

/-- One of its files can be changed, and then it is there. -/
theorem change (ready : Ready pid directory folder tree) (member : name ∈ fileNames pid)
    (isName : IsFileName name) (reaches : tree.Reaches (base.join name) (name :: folder))
    (change : Option ByteArray → ByteArray) :
    ∃ later, tree.change (base.join name) change = .ok later ∧
      tree.KeepsDirectories later ∧ later.Reaches (base.join name) (name :: folder) ∧
      later.node? (name :: folder) = some (.file (change (tree.content? (name :: folder)))) := by
  have proper := List.cons_ne_nil name folder
  have file := ready.files name member
  have keeps := Tree.KeepsDirectories.put proper file (change (tree.content? (name :: folder)))
  refine ⟨_, Tree.change_join reaches isName file, keeps, keeps.varies.reaches reaches, ?_⟩
  rw [Tree.node?_put _ proper, if_pos rfl]

/-- The temporary file can be reached. -/
theorem temporary_reaches (ready : Ready pid directory folder tree) : ∃ parent : Path,
    temporary? pid.toNat (keyspacePath directory) =
      some (parent.join (temporaryName pid.toNat "db.json")) ∧
    tree.Reaches (parent.join (temporaryName pid.toNat "db.json"))
      (temporaryName pid.toNat "db.json" :: folder) := by
  rcases temporary_leads ready.reaches pid with ⟨parent, -, -, temporary, leads⟩
  refine ⟨parent, temporary, leads.resolve_left ?_⟩
  rw [ready.temporary _ temporary]
  nofun

/-! ## Persisting -/

/-- Replacing the keyspace by way of another of the files does not fail. -/
theorem run_replaceBy (ready : Ready pid directory folder tree) (member : name ∈ fileNames pid)
    (isName : IsFileName name) (reaches : tree.Reaches (base.join name) (name :: folder))
    (content : ByteArray) :
    ∃ later, tree.run (replaceBy (base.join name) (keyspacePath directory) content) =
      (.ok (), later) ∧ tree.KeepsDirectories later := by
  have proper (name : String) := List.cons_ne_nil name folder
  rcases ready.change member isName reaches fun _ => ByteArray.empty with
    ⟨tree₁, created, keeps₁, reaches₁, -⟩
  have ready₁ := ready.of_keeps keeps₁
  rcases ready₁.change member isName reaches₁ fun _ => content with
    ⟨tree₂, written, keeps₂, reaches₂, stored⟩
  have ready₂ := ready₁.of_keeps keeps₂
  have dropped := Tree.KeepsDirectories.drop (proper name) (ready₂.files name member)
  have put := Tree.KeepsDirectories.put (proper "db.json")
    ((ready₂.of_keeps dropped).files "db.json" (keyspace_mem_fileNames pid)) content
  have renamed := Tree.rename_join reaches₂ isName ready₂.reaches isFileName_keyspace stored
    (ready₂.files "db.json" (keyspace_mem_fileNames pid))
  refine ⟨_, ?_, ((keeps₁.trans keeps₂).trans dropped).trans put⟩
  simp only [Tree.run, replaceBy, FileCall.perform, Program.perform_bind, Program.run_step,
    Tree.serve, created, written, Tree.settle]
  rw [keyspacePath, renamed]
  rfl

/-- Persisting does not fail. -/
theorem run_persist (ready : Ready pid directory folder tree) (keyspace : Keyspace) :
    ∃ later, tree.run (persist pid directory keyspace) = (.ok (), later) ∧
      tree.KeepsDirectories later := by
  rcases ready.temporary_reaches with ⟨parent, found, reaches⟩
  have isName := isFileName_temporaryName isFileName_keyspace pid (by decide)
  rcases ready.run_replaceBy (temporary_mem_fileNames pid) isName reaches
    keyspace.write.toUTF8 with ⟨later, replaced, keeps⟩
  refine ⟨later, ?_, keeps⟩
  have ensured := ensureParent_keyspace ready.reaches
  rw [Tree.run] at ensured replaced
  simp only [Tree.run, persist, replaceFile, bind_assoc, Program.run_bind, ensured, found, replaced]
  rfl

/-! ## Serving -/

/-- What is done while the database is locked does not fail. -/
theorem run_transact (ready : Ready pid directory folder tree)
    (stored : stored? tree directory = some keyspace) (now : Instant) (call : StoreCall) :
    ∃ later, tree.run (transact pid directory now call) = (.ok (keyspace.serve now call).1, later) ∧
      tree.KeepsDirectories later := by
  have loaded := run_load ready.reaches (ready.files "db.json" (keyspace_mem_fileNames pid)) stored
  rw [Tree.run] at loaded
  simp only [Tree.run, transact, Program.run_bind, loaded]
  split
  next dirty =>
    rcases ready.run_persist (keyspace.serve now call).2 with ⟨later, persisted, keeps⟩
    refine ⟨later, ?_, keeps⟩
    rw [Tree.run] at persisted
    simp only [Program.run_bind, persisted]
    rfl
  next => exact ⟨tree, rfl, .refl tree⟩

/-- No call fails, the database then holds what the call has left, and no directory comes to
be or goes, so that the database goes on working for every process for which it did. -/
theorem run_serve (ready : Ready pid directory folder tree)
    (stored : stored? tree directory = some keyspace) (now : Instant) (call : StoreCall) :
    ∃ later, tree.run (serve pid directory now call) = (.ok (keyspace.serve now call).1, later) ∧
      stored? later directory = some ⟨(keyspace.serve now call).2.entries, false⟩ ∧
      tree.KeepsDirectories later := by
  have same := (List.cons.inj (ready.reaches.eq_cons isFileName_keyspace).1).2
  have reaches := ready.reaches.sibling isFileName_keyspace isFileName_guard (by decide)
  rw [← same] at reaches
  rcases ready.change (guard_mem_fileNames pid) isFileName_guard reaches
    fun found => found.getD ByteArray.empty with ⟨tree₁, opened, keeps₁, -, -⟩
  have served : tree.serve (.openFile (guardPath directory)) = (.ok (), tree₁) := by
    rw [Tree.serve, guardPath, opened]
    rfl
  have kept : stored? tree₁ directory = stored? tree directory := by
    have answers := Tree.answers_serve (.openFile (guardPath directory)) tree
    rw [served] at answers
    exact stored?_of_guarded (fun _ => List.mem_singleton.mp) answers
  rcases (ready.of_keeps keeps₁).run_transact (kept.trans stored) now call with
    ⟨later, transacted, keeps⟩
  have ran : tree.run (serve pid directory now call) =
      (.ok (keyspace.serve now call).1, later) := by
    rw [Tree.run] at transacted
    simp only [Tree.run, serve, FileCall.perform, Program.perform_bind, Program.run_step, served]
    rw [Tree.serve, Program.run_bind, transacted]
    rfl
  refine ⟨later, ran, ?_, keeps₁.trans keeps⟩
  have runs := Program.runs_run Tree.answers_serve (serve pid directory now call) tree
  rw [Tree.run] at ran
  rw [ran] at runs
  generalize said : (Except.ok (keyspace.serve now call).1 : call.Reply) = reply at runs
  cases runs_serve runs with
  | failed => contradiction
  | served stored' left =>
      cases stored.symm.trans stored'
      exact left

end Ready

/-! ## Databases that have worked -/

variable {later : Tree}

/-- A path at which a file has been changed led to where no directory was. -/
theorem reaches_of_changed {path : Path} {change : Option ByteArray → ByteArray}
    (done : (.ok (), later) = tree.settle (tree.change path change)) :
    ∃ place, tree.Reaches path place ∧ tree.node? place ≠ some .directory ∧
      tree.KeepsDirectories later := by
  have changed := Tree.eq_ok_of_settle (congrArg Prod.fst done.symm)
  rw [← done] at changed
  rcases Tree.change_eq_ok changed with ⟨place, found, writable, rfl⟩
  rcases Tree.writable_place writable with ⟨-, proper, file, reaches⟩
  exact ⟨place, reaches, file, .put proper file _⟩

/-- Where a file has been replaced by way of another one, that one's path led to where no
directory was, and so did its own. -/
theorem reaches_of_replaced {temporary path : Path} {content : ByteArray}
    (ran : (replaceBy temporary path content).Runs Tree.Serves tree (.ok ()) later) :
    (∃ place, tree.Reaches temporary place ∧ tree.node? place ≠ some .directory) ∧
      tree.node? (path.placeFrom tree.workingDirectory) ≠ some .directory := by
  have abandons {failure : IoFailure} {tree : Tree}
      (ran : (abandon temporary failure).Runs Tree.Serves tree (.ok ()) later) : False := by
    obtain ⟨_, _, -, ended⟩ := ran
    cases ended.1
  simp only [replaceBy, FileCall.perform, Program.perform_bind] at ran
  obtain ⟨created, tree₁, creating, ran⟩ := ran
  rcases created with failure | _
  · exact (abandons ran).elim
  obtain ⟨written, tree₂, writing, ran⟩ := ran
  rcases written with failure | _
  · exact (abandons ran).elim
  obtain ⟨moved, tree₃, moving, ran⟩ := ran
  rcases moved with failure | _
  · exact (abandons ran).elim
  rcases reaches_of_changed creating with ⟨place, reaches, file, keeps₁⟩
  rcases reaches_of_changed writing with ⟨-, -, -, keeps₂⟩
  have keeps := keeps₁.trans keeps₂
  have renamed := Tree.eq_ok_of_settle (congrArg Prod.fst moving.symm)
  rcases Tree.rename_eq_ok renamed with ⟨_, _, -, rfl, -, file', -⟩
  refine ⟨⟨place, reaches, file⟩, fun directory => file' ?_⟩
  rw [keeps.home]
  exact (keeps.directory _).mpr directory

/-- Where the keyspace has been persisted no directory was in the way of it or of the
temporary file. -/
theorem ready_of_runs_persist
    (reaches : tree.Reaches (keyspacePath directory) ("db.json" :: folder))
    (guard : tree.node? ("db.lock" :: folder) ≠ some .directory)
    (ran : (persist pid directory keyspace).Runs Tree.Serves tree (.ok ()) later) :
    Ready pid directory folder tree := by
  rcases temporary_leads reaches pid with ⟨parent, -, -, found, leads⟩
  rcases Program.runs_bind.mp ran with ⟨replaced, _, replacing, rest⟩
  rcases Program.runs_bind.mp replacing with ⟨ensured, middle, ensuring, replacing⟩
  have same := Tree.eq_run_of_serves ensuring
  rw [ensureParent_keyspace reaches] at same
  cases same
  rcases replaced with failure | _
  · cases rest.1
  simp only [found] at replacing
  rcases reaches_of_replaced replacing with ⟨⟨place, leads', file⟩, file'⟩
  have walked : tree.Reaches (parent.join (temporaryName pid.toNat "db.json"))
      (temporaryName pid.toNat "db.json" :: folder) := by
    refine leads.resolve_left ?_
    rw [leads'.walkable]
    nofun
  refine ⟨reaches, fun name member => ?_, fun temporary found' => ?_⟩
  · rw [← reaches.eq_placeFrom] at file'
    rw [leads'.eq_placeFrom, ← walked.eq_placeFrom] at file
    simp only [fileNames, List.mem_cons, List.not_mem_nil, or_false] at member
    rcases member with rfl | rfl | rfl
    · exact file'
    · exact guard
    · exact file
  · cases found.symm.trans found'
    exact leads'.walkable

/-- A database on which a call has changed something works for the process, and holds a
keyspace. -/
theorem ready_of_runs_serve {now : Instant} {call : StoreCall} {answer : call.Answer}
    (changes : ∀ keyspace : Keyspace, (keyspace.serve now call).2.dirty = true)
    (ran : (serve pid directory now call).Runs Tree.Serves tree (.ok answer) later) :
    Ready pid directory (directory.placeFrom tree.workingDirectory) tree ∧
      ∃ keyspace, stored? tree directory = some keyspace := by
  simp only [serve, FileCall.perform, Program.perform_bind] at ran
  obtain ⟨opened, tree₁, opening, ran⟩ := ran
  rcases opened with failure | _
  · cases ran.1
  obtain ⟨_, _, ⟨rfl, rfl⟩, ran⟩ := ran
  rcases Program.runs_bind.mp ran with ⟨reply, _, transacting, _, _, -, rfl, -⟩
  rcases Program.runs_bind.mp transacting with ⟨outcome, tree₂, loading, rest⟩
  rcases reaches_of_changed opening with ⟨place, leads, guard, keeps⟩
  obtain rfl := (leads.eq_cons isFileName_guard).1
  have reaches := leads.sibling isFileName_guard isFileName_keyspace (by decide)
  have reaches₁ := keeps.varies.reaches reaches
  have kept : stored? tree₁ directory = stored? tree directory :=
    stored?_of_guarded (fun _ => List.mem_singleton.mp) opening.answers
  rcases runs_load reaches₁ (loading.mono fun _ _ _ _ => Tree.Serves.answers) with
    ⟨rfl, ⟨fault, rfl⟩ | ⟨keyspace, rfl, stored⟩⟩
  · cases rest.1
  simp only [changes keyspace, if_true] at rest
  rcases Program.runs_bind.mp rest with ⟨persisted, _, persisting, rest⟩
  rcases persisted with failure | _
  · cases rest.1
  have guard₁ := fun directory => guard ((keeps.directory _).mp directory)
  exact ⟨(ready_of_runs_persist reaches₁ guard₁ persisting).of_keeps keeps.symm, keyspace,
    kept.symm.trans stored⟩

end Database

end Leasehold
