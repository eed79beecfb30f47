import Leasehold.Machine
import Leasehold.Proofs.Command.Save
import Leasehold.Proofs.Database.Ready

/-!
# Databases on machines

On a machine a program of file calls runs on the tree alone, and a store call is served at
the time that the clock shows. Where the directory of a database is there or can be made,
and nothing else keeps the database from working for a process, no call of it fails, and
each one leaves a database that works.
-/

namespace Leasehold

open FileSystem Leasehold.Path

/-! ## Programs on machines -/

namespace Machine

variable {α β : Type} (machine : Machine)

theorem run_bind (program : HostProgram α) (next : α → HostProgram β) :
    machine.run (program >>= next) =
      (machine.run program).2.run (next (machine.run program).1) :=
  Program.run_bind _ program next machine

theorem run_ofFiles (program : FileProgram α) : machine.run (HostProgram.ofFiles program) =
    ((machine.tree.run program).1, { machine with tree := (machine.tree.run program).2 }) := by
  induction program generalizing machine with
  | done result => rfl
  | step call next ih =>
      exact ih (machine.tree.serve call).1 { machine with tree := (machine.tree.serve call).2 }

theorem run_askDatabase (pid : Pid) (directory : Path) (call : StoreCall) :
    machine.run (HostProgram.askDatabase pid directory call) =
      ((machine.tree.run (Database.serve pid directory machine.clock call)).1, { machine with
        tree := (machine.tree.run (Database.serve pid directory machine.clock call)).2 }) :=
  machine.run_ofFiles (Database.serve pid directory machine.clock call)

theorem run_printLines (lines : List String) : machine.run (HostProgram.printLines lines) =
    ((), { machine with printed := machine.printed ++ String.join (lines.map (· ++ "\n")) }) := by
  induction lines generalizing machine with
  | nil =>
      have same : machine = { machine with printed := machine.printed ++ "" } := by
        rw [String.append_empty]
      exact congrArg (Prod.mk ()) same
  | cons line lines ih =>
      have rest := ih { machine with printed := machine.printed ++ (line ++ "\n") }
      rw [List.map_cons, String.join_cons, ← String.append_assoc]
      exact rest

end Machine

/-! ## Directories that are there -/

namespace Tree

variable {tree : Tree} {path : Path} {place : Place}

/-- A path that leads somewhere wants no directory. -/
theorem Reaches.exists_target (reaches : tree.Reaches path place) :
    ∃ target?, tree.target path = .ok target? := by
  cases cut : path.pieces.reverse.dropWhile (· == "") with
  | nil =>
      refine ⟨none, bind_eq_ok_iff.mpr ⟨_, reaches.walkable, ?_⟩⟩
      simp only [cut]
      rfl
  | cons name before =>
      rcases eq_append_of_dropWhile cut with ⟨proper, empties, -, reversed⟩
      have whole : path.pieces = before.reverse ++ name :: empties.reverse := by
        rw [← List.reverse_reverse path.pieces, reversed]
        simp
      have walked := reaches.walk
      rw [whole] at walked
      rcases foldlM_append_eq_ok.mp walked with ⟨folder, first, rest⟩
      rcases bind_eq_ok_iff.mp rest with ⟨next, entered, -⟩
      rcases enter_eq_ok_iff.mp entered with ⟨found, -, short⟩
      have required := requireDirectory_eq_ok_iff.mpr found
      by_cases dots : name = "." ∨ name = ".."
      · refine ⟨none, bind_eq_ok_iff.mpr ⟨_, reaches.walkable, ?_⟩⟩
        simp only [cut]
        refine bind_eq_ok_iff.mpr ⟨folder, first, bind_eq_ok_iff.mpr ⟨(), required, ?_⟩⟩
        rw [if_pos dots]
        rfl
      · have counts : Path.isName name = true := by
          rw [not_or] at dots
          simp [Path.isName, proper, dots.1]
        have fits := Nat.not_lt.mpr (short counts fun up => dots (.inr up))
        refine ⟨some ⟨folder, name, path.pieces.reverse.head? == some ""⟩,
          bind_eq_ok_iff.mpr ⟨_, reaches.walkable, ?_⟩⟩
        simp only [cut]
        refine bind_eq_ok_iff.mpr ⟨folder, first, bind_eq_ok_iff.mpr ⟨(), required, ?_⟩⟩
        rw [if_neg dots, if_neg fits]
        rfl

/-- A name in a directory can be walked to if the path of the directory is not too long. -/
theorem walkable_join {base : Path} {name : String} (isName : IsFileName name)
    (clean : '\x00' ∉ base.toList) (short : base.utf8ByteSize + 1 + nameLimit ≤ pathLimit) :
    walkable (base.join name) = .ok (base.join name).pieces := by
  have fits := isName.short
  have counts : name ≠ "" := fun empty => absurd isName.counts (by rw [empty]; decide)
  have slash : "/".utf8ByteSize = 1 := rfl
  rw [walkable_eq_ok_iff, join, if_neg (by simp [isAbsolute_of_isPlain isName.plain])]
  split
  · refine ⟨by simp [clean, isName.clean], fun empty => ?_, ?_⟩
    · exact counts (String.append_eq_empty_iff.mp empty).2
    · rw [String.utf8ByteSize_append]
      omega
  · refine ⟨by simp [clean, isName.clean], fun empty => ?_, ?_⟩
    · exact counts (String.append_eq_empty_iff.mp empty).2
    · rw [String.utf8ByteSize_append, String.utf8ByteSize_append]
      omega

/-- A directory that is there is not made. -/
theorem makeDirectory_of_directory (reaches : tree.Reaches path place)
    (directory : tree.node? place = some .directory) :
    tree.makeDirectory path = .error .exists := by
  rcases reaches.exists_target with ⟨_ | target, targeted⟩
  · rw [makeDirectory, targeted]
    rfl
  · have here : tree.node? target.place = some .directory := by
      rw [(target_place targeted).1, ← reaches.eq_placeFrom, directory]
    rw [makeDirectory, targeted]
    simp only [bind, Except.bind, here]
    rfl

end Tree

/-! ## Preparing the directory -/

namespace Database

variable {tree : Tree} {directory : Path} {folder : Place} {pid : Pid} {keyspace : Keyspace}

/-- A directory that is there need not be made. -/
theorem Ready.run_prepare (ready : Ready pid directory folder tree) :
    tree.run (prepare directory) = (.ok (), tree) := by
  have made : tree.run (makeDirectories directory) = (.ok (), tree) := by
    by_cases nonempty : directory = ""
    · subst nonempty
      rfl
    · have reaches := ready.reaches.directory isFileName_keyspace nonempty
      have found := (ready.reaches.eq_cons isFileName_keyspace).2
      have stays := Tree.makeDirectory_of_directory reaches found
      have present : tree.isDirectory directory = true := by
        rw [Tree.isDirectory, Tree.locate_eq_ok_iff.mpr ⟨reaches, found⟩]
      obtain ⟨parents, ancestors⟩ : ∃ parents,
          directory.ancestors directory.names.length = directory :: parents := by
        cases directory.names.length with
        | zero => exact ⟨[], rfl⟩
        | succ n =>
            rw [ancestors]
            split <;> exact ⟨_, rfl⟩
      rw [makeDirectories, ancestors, makeMissing.eq_3 _ _ nonempty]
      simp [Tree.run, FileCall.perform, Tree.serve, stays, Tree.settle, present]
  rw [Tree.run] at made
  rw [Tree.run, prepare, Program.run_bind, made]
  rfl

/-! ## Databases that work -/

/-- Where its path is not too long a database is ready for a process, if no directory has
the name of one of its files. -/
theorem ready_of_short (reaches : tree.Reaches (keyspacePath directory) ("db.json" :: folder))
    (files : ∀ name ∈ fileNames pid, tree.node? (name :: folder) ≠ some .directory)
    (short : (keyspacePath directory).utf8ByteSize + 1 + Tree.nameLimit ≤ Tree.pathLimit) :
    Ready pid directory folder tree := by
  refine ⟨reaches, files, fun temporary found => ?_⟩
  have isName := isFileName_temporaryName isFileName_keyspace pid (by decide)
  rcases temporary_leads reaches pid with ⟨parent, above, -, found', -⟩
  cases found.symm.trans found'
  refine Tree.walkable_join isName (fun inside => ?_) ?_
  · rcases mem_of_mem_parent? above inside with slash | inside
    · exact absurd slash (by decide)
    · exact (Tree.walkable_eq_ok_iff.mp reaches.walkable).1 inside
  · have size := utf8ByteSize_parent?_le above
    omega

/-- That a database works for some processes: its directory is there or can be made, nothing
keeps it from working for any of them then, and it holds a keyspace. -/
structure Works (processes : Pid → Prop) (directory : Path) (tree : Tree)
    (keyspace : Keyspace) : Prop where
  prepares : ∃ folder prepared, tree.run (prepare directory) = (.ok (), prepared) ∧
    ∀ pid, processes pid → Ready pid directory folder prepared
  stored : stored? tree directory = some keyspace

/-- Preparing the directory does not change what the database holds. -/
theorem stored?_run_prepare (tree : Tree) (directory : Path) :
    stored? (tree.run (prepare directory)).2 directory = stored? tree directory :=
  stored?_of_varies (runs_prepare (tree.runs_run (prepare directory))).1 id

theorem Works.of_ready {processes : Pid → Prop} (member : processes pid)
    (ready : ∀ pid, processes pid → Ready pid directory folder tree)
    (stored : stored? tree directory = some keyspace) : Works processes directory tree keyspace :=
  ⟨⟨folder, tree, (ready pid member).run_prepare, ready⟩, stored⟩

end Database

namespace Machine

open Database

variable {processes : Pid → Prop} {pid : Pid} {directory : Path} {folder : Place}
  {keyspace : Keyspace}

/-- A call to a database that is ready is answered as by its keyspace, and then the database
is ready with the keyspace that the call has left. -/
theorem run_askDatabase_of_ready (machine : Machine) (member : processes pid)
    (ready : ∀ pid, processes pid → Ready pid directory folder machine.tree)
    (stored : stored? machine.tree directory = some keyspace) (call : StoreCall) :
    ∃ tree, machine.run (HostProgram.askDatabase pid directory call) =
        (.ok (keyspace.serve machine.clock call).1, { machine with tree := tree }) ∧
      (∀ pid, processes pid → Ready pid directory folder tree) ∧
      stored? tree directory = some ⟨(keyspace.serve machine.clock call).2.entries, false⟩ := by
  rcases (ready pid member).run_serve stored machine.clock call with ⟨later, served, left, keeps⟩
  refine ⟨later, ?_, fun other among => (ready other among).of_keeps keeps, left⟩
  rw [run_askDatabase, served]

/-- Where a database works its directory can be prepared and a call to it is answered as by
its keyspace, and then it is ready with the keyspace that the call has left. -/
theorem run_prepared (machine : Machine) (works : Works processes directory machine.tree keyspace)
    (member : processes pid) (call : StoreCall) :
    ∃ folder prepared tree, machine.run (HostProgram.ofFiles (prepare directory)) =
        (.ok (), { machine with tree := prepared }) ∧
      { machine with tree := prepared }.run (HostProgram.askDatabase pid directory call) =
        (.ok (keyspace.serve machine.clock call).1, { machine with tree := tree }) ∧
      (∀ pid, processes pid → Ready pid directory folder tree) ∧
      stored? tree directory = some ⟨(keyspace.serve machine.clock call).2.entries, false⟩ := by
  rcases works.prepares with ⟨folder, prepared, ran, ready⟩
  have stored := stored?_run_prepare machine.tree directory
  rw [ran, works.stored] at stored
  rcases run_askDatabase_of_ready { machine with tree := prepared } member ready stored call with
    ⟨tree, asked, ready', left⟩
  exact ⟨folder, prepared, tree, by rw [run_ofFiles, ran], asked, ready', left⟩

end Machine

end Leasehold
