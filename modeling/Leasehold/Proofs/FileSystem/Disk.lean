import Leasehold.Proofs.FileSystem.Alike

/-!
# Disks on which calls fail

A disk is a tree of files together with what goes wrong on it, call by call. A call that
something goes wrong with is refused, and the file that it was to write to may be left with
any content. So a run on a disk is a function of the tree and of the mishaps, and two runs
can be compared in which the same goes wrong.

A call that asks whether something is there does not fail, nor does one that removes a
file, and of a file that is there no mishap says that it is not.
-/

namespace Leasehold

/-- Why a call fails, and what the file that it was to write to is left with if it is
spoilt. -/
structure Mishap where
  failure : IoFailure
  spoils? : Option ByteArray

namespace FileCall

/-- Whether a failure can befall a call. -/
def isProneTo (failure : IoFailure) : FileCall → Bool
  | .isPresent _ => false
  | .isFile _ => false
  | .isDirectory _ => false
  | .read _ => failure != .notFound
  | .remove _ => false
  | _ => true

/-- Whether a reply says that a call on which the rest depends has failed. That there is no
file to read is no failure. -/
def hasFailed : (call : FileCall) → call.Reply → Bool
  | .openFile _, .error _ => true
  | .lock _, .error _ => true
  | .read _, .error failure => failure != .notFound
  | .create _, .error _ => true
  | .write .., .error _ => true
  | .rename .., .error _ => true
  | _, _ => false

end FileCall

namespace Tree

/-- The tree with the file that a call was to write to spoilt, if it is. -/
def spoil (tree : Tree) (call : FileCall) (spoils? : Option ByteArray) : Tree :=
  match call.risks?, spoils? with
  | some path, some content => (tree.settle (tree.change path fun _ => content)).2
  | _, _ => tree

/-- Answers a call that a mishap may befall. -/
def serveAmid (tree : Tree) (mishap? : Option Mishap) (call : FileCall) : call.Reply × Tree :=
  match mishap?.filter fun mishap => call.isProneTo mishap.failure with
  | some mishap => (call.refusal mishap.failure, tree.spoil call mishap.spoils?)
  | none => tree.serve call

end Tree

/-- A call together with the tree that it met and what may have befallen it. -/
structure FileVisit where
  met : Tree
  mishap? : Option Mishap
  call : FileCall

namespace FileVisit

/-- What the call was answered. -/
def reply (visit : FileVisit) : visit.call.Reply :=
  (visit.met.serveAmid visit.mishap? visit.call).1

/-- The tree after the call. -/
def left (visit : FileVisit) : Tree :=
  (visit.met.serveAmid visit.mishap? visit.call).2

/-- Whether a call on which the rest depends has failed. -/
def hasFailed (visit : FileVisit) : Bool :=
  visit.call.hasFailed visit.reply

/-- That the call has altered no files but some at certain places. -/
def Alters (loose : Place → Prop) (visit : FileVisit) : Prop :=
  visit.met.Alike loose visit.left

end FileVisit

/-- A tree of files, and what goes wrong with the calls to come, the next one first. -/
structure Disk where
  tree : Tree
  mishaps : List (Option Mishap)

namespace Disk

variable {α β : Type}

/-- The next call as a visit. -/
def visit (disk : Disk) (call : FileCall) : FileVisit :=
  ⟨disk.tree, disk.mishaps.head?.join, call⟩

/-- Answers a call. -/
def serve (call : FileCall) (disk : Disk) : call.Reply × Disk :=
  ((disk.visit call).reply, ⟨(disk.visit call).left, disk.mishaps.tail⟩)

/-- Runs a program. -/
def run (disk : Disk) (program : FileProgram α) : α × Disk :=
  program.run serve disk

/-- The calls that a program makes, in order. -/
def visits : Disk → FileProgram α → List FileVisit
  | _, .done _ => []
  | disk, .step call next =>
    disk.visit call :: (disk.serve call).2.visits (next (disk.serve call).1)

end Disk

/-! ## Single calls -/

namespace Tree

variable {tree : Tree} {mishap? : Option Mishap} {call : FileCall}

/-- A call that a mishap may befall is answered in one of the ways in which calls are. -/
theorem replies_serveAmid (tree : Tree) (mishap? : Option Mishap) (call : FileCall) :
    call.Replies tree (tree.serveAmid mishap? call).1 (tree.serveAmid mishap? call).2 := by
  rw [serveAmid]
  split
  next mishap _ =>
    rw [spoil.eq_def]
    split
    next path content risks _ =>
      cases changed : tree.change path fun _ => content with
      | error failure => exact .refused mishap.failure
      | ok later =>
          rcases change_eq_ok changed with ⟨place, found, writable, rfl⟩
          exact .spoilt mishap.failure risks writable content
    next => exact .refused mishap.failure
  next => exact .served

/-- What no mishap can befall is served. -/
theorem serveAmid_of_safe (safe : ∀ failure, call.isProneTo failure = false) :
    tree.serveAmid mishap? call = tree.serve call := by
  have none : mishap?.filter (fun mishap => call.isProneTo mishap.failure) = none := by
    cases mishap? <;> simp [safe]
  rw [serveAmid, none]

end Tree

theorem FileVisit.alters {loose : Place → Prop} {visit : FileVisit}
    (plain : visit.call.isMaking = false)
    (within : visit.call.Touches loose visit.met.workingDirectory) : visit.Alters loose :=
  (visit.met.replies_serveAmid visit.mishap? visit.call).alike plain within

theorem FileVisit.Alters.mono {loose loose' : Place → Prop} {visit : FileVisit}
    (wider : ∀ place, loose place → loose' place) (alters : visit.Alters loose) :
    visit.Alters loose' :=
  Tree.Alike.mono wider alters

/-! ## Runs -/

namespace Disk

variable {α β : Type} {loose : Place → Prop} {a b disk : Disk} {call : FileCall}

@[simp]
theorem run_done (disk : Disk) (result : α) :
    disk.run (.done result : FileProgram α) = (result, disk) :=
  rfl

@[simp]
theorem run_step (disk : Disk) (call : FileCall) (next : call.Reply → FileProgram α) :
    disk.run (.step call next) = (disk.serve call).2.run (next (disk.serve call).1) :=
  rfl

theorem run_bind (disk : Disk) (program : FileProgram α) (next : α → FileProgram β) :
    disk.run (program >>= next) = (disk.run program).2.run (next (disk.run program).1) :=
  Program.run_bind serve program next disk

@[simp]
theorem visits_done (disk : Disk) (result : α) :
    disk.visits (.done result : FileProgram α) = [] :=
  rfl

@[simp]
theorem visits_step (disk : Disk) (call : FileCall) (next : call.Reply → FileProgram α) :
    disk.visits (.step call next) =
      disk.visit call :: (disk.serve call).2.visits (next (disk.serve call).1) :=
  rfl

theorem visits_bind (disk : Disk) (program : FileProgram α) (next : α → FileProgram β) :
    disk.visits (program >>= next) =
      disk.visits program ++ (disk.run program).2.visits (next (disk.run program).1) := by
  induction program generalizing disk with
  | done result => rfl
  | step call rest ih =>
      rw [Program.step_bind, visits_step, visits_step, ih, List.cons_append, run_step]

/-- What each call alters, a run alters. -/
theorem run_alike {program : FileProgram α}
    (alters : ∀ visit ∈ disk.visits program, visit.Alters loose) :
    disk.tree.Alike loose (disk.run program).2.tree := by
  induction program generalizing disk with
  | done result => exact .refl loose disk.tree
  | step call next ih =>
      rw [visits_step, List.forall_mem_cons] at alters
      exact Tree.Alike.trans alters.1 (ih _ alters.2)

/-- A call on a disk leads where calls lead when nobody else changes files. -/
theorem leads_serve (disk : Disk) (call : FileCall) :
    Tree.Leads (fun _ => False) call (disk.serve call).1 disk.tree (disk.serve call).2.tree :=
  ⟨disk.tree, .refl _ disk.tree, disk.tree.replies_serveAmid disk.mishaps.head?.join call⟩

/-- A call that names no path where it may change a file alters nothing. -/
theorem alters_visit_of_touches (disk : Disk) (call : FileCall) (plain : call.isMaking = false)
    (none : call.touches = []) : (disk.visit call).Alters fun _ => False := by
  refine FileVisit.alters plain ?_
  rw [FileCall.Touches, visit, none]
  exact List.forall_mem_nil _

theorem serve_of_safe (safe : ∀ failure, call.isProneTo failure = false) :
    disk.serve call =
      ((disk.tree.serve call).1, ⟨(disk.tree.serve call).2, disk.mishaps.tail⟩) := by
  simp only [serve, visit, FileVisit.reply, FileVisit.left, Tree.serveAmid_of_safe safe]

theorem varies_serve (disk : Disk) (call : FileCall) :
    disk.tree.Varies (fun _ => True) (disk.serve call).2.tree :=
  (disk.tree.replies_serveAmid disk.mishaps.head?.join call).varies fun _ _ => trivial

@[simp]
theorem home_serve (disk : Disk) (call : FileCall) :
    (disk.serve call).2.tree.workingDirectory = disk.tree.workingDirectory :=
  (disk.varies_serve call).home

theorem varies_run (disk : Disk) (program : FileProgram α) :
    disk.tree.Varies (fun _ => True) (disk.run program).2.tree := by
  induction program generalizing disk with
  | done result => exact .refl _ disk.tree
  | step call next ih => exact (disk.varies_serve call).trans (ih _ (disk.serve call).2)

/-! ## What is left of a run -/

/-- That a run leaves all files as they were, but for those at loose places and perhaps one
that is gone, unless it has not been altered either. -/
structure Undone (loose : Place → Prop) (place : Place) (disk : Disk) (program : FileProgram α) :
    Prop where
  alters : ∀ visit ∈ disk.visits program, visit.Alters fun other => loose other ∨ other = place
  gone : (disk.run program).2.tree.node? place = none ∨
    ∀ visit ∈ disk.visits program, visit.Alters loose

namespace Undone

variable {loose' : Place → Prop} {place : Place} {program : FileProgram α}
  {next : α → FileProgram β}

theorem of_alters (alters : ∀ visit ∈ disk.visits program, visit.Alters loose) :
    Undone loose place disk program :=
  ⟨fun visit member => (alters visit member).mono fun _ => .inl, .inr alters⟩

theorem mono (wider : ∀ place, loose place → loose' place)
    (undone : Undone loose place disk program) : Undone loose' place disk program :=
  ⟨fun visit member => (undone.alters visit member).mono fun other => Or.imp_left (wider other),
    undone.gone.imp_right fun alters visit member => (alters visit member).mono wider⟩

/-- The first call may alter files at loose places. -/
theorem step {rest : call.Reply → FileProgram α} (first : (disk.visit call).Alters loose)
    (undone : Undone loose place (disk.serve call).2 (rest (disk.serve call).1)) :
    Undone loose place disk (.step call rest) := by
  constructor
  · rw [visits_step, List.forall_mem_cons]
    exact ⟨first.mono fun _ => .inl, undone.alters⟩
  · rw [visits_step, run_step, List.forall_mem_cons]
    exact undone.gone.imp_right fun alters => ⟨first, alters⟩

/-- What goes before may alter files at loose places. -/
theorem after (before : ∀ visit ∈ disk.visits program, visit.Alters loose)
    (undone : Undone loose place (disk.run program).2 (next (disk.run program).1)) :
    Undone loose place disk (program >>= next) := by
  constructor
  · rw [visits_bind, List.forall_mem_append]
    exact ⟨fun visit member => (before visit member).mono fun _ => .inl, undone.alters⟩
  · rw [visits_bind, run_bind, List.forall_mem_append]
    exact undone.gone.imp_right fun alters => ⟨before, alters⟩

/-- What follows must not alter anything. -/
theorem before (undone : Undone loose place disk program)
    (after : ∀ visit ∈ (disk.run program).2.visits (next (disk.run program).1),
      visit.Alters fun _ => False) : Undone loose place disk (program >>= next) := by
  have kept : ((disk.run program).2.run (next (disk.run program).1)).2.tree.node? place =
      (disk.run program).2.tree.node? place := (run_alike after).node?_eq id
  constructor
  · rw [visits_bind, List.forall_mem_append]
    exact ⟨undone.alters, fun visit member => (after visit member).mono fun _ => False.elim⟩
  · rw [visits_bind, run_bind, List.forall_mem_append, kept]
    refine undone.gone.imp_right fun alters => ⟨alters, fun visit member => ?_⟩
    exact (after visit member).mono fun _ => False.elim

end Undone

/-! ## Two disks on which the same goes wrong -/

/-- That on two disks the same goes wrong, and their trees are alike but for certain
places. -/
structure Alike (loose : Place → Prop) (a b : Disk) : Prop where
  tree : a.tree.Alike loose b.tree
  mishaps : b.mishaps = a.mishaps

namespace Alike

/-- What is served alike is answered alike, whatever goes wrong. -/
theorem reply (alike : a.Alike loose b) (served : (b.tree.serve call).1 = (a.tree.serve call).1) :
    (b.serve call).1 = (a.serve call).1 := by
  simp only [serve, visit, FileVisit.reply, Tree.serveAmid, alike.mishaps]
  split
  · rfl
  · exact served

/-- The disks are alike after a call too that names only loose places. -/
theorem serve (alike : a.Alike loose b) (plain : call.isMaking = false)
    (within : call.Touches loose a.tree.workingDirectory) :
    (a.serve call).2.Alike loose (b.serve call).2 := by
  have within' : call.Touches loose b.tree.workingDirectory := alike.tree.home.symm ▸ within
  have altered : (a.visit call).Alters loose := FileVisit.alters plain within
  have altered' : (b.visit call).Alters loose := FileVisit.alters plain within'
  exact ⟨(Tree.Alike.symm altered |>.trans alike.tree).trans altered',
    congrArg List.tail alike.mishaps⟩

theorem idle (alike : a.Alike loose b) (call : FileCall) (plain : call.isMaking = false)
    (none : call.touches = []) : (a.serve call).2.Alike loose (b.serve call).2 := by
  refine alike.serve plain ?_
  rw [FileCall.Touches, none]
  exact List.forall_mem_nil _

end Alike

/-- That a program has the same result on two disks, and leaves them alike. -/
structure RunAlike (loose : Place → Prop) (a b : Disk) (program : FileProgram α) : Prop where
  result : (b.run program).1 = (a.run program).1
  alike : (a.run program).2.Alike loose (b.run program).2

theorem RunAlike.done (alike : a.Alike loose b) (result : α) :
    RunAlike loose a b (.done result : FileProgram α) :=
  ⟨rfl, alike⟩

theorem RunAlike.step {next : call.Reply → FileProgram α}
    (reply : (b.serve call).1 = (a.serve call).1)
    (rest : ∀ reply, (a.serve call).1 = reply →
      RunAlike loose (a.serve call).2 (b.serve call).2 (next reply)) :
    RunAlike loose a b (.step call next) := by
  have rest := rest _ rfl
  constructor
  · rw [run_step, run_step, reply]
    exact rest.result
  · rw [run_step, run_step, reply]
    exact rest.alike

theorem RunAlike.bind {program : FileProgram α} {next : α → FileProgram β}
    (first : RunAlike loose a b program)
    (rest : ∀ result, RunAlike loose (a.run program).2 (b.run program).2 (next result)) :
    RunAlike loose a b (program >>= next) := by
  constructor
  · rw [run_bind, run_bind, first.result]
    exact (rest _).result
  · rw [run_bind, run_bind, first.result]
    exact (rest _).alike

end Disk

/-! ## Programs that heed failures -/

namespace FileProgram

variable {ε ε' α β : Type} {disk : Disk}

/-- That a program fails, whatever it is answered. -/
def Fails : FileProgram (Except ε α) → Prop
  | .done outcome => ∃ failure, outcome = .error failure
  | .step _ next => ∀ reply, Fails (next reply)

/-- That a program fails once a call has on which the rest depends. -/
def Heeds : FileProgram (Except ε α) → Prop
  | .done _ => True
  | .step call next =>
    ∀ reply, (call.hasFailed reply = true → Fails (next reply)) ∧ Heeds (next reply)

theorem Fails.bind {program : FileProgram (Except ε α)}
    {next : Except ε α → FileProgram (Except ε' β)} (fails : Fails program)
    (passes : ∀ failure, Fails (next (.error failure))) : Fails (program >>= next) := by
  induction program with
  | done outcome =>
      obtain ⟨failure, rfl⟩ := fails
      exact passes failure
  | step call rest ih => exact fun reply => ih reply (fails reply)

theorem Heeds.bind {program : FileProgram (Except ε α)}
    {next : Except ε α → FileProgram (Except ε' β)} (heeds : Heeds program)
    (passes : ∀ failure, Fails (next (.error failure))) (rest : ∀ outcome, Heeds (next outcome)) :
    Heeds (program >>= next) := by
  induction program with
  | done outcome => exact rest outcome
  | step call next' ih =>
      intro reply
      exact ⟨fun failed => ((heeds reply).1 failed).bind passes, ih reply (heeds reply).2⟩

/-- What cannot fail need not be heeded. -/
theorem Heeds.of_only {program : FileProgram (Except ε α)}
    (only : program.Only fun call => ∀ reply, call.hasFailed reply = false) : Heeds program := by
  induction program with
  | done outcome => trivial
  | step call next ih =>
      intro reply
      exact ⟨fun failed => by simp [only.1 reply] at failed, ih reply (only.2 reply)⟩

theorem Fails.run {program : FileProgram (Except ε α)} (fails : Fails program) :
    ∃ failure, (disk.run program).1 = .error failure := by
  induction program generalizing disk with
  | done outcome => exact fails
  | step call next ih => exact ih _ (fails _)

/-- A run of such a program that succeeds has met no such failure. -/
theorem Heeds.hasFailed_eq_false {program : FileProgram (Except ε α)} (heeds : Heeds program)
    {result : α} (succeeds : (disk.run program).1 = .ok result) :
    ∀ visit ∈ disk.visits program, visit.hasFailed = false := by
  induction program generalizing disk with
  | done outcome => exact List.forall_mem_nil _
  | step call next ih =>
      rcases heeds (disk.serve call).1 with ⟨fails, heeds⟩
      rw [Disk.visits_step, List.forall_mem_cons]
      refine ⟨Bool.eq_false_iff.mpr fun failed => ?_, ih _ heeds succeeds⟩
      rcases (fails failed).run with ⟨failure, same⟩
      rw [Disk.run_step, same] at succeeds
      contradiction

end FileProgram

end Leasehold
