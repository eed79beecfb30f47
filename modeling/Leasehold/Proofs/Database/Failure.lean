import Leasehold.Proofs.Database.Attempt
import Leasehold.Proofs.Store.History

/-!
# A call to a database that fails changes nothing

If anything goes wrong with a call to a database, it says that the store is unavailable,
and it is as if it had not been made: the keyspace is what it was to the byte, its
temporary file is gone, and every later call goes as it would have, whatever goes wrong
with that. For the trees with and without the call differ in the guard and in temporary
files at most, and no reply depends on what these hold.
-/

namespace Leasehold

open FileSystem Leasehold.Path

namespace Database

/-! ## Calls where the same goes wrong -/

/-- Whether a place is that of the guard of a database or of a temporary file for its
keyspace. -/
def IsScratch (home : Place) (directory : Path) (place : Place) : Prop :=
  Owns home directory place ∧ place ≠ (keyspacePath directory).placeFrom home

variable {a b : Disk} {directory temporary : Path} {folder place : Place} {pid : Pid}
  {keyspace : Keyspace} {now : Instant} {call : StoreCall} {content : ByteArray} {home : Place}

theorem isScratch_guard : IsScratch home directory ((guardPath directory).placeFrom home) := by
  refine ⟨.guard, ?_⟩
  rw [placeFrom_keyspacePath, placeFrom_guardPath]
  exact fun same => absurd (List.cons.inj same).1 (by decide)

theorem isScratch_temporary {pid : Nat}
    (found : temporary? pid (keyspacePath directory) = some temporary) :
    IsScratch home directory (temporary.placeFrom home) :=
  ⟨.temporary found, placeFrom_temporary?_ne found home⟩

/-- That two disks, on which the same goes wrong, differ in the guard and the temporary files
of a database at most, and the keyspace can be reached. -/
structure Twins (home : Place) (directory : Path) (a b : Disk) : Prop where
  alike : a.Alike (IsScratch home directory) b
  begins : a.tree.workingDirectory = home
  reaches : a.tree.Reaches (keyspacePath directory) ("db.json" :: directory.placeFrom home)

namespace Twins

theorem after {α : Type} {program : FileProgram α} (twins : Twins home directory a b)
    (ran : Disk.RunAlike (IsScratch home directory) a b program) :
    Twins home directory (a.run program).2 (b.run program).2 :=
  ⟨ran.alike, (a.varies_run program).home.trans twins.begins,
    (a.varies_run program).reaches twins.reaches⟩

/-- What touches no file leaves twins. -/
theorem serve (twins : Twins home directory a b) {fileCall : FileCall}
    (plain : fileCall.isMaking = false)
    (within : fileCall.Touches (IsScratch home directory) home) :
    Twins home directory (a.serve fileCall).2 (b.serve fileCall).2 :=
  ⟨twins.alike.serve plain (twins.begins.symm ▸ within),
    (a.home_serve fileCall).trans twins.begins, (a.varies_serve fileCall).reaches twins.reaches⟩

/-- Loading reads the same. -/
theorem load (twins : Twins home directory a b) :
    Disk.RunAlike (IsScratch home directory) a b (Database.load directory) := by
  have reaches := twins.reaches
  have same : b.tree.read (keyspacePath directory) = a.tree.read (keyspacePath directory) := by
    rw [reaches.read, (twins.alike.tree.reaches reaches).read, twins.alike.tree.node?_eq]
    rw [← placeFrom_keyspacePath]
    exact fun scratch => scratch.2 rfl
  rw [load_eq]
  exact .step (twins.alike.reply same) fun _ _ =>
    .done (twins.alike.idle (.read (keyspacePath directory)) rfl rfl) _

/-- The directory of the keyspace is there for both. -/
theorem ensureParent (twins : Twins home directory a b) :
    Disk.RunAlike (IsScratch home directory) a b
      (FileSystem.ensureParent (keyspacePath directory)) := by
  have alike := twins.alike
  rcases temporary_leads twins.reaches 0 with ⟨parent, found, leads, -, -⟩
  rcases temporary_leads (alike.tree.reaches twins.reaches) 0 with ⟨_, found', leads', -, -⟩
  obtain rfl := Option.some.inj (found.symm.trans found')
  rw [FileSystem.ensureParent, found]
  simp only
  split
  · exact .done alike _
  next nonempty =>
    have present := leads.resolve_left nonempty
    refine .step (alike.reply ((leads'.resolve_left nonempty).trans present.symm)) ?_
    rintro _ rfl
    have said : (a.serve (.isPresent parent)).1 = true := by
      rw [Disk.serve_of_safe fun _ => rfl]
      exact present
    rw [said]
    exact .done (alike.idle (.isPresent parent) rfl rfl) _

/-- The keyspace is replaced alike. -/
theorem replaceFile (twins : Twins home directory a b) (pid : Pid) (content : ByteArray) :
    Disk.RunAlike (IsScratch home directory) a b
      (FileSystem.replaceFile pid.toNat (keyspacePath directory) content) := by
  have isName := isFileName_temporaryName isFileName_keyspace pid (by decide)
  have ensured := twins.ensureParent
  have twins' := twins.after ensured
  rcases temporary_leads twins'.reaches pid with ⟨parent, -, -, temporary, atMost⟩
  refine .bind ensured ?_
  rintro (failure | _)
  · exact .done ensured.alike _
  · simp only [temporary]
    refine runAlike_replaceBy ensured.alike (atMost.settles isName) ?_ ?_
    · exact twins'.reaches.settles isFileName_keyspace
    · rw [twins'.begins]
      exact isScratch_temporary temporary

theorem persist (twins : Twins home directory a b) (pid : Pid) (keyspace : Keyspace) :
    Disk.RunAlike (IsScratch home directory) a b (Database.persist pid directory keyspace) := by
  have replaced := twins.replaceFile pid keyspace.write.toUTF8
  rw [Database.persist]
  refine .bind replaced ?_
  rintro (failure | _) <;> exact .done replaced.alike _

theorem transact (twins : Twins home directory a b) (pid : Pid) (now : Instant)
    (call : StoreCall) :
    Disk.RunAlike (IsScratch home directory) a b (Database.transact pid directory now call) := by
  have loaded := twins.load
  rw [Database.transact]
  refine .bind loaded ?_
  rintro (failure | keyspace)
  · exact .done loaded.alike _
  · simp only
    split
    · have persisted := (twins.after loaded).persist pid (keyspace.serve now call).2
      refine .bind persisted ?_
      rintro (failure | _) <;> exact .done persisted.alike _
    · exact .done loaded.alike _

/-- A call is answered alike. -/
theorem serveCall (twins : Twins home directory a b) (pid : Pid) (now : Instant)
    (call : StoreCall) :
    Disk.RunAlike (IsScratch home directory) a b (Database.serve pid directory now call) := by
  have guard := twins.reaches.sibling isFileName_keyspace isFileName_guard (by decide)
  have settles : a.tree.Settles (guardPath directory) := guard.settles isFileName_guard
  have opened : Twins home directory (a.serve (.openFile (guardPath directory))).2
      (b.serve (.openFile (guardPath directory))).2 :=
    twins.serve rfl (List.forall_mem_singleton.mpr isScratch_guard)
  simp only [Database.serve, FileCall.perform, Program.perform_bind]
  refine .step (twins.alike.reply (twins.alike.tree.change_reply settles _)) ?_
  generalize (a.serve (.openFile (guardPath directory))).2 = a₁ at opened ⊢
  generalize (b.serve (.openFile (guardPath directory))).2 = b₁ at opened ⊢
  rintro (failure | _) -
  · exact .done opened.alike _
  · have locked : Twins home directory (a₁.serve (.lock (guardPath directory))).2
        (b₁.serve (.lock (guardPath directory))).2 :=
      opened.serve rfl (List.forall_mem_nil _)
    refine .step (opened.alike.reply rfl) ?_
    rintro (failure | _) -
    · exact .done locked.alike _
    · have transacted := locked.transact pid now call
      refine .bind transacted fun reply => .step (transacted.alike.reply rfl) fun _ _ => ?_
      exact .done (transacted.alike.idle (.unlock (guardPath directory)) rfl rfl) _

end Twins

/-! ## Later calls -/

/-- Makes calls to a database one after the other, each for a process at a time, and
collects the replies. -/
def serveAll (directory : Path) : List (Pid × Instant × StoreCall) → FileProgram (List MadeCall)
  | [] => return []
  | (pid, now, call) :: calls => do
    let reply ← serve pid directory now call
    let made ← serveAll directory calls
    return ⟨call, reply, now⟩ :: made

theorem Twins.serveAll (twins : Twins home directory a b)
    (calls : List (Pid × Instant × StoreCall)) :
    Disk.RunAlike (IsScratch home directory) a b (Database.serveAll directory calls) := by
  induction calls generalizing a b with
  | nil => exact .done twins.alike _
  | cons first calls ih =>
      have served := twins.serveCall first.1 first.2.1 first.2.2
      refine .bind served fun reply => ?_
      have rest := ih (twins.after served)
      exact .bind rest fun made => .done rest.alike _

/-- That calls to a database go the same from one tree as from another: whatever goes wrong,
they get the same replies and leave the same keyspace. -/
def GoesOnAlike (directory : Path) (tree tree' : Tree) : Prop :=
  ∀ (mishaps : List (Option Mishap)) (calls : List (Pid × Instant × StoreCall)),
    let outcome := Disk.run ⟨tree, mishaps⟩ (serveAll directory calls)
    let outcome' := Disk.run ⟨tree', mishaps⟩ (serveAll directory calls)
    outcome'.1 = outcome.1 ∧
      outcome'.2.tree.node? ((keyspacePath directory).placeFrom tree.workingDirectory) =
        outcome.2.tree.node? ((keyspacePath directory).placeFrom tree.workingDirectory)

/-- Twins go on alike. -/
theorem goesOnAlike {tree tree' : Tree}
    (alike : tree.Alike (IsScratch tree.workingDirectory directory) tree')
    (reaches : tree.Reaches (keyspacePath directory)
      ("db.json" :: directory.placeFrom tree.workingDirectory)) :
    GoesOnAlike directory tree tree' := by
  intro mishaps calls
  have twins : Twins tree.workingDirectory directory ⟨tree, mishaps⟩ ⟨tree', mishaps⟩ :=
    ⟨⟨alike, rfl⟩, rfl, reaches⟩
  have ran := twins.serveAll calls
  exact ⟨ran.result, ran.alike.tree.node?_eq fun scratch => scratch.2 rfl⟩

/-! ## Calls that fail -/

/-- That the calls of a process to a database have left its keyspace as it was, and altered
no other file but the guard and the temporary file, which is gone unless it has not been
altered either. -/
structure LeavesNoTrace (pid : Pid) (directory : Path) (tree : Tree) (visits : List FileVisit)
    (later : Tree) : Prop where
  keyspace : later.node? ((keyspacePath directory).placeFrom tree.workingDirectory) =
    tree.node? ((keyspacePath directory).placeFrom tree.workingDirectory)
  others : ∀ visit ∈ visits, ∀ place, place ≠ (guardPath directory).placeFrom tree.workingDirectory →
    (∀ temporary, temporary? pid.toNat (keyspacePath directory) = some temporary →
      place ≠ temporary.placeFrom tree.workingDirectory) →
    visit.left.node? place = visit.met.node? place
  temporary : ∀ temporary, temporary? pid.toNat (keyspacePath directory) = some temporary →
    later.node? (temporary.placeFrom tree.workingDirectory) = none ∨
      ∀ visit ∈ visits, visit.left.node? (temporary.placeFrom tree.workingDirectory) =
        visit.met.node? (temporary.placeFrom tree.workingDirectory)

variable {disk later : Disk} {reply : call.Reply}

/-- The guard and the temporary file of a process are scratch. -/
theorem isScratch_of_altered {place : Place}
    (altered : place = (guardPath directory).placeFrom home ∨
      place = temporaryName pid.toNat "db.json" :: directory.placeFrom home) :
    IsScratch home directory place := by
  rcases altered with rfl | rfl
  · exact isScratch_guard
  · rcases exists_temporary pid directory with ⟨temporary, found⟩
    rw [← placeFrom_temporary found]
    exact isScratch_temporary found

/-- What is undone leaves no trace. -/
theorem leavesNoTrace {α : Type} {program : FileProgram α}
    (undone : Disk.Undone (· = (guardPath directory).placeFrom disk.tree.workingDirectory)
      (temporaryName pid.toNat "db.json" :: directory.placeFrom disk.tree.workingDirectory) disk
      program) :
    LeavesNoTrace pid directory disk.tree (disk.visits program) (disk.run program).2.tree := by
  constructor
  · refine (Disk.run_alike undone.alters).node?_eq fun altered => ?_
    exact (isScratch_of_altered altered).2 rfl
  · intro visit member place apart apart'
    refine (undone.alters visit member).node?_eq ?_
    rintro (guard | rfl)
    · exact apart guard
    · rcases exists_temporary pid directory with ⟨temporary, found⟩
      exact apart' temporary found (placeFrom_temporary found _).symm
  · intro temporary found
    rw [placeFrom_temporary found]
    refine undone.gone.imp_right fun altered visit member => ?_
    refine (altered visit member).node?_eq fun same => ?_
    rw [placeFrom_guardPath] at same
    exact temporaryName_ne_of_head? (by decide) (List.cons.inj same).1

/-- A call to a database on which something goes wrong says so, leaves no trace, and later
calls go on as if it had not been made. One that only reads or is refused, when no record
has expired, touches the guard at most. -/
theorem failure_changes_nothing
    (ran : disk.run (serve pid directory now call) = (reply, later)) :
    let visits := disk.visits (serve pid directory now call)
    ((∃ visit ∈ visits, visit.hasFailed = true) ∨ stored? disk.tree directory = none →
      ∃ fault, reply = .error (.storeUnavailable fault)) ∧
    (∀ failure, reply = .error failure → (∃ fault, failure = .storeUnavailable fault) ∧
      LeavesNoTrace pid directory disk.tree visits later.tree ∧
      GoesOnAlike directory disk.tree later.tree) ∧
    ∀ keyspace, stored? disk.tree directory = some keyspace →
      (∀ key entry, keyspace.entries.get? key = some entry → entry.isExpired now = false) →
      call.isRead = true ∨ call.isRefusal (keyspace.serve now call).1 = true →
      ∀ visit ∈ visits, ∀ path ∈ visit.call.touches, path = guardPath directory := by
  intro visits
  have result : (disk.run (serve pid directory now call)).1 = reply := congrArg Prod.fst ran
  have after : (disk.run (serve pid directory now call)).2 = later := congrArg Prod.snd ran
  have serves := runs_serve (disk.runs_answers (serve pid directory now call))
  rw [result] at serves
  refine ⟨?_, ?_, ?_⟩
  · intro goesWrong
    cases serves with
    | failed fault => exact ⟨fault, rfl⟩
    | served stored =>
        have heeded := (heeds_serve pid directory now call).hasFailed_eq_false result
        rcases goesWrong with ⟨visit, member, failed⟩ | unreadable
        · rw [heeded visit member] at failed
          contradiction
        · rw [unreadable] at stored
          contradiction
  · rintro failure rfl
    have undone := serve_undone result
    rw [← after]
    refine ⟨?_, leavesNoTrace undone, ?_⟩
    · cases serves with
      | failed fault => exact ⟨fault, rfl⟩
    · rcases unaltered_or_reaches disk pid directory now call with same | ⟨place, reaches⟩
      · rw [same]
        exact fun mishaps calls => ⟨rfl, rfl⟩
      · refine goesOnAlike ?_ (reaches.sibling isFileName_guard isFileName_keyspace (by decide))
        exact (Disk.run_alike undone.alters).mono fun place => isScratch_of_altered
  · intro keyspace stored unexpired idle
    have purged := Keyspace.purge_of_unexpired unexpired
    rw [Keyspace.serve, purged] at idle
    have clean : (keyspace.serve now call).2.dirty = false := by
      rw [Keyspace.serve, purged, Keyspace.apply_of_idle idle]
      exact dirty_of_ofContent? stored
    exact serve_idle stored clean

/-- A disk with a database of one record, on which the seventh call is refused: the one that
moves the new keyspace to its place. -/
def unmoving : Disk where
  tree :=
    let records := TextMap.empty.insert "PORT|1" ⟨TextMap.empty.insert "mtu" "9100", none⟩
    ⟨[], [(["store"], .directory),
      (["db.json", "store"], .file (Keyspace.write ⟨records, false⟩).toUTF8)]⟩
  mishaps := [none, none, none, none, none, none, some ⟨.busy, none⟩]

/-- The call that is refused there leaves the record and nothing else. -/
theorem failure_changes_nothing_of_unmoving :
    ∃ later, unmoving.run (serve 7 "store" default (.merge "PORT|2" .empty)) =
        (.error (.storeUnavailable (.writing "store/db.json" .busy)), later) ∧
      LeavesNoTrace 7 "store" unmoving.tree
        (unmoving.visits (serve 7 "store" default (.merge "PORT|2" .empty))) later.tree ∧
      GoesOnAlike "store" unmoving.tree later.tree := by
  have said : (unmoving.run (serve 7 "store" default (.merge "PORT|2" .empty))).1 =
      .error (.storeUnavailable (.writing "store/db.json" .busy)) := by
    decide +kernel
  have ran : unmoving.run (serve 7 "store" default (.merge "PORT|2" .empty)) =
      (.error (.storeUnavailable (.writing "store/db.json" .busy)),
        (unmoving.run (serve 7 "store" default (.merge "PORT|2" .empty))).2) :=
    Prod.ext said rfl
  exact ⟨_, ran, ((failure_changes_nothing ran).2.1 _ rfl).2⟩

end Database

end Leasehold
