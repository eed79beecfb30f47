import Leasehold.Proofs.Database.Content
import Leasehold.Proofs.Snapshot.Codec
import Leasehold.Proofs.Snapshot.RoundTrip
import Leasehold.Proofs.Transfer.Whole

/-!
# Snapshot files

A snapshot that was written to a file is read from it again, whatever the names and values
in it, except for the table of the lock. Whatever text a file holds, what is read from it
has just the tables whose names the text spells at its top level, but not that of the lock,
and can be written and read any number of times.
-/

namespace Leasehold

open LockRecord Surroundings

/-! ## Reading undisturbed -/

section

variable {α : Type} {now : Instant} {answer : Except Failure Bool} {s : Surroundings}

/-- File calls that nobody disturbs are served one after the other. -/
theorem Surroundings.run_ofFiles (program : FileProgram α) :
    (Procedure.ofFiles program).run (undisturbed now answer) s =
      ((s.tree.run program).1, { s with tree := (s.tree.run program).2 }) := by
  induction program generalizing s with
  | done result => rfl
  | step call next ih =>
      exact @ih (s.tree.serve call).1 { s with tree := (s.tree.serve call).2 }

theorem Snapshot.run_noteIgnored (path : Path) (tables : List String) :
    (noteIgnored path tables).run (undisturbed now answer) s = ((), s) := by
  induction tables with
  | nil => rfl
  | cons table tables ih => exact ih

/-- What is read of a file with a snapshot in it. -/
theorem Snapshot.run_readFrom {path : Path} {text : String} {tables : Tables}
    (held : s.tree.read path = .ok text.toUTF8) (parses : read? text = some tables) :
    (readFrom path).run (undisturbed now answer) s = (.ok (persistable tables), s) := by
  rw [readFrom, Program.run_bind, run_ofFiles, FileSystem.run_readText, held]
  simp only [FileSystem.textOf, fromUTF8?_toUTF8, parses, Program.run_bind, run_noteIgnored]
  rfl

/-- What could be read of a file is what its text holds, without the table of the lock. -/
theorem Snapshot.held_of_run_readFrom {path : Path} {tables : Tables}
    (ran : ((readFrom path).run (undisturbed now answer) s).1 = .ok tables) :
    ∃ text all, s.tree.read path = .ok text.toUTF8 ∧ read? text = some all ∧
      tables = persistable all := by
  rw [readFrom, Program.run_bind, run_ofFiles, FileSystem.run_readText] at ran
  cases found : FileSystem.textOf (s.tree.read path) with
  | error cause =>
      rw [found] at ran
      cases ran
  | ok text =>
      rw [found] at ran
      cases parses : read? text with
      | none =>
          simp only [parses] at ran
          cases ran
      | some all =>
          simp only [parses, Program.run_bind, run_noteIgnored] at ran
          exact ⟨text, all, FileSystem.textOf_eq_ok found, parses, (Except.ok.inj ran).symm⟩

end

theorem Snapshot.mem_keys_persistable {tables : Tables} {table : String} :
    table ∈ (persistable tables).keys ↔ table ≠ LockRecord.table ∧ table ∈ tables.keys := by
  simp only [TextMap.mem_keys_iff, persistable, TextMap.get?_filter, Option.filter_eq_some_iff,
    isPersistable, bne_iff_ne, exists_and_right]
  exact and_comm

/-! ## Back and forth -/

/-- That a file is read as certain tables by whoever reads it undisturbed. -/
def Tree.Tells (tree : Tree) (path : Path) (tables : Tables) : Prop :=
  ∀ now answer s, s.tree = tree →
    (Snapshot.readFrom path).run (undisturbed now answer) s = (.ok tables, s)

/-- A file that a snapshot was written to is read as this snapshot without the table of the
lock. -/
theorem Snapshot.tells_of_writeTo {pid : Pid} {tables : Tables} {path : Path} {tree later : Tree}
    (wrote : (writeTo pid tables path).Runs Tree.Answers tree (.ok ()) later) :
    later.Tells path (persistable tables) := by
  have written : (writeTo pid tables path).Runs (Tree.Leads fun _ => False) tree (.ok ()) later :=
    wrote.mono fun _ _ _ _ => Tree.Answers.leads
  rcases Transfer.runs_writeTo (fun _ _ => id) written with ⟨_, failed, -⟩ | ⟨-, -, held⟩
  · contradiction
  · rintro now answer s rfl
    exact run_readFrom held (read?_write tables)

/-- What is read of a file with some text: the tables whose names the text spells at its
top level, but not that of the lock. They are read again, the same, wherever they are
written. -/
structure Snapshot.ReadsBack (text : String) (tables : Tables) : Prop where
  lockless : LockRecord.table ∉ tables.keys
  names : ∃ members, Json.Raw.read? text.toList = some (.object members) ∧
    ∀ table, table ∈ tables.keys ↔
      table ≠ LockRecord.table ∧ ∃ member ∈ members, member.1.text? = some table
  again : ∀ (pid : Pid) (path : Path) (tree later : Tree),
    (writeTo pid tables path).Runs Tree.Answers tree (.ok ()) later → later.Tells path tables

/-- Files with snapshots are read as they were written, without the table of the lock, which
is never read of any file. -/
theorem Snapshot.files_read_back :
    (∀ (pid : Pid) (tables : Tables) (path : Path) (tree later : Tree),
      (writeTo pid tables path).Runs Tree.Answers tree (.ok ()) later →
        later.Tells path (persistable tables)) ∧
    ∀ (now : Instant) (answer : Except Failure Bool) (s : Surroundings) (path : Path)
      (tables : Tables), ((readFrom path).run (undisturbed now answer) s).1 = .ok tables →
        ∃ text, s.tree.read path = .ok text.toUTF8 ∧ ReadsBack text tables := by
  refine ⟨fun _ _ _ _ _ => tells_of_writeTo, fun now answer s path tables ran => ?_⟩
  rcases held_of_run_readFrom ran with ⟨text, all, held, parses, rfl⟩
  refine ⟨text, held, ?_, ?_, ?_⟩
  · intro listed
    exact absurd (mem_keys_persistable.mp listed).1 (by simp)
  · rcases Option.bind_eq_some_iff.mp parses with ⟨raw, spelt, decoded⟩
    rcases Json.mem_keys_of_map? decoded with ⟨members, rfl, names⟩
    exact ⟨members, spelt, fun table => by rw [mem_keys_persistable, names]⟩
  · intro pid path tree later wrote
    have told := tells_of_writeTo wrote
    rwa [persistable_persistable] at told

/-- A table of the lock, and one whose names have a separator, quotes and a line break. -/
def lockAndNode : Tables :=
  let fields : Fields := TextMap.empty.insert "port\n" "\"80\""
  TextMap.ofList [(LockRecord.table, TextMap.empty.insert LockRecord.record fields),
    ("NODE|a", TextMap.empty.insert "\\b" fields)]

/-- The second table is read of the file that both were written to. -/
theorem Snapshot.files_read_back_of_lockAndNode :
    ∃ later, (writeTo 1 lockAndNode "config.json").Runs Tree.Answers ⟨[], []⟩ (.ok ()) later ∧
      later.Tells "config.json" (persistable lockAndNode) ∧
      ∃ text, later.read "config.json" = .ok text.toUTF8 ∧
        ReadsBack text (persistable lockAndNode) := by
  rcases files_read_back with ⟨written, read⟩
  have wrote := Tree.runs_run ⟨[], []⟩ (writeTo 1 lockAndNode "config.json")
  generalize (Tree.run ⟨[], []⟩ (writeTo 1 lockAndNode "config.json")).2 = later at wrote
  have done : (Tree.run ⟨[], []⟩ (writeTo 1 lockAndNode "config.json")).1 = .ok () := by
    decide +kernel
  rw [done] at wrote
  have tells := written _ _ _ _ _ wrote
  have told := congrArg Prod.fst (tells default (.ok true) ⟨.empty, later, [], []⟩ rfl)
  exact ⟨later, wrote, tells, read _ _ _ _ _ told⟩

end Leasehold
