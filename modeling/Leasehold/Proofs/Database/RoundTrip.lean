import Leasehold.Proofs.Database.Ready

/-!
# Keyspaces in files and back

What has been persisted is loaded as it was, no longer dirty: every key, field and value,
and every expiry to the nanosecond. That holds of each keyspace whose expiries have a
spelling, and loading gives no other: whatever the file says and however it spells it, what
was loaded once is loaded again after it has been persisted.
-/

namespace Leasehold.Database

open FileSystem Leasehold.Path

variable {tree later : Tree} {directory : Path} {folder : Place} {keyspace : Keyspace}
  {pid : Pid} {path : Path}

/-- That loading a database gives a keyspace and changes no file. -/
def Loads (tree : Tree) (directory : Path) (keyspace : Keyspace) : Prop :=
  tree.run (load directory) = (.ok keyspace, tree)

/-! ## Loading -/

/-- What loading understands of a content is the keyspace that it stands for. -/
theorem loaded_eq_ok_iff {content : ByteArray} :
    loaded path (textOf (.ok content)) = .ok keyspace ↔
      ofContent? (some content) = some keyspace := by
  rcases loaded_of_content path content with ⟨fault, failed, none⟩ | ⟨found, understood, stands⟩
  · simp [failed, none]
  · simp [understood, stands]

/-- Where the file has the text of a keyspace, that is what is loaded. -/
theorem loads_of_read (proper : keyspace.IsProper)
    (reads : tree.read (keyspacePath directory) = .ok keyspace.write.toUTF8) :
    Loads tree directory ⟨keyspace.entries, false⟩ := by
  rw [Loads, load_eq, Tree.run, Program.run_step, Program.run_done]
  refine congrArg (·, tree) ?_
  change loaded _ (textOf (tree.read _)) = _
  rw [reads]
  exact loaded_eq_ok_iff.mpr (ofContent?_write proper)

theorem exists_content_of_loaded {reply : Except IoFailure ByteArray}
    (understood : loaded path (textOf reply) = .ok keyspace) :
    ∃ content?, ofContent? content? = some keyspace := by
  cases reply with
  | ok content => exact ⟨some content, loaded_eq_ok_iff.mp understood⟩
  | error failure =>
      by_cases missing : failure = .notFound
      · subst missing
        exact ⟨none, congrArg some (Except.ok.inj understood)⟩
      · cases (loaded_of_failed missing path).symm.trans understood

/-- What was loaded is what some content stands for, or the lack of one. -/
theorem exists_content_of_runs_load
    (ran : (load directory).Runs Tree.Answers tree (.ok keyspace) later) :
    ∃ content?, ofContent? content? = some keyspace := by
  rw [load_eq] at ran
  rcases runs_read ran with ⟨-, understood | ⟨failure, -, understood⟩⟩
  · exact exists_content_of_loaded understood.symm
  · exact exists_content_of_loaded understood.symm

/-! ## Persisting -/

/-- What has been persisted is loaded, whatever was in the way of persisting it. -/
theorem loads_of_runs_persist (proper : keyspace.IsProper)
    (ran : (persist pid directory keyspace).Runs Tree.Answers tree (.ok ()) later) :
    Loads later directory ⟨keyspace.entries, false⟩ := by
  rcases runs_persist_text ran with ⟨fault, failed, -⟩ | ⟨-, reads⟩
  · cases failed
  · exact loads_of_read proper reads

/-! ## There and back -/

/-- That a keyspace, once it has been persisted, is loaded as another: whenever persisting
says that it is done, as it does where nothing keeps the database from working. -/
structure ReadsBack (written found : Keyspace) : Prop where
  persists : ∀ {pid : Pid} {directory : Path} {folder : Place} {tree : Tree},
    Ready pid directory folder tree →
      ∃ later, tree.run (persist pid directory written) = (.ok (), later) ∧
        Loads later directory found
  loads : ∀ {pid : Pid} {directory : Path} {tree later : Tree},
    (persist pid directory written).Runs Tree.Answers tree (.ok ()) later →
      Loads later directory found

theorem readsBack_of_isProper (proper : keyspace.IsProper) :
    ReadsBack keyspace ⟨keyspace.entries, false⟩ := by
  refine ⟨fun {pid directory folder tree} ready => ?_, fun ran => loads_of_runs_persist proper ran⟩
  rcases ready.run_persist keyspace with ⟨later, persisted, -⟩
  have ran := Tree.runs_run tree (persist pid directory keyspace)
  rw [persisted] at ran
  exact ⟨later, persisted, loads_of_runs_persist proper ran⟩

/-- Every keyspace is read back with the same records, if its expiries can be written; and a
keyspace that was loaded, from whatever file, is read back as it is. -/
theorem keyspaces_read_back :
    (∀ {keyspace : Keyspace}, keyspace.IsProper →
      ReadsBack keyspace ⟨keyspace.entries, false⟩) ∧
    ∀ {directory : Path} {tree later : Tree} {keyspace : Keyspace},
      (load directory).Runs Tree.Answers tree (.ok keyspace) later →
        ReadsBack keyspace keyspace := by
  refine ⟨readsBack_of_isProper, fun {directory tree later keyspace} loading => ?_⟩
  rcases exists_content_of_runs_load loading with ⟨content?, stands⟩
  have same : (⟨keyspace.entries, false⟩ : Keyspace) = keyspace := by
    rw [← dirty_of_ofContent? stands]
  have readsBack := readsBack_of_isProper (isProper_of_ofContent? stands)
  rwa [same] at readsBack

/-- A directory with a blank file for a database, and one whose database was written by
hand: with a member that means nothing, a key twice and an offset. -/
def byHand : Tree :=
  let first := "\x7b\"by\":[7],\"entries\":\x7b\"é\":\x7b\"fields\":\x7b\x7d\x7d,\"é\":"
  let expiry := "\x7b\"expires_at\":\"2024-01-01T02:00:00.5+02:00\","
  let last := "\"fields\":\x7b\"\":\"\\n\"\x7d\x7d\x7d\x7d"
  ⟨[], [(["db"], .directory), (["db.json", "db"], .file " \n".toUTF8), (["old"], .directory),
    (["db.json", "old"], .file (first ++ expiry ++ last).toUTF8)]⟩

/-- What was written by hand. -/
def handwritten : Keyspace :=
  let fields := TextMap.empty.insert "" "\n"
  ⟨TextMap.empty.insert "é" ⟨fields, Instant.ofParts? 1704067200 500000000⟩, false⟩

/-- A keyspace that has changed: it has got a record that lives as long as can be and one
that never expires, neither with any field. -/
def changed : Keyspace :=
  let longest := Duration.ofParts (2 ^ 64 - 1) 999999999
  let created := (Keyspace.empty.serve default (.create "é" .empty longest)).2
  (created.serve default (.merge "" .empty)).2

theorem isProper_changed : changed.IsProper :=
  (Keyspace.isProper_empty.serve _ _).serve _ _

/-- Nothing keeps the database with the blank file from working. -/
theorem ready_byHand : Ready 1 "db" ["db"] byHand := by
  refine ⟨⟨by decide +kernel, by decide +kernel⟩, fun name _ => ?_, fun temporary found => ?_⟩
  · simp [byHand, Tree.node?]
  · have named : temporary? (1 : Pid).toNat (keyspacePath "db") = some "db/.db.json.1.tmp" := by
      decide +kernel
    cases named.symm.trans found
    decide +kernel

/-- What was written by hand takes the place of the blank file, and changed records take the
place of either. -/
theorem keyspaces_read_back_of_byHand :
    (∃ later, byHand.run (persist 1 "db" changed) = (.ok (), later) ∧
      Loads later "db" ⟨changed.entries, false⟩) ∧
    Loads (byHand.run (persist 1 "old" changed)).2 "old" ⟨changed.entries, false⟩ ∧
    ∃ later, byHand.run (persist 1 "db" handwritten) = (.ok (), later) ∧
      Loads later "db" handwritten := by
  have loading := Tree.runs_run byHand (load "old")
  have persisting := Tree.runs_run byHand (persist 1 "old" changed)
  rw [show (byHand.run (load "old")).1 = .ok handwritten by decide +kernel] at loading
  rw [show (byHand.run (persist 1 "old" changed)).1 = .ok () by decide +kernel] at persisting
  have readsBack := keyspaces_read_back.1 isProper_changed
  have readsBack' := keyspaces_read_back.2 loading
  have inBlank := readsBack.persists ready_byHand
  have inOld := readsBack.loads persisting
  have moved := readsBack'.persists ready_byHand
  exact ⟨inBlank, inOld, moved⟩

end Leasehold.Database
