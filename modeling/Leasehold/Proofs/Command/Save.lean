import Leasehold.Command.Transfer
import Leasehold.Proofs.Audit.Trail
import Leasehold.Proofs.Host.Site
import Leasehold.Proofs.Transfer.RoundTrip

/-!
# Saving keeps the records

The command that saves the configuration works on the database by calls that spare all
records but that of the lock, and writes a file of its own, another one beside it and the
audit trail. So unless the file is the one that the keyspace is in, all other records are
there afterwards, but for those that lapsed meanwhile, and a dump gives what was saved.

If the file is that very one, the tables are taken for the keyspace afterwards: they have
no member that a keyspace would have, so nothing is left.
-/

namespace Leasehold

open LockRecord FileSystem Leasehold.Path

/-! ## What saving touches -/

section

variable {touched : Place → Prop} {home : Place} {path directory : Path} {pid : Pid}

theorem HostProgram.touches_ofFiles {α : Type} {program : FileProgram α}
    (touches : program.Only (FileCall.Touches touched home)) :
    (HostProgram.ofFiles program).Only (HostRequest.Touches touched home) := by
  refine Program.only_expand (fun call touches => ?_) touches
  exact ⟨touches, fun _ => trivial⟩

/-- A temporary file is not the keyspace of a database. -/
theorem Database.placeFrom_temporary?_ne_keyspace {temporary : Path} {pid : Nat}
    (found : temporary? pid path = some temporary) :
    temporary.placeFrom home ≠ (keyspacePath directory).placeFrom home := by
  rcases placeFrom_temporary? found home with ⟨name, folder, -, place⟩
  rw [place, placeFrom_keyspacePath]
  intro same
  have first := congrArg (fun name => name.toList.head?) (List.cons.inj same).1
  simp [toList_temporaryName] at first

/-- Saving touches the file and its temporary file, besides those of the store. -/
theorem Transfer.save_touches (here : touched (path.placeFrom home))
    (beside : ∀ temporary, temporary? pid.toNat path = some temporary →
      touched (temporary.placeFrom home))
    (timing : LockTiming) (asks : Bool) :
    (Transfer.save pid timing path asks).Only (Request.Touches touched home) := by
  have writes (tables : Tables) : (Procedure.ofFiles (Snapshot.writeTo pid tables path)).Only
      (Request.Touches touched home) := by
    have replaces : (replaceFile pid.toNat path (Snapshot.write tables).toUTF8).Only
        (FileCall.Touches touched home) := replaceFile_touches beside here _
    have written : (Snapshot.writeTo pid tables path).Only (FileCall.Touches touched home) := by
      refine Program.only_bind replaces fun outcome => ?_
      cases outcome <;> trivial
    refine Program.only_expand (fun call touches => ?_) written
    exact ⟨touches, fun _ => trivial⟩
  have exports : (Transfer.exportTo pid path).Only (Request.Touches touched home) := by
    refine ⟨trivial, ?_⟩
    rintro (failure | tables)
    · trivial
    · apply Program.only_bind (writes tables)
      rintro (failure | _)
      · trivial
      · exact ⟨trivial, fun _ => trivial⟩
  apply Procedure.runProtected_only (fun _ => trivial) (fun _ => trivial)
  exact fun c => Program.only_bind exports fun _ => trivial

/-- Saving to another file leaves alone what a database holds. -/
theorem Transfer.save_avoids
    (apart : path.placeFrom home ≠ (Database.keyspacePath directory).placeFrom home)
    (timing : LockTiming) (asks : Bool) :
    (Transfer.save pid timing path asks).Only (Request.Avoids directory home) := by
  rw [Request.Avoids]
  apply Transfer.save_touches
  · exact apart
  · exact fun _ found => Database.placeFrom_temporary?_ne_keyspace found

/-- Recording how an action ended touches the audit trail only. -/
theorem TransferCommand.recordOutcome_touches (caller : Caller) (settings : Settings)
    (outcome : AuditAction × Json) (here : touched ((AuditTrail.path directory).placeFrom home)) :
    (TransferCommand.recordOutcome caller directory settings outcome).Only
      (HostRequest.Touches touched home) := by
  have acts : (TransferCommand.actor caller).Only (HostRequest.Touches touched home) := by
    refine ⟨trivial, ?_⟩
    rintro (_ | user)
    · exact ⟨trivial, fun _ => trivial⟩
    · trivial
  rw [recordOutcome]
  split
  · have current : (TransferCommand.currentEvent caller outcome.1 outcome.2).Only
        (HostRequest.Touches touched home) := by
      have reads : HostProgram.clock.Only (HostRequest.Touches touched home) :=
        ⟨trivial, fun _ => trivial⟩
      exact Program.only_bind reads fun _ => Program.only_bind acts fun _ => trivial
    apply Program.only_bind current
    intro event
    apply Program.only_bind (HostProgram.touches_ofFiles (AuditTrail.append_touches event here))
    rintro (failure | _)
    · exact ⟨trivial, fun _ => trivial⟩
    · trivial
  · trivial

theorem Database.prepare_touches (directory : Path) :
    (Database.prepare directory).Only (FileCall.Touches touched home) := by
  apply Program.only_bind (makeMissing_touches _)
  rintro (failure | _) <;> trivial

/-- Preparing the directory of a database changes no file, and fails only if it cannot be
made. -/
theorem Database.runs_prepare {tree later : Tree} {outcome : Except Failure Unit}
    (ran : (Database.prepare directory).Runs Tree.Answers tree outcome later) :
    tree.Varies (fun _ => False) later ∧ (outcome = .ok () ∨
      ∃ cause, outcome = .error (.storeUnavailable (.directory directory cause))) := by
  constructor
  · exact Tree.varies_of_only (fun _ => id) rfl (Database.prepare_touches directory)
      (ran.mono fun _ _ _ _ answers => answers.leads)
  · rcases Program.runs_bind.mp ran with ⟨cause | _, _, -, rest⟩
    · exact .inr ⟨cause, rest.1⟩
    · exact .inl rest.1

end

/-! ## Settings -/

/-- What loading settings makes of the text that it reads. -/
def Settings.loaded (path : Path) : Except IoFailure String → Except Failure Settings
  | .ok text => Settings.read text
  | .error .notFound => .ok Settings.default
  | .error cause => .error (.user (.settingsUnreadable path cause))

theorem Settings.loaded_of_failed {failure : IoFailure} (failed : failure ≠ .notFound)
    (path : Path) :
    loaded path (.error failure) = .error (.user (.settingsUnreadable path failure)) := by
  cases failure with
  | notFound => exact absurd rfl failed
  | _ => rfl

theorem Settings.load_eq (path : Path) :
    Settings.load path = .step (.read path) fun reply => .done (loaded path (textOf reply)) := by
  rw [Settings.load, readText_eq]
  refine congrArg (Program.step _) (funext fun reply => ?_)
  simp only [Program.bind]
  rcases textOf reply with failure | text
  · cases failure <;> rfl
  · rfl

/-- Settings that were loaded are those in the file. -/
theorem Settings.runs_load {tree later : Tree} {path : Path} {settings : Settings}
    (ran : (Settings.load path).Runs Tree.Answers tree (.ok settings) later) :
    later = tree ∧ (tree.run (Settings.load path)).1 = .ok settings := by
  rw [Settings.load_eq] at ran ⊢
  rcases runs_read ran with ⟨rfl, same | ⟨failure, found, same⟩⟩
  · exact ⟨rfl, same.symm⟩
  · cases same.trans (loaded_of_failed found path)

/-! ## Records and tables -/

/-- A record that may have lapsed is seen as before at a time when it is expired if it was at
the times that it may have lapsed at. -/
theorem Keyspace.Lapses.live?_of_unexpired {key : String} {times : List Instant}
    {before after : Keyspace} {now : Instant} (lapses : Keyspace.Lapses key times before after)
    (same : ∀ entry, before.entries.get? key = some entry → ∀ time ∈ times,
      entry.isExpired time = entry.isExpired now) :
    after.live? key now = before.live? key now := by
  rcases lapses with kept | ⟨gone, entry, found, time, member, expired⟩
  · rw [Keyspace.live?, Keyspace.live?, kept]
  · rw [same entry found time member] at expired
    simp [Keyspace.live?, gone, found, Option.filter, expired]

/-- That no record of some keys expires between some readings of the clock and a time. -/
def Keyspace.Unexpired (keyspace : Keyspace) (kind : String → Bool) (times : List Instant)
    (now : Instant) : Prop :=
  ∀ key entry, kind key → keyspace.entries.get? key = some entry → ∀ time ∈ times,
    entry.isExpired time = entry.isExpired now

/-- What was dumped once is dumped again, if no saved record expires. -/
theorem Transfer.Dumps.dump_again {s later : Surroundings} {tables : Tables} {met : Keyspace}
    {time now : Instant} {before after : List Visit} {times : List Instant}
    (dumps : Transfer.Dumps s tables later met time before after)
    (within : ∀ visit ∈ after ++ ⟨met, time, Snapshot.dump, none⟩ :: before, visit.time ∈ times)
    (unexpired : s.keyspace.Unexpired isSaved times now) :
    (later.keyspace.serve now Snapshot.dump).1 = tables := by
  rw [dumps.dumped]
  refine dump_congr fun key saved => ?_
  have other := ne_lockKey_of_isSaved saved
  have here : time ∈ times := within ⟨met, time, Snapshot.dump, none⟩ (by simp)
  have stable (entry : Entry) (found : s.keyspace.entries.get? key = some entry) :=
    unexpired key entry saved found
  have early : Keyspace.Lapses key times s.keyspace met :=
    (dumps.lapses_met other).mono fun _ member => by
      rcases List.mem_map.mp member with ⟨visit, listed, rfl⟩
      exact within visit (by simp [listed])
  have whole : Keyspace.Lapses key times s.keyspace later.keyspace :=
    (dumps.lapses other).mono fun _ member => by
      rcases List.mem_map.mp member with ⟨visit, listed, rfl⟩
      exact within visit listed
  have between : s.keyspace.live? key now = s.keyspace.live? key time := by
    cases found : s.keyspace.entries.get? key with
    | none => simp [Keyspace.live?, found]
    | some entry => simp [Keyspace.live?, found, Option.filter, stable entry found time here]
  rw [whole.live?_of_unexpired stable, between, early.live?_of_unexpired]
  intro entry found reading member
  rw [stable entry found reading member, stable entry found time here]

/-! ## Saving -/

namespace TransferCommand

/-- What saving to a path leaves of a database: all records but that of the lock, except for
those that lapsed at some reading of the clock, and in the file the tables that a dump goes
on giving. -/
structure SavesApart (home path : Path) (tree : Tree) (later : Site) (before after : Keyspace)
    (tables : Tables) : Prop where
  stored : Database.stored? later.tree home = some after
  lapses : ∀ key, key ≠ LockRecord.key → Keyspace.Lapses key later.readings before after
  /-- So at every time that is not before the readings a record is seen as it was. -/
  live : ∀ key, key ≠ LockRecord.key → ∀ now, (∀ time ∈ later.readings, time ≤ now) →
    after.live? key now = before.live? key now
  dumps : ∀ (pid : Pid) (now : Instant) (dumped : Tables) (tree' : Tree),
    before.Unexpired isSaved later.readings now →
    (Database.serve pid home now Snapshot.dump).Runs Tree.Answers later.tree (.ok dumped) tree' →
    dumped = tables
  /-- The tables are in the file, unless that is one that the store or the trail needs. -/
  written : ¬Database.Owns tree.workingDirectory home
      (path.placeFrom tree.workingDirectory) →
    path.placeFrom tree.workingDirectory ≠
      (AuditTrail.path home).placeFrom tree.workingDirectory →
    later.tree.read path = .ok (Snapshot.write tables).toUTF8

variable {caller : Caller} {home path : Path} {file : Option Path} {pid : Pid}
  {timing : LockTiming} {asks : Bool} {tree : Tree} {site later : Site} {before : Keyspace}
  {tables : Tables}

/-- Saving on a database goes along with saving on the keyspace that it holds. -/
theorem runs_onDatabase {c' : Claimant} (stored : Database.stored? site.tree home = some before)
    (apart : path.placeFrom site.tree.workingDirectory ≠
      (Database.keyspacePath home).placeFrom site.tree.workingDirectory)
    (ran : (HostProgram.onDatabase pid home (Transfer.save pid timing path asks)).Runs Site.Answers
      site (.ok tables, c') later) :
    ∃ s' met time early late, Site.Mirrors home site.tree.workingDirectory true later s' ∧
      Transfer.Dumps ⟨before, site.tree, [], []⟩ tables s' met time early late ∧
      (¬Database.Owns site.tree.workingDirectory home
        (path.placeFrom site.tree.workingDirectory) →
        later.tree.read path = .ok (Snapshot.write tables).toUTF8) := by
  have clean : before = ⟨before.entries, false⟩ := by
    rw [← Database.dirty_of_ofContent? stored]
  have mirrors : Site.Mirrors home site.tree.workingDirectory true site
      ⟨before, site.tree, [], []⟩ :=
    ⟨rfl, rfl, stored.trans (congrArg some clean), List.forall_mem_nil _, nofun⟩
  rcases mirrors.runs_onDatabase (Transfer.save_avoids apart timing asks) ran with
    ⟨s', ran', mirrors'⟩
  rcases Transfer.dumps_of_runs ran' with ⟨met, time, early, late, dumps⟩
  refine ⟨s', met, time, early, late, mirrors', dumps, fun outside => ?_⟩
  have outside' (temporary : Path) (found : temporary? pid.toNat path = some temporary) :
      ¬Database.Owns site.tree.workingDirectory home
        (temporary.placeFrom site.tree.workingDirectory) :=
    fun owns => outside (Database.owns_of_owns_temporary found owns)
  rw [← mirrors'.tree]
  exact Transfer.reads_of_runs outside outside' ran'

/-- The audit trail is not where the keyspace is. -/
theorem keyspacePath_ne_path {place : Place} : (Database.keyspacePath home).placeFrom place ≠
    (AuditTrail.path home).placeFrom place := by
  rw [Database.placeFrom_keyspacePath, AuditTrail.path, placeFrom_join _ (by decide),
    step_of_isName (by decide) (by decide)]
  exact fun same => absurd (List.cons.inj same).1 (by decide)

/-- What a save has done to the keyspace, said of the database that holds it. -/
theorem savesApart_of_dumps {s s' : Surroundings} {met : Keyspace} {time : Instant}
    {early late : List Visit} (dumps : Transfer.Dumps s tables s' met time early late)
    (stored : Database.stored? later.tree home = some ⟨s'.keyspace.entries, false⟩)
    (times : ∀ visit ∈ s'.visits, visit.time ∈ later.readings)
    (written : ¬Database.Owns tree.workingDirectory home
        (path.placeFrom tree.workingDirectory) →
      path.placeFrom tree.workingDirectory ≠
        (AuditTrail.path home).placeFrom tree.workingDirectory →
      later.tree.read path = .ok (Snapshot.write tables).toUTF8) :
    SavesApart home path tree later s.keyspace ⟨s'.keyspace.entries, false⟩ tables := by
  have within : ∀ visit ∈ late ++ ⟨met, time, Snapshot.dump, none⟩ :: early,
      visit.time ∈ later.readings := fun visit member =>
    times visit (dumps.visits ▸ List.mem_append_left _ member)
  have lapses (key : String) (other : key ≠ LockRecord.key) :
      Keyspace.Lapses key later.readings s.keyspace ⟨s'.keyspace.entries, false⟩ :=
    (dumps.lapses other).mono fun _ member => by
      rcases List.mem_map.mp member with ⟨visit, listed, rfl⟩
      exact within visit listed
  refine ⟨stored, lapses, fun key other now earlier => (lapses key other).live? earlier, ?_,
    written⟩
  intro pid now dumped tree unexpired ran
  have same : (⟨s'.keyspace.entries, false⟩ : Keyspace).entries = s'.keyspace.entries := rfl
  generalize said : (Except.ok dumped : (Snapshot.dump).Reply) = reply at ran
  cases Database.runs_serve ran with
  | failed => contradiction
  | served stored' left =>
      cases stored.symm.trans stored'
      rw [← dumps.dump_again within unexpired, ← (Keyspace.serve_congr same now Snapshot.dump).1]
      exact Except.ok.inj said

/-- How the command that saves succeeds: it loads settings, sees that the directory is there,
saves on the database and records that. -/
theorem runs_save (ran : (save caller home file asks).Runs Site.Answers ⟨tree, []⟩ (.ok ()) later) :
    ∃ settings prepared tables c' saved outcome,
      (tree.run (Settings.load (Home.settingsPath home))).1 = .ok settings ∧
      tree.Varies (fun _ => False) prepared.tree ∧
      (HostProgram.onDatabase caller.pid home (Transfer.save caller.pid settings.timing
        (file.getD (settings.filePath home)) asks)).Runs Site.Answers prepared (.ok tables, c')
        saved ∧
      (recordOutcome caller home settings outcome).Runs Site.Answers saved () later := by
  rcases Program.runs_bind.mp ran with ⟨loaded, site₁, loading, ran⟩
  rcases Site.runs_ofFiles loading with ⟨loading, -⟩
  rcases loaded with failure | settings
  · cases ran.1
  · rcases Settings.runs_load loading with ⟨same, found⟩
    rcases Program.runs_bind.mp ran with ⟨prepared, site₂, preparing, ran⟩
    have varies := (Database.runs_prepare (Site.runs_ofFiles preparing).1).1
    rw [same] at varies
    rcases prepared with failure | _
    · cases ran.1
    · rcases Program.runs_bind.mp ran with ⟨⟨outcome, c'⟩, site₃, saving, ran⟩
      rcases Program.runs_bind.mp ran with ⟨_, site₄, recording, ran⟩
      rcases outcome with failure | tables
      · cases ran.1
      · obtain ⟨_, _, rfl, -, rfl⟩ := ran
        exact ⟨settings, site₂, tables, c', site₃, _, found, varies, saving, recording⟩

/-- The command that saves the configuration, if it succeeds, has kept the records, whatever
else fails and whatever the clock shows, unless its file is the one that the keyspace is in. -/
theorem save_keeps_records
    (stored : Database.stored? tree home = some before)
    (apart : ∀ settings, (tree.run (Settings.load (Home.settingsPath home))).1 = .ok settings →
      (file.getD (settings.filePath home)).placeFrom tree.workingDirectory ≠
        (Database.keyspacePath home).placeFrom tree.workingDirectory)
    (ran : (save caller home file asks).Runs Site.Answers ⟨tree, []⟩ (.ok ()) later) :
    ∃ settings after tables,
      (tree.run (Settings.load (Home.settingsPath home))).1 = .ok settings ∧
      SavesApart home (file.getD (settings.filePath home)) tree later before after tables := by
  rcases runs_save ran with
    ⟨settings, prepared, tables, c', saved, outcome, found, varies, saving, recording⟩
  have apart := apart settings found
  have begins := varies.home
  rw [← Database.stored?_of_varies varies id] at stored
  rw [← begins] at apart
  rcases runs_onDatabase stored apart saving with
    ⟨s', met, time, early, late, mirrors, dumps, reads⟩
  have begins' := mirrors.begins.trans begins
  have records : (recordOutcome caller home settings outcome).Only (HostRequest.Touches
      (· = (AuditTrail.path home).placeFrom tree.workingDirectory) tree.workingDirectory) :=
    recordOutcome_touches caller settings outcome rfl
  have varies' : saved.tree.Varies (· = (AuditTrail.path home).placeFrom tree.workingDirectory)
      later.tree :=
    Site.varies_of_only begins' records recording
  refine ⟨settings, _, tables, found, savesApart_of_dumps dumps ?_ ?_ ?_⟩
  · rw [Database.stored?_of_varies varies']
    · exact mirrors.stored
    · rw [begins']
      exact keyspacePath_ne_path
  · exact fun visit member => Site.mem_readings recording (mirrors.times visit member)
  · intro outside other
    rw [begins] at reads
    refine varies'.read ?_ (reads outside)
    rw [begins']
    exact other

/-- A database with one record, in a directory of its own. -/
def onePort : Tree :=
  let keyspace : Keyspace := ⟨TextMap.empty.insert "PORT|0" ⟨.empty, none⟩, false⟩
  ⟨[], [(["db"], .directory), (["db.json", "db"], .file keyspace.write.toUTF8)]⟩

/-- A process that saves. -/
def saver : Caller :=
  ⟨1, "host", ""⟩

/-- It saves to the usual file beside the database, after a question. -/
theorem run_save_onePort :
    ((save saver "db" none true).run (Site.serve default) ⟨onePort, []⟩).1 = .ok () := by
  decide +kernel

/-- Saving to the usual file beside the database keeps its record. -/
theorem save_keeps_records_of_usual : ∃ before later settings after tables,
    Database.stored? onePort "db" = some before ∧
      SavesApart "db" ((none : Option Path).getD (Settings.filePath settings "db")) onePort later
        before after tables := by
  have settings : (onePort.run (Settings.load (Home.settingsPath "db"))).1 =
      .ok Settings.default := by decide +kernel
  have apart : ((none : Option Path).getD (Settings.default.filePath "db")).placeFrom
      onePort.workingDirectory ≠ (Database.keyspacePath "db").placeFrom
      onePort.workingDirectory := by decide +kernel
  obtain ⟨before, stored⟩ : ∃ before, Database.stored? onePort "db" = some before :=
    Option.isSome_iff_exists.mp (by decide +kernel)
  have ran := Program.runs_run (Site.answers_serve default) (save saver "db" none true)
    ⟨onePort, []⟩
  rw [run_save_onePort] at ran
  rcases save_keeps_records stored (fun settings' found => by
    cases settings.symm.trans found
    exact apart) ran with ⟨settings, after, tables, -, saves⟩
  exact ⟨before, _, settings, after, tables, stored, saves⟩

/-- What comes of saving over the file that the keyspace is in. -/
def overwritten : Except Failure Unit × Site :=
  (save saver "db" (some "db/db.json") false).run (Site.serve default) ⟨onePort, []⟩

/-- Saving over the file that the keyspace is in succeeds, and the record is gone. -/
theorem save_onto_keyspace_loses_records :
    (save saver "db" (some "db/db.json") false).Runs Site.Answers ⟨onePort, []⟩ (.ok ())
        overwritten.2 ∧
      (Database.stored? onePort "db").map (fun keyspace => keyspace.live? "PORT|0" default) =
        some (some ⟨.empty, none⟩) ∧
      (Database.stored? overwritten.2.tree "db").map
        (fun keyspace => keyspace.live? "PORT|0" default) = some none := by
  have done : overwritten.1 = .ok () ∧ (Database.stored? overwritten.2.tree "db").map
      (fun keyspace => keyspace.live? "PORT|0" default) = some none := by decide +kernel
  refine ⟨?_, by decide +kernel, done.2⟩
  have ran := Program.runs_run (Site.answers_serve default)
    (save saver "db" (some "db/db.json") false) ⟨onePort, []⟩
  change Program.Runs _ _ _ overwritten.1 overwritten.2 at ran
  rw [done.1] at ran
  exact ran

end TransferCommand

end Leasehold
