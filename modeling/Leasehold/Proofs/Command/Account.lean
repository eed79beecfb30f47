import Leasehold.Proofs.Command.Effect

/-!
# The audit trail tells the truth

A command that saves or loads ends in one of three ways. It stops before it comes to the
lock, and then nothing is recorded. Or what it does under the lock fails: then neither its
file nor any record but that of the lock has changed, and the trail says that it was given
up, and why. Or it succeeds, and the trail says what was done. Where the trail can be written
and no call about it fails, it says so in one line more. Whether it could be written makes no
difference to anything else.
-/

namespace Leasehold

open FileSystem Leasehold.Path

/-! ## Trails that can be written -/

namespace AuditTrail

variable {home : Path} {tree : Tree}

/-- That an event can be added to a trail: its directory is there or can be made, and then
the path of the trail leads to no directory. -/
def Writable (home : Path) (tree : Tree) : Prop :=
  ∃ prepared place, tree.run (prepare home) = (.ok (), prepared) ∧
    prepared.Reaches (path home) place ∧ prepared.node? place ≠ some .directory

theorem isFileName_trail : IsFileName "events.ndjson" := by
  constructor <;> decide

/-- Where no call fails an event is added to a trail that can be written. -/
theorem Writable.run_append (writable : Writable home tree) (event : AuditEvent) :
    ∃ later, tree.run (append home event) = (.ok (), later) := by
  rcases writable with ⟨prepared, place, preparing, reaches, file⟩
  obtain ⟨folder, rfl⟩ : ∃ folder, place = "events.ndjson" :: folder :=
    ⟨_, (reaches.eq_cons isFileName_trail).1⟩
  have proper := List.cons_ne_nil "events.ndjson" folder
  have varies (content : ByteArray) : prepared.Varies (fun _ => True)
      (prepared.put ("events.ndjson" :: folder) (.file content)) := .put proper file trivial
  obtain ⟨held, opened⟩ : ∃ held, prepared.change (path home)
      (fun found => found.getD ByteArray.empty) =
        .ok (prepared.put ("events.ndjson" :: folder) (.file held)) :=
    ⟨_, Tree.change_join reaches isFileName_trail file⟩
  have file' : (prepared.put ("events.ndjson" :: folder) (.file held)).node?
      ("events.ndjson" :: folder) ≠ some .directory := by
    rw [Tree.node?_put _ proper, if_pos rfl]
    nofun
  obtain ⟨later, appended⟩ : ∃ later, (prepared.put ("events.ndjson" :: folder)
      (.file held)).change (path home) (fun found => found.getD ByteArray.empty ++
        (event.line ++ "\n").toUTF8) = .ok later :=
    ⟨_, Tree.change_join ((varies held).reaches reaches) isFileName_trail file'⟩
  refine ⟨later, ?_⟩
  rw [append, Tree.run_bind, preparing]
  simp only [Tree.run, FileCall.perform, Program.perform_bind, Program.run_step, Tree.serve, opened,
    appended, Tree.settle]
  rfl

/-- A trail to which an event has been added could be written. -/
theorem writable_of_run_append {event : AuditEvent} {later : Tree}
    (ran : tree.run (append home event) = (.ok (), later)) : Writable home tree := by
  have runs := tree.runs_serves (append home event)
  rw [ran] at runs
  rcases Program.runs_bind.mp runs with ⟨outcome, prepared, preparing, rest⟩
  rcases outcome with failure | _
  · cases rest.1
  obtain ⟨opened, tree₁, opening, rest⟩ := rest
  rcases opened with cause | _
  · cases rest.1
  have changed := Tree.eq_ok_of_settle (congrArg Prod.fst opening.symm)
  rcases Tree.change_eq_ok changed with ⟨place, found, writable, -⟩
  rcases Tree.writable_place writable with ⟨-, -, file, reaches⟩
  exact ⟨prepared, place, (Tree.eq_run_of_serves preparing).symm, reaches, file⟩

theorem writable_iff (event : AuditEvent) :
    Writable home tree ↔ ∃ later, tree.run (append home event) = (.ok (), later) :=
  ⟨fun writable => writable.run_append event, fun ⟨_, ran⟩ => writable_of_run_append ran⟩

/-- A trail that is there can be written. -/
theorem writable_of_read {content : ByteArray} (read : tree.read (path home) = .ok content) :
    Writable home tree := by
  rcases Tree.read_eq_ok_iff.mp read with ⟨place, reaches, found⟩
  have named : directory home ≠ "" := by
    intro empty
    have place : (directory home).placeFrom [] = "events" :: home.placeFrom [] := by
      rw [directory, placeFrom_join _ (by decide), step_of_isName (by decide) (by decide)]
    rw [empty] at place
    cases place
  have leads := reaches.directory isFileName_trail named
  have present : tree.isPresent (directory home) = true := by
    rw [Tree.isPresent, Tree.locate_eq_ok_iff.mpr ⟨leads, (reaches.eq_cons isFileName_trail).2⟩]
  refine ⟨tree, place, ?_, reaches, by simp [found]⟩
  simp [prepare, Tree.run, FileCall.perform, Tree.serve, present]

/-- That a trail has got one more line, and that this is the line of an event. -/
def Extended (home : Path) (event : AuditEvent) (tree later : Tree) : Prop :=
  later.content? ((path home).placeFrom tree.workingDirectory) =
    some ((tree.content? ((path home).placeFrom tree.workingDirectory)).getD .empty ++
      (event.line ++ "\n").toUTF8)

/-- The trail is in a directory of its own. -/
theorem placeFrom_path {place : Place} : (path home).placeFrom place =
    "events.ndjson" :: "events" :: home.placeFrom place := by
  rw [path, placeFrom_join _ (by decide), step_of_isName (by decide) (by decide), directory,
    placeFrom_join _ (by decide), step_of_isName (by decide) (by decide)]

/-- It is none of the files of the database. -/
theorem ne_path_of_owns {place place' : Place} (owns : Database.Owns place home place') :
    place' ≠ (path home).placeFrom place := by
  rintro rfl
  rcases owns.eq_cons with ⟨name, same⟩
  rw [placeFrom_path] at same
  have length := congrArg List.length (List.cons.inj same).2
  simp at length

/-- It is not a temporary file. -/
theorem temporary?_ne_path {pid : Nat} {file temporary : Path} {place : Place}
    (found : temporary? pid file = some temporary) :
    temporary.placeFrom place ≠ (path home).placeFrom place := by
  rcases placeFrom_temporary? found place with ⟨name, folder, -, there⟩
  rw [there, placeFrom_path]
  exact fun same => temporaryName_ne_of_head? (by decide) (List.cons.inj same).1

end AuditTrail

namespace TransferCommand

/-! ## Recording -/

variable {spared : FileCall → Prop} {caller : Caller} {home path : Path} {settings : Settings}
  {tree : Tree} {site prepared acted later : Site} {details : AuditAction × Json}

theorem runs_actor {name : String} (ran : (actor caller).Runs Site.Answers site name later) :
    later = site := by
  obtain ⟨_ | user, _, rfl, rest⟩ := ran
  · obtain ⟨_, _, rfl, -, rfl⟩ := rest
    rfl
  · exact rest.2

/-- How recording goes: nothing is done, or an event of now is added to the trail, or that
is tried. If the calls of that are spared, it goes as the files serve it. -/
theorem runs_recordOutcome
    (ran : (recordOutcome caller home settings details).Runs (Site.AnswersSparing spared) acted ()
      later) :
    settings.recordsEvents = false ∧ later = acted ∨
      settings.recordsEvents = true ∧ ∃ time actor written,
        let adding := AuditTrail.append home ⟨time, details.1, actor, caller.pid, details.2⟩
        later.readings = time :: acted.readings ∧
        adding.Runs Tree.Answers acted.tree written later.tree ∧
        (adding.Only spared → (written, later.tree) = acted.tree.run adding) := by
  rw [recordOutcome] at ran
  split at ran
  next records =>
    rcases Program.runs_bind.mp ran with ⟨event, read, reading, rest⟩
    rcases Program.runs_bind.mp (Site.runs_of_sparing reading) with
      ⟨time, ticked, ticking, reading⟩
    obtain ⟨_, _, rfl, rfl, rfl⟩ := ticking
    rcases Program.runs_bind.mp reading with ⟨name, named, naming, rfl, rfl⟩
    obtain rfl := runs_actor naming
    rcases Program.runs_bind.mp rest with ⟨written, wrote, writing, rest⟩
    have served := fun only => Site.eq_run_of_sparing only writing
    rcases Site.runs_ofFiles (Site.runs_of_sparing writing) with ⟨writing, kept⟩
    have last : later = wrote := by
      rcases written with failure | _
      · obtain ⟨_, _, rfl, -, rfl⟩ := Site.runs_of_sparing rest
        rfl
      · exact rest.2
    subst last
    exact .inr ⟨records, time, name, written, kept, writing, served⟩
  next silent => exact .inl ⟨by simpa using silent, ran.2⟩

/-! ## Around what is done -/

/-- What a command does besides what it does under the lock: before that it changes no file,
and after that none but the trail. -/
structure Around (home : Path) (tree : Tree) (prepared acted later : Site) : Prop where
  before : tree.Varies (fun _ => False) prepared.tree
  begins : acted.tree.workingDirectory = tree.workingDirectory
  after : acted.tree.Varies (· = (AuditTrail.path home).placeFrom tree.workingDirectory) later.tree
  readings : ∀ time ∈ acted.readings, time ∈ later.readings

namespace Around

variable (around : Around home tree prepared acted later)

include around in
theorem stored_before : Database.stored? prepared.tree home = Database.stored? tree home :=
  Database.stored?_of_varies around.before id

include around in
theorem stored_after : Database.stored? later.tree home = Database.stored? acted.tree home := by
  refine Database.stored?_of_varies around.after ?_
  rw [around.begins]
  exact keyspacePath_ne_path

include around in
/-- What is intact under the lock stays so. -/
theorem intact (apart : path.placeFrom tree.workingDirectory ≠
      (AuditTrail.path home).placeFrom tree.workingDirectory)
    (intact : Intact home path prepared.tree acted) : Intact home path tree later := by
  rcases intact with ⟨file, unsound, records⟩
  rw [around.before.home, around.before.content _ id] at file
  rw [around.stored_before, ← around.stored_after] at unsound
  refine ⟨(around.after.content _ apart).trans file, unsound, fun before found => ?_⟩
  rcases records before (around.stored_before.trans found) with ⟨after, left, lapses⟩
  exact ⟨after, around.stored_after.trans left,
    fun key other => (lapses key other).mono around.readings⟩

include around in
/-- What was saved stays saved. -/
theorem saved {tables : Tables} (apart : path.placeFrom tree.workingDirectory ≠
      (AuditTrail.path home).placeFrom tree.workingDirectory)
    (saved : Saved home path prepared.tree tables acted) : Saved home path tree tables later := by
  rcases saved with ⟨written, before, met, time, found, read, lapses, dumped⟩
  refine ⟨around.after.read ?_ written, before, met, time, around.stored_before.symm.trans found,
    around.readings time read, fun key other => (lapses key other).mono around.readings, dumped⟩
  rw [around.begins]
  exact apart

include around in
/-- What was loaded stays loaded. -/
theorem loaded {records : Nat} (loaded : Loaded home path prepared.tree records acted) :
    Loaded home path tree records later := by
  rcases loaded with ⟨content, tables, before, met, time, after, held, parsed, counted, found, left,
    read, lapses⟩
  rw [around.before.home, around.before.content _ id] at held
  refine ⟨content, tables, before, met, time, after, held, parsed, counted,
    around.stored_before.symm.trans found, around.stored_after.trans left,
    around.readings time read, fun key other => ?_⟩
  exact ⟨(lapses key other).1.mono around.readings, (lapses key other).2.mono around.readings⟩

end Around

/-! ## How commands end -/

/-- Failures of a command that come before it does anything under the lock: its settings
cannot be read, there is no file to load, or the directory of the store cannot be made. -/
inductive IsEarly (home path : Path) : Failure → Prop
  | settings (cause : IoFailure) :
      IsEarly home path (.user (.settingsUnreadable (Home.settingsPath home) cause))
  | missing : IsEarly home path (.user (.snapshotMissing path))
  | directory (cause : IoFailure) :
      IsEarly home path (.storeUnavailable (.directory home cause))

/-- That the trail says of a command what it has to: nothing if events are not recorded, and
else one event of this process is added, unless that fails. It does not fail if the trail can
be written by then, as one can that was there from the beginning, and all calls are spared that
adding an event can come to. Either way the file and the records are as they were left before. -/
structure Told (spared : FileCall → Prop) (caller : Caller) (home path : Path)
    (settings : Settings) (action : AuditAction) (details : Json) (tree : Tree)
    (acted later : Site) : Prop where
  silent : settings.recordsEvents = false →
    later.tree.content? ((AuditTrail.path home).placeFrom tree.workingDirectory) =
      tree.content? ((AuditTrail.path home).placeFrom tree.workingDirectory)
  recorded : settings.recordsEvents = true → ∃ time actor written,
    (AuditTrail.append home ⟨time, action, actor, caller.pid, details⟩).Runs Tree.Answers acted.tree
      written later.tree ∧
    (written = .ok () →
      AuditTrail.Extended home ⟨time, action, actor, caller.pid, details⟩ tree later.tree)
  writable : (∃ content, tree.read (AuditTrail.path home) = .ok content) →
    AuditTrail.Writable home acted.tree
  extended : settings.recordsEvents = true → AuditTrail.Writable home acted.tree →
    (∀ event, (AuditTrail.append home event).Only spared) → ∃ time actor,
      later.readings = time :: acted.readings ∧
      AuditTrail.Extended home ⟨time, action, actor, caller.pid, details⟩ tree later.tree
  file : later.tree.content? (path.placeFrom tree.workingDirectory) =
    acted.tree.content? (path.placeFrom tree.workingDirectory)
  stored : Database.stored? later.tree home = Database.stored? acted.tree home

/-- What a command does under the lock, and how that is put on record: by what name, with
which file, and what of it is counted. -/
structure Undertaking (α : Type) where
  action : AuditAction
  path : Path
  unit : String
  procedure : Procedure (Except Failure α × Claimant)
  count : α → Nat

/-- The undertaking of the command that saves. -/
def Undertaking.save (caller : Caller) (settings : Settings) (path : Path) (asks : Bool) :
    Undertaking Tables :=
  ⟨.save, path, "tables", Transfer.save caller.pid settings.timing path asks, TextMap.size⟩

/-- The undertaking of the command that loads. -/
def Undertaking.load (caller : Caller) (settings : Settings) (path : Path) (asks : Bool) :
    Undertaking Nat :=
  ⟨.load, path, "records", Transfer.load caller.pid settings.timing path asks, id⟩

/-- The ways in which a command ends. -/
inductive Ends {α : Type} (spared : FileCall → Prop) (caller : Caller) (home : Path)
    (settings : Settings) (undertaking : Undertaking α) (Does : α → Site → Prop) (tree : Tree) :
    Except Failure Unit → Site → Prop
  /-- It fails before it asks anything of the store, and nothing is recorded. -/
  | early {failure : Failure} {later : Site} (isEarly : IsEarly home undertaking.path failure)
      (unasked : later.readings = [])
      (trail : later.tree.content? ((AuditTrail.path home).placeFrom tree.workingDirectory) =
        tree.content? ((AuditTrail.path home).placeFrom tree.workingDirectory))
      (intact : Intact home undertaking.path tree later) :
      Ends spared caller home settings undertaking Does tree (.error failure) later
  /-- It fails under the lock, and that it was given up is recorded. -/
  | givenUp {failure : Failure} {prepared acted later : Site} {c' : Claimant}
      (ran : (HostProgram.onDatabase caller.pid home undertaking.procedure).Runs Site.Answers
        prepared (.error failure, c') acted)
      (intact : Intact home undertaking.path tree later)
      (told : Told spared caller home undertaking.path settings .abort (.object
        [("command", .text undertaking.action.text),
          ("lock_failure", .boolean (failure.exitCode == 3)),
          ("reason", .text failure.message),
          ("request", .object [("file", .text undertaking.path), (undertaking.unit, .ofNat 0)])])
        tree acted later) :
      Ends spared caller home settings undertaking Does tree (.error failure) later
  /-- It does what it says, and that is recorded. -/
  | done {value : α} {prepared acted later : Site} {c' : Claimant}
      (ran : (HostProgram.onDatabase caller.pid home undertaking.procedure).Runs Site.Answers
        prepared (.ok value, c') acted)
      (does : Does value later)
      (told : Told spared caller home undertaking.path settings undertaking.action (.object
        [("file", .text undertaking.path), (undertaking.unit, .ofNat (undertaking.count value))])
        tree acted later) :
      Ends spared caller home settings undertaking Does tree (.ok ()) later

/-- How an outcome is recorded. -/
theorem told_of_runs {action : AuditAction} {details : Json}
    (apart : path.placeFrom tree.workingDirectory ≠
      (AuditTrail.path home).placeFrom tree.workingDirectory)
    (spares : tree.Varies (· ≠ (AuditTrail.path home).placeFrom tree.workingDirectory) acted.tree)
    (ran : (recordOutcome caller home settings (action, details)).Runs
      (Site.AnswersSparing spared) acted () later) :
    Told spared caller home path settings action details tree acted later := by
  have touches : (recordOutcome caller home settings (action, details)).Only
      (HostRequest.Touches (· = (AuditTrail.path home).placeFrom tree.workingDirectory)
        tree.workingDirectory) := recordOutcome_touches caller settings _ rfl
  have begins := spares.home
  have trail := spares.content _ (not_not_intro rfl)
  have there : (∃ content, tree.read (AuditTrail.path home) = .ok content) →
      AuditTrail.Writable home acted.tree :=
    fun ⟨_, read⟩ => AuditTrail.writable_of_read (spares.read (not_not_intro rfl) read)
  have varies := Site.varies_of_only begins touches (Site.runs_of_sparing ran)
  have stored : Database.stored? later.tree home = Database.stored? acted.tree home := by
    refine Database.stored?_of_varies varies ?_
    rw [begins]
    exact keyspacePath_ne_path
  have file := varies.content _ apart
  rcases runs_recordOutcome ran with
    ⟨silent, rfl⟩ | ⟨records, time, name, written, read, writing, served⟩
  · have silenced (records : settings.recordsEvents = true) : False :=
      absurd (silent.symm.trans records) nofun
    exact ⟨fun _ => trail, fun records => (silenced records).elim, there,
      fun records => (silenced records).elim, file, stored⟩
  · have extends_of_ok (done : written = .ok ()) :
        AuditTrail.Extended home ⟨time, action, name, caller.pid, details⟩ tree later.tree := by
      subst done
      have last := Tree.content?_of_read (AuditTrail.read_of_append writing)
      rw [varies.home, begins, trail] at last
      exact last
    refine ⟨fun silent => ?_, fun _ => ⟨time, name, written, writing, extends_of_ok⟩, there,
      fun _ writable only => ⟨time, name, read, extends_of_ok ?_⟩, file, stored⟩
    · cases silent.symm.trans records
    · rcases writable.run_append ⟨time, action, name, caller.pid, details⟩ with ⟨_, appended⟩
      exact congrArg Prod.fst ((served (only _)).trans appended)

/-- What is recorded of an outcome under the lock is what has come of it. -/
theorem ends_of_outcome {α : Type} {undertaking : Undertaking α} {Does : α → Site → Prop}
    {outcome : Except Failure α} {c' : Claimant}
    (apart : undertaking.path.placeFrom tree.workingDirectory ≠
      (AuditTrail.path home).placeFrom tree.workingDirectory)
    (before : tree.Varies (fun _ => False) prepared.tree)
    (ran : (HostProgram.onDatabase caller.pid home undertaking.procedure).Runs Site.Answers
      prepared (outcome, c') acted)
    (touches : undertaking.procedure.Only (Request.Touches
      (· ≠ (AuditTrail.path home).placeFrom tree.workingDirectory) tree.workingDirectory))
    (recording : (recordOutcome caller home settings (report undertaking.action undertaking.path
      undertaking.unit (outcome.map undertaking.count))).Runs (Site.AnswersSparing spared) acted ()
      later)
    (fails : ∀ failure, outcome = .error failure →
      Intact home undertaking.path prepared.tree acted)
    (does : ∀ value, outcome = .ok value → Around home tree prepared acted later →
      Does value later) :
    Ends spared caller home settings undertaking Does tree (outcome.map fun _ => ()) later := by
  have acts : prepared.tree.Varies
      (· ≠ (AuditTrail.path home).placeFrom tree.workingDirectory) acted.tree :=
    Site.varies_of_only before.home (HostProgram.touches_onDatabase
      (fun _ owns => AuditTrail.ne_path_of_owns owns) touches) ran
  have spares := (before.mono fun _ => False.elim).trans acts
  have around : Around home tree prepared acted later :=
    ⟨before, spares.home, Site.varies_of_only spares.home
      (recordOutcome_touches caller settings _ rfl) (Site.runs_of_sparing recording),
      fun _ member => Site.mem_readings (Site.runs_of_sparing recording) member⟩
  cases outcome with
  | error failure =>
      exact .givenUp ran (around.intact apart (fails failure rfl))
        (told_of_runs apart spares recording)
  | ok value =>
      exact .done ran (does value rfl around) (told_of_runs apart spares recording)

/-- Settings that are accepted are loaded, or their file cannot be read. -/
theorem runs_settings {directory : Path} {outcome : Except Failure Settings}
    (accepted : (tree.run (Settings.load directory)).1 = .ok settings)
    (ran : (HostProgram.ofFiles (Settings.load directory)).Runs Site.Answers ⟨tree, []⟩ outcome
      later) :
    later = ⟨tree, []⟩ ∧ (outcome = .ok settings ∨
      ∃ cause, outcome = .error (.user (.settingsUnreadable directory cause))) := by
  rcases later with ⟨tree', readings⟩
  obtain ⟨ran, rfl : readings = []⟩ := Site.runs_ofFiles ran
  rw [Settings.load_eq] at ran accepted
  obtain ⟨rfl : tree' = tree, found | ⟨failure, missing, rfl⟩⟩ := runs_read ran
  · exact ⟨rfl, .inl (found.trans accepted)⟩
  · exact ⟨rfl, .inr ⟨failure, Settings.loaded_of_failed missing directory⟩⟩

variable {file : Option Path} {asks : Bool} {result : Except Failure Unit}

/-- How the command that saves ends. -/
theorem ends_of_save
    (accepted : (tree.run (Settings.load (Home.settingsPath home))).1 = .ok settings)
    (path_eq : file.getD (settings.filePath home) = path)
    (outside : ¬Database.Owns tree.workingDirectory home (path.placeFrom tree.workingDirectory))
    (apart : path.placeFrom tree.workingDirectory ≠
      (AuditTrail.path home).placeFrom tree.workingDirectory)
    (ran : (save caller home file asks).Runs (Site.AnswersSparing spared) ⟨tree, []⟩ result
      later) :
    Ends spared caller home settings (.save caller settings path asks) (Saved home path tree) tree
      result later := by
  rcases Program.runs_bind.mp ran with ⟨loaded, site₁, loading, ran⟩
  rcases runs_settings accepted (Site.runs_of_sparing loading) with ⟨rfl, rfl | ⟨cause, rfl⟩⟩
  · rcases Program.runs_bind.mp ran with ⟨_, prepared, preparing, ran⟩
    rcases Site.runs_ofFiles (Site.runs_of_sparing preparing) with ⟨preparing, unread⟩
    rcases Database.runs_prepare preparing with ⟨before, rfl | ⟨cause, rfl⟩⟩
    · rcases Program.runs_bind.mp ran with ⟨⟨outcome, c'⟩, acted, saving, ran⟩
      rcases Program.runs_bind.mp ran with ⟨_, recorded, recording, ran⟩
      replace saving := Site.runs_of_sparing saving
      subst path_eq
      have touches : (Transfer.save caller.pid settings.timing
          (file.getD (settings.filePath home)) asks).Only
            (Request.Touches (· ≠ (AuditTrail.path home).placeFrom tree.workingDirectory)
              tree.workingDirectory) := by
        apply Transfer.save_touches
        · exact apart
        · exact fun _ found => AuditTrail.temporary?_ne_path found
      rw [← before.home] at outside
      rcases saves_on_database outside saving with ⟨fails, saves⟩
      have ends : Ends spared caller home settings (.save caller settings _ asks)
          (Saved home _ tree) tree (outcome.map fun _ => ()) recorded :=
        ends_of_outcome apart before saving touches recording fails
          fun tables same around => around.saved apart (saves tables same)
      rcases outcome with failure | tables
      · obtain ⟨rfl, rfl⟩ := ran
        exact ends
      · obtain ⟨_, _, rfl, rfl, rfl⟩ := Site.runs_of_sparing ran
        exact ends
    · obtain ⟨rfl, rfl⟩ := ran
      exact .early (.directory cause) unread (before.content _ id) (.of_varies before)
  · obtain ⟨rfl, rfl⟩ := ran
    exact .early (.settings cause) rfl rfl (.of_varies (.refl _ _))

/-- How the command that loads ends. -/
theorem ends_of_load
    (accepted : (tree.run (Settings.load (Home.settingsPath home))).1 = .ok settings)
    (path_eq : file.getD (settings.filePath home) = path)
    (outside : ¬Database.Owns tree.workingDirectory home (path.placeFrom tree.workingDirectory))
    (apart : path.placeFrom tree.workingDirectory ≠
      (AuditTrail.path home).placeFrom tree.workingDirectory)
    (ran : (load caller home file asks).Runs (Site.AnswersSparing spared) ⟨tree, []⟩ result
      later) :
    Ends spared caller home settings (.load caller settings path asks) (Loaded home path tree) tree
      result later := by
  rcases Program.runs_bind.mp ran with ⟨loaded, site₁, loading, ran⟩
  rcases runs_settings accepted (Site.runs_of_sparing loading) with ⟨rfl, rfl | ⟨cause, rfl⟩⟩
  · rcases Program.runs_bind.mp ran with ⟨present, site₂, looking, ran⟩
    have looks : (HostProgram.ofFiles (FileCall.isFile path).perform).Only
        (HostRequest.Touches (fun _ => False) tree.workingDirectory) :=
      HostProgram.touches_ofFiles ⟨List.forall_mem_nil _, fun _ => trivial⟩
    subst path_eq
    replace looking := Site.runs_of_sparing looking
    have before₁ := Site.varies_of_only rfl looks looking
    have unread₁ := (Site.runs_ofFiles looking).2
    split at ran
    · rcases Program.runs_bind.mp ran with ⟨_, prepared, preparing, ran⟩
      rcases Site.runs_ofFiles (Site.runs_of_sparing preparing) with ⟨preparing, unread₂⟩
      rcases Database.runs_prepare preparing with ⟨before₂, rfl | ⟨cause, rfl⟩⟩
      · have before := before₁.trans before₂
        rcases Program.runs_bind.mp ran with ⟨⟨outcome, c'⟩, acted, running, ran⟩
        rcases Program.runs_bind.mp ran with ⟨_, recorded, recording, ran⟩
        replace running := Site.runs_of_sparing running
        rw [← before.home] at outside
        rcases loads_on_database outside running with ⟨fails, loads⟩
        have whole : outcome.map id = outcome := by cases outcome <;> rfl
        rw [← whole] at recording
        have ends : Ends spared caller home settings (.load caller settings _ asks)
            (Loaded home _ tree) tree (outcome.map fun _ => ()) recorded :=
          ends_of_outcome apart before running (Transfer.load_touches settings.timing asks)
            recording fails fun records same around => around.loaded (loads records same)
        rcases outcome with failure | records
        · obtain ⟨rfl, rfl⟩ := ran
          exact ends
        · obtain ⟨_, _, rfl, rfl, rfl⟩ := Site.runs_of_sparing ran
          exact ends
      · obtain ⟨rfl, rfl⟩ := ran
        have before := before₁.trans before₂
        exact .early (.directory cause) (unread₂.trans unread₁) (before.content _ id)
          (.of_varies before)
    · obtain ⟨rfl, rfl⟩ := ran
      exact .early .missing unread₁ (before₁.content _ id) (.of_varies before₁)
  · obtain ⟨rfl, rfl⟩ := ran
    exact .early (.settings cause) rfl rfl (.of_varies (.refl _ _))

/-- A database with one record, and beside it a trail with one event. -/
def auditedPort : Tree :=
  ⟨[], onePort.nodes ++ [(["events", "db"], .directory), (["events.ndjson", "events", "db"],
    .file ((AuditTrail.plainEvent .load).line ++ "\n").toUTF8)]⟩

theorem run_save_auditedPort :
    ((save saver "db" none true).run (Site.serve default) ⟨auditedPort, []⟩).1 = .ok () := by
  decide +kernel

end TransferCommand

end Leasehold
