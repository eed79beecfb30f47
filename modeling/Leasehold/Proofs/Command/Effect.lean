import Leasehold.Proofs.Command.Save
import Leasehold.Proofs.Snapshot.RoundTrip

/-!
# What saving and loading do

On a database that nobody else uses, saving and loading either fail, and then neither the
file nor any record but that of the lock has changed, or they do what they say. That is so
whatever calls fail and whatever the clock shows, and if what is in the file of the database
is no keyspace.
-/

namespace Leasehold

open LockRecord FileSystem Surroundings Leasehold.Path

/-! ## What the commands touch -/

section

variable {touched : Place → Prop} {home : Place} {path directory : Path} {pid : Pid} {α : Type}

/-- A request that writes no file touches none. -/
theorem Request.SparesFiles.touches {request : Request} (spares : request.SparesFiles) :
    request.Touches touched home := by
  cases request with
  | file call =>
      intro path named
      rw [Request.SparesFiles] at spares
      rw [spares] at named
      exact absurd named List.not_mem_nil
  | lock request => trivial
  | wait request => trivial

theorem Snapshot.readFrom_sparesFiles (path : Path) :
    (Snapshot.readFrom path).Only Request.SparesFiles := by
  have read : (readText path).Only fun call => call.touches = [] := by
    rw [readText_eq]
    exact ⟨rfl, fun _ => trivial⟩
  have asked : (Procedure.ofFiles (readText path)).Only Request.SparesFiles := by
    refine Program.only_expand (fun call spares => ?_) read
    exact ⟨spares, fun _ => trivial⟩
  apply Program.only_bind asked
  rintro (cause | text)
  · trivial
  · simp only
    split
    · trivial
    · exact Program.only_bind ((Transfer.noteIgnored_only path _).mono fun _ => And.right)
        fun _ => trivial

/-- Loading touches no file but those of the store. -/
theorem Transfer.load_touches (timing : LockTiming) (asks : Bool) :
    (Transfer.load pid timing path asks).Only (Request.Touches touched home) := by
  have imports : (Transfer.importFrom path).Only Request.SparesFiles := by
    apply Program.only_bind (Snapshot.readFrom_sparesFiles path)
    rintro (failure | tables)
    · trivial
    · refine ⟨trivial, ?_⟩
      rintro (failure | records)
      · trivial
      · exact ⟨trivial, fun _ => trivial⟩
  have loads : (Transfer.load pid timing path asks).Only Request.SparesFiles :=
    Procedure.runProtected_only (fun _ => trivial) (fun _ => trivial)
      fun c => Program.only_bind imports fun _ => trivial
  exact loads.mono fun _ => Request.SparesFiles.touches

/-- A procedure on a database touches what it names itself, besides the files of the
database. -/
theorem HostProgram.touches_onDatabase {procedure : Procedure α}
    (owned : ∀ place, Database.Owns home directory place → touched place)
    (touches : procedure.Only (Request.Touches touched home)) :
    (HostProgram.onDatabase pid directory procedure).Only
      (HostRequest.Touches touched home) := by
  have serves (now : Instant) (call : StoreCall) :
      (HostProgram.ofFiles (Database.serve pid directory now call)).Only
        (HostRequest.Touches touched home) :=
    HostProgram.touches_ofFiles
      ((Database.serve_touches pid directory now call).mono fun _ within path named =>
        owned _ (within path named))
  refine Program.only_expand (fun request touches => ?_) touches
  rcases request with (call | event) | call | request
  · exact ⟨trivial, fun now => serves now call⟩
  · exact ⟨trivial, fun _ => trivial⟩
  · exact ⟨touches, fun _ => trivial⟩
  · exact ⟨trivial, fun _ => trivial⟩

end

/-! ## What is left alone -/

/-- Purging a record lets it lapse at most. -/
theorem Visit.PurgesBut.lapses {key other : String} {visit : Visit}
    (purges : visit.PurgesBut key) (different : other ≠ key) :
    Keyspace.Lapses other [visit.time] visit.met visit.left := by
  rcases purges other different with same | live
  · exact .inl same
  · exact Keyspace.lapses_of_live live

/-- Where all visits only purge records, a record that was met first lapses at most. -/
theorem Chained.lapses_of_purges {key other : String} {start stop : Keyspace}
    {visits : List Visit} (chained : Chained start visits stop)
    (purges : ∀ visit ∈ visits, visit.PurgesBut key) (different : other ≠ key) :
    Keyspace.Lapses other (visits.map Visit.time) start stop :=
  chained.lapses_of_each fun visit member => (purges visit member).lapses different

/-- What lapsed at visits has lapsed at readings of the clock. -/
theorem Site.Mirrors.lapses {directory : Path} {home : Place} {sound : Bool} {site : Site}
    {s : Surroundings} {key : String} {start stop : Keyspace} {visits : List Visit}
    (mirrors : Site.Mirrors directory home sound site s)
    (lapses : Keyspace.Lapses key (visits.map Visit.time) start stop)
    (listed : ∀ visit ∈ visits, visit ∈ s.visits) :
    Keyspace.Lapses key site.readings start stop :=
  lapses.mono fun time member => by
    rcases List.mem_map.mp member with ⟨visit, within, rfl⟩
    exact mirrors.times visit (listed visit within)

/-- However saving ends, records other than that of the lock are purged at most. -/
theorem Transfer.purges_of_saving {owned : Place → Prop} {pid : Pid} {timing : LockTiming}
    {path : Path} {asks : Bool} {s later : Surroundings} {outcome : Except Failure Tables}
    {c' : Claimant}
    (ran : (Transfer.save pid timing path asks).Runs
      (Leads (besides owned)) s (outcome, c') later) :
    ∃ visits, later.visits = visits ++ s.visits ∧
      ∀ visit ∈ visits, visit.PurgesBut LockRecord.key := by
  have exports : (Transfer.exportTo pid path).Only (Request.Within (· = Snapshot.dump)) := by
    refine ⟨rfl, ?_⟩
    rintro (failure | tables)
    · trivial
    · have writes : (Procedure.ofFiles (Snapshot.writeTo pid tables path)).Only
          (Request.Within (· = Snapshot.dump)) := by
        have any := Program.only_of_forall (fun _ => trivial : ∀ call, True)
          (Snapshot.writeTo pid tables path)
        refine Program.only_expand (fun call _ => ?_) any
        exact ⟨trivial, fun _ => trivial⟩
      apply Program.only_bind writes
      rintro (failure | _)
      · trivial
      · exact ⟨trivial, fun _ => trivial⟩
  rcases aside_or_operates ran with ⟨failure, -, aside⟩ |
    ⟨entered, ended, -, before, operated, after⟩
  · rcases aside.visits with ⟨visits, visited, -, purges⟩
    exact ⟨visits, visited, purges⟩
  · rcases before.visits with ⟨first, entering, -, purges⟩
    rcases after.visits with ⟨last, leaving, -, purges'⟩
    rcases since_of_only exports operated with ⟨visits, exporting, dumps⟩
    refine ⟨last ++ visits ++ first, by simp [leaving, exporting, entering], ?_⟩
    intro visit member
    simp only [List.mem_append] at member
    rcases member with (member | member) | member
    · exact purges' visit member
    · refine Visit.purgesBut_of_spares fun other _ => ?_
      rw [dumps visit member]
      exact Snapshot.spares_dump other
    · exact purges visit member

namespace TransferCommand

/-- That neither a file nor any record but that of the lock has been changed, except that
records lapsed at some reading of the clock. -/
structure Intact (home path : Path) (tree : Tree) (later : Site) : Prop where
  file : later.tree.content? (path.placeFrom tree.workingDirectory) =
    tree.content? (path.placeFrom tree.workingDirectory)
  unsound : Database.stored? tree home = none → Database.stored? later.tree home = none
  records : ∀ before, Database.stored? tree home = some before →
    ∃ after, Database.stored? later.tree home = some after ∧
      ∀ key, key ≠ LockRecord.key → Keyspace.Lapses key later.readings before after

variable {home path : Path} {tree : Tree} {site acted later : Site} {sound : Bool}
  {s s' : Surroundings} {visits : List Visit}

/-- Where no file has changed all is intact. -/
theorem Intact.of_varies (varies : tree.Varies (fun _ => False) later.tree) :
    Intact home path tree later := by
  have same := @Database.stored?_of_varies _ _ home _ varies id
  refine ⟨varies.content _ id, fun none => same.trans none, fun before stored => ?_⟩
  exact ⟨before, same.trans stored, fun _ _ => .refl _ _ _⟩

/-- Where a store is visited only to purge records, and a file is kept, both are intact. -/
theorem intact_of_purges (mirrors : Site.Mirrors home site.tree.workingDirectory sound site s)
    (mirrors' : Site.Mirrors home site.tree.workingDirectory sound acted s')
    (links : Links s s') (visited : s'.visits = visits ++ s.visits)
    (purges : ∀ visit ∈ visits, visit.PurgesBut LockRecord.key)
    (file : acted.tree.content? (path.placeFrom site.tree.workingDirectory) =
      site.tree.content? (path.placeFrom site.tree.workingDirectory)) :
    Intact home path site.tree acted := by
  refine ⟨file, fun none => ?_, fun before stored => ?_⟩
  · cases sound with
    | false => exact mirrors'.stored
    | true => cases mirrors.stored.symm.trans none
  · cases sound with
    | false => cases mirrors.stored.symm.trans stored
    | true =>
        cases mirrors.stored.symm.trans stored
        refine ⟨_, mirrors'.stored, fun key other => ?_⟩
        have lapses := (links.chained visited).lapses_of_purges purges other
        exact mirrors'.lapses lapses fun visit member =>
          visited ▸ List.mem_append_left s.visits member

/-! ## Under the lock -/

/-- What saving has done: the tables of a dump are in the file, and the dump has met the
records of the store, but for those that lapsed. -/
structure Saved (home path : Path) (tree : Tree) (tables : Tables) (later : Site) : Prop where
  written : later.tree.read path = .ok (Snapshot.write tables).toUTF8
  dumped : ∃ before met time, Database.stored? tree home = some before ∧ time ∈ later.readings ∧
    (∀ key, key ≠ LockRecord.key → Keyspace.Lapses key later.readings before met) ∧
    tables = (met.serve time Snapshot.dump).1

/-- What loading has done: the tables of the file were put in place of the records of the
store, which are those from before, but for those that lapsed, and what that left is what the
store holds, but again for records that lapsed. -/
structure Loaded (home path : Path) (tree : Tree) (records : Nat) (later : Site) : Prop where
  restored : ∃ content tables before met time after,
    tree.content? (path.placeFrom tree.workingDirectory) = some content ∧
    (String.fromUTF8? content).bind Snapshot.read? = some tables ∧
    records = Tables.recordCount (Snapshot.persistable tables) ∧
    Database.stored? tree home = some before ∧
    Database.stored? later.tree home = some after ∧ time ∈ later.readings ∧
    ∀ key, key ≠ LockRecord.key → Keyspace.Lapses key later.readings before met ∧
      Keyspace.Lapses key later.readings
        (met.serve time (Snapshot.restore (Snapshot.persistable tables))).2 after

variable {pid : Pid} {timing : LockTiming} {asks : Bool} {c' : Claimant}

/-- Saving on a database leaves all as it was if it fails, and else does what it says. -/
theorem saves_on_database {outcome : Except Failure Tables}
    (outside : ¬Database.Owns site.tree.workingDirectory home
      (path.placeFrom site.tree.workingDirectory))
    (ran : (HostProgram.onDatabase pid home (Transfer.save pid timing path asks)).Runs Site.Answers
      site (outcome, c') acted) :
    (∀ failure, outcome = .error failure → Intact home path site.tree acted) ∧
      ∀ tables, outcome = .ok tables → Saved home path site.tree tables acted := by
  have apart : path.placeFrom site.tree.workingDirectory ≠
      (Database.keyspacePath home).placeFrom site.tree.workingDirectory :=
    fun same => outside (same ▸ .keyspace)
  have beside (temporary : Path) (found : temporary? pid.toNat path = some temporary) :
      ¬Database.Owns site.tree.workingDirectory home
        (temporary.placeFrom site.tree.workingDirectory) :=
    fun owns => outside (Database.owns_of_owns_temporary found owns)
  rcases site.exists_mirrors home with ⟨sound, s, mirrors, fresh⟩
  rcases mirrors.runs_onDatabase (Transfer.save_avoids apart timing asks) ran with
    ⟨s', ran', mirrors'⟩
  have links := links_of_runs ran'
  have outside' : ¬Database.Owns site.tree.workingDirectory home
      (path.placeFrom s.tree.workingDirectory) := by
    rw [mirrors.tree]
    exact outside
  have beside' (temporary : Path) (found : temporary? pid.toNat path = some temporary) :
      ¬Database.Owns site.tree.workingDirectory home
        (temporary.placeFrom s.tree.workingDirectory) := by
    rw [mirrors.tree]
    exact beside temporary found
  constructor
  · rintro failure rfl
    rcases Transfer.purges_of_saving (runs_besides ran') with ⟨visits, visited, purges⟩
    refine intact_of_purges mirrors mirrors' links visited purges ?_
    cases Transfer.saves_of_runs outside' beside' (runs_besides ran') with
    | failed _ same =>
        rw [mirrors'.tree, mirrors.tree] at same
        exact same
  · rintro tables rfl
    rcases Transfer.dumps_of_runs ran' with ⟨met, time, early, late, dumps⟩
    have reads := Transfer.reads_of_runs outside' beside' ran'
    rw [mirrors'.tree] at reads
    have within : ⟨met, time, Snapshot.dump, none⟩ ∈ s'.visits := by
      rw [dumps.visits]
      simp
    cases sound with
    | false => exact absurd (mirrors'.faulted rfl _ within) nofun
    | true =>
        refine ⟨reads, _, met, time, mirrors.stored, mirrors'.times _ within, ?_, dumps.dumped⟩
        intro key other
        refine mirrors'.lapses (dumps.lapses_met other) fun visit member => ?_
        rw [dumps.visits]
        simp [member]

/-- So does loading, which leaves the file alone in any case. -/
theorem loads_on_database {outcome : Except Failure Nat}
    (outside : ¬Database.Owns site.tree.workingDirectory home
      (path.placeFrom site.tree.workingDirectory))
    (ran : (HostProgram.onDatabase pid home (Transfer.load pid timing path asks)).Runs Site.Answers
      site (outcome, c') acted) :
    (∀ failure, outcome = .error failure → Intact home path site.tree acted) ∧
      ∀ records, outcome = .ok records → Loaded home path site.tree records acted := by
  have touches : (HostProgram.onDatabase pid home (Transfer.load pid timing path asks)).Only
      (HostRequest.Touches (Database.Owns site.tree.workingDirectory home)
        site.tree.workingDirectory) :=
    HostProgram.touches_onDatabase (fun _ => id) (Transfer.load_touches timing asks)
  have file := (Site.varies_of_only rfl touches ran).content _ outside
  rcases site.exists_mirrors home with ⟨sound, s, mirrors, fresh⟩
  have avoids : (Transfer.load pid timing path asks).Only
      (Request.Avoids home site.tree.workingDirectory) := Transfer.load_touches timing asks
  rcases mirrors.runs_onDatabase avoids ran with ⟨s', ran', mirrors'⟩
  have links := links_of_runs ran'
  have outside' : ¬Database.Owns site.tree.workingDirectory home
      (path.placeFrom s.tree.workingDirectory) := by
    rw [mirrors.tree]
    exact outside
  constructor
  · rintro failure rfl
    cases Transfer.loads_of_runs outside' (runs_besides ran') with
    | failed _ visited purges => exact intact_of_purges mirrors mirrors' links visited purges file
  · rintro records rfl
    generalize whole : (Except.ok records : Except Failure Nat) = outcome at ran'
    cases Transfer.loads_of_runs outside' (runs_besides ran') with
    | failed => contradiction
    | @loaded entered ended _ content tables met time first last found parsed _ entering _ visited
        _ purges =>
        have within : ⟨met, time, Snapshot.restore (Snapshot.persistable tables), none⟩ ∈
            s'.visits := by
          rw [visited]
          simp
        have visited' : s'.visits = last ++
            ⟨met, time, Snapshot.restore (Snapshot.persistable tables), none⟩ :: first ++
              s.visits := by
          rw [visited, entering]
          simp
        rw [List.forall_mem_append] at purges
        cases sound with
        | false => exact absurd (mirrors'.faulted rfl _ within) nofun
        | true =>
            have answer := restore_answer met time (Snapshot.persistable tables)
            rw [Snapshot.persistable_persistable] at answer
            rw [mirrors.tree] at found
            rcases (links.chained visited').of_append with ⟨chained, chained'⟩
            refine ⟨content, tables, _, met, time, _, found, parsed, ?_, mirrors.stored,
              mirrors'.stored, mirrors'.times _ within, fun key other => ?_⟩
            · exact (Except.ok.inj whole).trans answer
            · have early := chained.lapses_of_purges purges.1 other
              have late := chained'.lapses_of_purges purges.2 other
              have listed (visit : Visit) (member : visit ∈ first ++ last) : visit ∈ s'.visits := by
                rw [visited']
                rcases List.mem_append.mp member with member | member <;> simp [member]
              exact ⟨mirrors'.lapses early fun visit member =>
                  listed visit (List.mem_append_left _ member),
                mirrors'.lapses late fun visit member =>
                  listed visit (List.mem_append_right _ member)⟩

end TransferCommand

end Leasehold
