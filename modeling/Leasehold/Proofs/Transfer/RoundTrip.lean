import Leasehold.Proofs.Snapshot.Codec
import Leasehold.Proofs.Snapshot.Restore
import Leasehold.Proofs.Surroundings.Alone
import Leasehold.Proofs.Transfer.Whole

/-!
# Saving and loading carry the configuration over

What is saved from one store and loaded into another is there as it was: all records of
the tables that may be saved, with their fields and without expiries, and nothing else
in these tables. Other records of the store that is loaded into lapse at most. Nobody
else makes calls to the stores meanwhile, but calls and files may fail, questions are
answered in any way, and the clocks may show anything.
-/

namespace Leasehold

open LockRecord Procedure Surroundings

namespace Transfer

variable {owned : Place → Prop} {pid : Pid} {timing : LockTiming} {path : Path} {asks : Bool}
  {s later : Surroundings} {c' : Claimant} {key : String}

/-! ## Saving alone -/

/-- The tables that are exported are the answer to a single call. -/
theorem exportTo_dumps {tables : Tables}
    (ran : (exportTo pid path).Runs (Leads (besides owned)) s (.ok tables) later) :
    ∃ met time, tables = (met.serve time Snapshot.dump).1 ∧
      later.visits = ⟨met, time, Snapshot.dump, none⟩ :: s.visits := by
  rw [exportTo, Procedure.ask, Program.perform_bind] at ran
  obtain ⟨_, _, ⟨met, tree, -, -, time, fault?, rfl, rfl⟩, ran⟩ := ran
  cases fault? with
  | some fault => cases ran.1
  | none =>
      rcases Program.runs_bind.mp ran with ⟨written, reached, writing, rest⟩
      rcases written with failure | _
      · cases rest.1
      · obtain ⟨_, _, ⟨_, _, -, -, rfl⟩, same, rfl⟩ := rest
        exact ⟨met, time, Except.ok.inj same, (runs_ofFiles writing).2⟩

/-- What saving does to a store that is left alone: some visit takes the dump that is saved,
and by no visit records other than that of the lock do more than lapse. -/
structure Dumps (s : Surroundings) (tables : Tables) (later : Surroundings) (met : Keyspace)
    (time : Instant) (before after : List Visit) : Prop where
  dumped : tables = (met.serve time Snapshot.dump).1
  visits : later.visits = after ++ ⟨met, time, Snapshot.dump, none⟩ :: before ++ s.visits
  spares : ∀ key, key ≠ LockRecord.key → ∀ visit ∈ before ++ after, visit.call.Spares key
  chained : Chained s.keyspace (after ++ ⟨met, time, Snapshot.dump, none⟩ :: before) later.keyspace

theorem dumps_of_runs {tables : Tables}
    (ran : (save pid timing path asks).Runs (Leads (alone owned)) s (.ok tables, c') later) :
    ∃ met time before after, Dumps s tables later met time before after := by
  have links := links_of_runs ran
  rcases aside_or_operates (runs_besides ran) with ⟨failure, failed, -⟩ |
    ⟨entered, ended, -, before, operated, after⟩
  · cases failed
  · rcases before.visits with ⟨first, entering, concerns, -⟩
    rcases after.visits with ⟨last, leaving, concerns', -⟩
    rcases exportTo_dumps operated with ⟨met, time, dumped, visited⟩
    have visits : later.visits =
        last ++ ⟨met, time, Snapshot.dump, none⟩ :: first ++ s.visits := by
      rw [leaving, visited, entering]
      simp
    refine ⟨met, time, first, last, dumped, visits, fun key other visit member => ?_,
      links.chained visits⟩
    rcases List.mem_append.mp member with early | late
    · exact (concerns visit early).spares other.symm
    · exact (concerns' visit late).spares other.symm

namespace Dumps

variable {tables : Tables} {met : Keyspace} {time : Instant} {before after : List Visit}

/-- Up to the dump, records other than that of the lock lapse at most. -/
theorem lapses_met (dumps : Dumps s tables later met time before after)
    (other : key ≠ LockRecord.key) :
    Keyspace.Lapses key (before.map Visit.time) s.keyspace met :=
  dumps.chained.of_append.1.lapses fun visit member =>
    dumps.spares key other visit (List.mem_append_left _ member)

/-- So they do up to the end. -/
theorem lapses (dumps : Dumps s tables later met time before after)
    (other : key ≠ LockRecord.key) :
    Keyspace.Lapses key ((after ++ ⟨met, time, Snapshot.dump, none⟩ :: before).map Visit.time)
      s.keyspace later.keyspace := by
  refine dumps.chained.lapses fun visit member => ?_
  rcases List.mem_append.mp member with late | member
  · exact dumps.spares key other visit (List.mem_append_right _ late)
  · rcases List.mem_cons.mp member with rfl | early
    · exact Snapshot.spares_dump key
    · exact dumps.spares key other visit (List.mem_append_left _ early)

end Dumps

/-- The tables that are saved are in the file at the end. -/
theorem reads_of_runs {tables : Tables}
    (outside : ¬owned (path.placeFrom s.tree.workingDirectory))
    (outside' : ∀ temporary, FileSystem.temporary? pid.toNat path = some temporary →
      ¬owned (temporary.placeFrom s.tree.workingDirectory))
    (ran : (save pid timing path asks).Runs (Leads (alone owned)) s (.ok tables, c') later) :
    later.tree.read path = .ok (Snapshot.write tables).toUTF8 := by
  generalize whole : (Except.ok tables : Except Failure Tables) = outcome at ran
  cases saves_of_runs outside outside' (runs_besides ran) with
  | failed => contradiction
  | saved enters before operated dumped holds after still =>
      cases whole
      exact still

/-! ## Loading alone -/

/-- What loading does to a store that is left alone: some visit puts the tables of the file
into the store, with the answer that loading gives, and the visits around it let records
other than that of the lock lapse at most. -/
structure LoadsAlone (s : Surroundings) (tables : Tables) (records : Nat) (later : Surroundings)
    (met : Keyspace) (time : Instant) (before after : List Visit) : Prop where
  counted : records = (met.serve time (Snapshot.restore tables)).1
  visits : later.visits =
    after ++ ⟨met, time, Snapshot.restore tables, none⟩ :: before ++ s.visits
  spares : ∀ key, key ≠ LockRecord.key → ∀ visit ∈ before ++ after, visit.call.Spares key
  chained : Chained s.keyspace (after ++ ⟨met, time, Snapshot.restore tables, none⟩ :: before)
    later.keyspace

theorem loadsAlone_of_runs {records : Nat} {tables : Tables}
    (outside : ¬owned (path.placeFrom s.tree.workingDirectory))
    (holds : s.tree.content? (path.placeFrom s.tree.workingDirectory) =
      some (Snapshot.write tables).toUTF8)
    (taken : Keyspace.AreTaken isPersistable tables)
    (ran : (load pid timing path asks).Runs (Leads (alone owned)) s (.ok records, c') later) :
    ∃ met time before after, LoadsAlone s tables records later met time before after := by
  have links := links_of_runs ran
  generalize whole : (Except.ok records : Except Failure Nat) = outcome at ran
  cases loads_of_runs outside (runs_besides ran) with
  | failed => contradiction
  | @loaded _ _ _ content all met time first last found parsed _ entering _ visited concerns _ =>
      have same : content = (Snapshot.write tables).toUTF8 :=
        Option.some.inj (found.symm.trans holds)
      rw [same, fromUTF8?_toUTF8, Option.bind_some, Snapshot.read?_write,
        Option.some.injEq] at parsed
      subst parsed
      rw [Snapshot.persistable_of_areTaken taken] at visited whole
      cases whole
      rw [entering, ← List.cons_append, ← List.append_assoc] at visited
      refine ⟨met, time, first, last, rfl, visited, fun key other visit member => ?_,
        links.chained visited⟩
      exact (concerns visit member).spares other.symm

namespace LoadsAlone

variable {tables : Tables} {records : Nat} {met : Keyspace} {time : Instant}
  {before after : List Visit}

/-- Keys that are not saved keep their records, but for those that lapse. -/
theorem lapses (loads : LoadsAlone s tables records later met time before after)
    (taken : Keyspace.AreTaken isPersistable tables) (outside : isSaved key = false)
    (other : key ≠ LockRecord.key) :
    Keyspace.Lapses key ((after ++ ⟨met, time, Snapshot.restore tables, none⟩ :: before).map
      Visit.time) s.keyspace later.keyspace := by
  refine loads.chained.lapses fun visit member => ?_
  rcases List.mem_append.mp member with late | member
  · exact loads.spares key other visit (List.mem_append_right _ late)
  · rcases List.mem_cons.mp member with rfl | early
    · exact spares_restore_of_plain taken.plain outside
    · exact loads.spares key other visit (List.mem_append_left _ early)

/-- Keys that are saved have the records that were put in, to the end. -/
theorem get?_of_isSaved (loads : LoadsAlone s tables records later met time before after)
    {keyspace : Keyspace} {dumped : Instant}
    (isDump : tables = (keyspace.serve dumped Snapshot.dump).1) (saved : isSaved key) :
    later.keyspace.entries.get? key =
      (keyspace.live? key dumped).map fun entry => ⟨entry.fields, none⟩ := by
  have put : (met.serve time (Snapshot.restore
      (keyspace.serve dumped Snapshot.dump).1)).2.entries.get? key = _ :=
    get?_restore_dump saved dumped time
  rw [← isDump] at put
  have rest := loads.chained.of_append.2.lapses fun visit member =>
    loads.spares key (ne_lockKey_of_isSaved saved) visit (List.mem_append_right _ member)
  rw [← put]
  refine rest.get?_of_persistent fun entry found => ?_
  have shown := found.symm.trans put
  cases live : keyspace.live? key dumped with
  | none => simp [live] at shown
  | some entry' =>
      rw [live, Option.map_some, Option.some.injEq] at shown
      rw [shown]

/-- Loading answers with the number of saved records that the store has at the end. -/
theorem count (loads : LoadsAlone s tables records later met time before after)
    {keyspace : Keyspace} {dumped : Instant}
    (isDump : tables = (keyspace.serve dumped Snapshot.dump).1) :
    records = (later.keyspace.keys.filter isSaved).length := by
  have plain : Tables.PlainNames tables := isDump ▸ (areTaken_dump keyspace dumped).plain
  rw [loads.counted, restore_count plain]
  refine congrArg List.length (filter_keys_congr fun key saved => ?_)
  rw [loads.get?_of_isSaved isDump saved, isDump, get?_restore_dump saved]

end LoadsAlone

/-! ## From one store to another -/

/-- That the configuration of one store has come to another by way of a file: it is what
was live in the first store, as it was met at some time by the dump. -/
structure Carried (path : Path) (first saved second loaded : Surroundings) (records : Nat)
    (met : Keyspace) (time : Instant) : Prop where
  /-- The dump has met the first store as it was, but for records that lapsed. -/
  dumped : ∃ before after, saved.visits =
    after ++ ⟨met, time, Snapshot.dump, none⟩ :: before ++ first.visits ∧
    ∀ key, key ≠ LockRecord.key → Keyspace.Lapses key (before.map Visit.time) first.keyspace met
  /-- In the saved tables the second store holds what was live, without expiries. -/
  carried : ∀ key, isSaved key → loaded.keyspace.entries.get? key =
    (met.live? key time).map fun entry => ⟨entry.fields, none⟩
  /-- All else in the second store is as it was, but for records that lapsed. -/
  others : ∃ visits, loaded.visits = visits ++ second.visits ∧
    ∀ key, isSaved key = false → key ≠ LockRecord.key →
      Keyspace.Lapses key (visits.map Visit.time) second.keyspace loaded.keyspace
  counted : records = (loaded.keyspace.keys.filter isSaved).length
  /-- Saving the second store gives the same bytes again. -/
  again : ∀ (directory? : Option Path) (pid : Pid) (timing : LockTiming) (path' : Path)
    (asks : Bool) (third later : Surroundings) (tables : Tables) (c : Claimant),
    third.keyspace = loaded.keyspace →
    ¬storeFiles third.tree.workingDirectory directory?
      (path'.placeFrom third.tree.workingDirectory) →
    (save pid timing path' asks).Runs
      (Leads (alone (storeFiles third.tree.workingDirectory directory?))) third (.ok tables, c)
      later →
    later.tree.read path' = saved.tree.read path
  /-- The text in the file has no table of the lock. -/
  lockless : ∃ (text : String) (members : List (Json.RawText × Json.Raw)),
    saved.tree.read path = .ok text.toUTF8 ∧
    Json.Raw.read? text.toList = some (.object members) ∧
    ∀ member ∈ members, member.1.text? ≠ some LockRecord.table

/-- The text of a dump has no table of the lock. -/
theorem lockless_write {tables : Tables} (taken : Keyspace.AreTaken isPersistable tables) :
    ∃ members, Json.Raw.read? (Snapshot.write tables).toList = some (.object members) ∧
      ∀ member ∈ members, member.1.text? ≠ some LockRecord.table := by
  rcases Snapshot.keys_write tables with ⟨members, read, names⟩
  refine ⟨members, read, fun member listed same => ?_⟩
  have named : some LockRecord.table ∈ tables.keys.map some := by
    rw [← names, ← same]
    exact List.mem_map_of_mem listed
  rcases List.mem_map.mp named with ⟨table, present, lock⟩
  exact lockTable_notMem_keys taken (Option.some.inj lock ▸ present)

/-- A store whose saved records are what was live in another is dumped as that was. -/
theorem dump_eq_of_carried {keyspace other met : Keyspace} {time now : Instant}
    {times : List Instant}
    (carried : ∀ key, isSaved key → keyspace.entries.get? key =
      (other.live? key time).map fun entry => ⟨entry.fields, none⟩)
    (lapses : ∀ key, key ≠ LockRecord.key → Keyspace.Lapses key times keyspace met) :
    (met.serve now Snapshot.dump).1 = (other.serve time Snapshot.dump).1 := by
  refine dump_congr fun key saved => ?_
  have held := carried key saved
  have same : met.entries.get? key = keyspace.entries.get? key := by
    refine (lapses key (ne_lockKey_of_isSaved saved)).get?_of_persistent fun entry found => ?_
    rw [held] at found
    rcases Option.map_eq_some_iff.mp found with ⟨_, _, rfl⟩
    rfl
  rw [Keyspace.live?, same, held]
  cases other.live? key time <;> simp [Option.filter, Entry.isExpired]

variable {first saved second loaded : Surroundings} {directory? directory?' : Option Path}
  {pid' : Pid} {timing' : LockTiming} {path' : Path} {asks' : Bool} {tables : Tables}
  {records : Nat}

/-- What is saved from one store and loaded into another, by anyone and after any questions,
is carried over exactly, if the stores are left alone and the file is none of theirs. -/
theorem carried_over
    (outside : ¬storeFiles first.tree.workingDirectory directory?
      (path.placeFrom first.tree.workingDirectory))
    (saves : (save pid timing path asks).Runs
      (Leads (alone (storeFiles first.tree.workingDirectory directory?))) first (.ok tables, c')
      saved)
    (outside' : ¬storeFiles second.tree.workingDirectory directory?'
      (path'.placeFrom second.tree.workingDirectory))
    (holds : second.tree.content? (path'.placeFrom second.tree.workingDirectory) =
      saved.tree.content? (path.placeFrom saved.tree.workingDirectory))
    {c : Claimant}
    (loads : (load pid' timing' path' asks').Runs
      (Leads (alone (storeFiles second.tree.workingDirectory directory?'))) second
      (.ok records, c) loaded) :
    ∃ met time, Carried path first saved second loaded records met time := by
  rcases dumps_of_runs saves with ⟨met, time, _, _, dumps⟩
  have dumped := dumps.dumped
  have reads := reads_of_runs outside
    (fun _ found owns => outside (storeFiles_of_temporary found owns)) saves
  have taken : Keyspace.AreTaken isPersistable tables := dumped ▸ areTaken_dump met time
  rw [Tree.content?_of_read reads] at holds
  rcases loadsAlone_of_runs outside' holds taken loads with ⟨_, _, before, after, alone⟩
  have carried (key : String) (saved : isSaved key) := alone.get?_of_isSaved dumped saved
  refine ⟨met, time, ⟨_, _, dumps.visits, fun _ => dumps.lapses_met⟩, carried, ?_,
    alone.count dumped, ?_, ?_⟩
  · exact ⟨_, alone.visits, fun key unsaved other => alone.lapses taken unsaved other⟩
  · intro directory? pid timing path' asks third later tables' c same outside ran
    rcases dumps_of_runs ran with ⟨met', time', _, _, dumps'⟩
    have reads' := reads_of_runs outside
      (fun _ found owns => outside (storeFiles_of_temporary found owns)) ran
    have lapses (key : String) (other : key ≠ LockRecord.key) := dumps'.lapses_met other
    rw [reads, reads', dumped, dumps'.dumped, dump_eq_of_carried carried (same ▸ lapses)]
  · rcases lockless_write taken with ⟨members, read, names⟩
    exact ⟨_, members, reads, read, names⟩

/-- A store with records that are saved, one of them with a bar in its name, and with others
that are not. -/
def ports : Surroundings :=
  let fields (port : String) : Fields := TextMap.empty.insert "port" port
  ⟨⟨TextMap.ofList [("NODE|a|b", ⟨fields "80\n\"é\"", none⟩), ("LOCK|other", ⟨fields "81", none⟩),
      ("plain", ⟨.empty, none⟩)], false⟩, ⟨[], []⟩, [], []⟩

/-- A store with other records, on the files of another run. -/
def switches (tree : Tree) : Surroundings :=
  let fields (port : String) : Fields := TextMap.empty.insert "switch" port
  ⟨⟨TextMap.ofList [("NODE|c", ⟨fields "82", none⟩), ("LOCK|mine", ⟨fields "83", none⟩)], false⟩,
    tree, [], []⟩

/-- The surroundings after saving the first store where nobody interferes. -/
def savedPorts : Surroundings :=
  ((save 1 .default "config.json" true).run (undisturbed default (.ok true)) ports).2

/-- The records are carried over by a file beside the directories of the two databases. -/
theorem carried_over_of_config : ∃ loaded records met time,
    Carried "config.json" ports savedPorts (switches savedPorts.tree) loaded records met time := by
  have home : savedPorts.tree.workingDirectory = [] := by decide +kernel
  have outside (directory : Path) (apart : Path.placeFrom [] directory ≠ []) :
      ¬storeFiles [] (some directory) (Path.placeFrom [] "config.json") := by
    intro owns
    rcases Database.Owns.eq_cons owns with ⟨name, same⟩
    have parent : (Path.placeFrom [] "config.json").tail = [] := by decide +kernel
    exact apart ((congrArg List.tail same).symm.trans parent)
  have leads (home : Place) (directory : Path) :=
    @leads_undisturbed (alone (storeFiles home (some directory))) (fun _ => rfl)
      (Tree.Varies.refl _) default (.ok true)
  obtain ⟨⟨outcome, c⟩, ran, done⟩ : ∃ result,
      (save 1 .default "config.json" true).Runs
        (Leads (alone (storeFiles [] (some "first")))) ports result savedPorts ∧
        result.1.isOk = true :=
    ⟨_, Program.runs_run (leads [] "first") _ ports, by decide +kernel⟩
  obtain ⟨⟨outcome', c'⟩, loaded, ran', done'⟩ : ∃ result later,
      (load 2 .default "config.json" true).Runs
        (Leads (alone (storeFiles savedPorts.tree.workingDirectory (some "second"))))
        (switches savedPorts.tree) result later ∧ result.1.isOk = true :=
    ⟨_, _, Program.runs_run (leads _ "second") _ _, by decide +kernel⟩
  cases outcome with
  | error failure => contradiction
  | ok tables =>
      cases outcome' with
      | error failure => contradiction
      | ok records =>
          have outside' := outside "second" (by decide +kernel)
          rw [← home] at outside'
          exact ⟨loaded, records,
            carried_over (outside "first" (by decide +kernel)) ran outside' rfl ran'⟩

end Transfer

end Leasehold
