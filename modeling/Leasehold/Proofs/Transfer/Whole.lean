import Leasehold.Proofs.Protected.Aside
import Leasehold.Proofs.Protected.Transfer

/-!
# Saving and loading are all or nothing

Saving writes the file in one go and after everything that could fail before, so if it
fails the file is what it was. Loading changes the store by a single call, which is the
last thing that can fail, so if it fails the store is what it was. All other calls are
those of the lock, and they do nothing to other records than to purge them.

Others may do to the store what they like between any two requests. Of the files they
change those that the store is kept in, so the file saved to or loaded from must be none
of these.
-/

namespace Leasehold

open LockRecord Procedure Surroundings

/-! ## Saving -/

namespace Transfer

section

variable {owned : Place → Prop} {pid : Pid} {path : Path} {s later : Surroundings}

/-- How saving a snapshot can go: it fails and only a temporary file is touched, or the
snapshot that the store has given is in the file. -/
inductive Exported (owned : Place → Prop) (pid : Pid) (path : Path) (s : Surroundings) :
    Except Failure Tables → Surroundings → Prop
  | failed (failure : Failure) {later : Surroundings}
      (varies : s.tree.Varies
        (FileSystem.OwnedOrTemporary owned s.tree.workingDirectory pid.toNat path) later.tree) :
      Exported owned pid path s (.error failure) later
  | exported {met : Keyspace} {time : Instant} {later : Surroundings}
      (home : later.tree.workingDirectory = s.tree.workingDirectory)
      (visited : later.visits = ⟨met, time, Snapshot.dump, none⟩ :: s.visits)
      (reads : later.tree.read path =
        .ok (Snapshot.write (met.serve time Snapshot.dump).1).toUTF8) :
      Exported owned pid path s (.ok (met.serve time Snapshot.dump).1) later

theorem runs_writeTo {tables : Tables} {tree tree' : Tree} {outcome : Except Failure Unit}
    (outside : ∀ temporary, FileSystem.temporary? pid.toNat path = some temporary →
      ¬owned (temporary.placeFrom tree.workingDirectory))
    (ran : (Snapshot.writeTo pid tables path).Runs (Tree.Leads owned) tree outcome tree') :
    (∃ failure, outcome = .error failure ∧ tree.Varies
        (FileSystem.OwnedOrTemporary owned tree.workingDirectory pid.toNat path) tree') ∨
      outcome = .ok () ∧ tree'.workingDirectory = tree.workingDirectory ∧
        tree'.read path = .ok (Snapshot.write tables).toUTF8 := by
  rcases Program.runs_bind.mp ran with ⟨replaced, reached, replacing, rest⟩
  cases FileSystem.replaceFile_replaces rfl outside replacing with
  | failed failure varies =>
      obtain ⟨rfl, rfl⟩ := rest
      exact .inl ⟨_, rfl, varies⟩
  | replaced varies reads =>
      obtain ⟨rfl, rfl⟩ := rest
      exact .inr ⟨rfl, varies.home, reads⟩

theorem exportTo_exported {outcome : Except Failure Tables}
    (outside : ¬owned (path.placeFrom s.tree.workingDirectory))
    (outside' : ∀ temporary, FileSystem.temporary? pid.toNat path = some temporary →
      ¬owned (temporary.placeFrom s.tree.workingDirectory))
    (ran : (exportTo pid path).Runs (Leads (besides owned)) s outcome later) :
    Exported owned pid path s outcome later := by
  rw [exportTo, Procedure.ask, Program.perform_bind] at ran
  obtain ⟨_, _, ⟨met, tree, -, varies, time, fault?, rfl, rfl⟩, ran⟩ := ran
  have varies₁ := varies.mono fun _ =>
    (.inl : _ → FileSystem.OwnedOrTemporary owned s.tree.workingDirectory pid.toNat path _)
  cases fault? with
  | some fault =>
      obtain ⟨rfl, rfl⟩ := ran
      exact .failed _ varies₁
  | none =>
      rcases Program.runs_bind.mp ran with ⟨written, reached, writing, rest⟩
      rcases runs_ofFiles writing with ⟨writing, visited⟩
      rw [← varies.home] at outside'
      rcases runs_writeTo outside' writing with ⟨failure, rfl, varies₂⟩ | ⟨rfl, home, reads⟩
      · obtain ⟨rfl, rfl⟩ := rest
        rw [varies.home] at varies₂
        exact .failed failure (varies₁.trans varies₂)
      · -- Taking note of it is the last request, and others change no file here.
        obtain ⟨_, _, ⟨keyspace, tree', -, varies', rfl⟩, rfl, rfl⟩ := rest
        have home' := home.trans varies.home
        rw [← home'] at outside
        exact .exported (varies'.home.trans home') visited (varies'.read outside reads)

/-! ## Loading -/

/-- How loading a snapshot can go: it fails and the store has served no call, or the
snapshot that the file holds is in the store, without the lock table. -/
inductive Imported (path : Path) (s : Surroundings) : Except Failure Nat → Surroundings → Prop
  | failed (failure : Failure) {later : Surroundings} {visits : List Visit}
      (visited : later.visits = visits ++ s.visits)
      (faulted : ∀ visit ∈ visits, visit.fault?.isSome = true) :
      Imported path s (.error failure) later
  | imported {content : ByteArray} {tables : Tables} {met : Keyspace} {time : Instant}
      {later : Surroundings}
      (found : s.tree.content? (path.placeFrom s.tree.workingDirectory) = some content)
      (parsed : (String.fromUTF8? content).bind Snapshot.read? = some tables)
      (visited : later.visits =
        ⟨met, time, Snapshot.restore (Snapshot.persistable tables), none⟩ :: s.visits) :
      Imported path s
        (.ok (met.serve time (Snapshot.restore (Snapshot.persistable tables))).1) later

theorem visits_of_only {α : Type} {interference : Interference} {procedure : Procedure α}
    {result : α} (only : procedure.Only (Request.Within fun _ => False))
    (ran : procedure.Runs (Leads interference) s result later) : later.visits = s.visits := by
  rcases since_of_only only ran with ⟨visits, same, none⟩
  rw [same, List.eq_nil_iff_forall_not_mem.mpr none, List.nil_append]

theorem noteIgnored_only (path : Path) (tables : List String) :
    (Snapshot.noteIgnored path tables).Only
      fun request => request.Within (fun _ => False) ∧ request.SparesFiles := by
  induction tables with
  | nil => trivial
  | cons table tables ih => exact ⟨⟨trivial, trivial⟩, fun _ => ih⟩

/-- What reading a text gives is the content at the place of the path. -/
theorem runs_readText {tree tree' : Tree} {text : String} {owned : Place → Prop}
    (outside : ¬owned (path.placeFrom tree.workingDirectory))
    (ran : (FileSystem.readText path).Runs (Tree.Leads owned) tree (.ok text) tree') :
    ∃ content, tree.content? (path.placeFrom tree.workingDirectory) = some content ∧
      String.fromUTF8? content = some text := by
  rw [FileSystem.readText, FileCall.perform, Program.perform_bind] at ran
  obtain ⟨reply, reached, ⟨met, varies, replies⟩, ran⟩ := ran
  rcases reply with failure | content
  · cases ran.1
  · have read : met.read path = .ok content := by
      rcases replies.served_or_refused with ⟨said, -⟩ | ⟨failure, said, -⟩
      · exact said.symm
      · cases said
    refine ⟨content, ?_, ?_⟩
    · rw [← varies.content _ outside, ← varies.home]
      exact Tree.content?_of_read read
    · simp only at ran
      split at ran
      next text' utf8 =>
        cases ran.1
        exact utf8
      next => cases ran.1

theorem readFrom_runs {outcome : Except Failure Tables}
    (outside : ¬owned (path.placeFrom s.tree.workingDirectory))
    (ran : (Snapshot.readFrom path).Runs (Leads (besides owned)) s outcome later) :
    later.visits = s.visits ∧ ∀ tables, outcome = .ok tables → ∃ content all,
      s.tree.content? (path.placeFrom s.tree.workingDirectory) = some content ∧
      (String.fromUTF8? content).bind Snapshot.read? = some all ∧
        tables = Snapshot.persistable all := by
  rcases Program.runs_bind.mp ran with ⟨read, reached, reading, rest⟩
  rcases runs_ofFiles reading with ⟨reading, visited⟩
  rcases read with cause | text
  · obtain ⟨rfl, rfl⟩ := rest
    exact ⟨visited, nofun⟩
  · rcases runs_readText outside reading with ⟨content, found, utf8⟩
    simp only at rest
    split at rest
    · obtain ⟨rfl, rfl⟩ := rest
      exact ⟨visited, nofun⟩
    next all parses =>
      rcases Program.runs_bind.mp rest with ⟨_, _, noting, rfl, rfl⟩
      have unvisited := visits_of_only
        ((noteIgnored_only path _).mono fun _ => And.left) noting
      refine ⟨unvisited.trans visited, ?_⟩
      intro tables same
      cases same
      exact ⟨content, all, found, by rw [utf8, Option.bind_some, parses], rfl⟩

theorem importFrom_imported {outcome : Except Failure Nat}
    (outside : ¬owned (path.placeFrom s.tree.workingDirectory))
    (ran : (importFrom path).Runs (Leads (besides owned)) s outcome later) :
    Imported path s outcome later := by
  rcases Program.runs_bind.mp ran with ⟨read, reached, reading, rest⟩
  rcases readFrom_runs outside reading with ⟨visited, parsed⟩
  rcases read with failure | tables
  · obtain ⟨rfl, rfl⟩ := rest
    exact @Imported.failed _ _ failure _ [] visited (by simp)
  · rcases parsed tables rfl with ⟨content, all, found, parses, rfl⟩
    simp only [Procedure.ask, Program.perform_bind] at rest
    obtain ⟨_, _, ⟨met, tree, -, varies, time, fault?, rfl, rfl⟩, rest⟩ := rest
    cases fault? with
    | some fault =>
        obtain ⟨rfl, rfl⟩ := rest
        let visit : Visit := ⟨met, time, Snapshot.restore (Snapshot.persistable all), some fault⟩
        exact @Imported.failed _ _ _ _ [visit] (congrArg (visit :: ·) visited)
          (List.forall_mem_singleton.mpr rfl)
    | none =>
        obtain ⟨_, _, ⟨keyspace, tree', -, -, rfl⟩, rfl, rfl⟩ := rest
        exact .imported found parses (congrArg (_ :: ·) visited)

end

/-! ## All or nothing -/

/-- How saving the configuration can end: it fails and the file is as it was, or it saves
what a single call has taken from the store, between calls of the lock. -/
inductive Saves (owned : Place → Prop) (pid : Pid) (timing : LockTiming) (path : Path) (asks : Bool)
    (s : Surroundings) : Except Failure Tables → Surroundings → Prop
  | failed (failure : Failure) {later : Surroundings}
      (same : later.tree.content? (path.placeFrom s.tree.workingDirectory) =
        s.tree.content? (path.placeFrom s.tree.workingDirectory))
      (reads : ∀ content, s.tree.read path = .ok content → later.tree.read path = .ok content) :
      Saves owned pid timing path asks s (.error failure) later
  | saved {entered ended later : Surroundings} {met : Keyspace} {time : Instant}
      (enters : (saving pid timing path asks).Enters (besides owned) (.ofPid pid timing.ttl) s
        entered)
      (before : Since (StoreCall.Concerns LockRecord.key pid timing.ttl) s entered)
      (operated : (exportTo pid path).Runs (Leads (besides owned)) entered
        (.ok (met.serve time Snapshot.dump).1) ended)
      (dumped : ended.visits = ⟨met, time, Snapshot.dump, none⟩ :: entered.visits)
      (holds : ended.tree.read path =
        .ok (Snapshot.write (met.serve time Snapshot.dump).1).toUTF8)
      (after : Since (StoreCall.Concerns LockRecord.key pid timing.ttl) ended later)
      (still : later.tree.read path =
        .ok (Snapshot.write (met.serve time Snapshot.dump).1).toUTF8) :
      Saves owned pid timing path asks s (.ok (met.serve time Snapshot.dump).1) later

/-- How loading the configuration can end: it fails and the records other than that of the
lock are at most purged, or it puts what the file holds into the store by a single call,
between calls of the lock that do no more than that. -/
inductive Loads (owned : Place → Prop) (pid : Pid) (timing : LockTiming) (path : Path) (asks : Bool)
    (s : Surroundings) : Except Failure Nat → Surroundings → Prop
  | failed (failure : Failure) {later : Surroundings} {visits : List Visit}
      (visited : later.visits = visits ++ s.visits)
      (purges : ∀ visit ∈ visits, visit.PurgesBut LockRecord.key) :
      Loads owned pid timing path asks s (.error failure) later
  | loaded {entered ended later : Surroundings} {content : ByteArray} {tables : Tables}
      {met : Keyspace} {time : Instant} {before after : List Visit}
      (found : s.tree.content? (path.placeFrom s.tree.workingDirectory) = some content)
      (parsed : (String.fromUTF8? content).bind Snapshot.read? = some tables)
      (enters : (loading timing path asks).Enters (besides owned) (.ofPid pid timing.ttl) s
        entered)
      (entering : entered.visits = before ++ s.visits)
      (operated : (importFrom path).Runs (Leads (besides owned)) entered
        (.ok (met.serve time (Snapshot.restore (Snapshot.persistable tables))).1) ended)
      (visited : later.visits = after ++
        ⟨met, time, Snapshot.restore (Snapshot.persistable tables), none⟩ :: entered.visits)
      (concerns : ∀ visit ∈ before ++ after,
        visit.call.Concerns LockRecord.key pid timing.ttl)
      (purges : ∀ visit ∈ before ++ after, visit.PurgesBut LockRecord.key) :
      Loads owned pid timing path asks s
        (.ok (met.serve time (Snapshot.restore (Snapshot.persistable tables))).1) later

variable {owned : Place → Prop} {pid : Pid} {timing : LockTiming} {path : Path} {asks : Bool}
  {s later : Surroundings} {c' : Claimant}

theorem saves_of_runs {outcome : Except Failure Tables}
    (outside : ¬owned (path.placeFrom s.tree.workingDirectory))
    (outside' : ∀ temporary, FileSystem.temporary? pid.toNat path = some temporary →
      ¬owned (temporary.placeFrom s.tree.workingDirectory))
    (ran : (save pid timing path asks).Runs (Leads (besides owned)) s (outcome, c') later) :
    Saves owned pid timing path asks s outcome later := by
  have failing {failure : Failure} (varies : s.tree.Varies
      (FileSystem.OwnedOrTemporary owned s.tree.workingDirectory pid.toNat path) later.tree) :
      Saves owned pid timing path asks s (.error failure) later := by
    have apart : ¬FileSystem.OwnedOrTemporary owned s.tree.workingDirectory pid.toNat path
        (path.placeFrom s.tree.workingDirectory) := by
      rintro (others | ⟨temporary, found, same⟩)
      · exact outside others
      · exact FileSystem.placeFrom_temporary?_ne found _ same.symm
    exact .failed failure (varies.content _ apart) fun content read => varies.read apart read
  rcases aside_or_operates ran with ⟨failure, rfl, aside⟩ |
    ⟨entered, ended, enters, before, operated, after⟩
  · exact failing (aside.files.mono fun _ => .inl)
  · rw [← before.files.home] at outside outside'
    cases exportTo_exported outside outside' operated with
    | failed failure varies =>
        rw [before.files.home] at varies
        exact failing (((before.files.mono fun _ => .inl).trans varies).trans
          (after.files.mono fun _ => .inl))
    | exported home visited reads =>
        rw [← home] at outside
        exact .saved enters before.calls operated visited reads after.calls
          (after.files.read outside reads)

theorem loads_of_runs {outcome : Except Failure Nat}
    (outside : ¬owned (path.placeFrom s.tree.workingDirectory))
    (ran : (load pid timing path asks).Runs (Leads (besides owned)) s (outcome, c') later) :
    Loads owned pid timing path asks s outcome later := by
  rcases aside_or_operates ran with ⟨failure, rfl, aside⟩ |
    ⟨entered, ended, enters, before, operated, after⟩
  · rcases aside.visits with ⟨visits, visited, -, purges⟩
    exact .failed failure visited purges
  · rcases before.visits with ⟨first, entering, concerns, purges⟩
    rcases after.visits with ⟨last, leaving, concerns', purges'⟩
    have unchanged := before.files.content _ outside
    rw [← before.files.home] at outside
    cases importFrom_imported outside operated with
    | @failed failure _ visits visited faulted =>
        have visited' : later.visits = last ++ visits ++ first ++ s.visits := by
          rw [leaving, visited, entering]
          simp
        refine .failed failure visited' ?_
        intro visit member
        simp only [List.mem_append] at member
        rcases member with (member | member) | member
        · exact purges' visit member
        · rcases Option.isSome_iff_exists.mp (faulted visit member) with ⟨fault, faulted⟩
          exact Visit.purgesBut_of_fault faulted _
        · exact purges visit member
    | imported found parsed visited =>
        rw [before.files.home, unchanged] at found
        refine .loaded found parsed enters entering operated (leaving.trans (by rw [visited])) ?_ ?_
        · exact List.forall_mem_append.mpr ⟨concerns, concerns'⟩
        · exact List.forall_mem_append.mpr ⟨purges, purges'⟩

/-- Saving and loading are all or nothing, whatever the store holds, whatever others do to
it meanwhile, however the question is answered and whatever fails, if the file is none of
those that the store is kept in. -/
theorem all_or_nothing {directory? : Option Path}
    (outside : ¬storeFiles s.tree.workingDirectory directory?
      (path.placeFrom s.tree.workingDirectory)) :
    (∀ outcome c' later,
      (save pid timing path asks).Runs
        (Leads (besides (storeFiles s.tree.workingDirectory directory?))) s (outcome, c') later →
      Saves (storeFiles s.tree.workingDirectory directory?) pid timing path asks s outcome later) ∧
    ∀ outcome c' later,
      (load pid timing path asks).Runs
        (Leads (besides (storeFiles s.tree.workingDirectory directory?))) s (outcome, c') later →
      Loads (storeFiles s.tree.workingDirectory directory?) pid timing path asks s outcome
        later := by
  constructor
  · intro outcome c' later ran
    exact saves_of_runs outside (fun _ found owns => outside (storeFiles_of_temporary found owns)) ran
  · intro outcome c' later ran
    exact loads_of_runs outside ran

/-- A store with one record, and a file with another. -/
def oneNode : Surroundings :=
  let fields (port : String) : Fields := TextMap.empty.insert "port" port
  let tables : Tables := TextMap.empty.insert "NODE" (TextMap.empty.insert "b" (fields "81"))
  ⟨⟨TextMap.empty.insert (Key.compose "NODE" "a") ⟨fields "80", none⟩, false⟩,
    ⟨[], [(["config.json"], .file (Snapshot.write tables).toUTF8)]⟩, [], []⟩

/-- The configuration is saved to a file beside the directory of the database, and loaded
from it. -/
theorem all_or_nothing_of_config :
    (∃ tables later, Saves (storeFiles [] (some "db")) 1 .default "config.json" true oneNode
      (.ok tables) later) ∧
    ∃ records later, Loads (storeFiles [] (some "db")) 1 .default "config.json" true oneNode
      (.ok records) later := by
  have outside : ¬storeFiles [] (some "db") (Path.placeFrom [] "config.json") := by
    intro owns
    rcases Database.Owns.eq_cons owns with ⟨name, same⟩
    have apart : (Path.placeFrom [] "config.json").tail ≠ Path.placeFrom [] "db" := by
      decide +kernel
    exact apart (congrArg List.tail same)
  have leads := @leads_undisturbed (besides (storeFiles [] (some "db"))) (fun _ => trivial)
    (Tree.Varies.refl _) default (.ok true)
  rcases @all_or_nothing 1 .default "config.json" true oneNode (some "db") outside with
    ⟨saves, loads⟩
  constructor
  · obtain ⟨⟨outcome, c'⟩, later, ran, done⟩ :
        ∃ result later, (save 1 .default "config.json" true).Runs
          (Leads (besides (storeFiles [] (some "db")))) oneNode result later ∧
          result.1.isOk = true :=
      ⟨_, _, Program.runs_run leads _ _, by decide +kernel⟩
    cases outcome with
    | error failure => contradiction
    | ok tables => exact ⟨tables, later, saves _ _ _ ran⟩
  · obtain ⟨⟨outcome, c'⟩, later, ran, done⟩ :
        ∃ result later, (load 1 .default "config.json" true).Runs
          (Leads (besides (storeFiles [] (some "db")))) oneNode result later ∧
          result.1.isOk = true :=
      ⟨_, _, Program.runs_run leads _ _, by decide +kernel⟩
    cases outcome with
    | error failure => contradiction
    | ok records => exact ⟨records, later, loads _ _ _ ran⟩

end Transfer

end Leasehold
