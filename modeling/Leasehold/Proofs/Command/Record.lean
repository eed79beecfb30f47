import Leasehold.Proofs.Command.Assignment
import Leasehold.Proofs.Host.Machine
import Leasehold.Proofs.Snapshot.Restore

/-!
# Records are addressed faithfully

Fields that make no sense are refused before anything is asked of the host. Fields that do
are put over those of the live record of that table and name, and no other record is
changed. So after any number of assignments a record that never expires is shown, and
dumped, with the fields that were assigned to it and to no other.
-/

namespace Leasehold

open FileSystem Database RecordCommand Leasehold.Path

/-! ## Assigning fields in a keyspace -/

namespace Keyspace

/-- That a keyspace is another one after fields were assigned to the record under a key: the
live record has these fields over its own, and all others are as they were. -/
structure Assigned (before : Keyspace) (key : String) (now : Instant)
    (value? : String → Option String) (after : Keyspace) : Prop where
  record : ∃ entry, after.entries.get? key = some entry ∧
    entry.expiresAt = (before.live? key now).bind Entry.expiresAt ∧
    ∀ name, entry.fields.get? name =
      (value? name).or ((before.live? key now).bind fun old => old.fields.get? name)
  others : ∀ other, other ≠ key → after.entries.get? other = before.live? other now

variable {keyspace : Keyspace} {key : String} {now : Instant}

/-- Fields are put over those of the live record, which keeps its expiry. -/
@[simp]
theorem serve_merge_record (fields : Fields) :
    (keyspace.serve now (.merge key fields)).2.entries.get? key =
      some ⟨(((keyspace.live? key now).map Entry.fields).getD .empty).overlay fields,
        (keyspace.live? key now).bind Entry.expiresAt⟩ := by
  simp only [serve, apply, merge, get?_purge]
  cases keyspace.live? key now <;> simp

/-- A record that is live has the lifetime that it is left with. -/
theorem serve_lifetime_of_persistent {fields : Fields}
    (live : keyspace.live? key now = some ⟨fields, none⟩) :
    (keyspace.serve now (.lifetime key)).1 = .persistent := by
  simp only [serve, apply, lifetime, get?_purge, live]

theorem assigned_serve (pairs : List String) : keyspace.Assigned key now (assigned? pairs)
    ⟨(keyspace.serve now (.merge key (fieldsOf pairs))).2.entries, false⟩ := by
  constructor
  · refine ⟨_, serve_merge_record (fieldsOf pairs), rfl, fun name => ?_⟩
    rw [TextMap.get?_overlay, get?_fieldsOf]
    cases keyspace.live? key now with
    | none => rw [Option.map_none, Option.getD_none, TextMap.get?_empty, Option.bind_none]
    | some entry => rfl
  · intro other different
    have spares : (StoreCall.merge key (fieldsOf pairs)).Spares other := different.symm
    exact get?_serve_of_spares spares keyspace now

end Keyspace

/-! ## Failures of a store -/

namespace Database

variable {σ : Type} {answers : (call : FileCall) → call.Reply → σ → σ → Prop} {state later : σ}
  {pid : Pid} {directory : Path} {failure : Failure}

/-- However its files answer, preparing the directory of a store fails because of the store. -/
theorem failure_of_runs_prepare
    (ran : (prepare directory).Runs answers state (.error failure) later) :
    ∃ fault, failure = .storeUnavailable fault := by
  rcases Program.runs_bind.mp ran with ⟨_ | _, _, -, rest⟩
  · cases rest.1
    exact ⟨_, rfl⟩
  · cases rest.1

theorem failure_of_runs_load
    (ran : (load directory).Runs answers state (.error failure) later) :
    ∃ fault, failure = .storeUnavailable fault := by
  rcases Program.runs_bind.mp ran with ⟨found, _, -, rest⟩
  split at rest
  · cases rest.1
  · cases rest.1
    exact ⟨_, rfl⟩
  · split at rest
    · cases rest.1
    · split at rest
      · cases rest.1
      · cases rest.1
        exact ⟨_, rfl⟩

theorem failure_of_runs_transact {now : Instant} {call : StoreCall}
    (ran : (transact pid directory now call).Runs answers state (.error failure) later) :
    ∃ fault, failure = .storeUnavailable fault := by
  rcases Program.runs_bind.mp ran with ⟨_ | keyspace, _, loading, rest⟩
  · cases rest.1
    exact failure_of_runs_load loading
  · simp only at rest
    split at rest
    · rcases Program.runs_bind.mp rest with ⟨_ | _, _, persisting, rest⟩
      · cases rest.1
        rcases Program.runs_bind.mp persisting with ⟨_ | _, _, -, rest⟩
        · cases rest.1
          exact ⟨_, rfl⟩
        · cases rest.1
      · cases rest.1
    · cases rest.1

/-- However its files answer, a call to a store fails because of the store. -/
theorem failure_of_runs_serve {now : Instant} {call : StoreCall}
    (ran : (serve pid directory now call).Runs answers state (.error failure) later) :
    ∃ fault, failure = .storeUnavailable fault := by
  rcases Program.runs_bind.mp ran with ⟨_ | _, _, -, rest⟩
  · cases rest.1
    exact ⟨_, rfl⟩
  · rcases Program.runs_bind.mp rest with ⟨_ | _, _, -, rest⟩
    · cases rest.1
      exact ⟨_, rfl⟩
    · rcases Program.runs_bind.mp rest with ⟨_, _, transacting, rest⟩
      rcases Program.runs_bind.mp rest with ⟨_, _, -, rest⟩
      cases rest.1
      exact failure_of_runs_transact transacting

end Database

/-! ## Setting fields on any host -/

namespace RecordCommand

variable {caller : Caller} {home : Path} {table record : String} {pairs : List String}
  {site later : Site} {result : Except Failure Unit}

/-- Arguments that make no sense are refused, and nothing is asked of the host. -/
theorem set_of_not_areValid (caller : Caller) (home : Path)
    (not : ¬AreValid table record pairs) :
    ∃ problem, set caller home table record pairs = .done (.error (.user problem)) := by
  rcases readAssignment_of_not_areValid not with ⟨problem, failed⟩
  rw [set, failed]
  exact ⟨problem, rfl⟩

/-- However its host answers, a command whose arguments make sense fails only because of the
store. -/
theorem failure_of_runs_set {σ : Type} {failure : Failure}
    {answers : (request : HostRequest) → request.Reply → σ → σ → Prop} {first last : σ}
    (valid : AreValid table record pairs)
    (ran : (set caller home table record pairs).Runs answers first (.error failure) last) :
    ∃ fault, failure = .storeUnavailable fault := by
  rw [set, readAssignment_of_areValid valid] at ran
  rcases Program.runs_bind.mp ran with ⟨_ | _, _, preparing, rest⟩
  · cases rest.1
    exact failure_of_runs_prepare (HostProgram.runs_ofFiles preparing)
  · rcases Program.runs_bind.mp rest with ⟨_ | _, _, asking, rest⟩
    · cases rest.1
      obtain ⟨_, _, -, asking⟩ := asking
      exact failure_of_runs_serve (HostProgram.runs_ofFiles asking)
    · obtain ⟨_, _, -, rest⟩ := rest
      cases rest.1

/-- Fields that make sense are assigned at the time that the clock shows, or the store does
not answer and what it holds is unchanged. -/
theorem runs_set (valid : AreValid table record pairs)
    (ran : (set caller home table record pairs).Runs Site.Answers site result later) :
    (∃ fault, result = .error (.storeUnavailable fault)) ∧
        stored? later.tree home = stored? site.tree home ∨
      result = .ok () ∧ ∃ now before after, later.readings = now :: site.readings ∧
        stored? site.tree home = some before ∧ stored? later.tree home = some after ∧
        before.Assigned (Key.compose table record) now (assigned? pairs) after := by
  rw [set, readAssignment_of_areValid valid] at ran
  rcases Program.runs_bind.mp ran with ⟨outcome, prepared, preparing, rest⟩
  rcases Site.runs_ofFiles preparing with ⟨preparing, read⟩
  rcases runs_prepare preparing with ⟨varies, ended⟩
  have kept : stored? prepared.tree home = stored? site.tree home := stored?_of_varies varies id
  rcases ended with rfl | ⟨cause, rfl⟩
  · rcases Program.runs_bind.mp rest with ⟨reply, asked, asking, rest⟩
    obtain ⟨now, _, rfl, asking⟩ := asking
    rcases Site.runs_ofFiles asking with ⟨asking, read'⟩
    cases Database.runs_serve asking with
    | failed fault kept' =>
        obtain ⟨rfl, rfl⟩ := rest
        exact .inl ⟨⟨fault, rfl⟩, kept'.trans kept⟩
    | served stored left =>
        obtain ⟨_, _, rfl, rfl, rfl⟩ := rest
        refine .inr ⟨rfl, now, _, _, ?_, kept.symm.trans stored, left,
          Keyspace.assigned_serve pairs⟩
        rw [read', read]
  · obtain ⟨rfl, rfl⟩ := rest
    exact .inl ⟨⟨_, rfl⟩, kept⟩

/-! ## Setting and showing on a machine -/

variable {processes : Pid → Prop} {machine : Machine} {keyspace : Keyspace}

/-- Where the database works for a process, fields that make sense are set for it. -/
theorem run_set (machine : Machine) (member : processes caller.pid)
    (valid : AreValid table record pairs) (works : Works processes home machine.tree keyspace) :
    ∃ tree, machine.run (set caller home table record pairs) = (.ok (), { machine with
        tree := tree
        printed := machine.printed ++ ("Set " ++ toString (fieldsOf pairs).size ++
          " field(s) on " ++ Key.compose table record ++ "\n") }) ∧
      Works processes home tree ⟨(keyspace.serve machine.clock
        (.merge (Key.compose table record) (fieldsOf pairs))).2.entries, false⟩ := by
  rcases machine.run_prepared works member (.merge (Key.compose table record) (fieldsOf pairs))
    with ⟨folder, prepared, tree, preparing, asked, ready, left⟩
  refine ⟨tree, ?_, .of_ready member ready left⟩
  rw [set, readAssignment_of_areValid valid]
  simp only [Machine.run_bind, preparing, asked]
  rfl

/-- Where fields have been set for a process the database works for it. -/
theorem works_of_run_set (machine : Machine)
    (done : (machine.run (set caller home table record pairs)).1 = .ok ()) :
    ∃ keyspace, Works (· = caller.pid) home machine.tree keyspace := by
  have valid : AreValid table record pairs := by
    by_contra not
    rcases set_of_not_areValid caller home not with ⟨problem, refused⟩
    rw [refused] at done
    cases done
  rw [set, readAssignment_of_areValid valid] at done
  simp only [Machine.run_bind, Machine.run_ofFiles] at done
  have stored := stored?_run_prepare machine.tree home
  rcases preparing : machine.tree.run (prepare home) with ⟨failure | _, prepared⟩
  · rw [preparing] at done
    cases done
  rw [preparing] at done stored
  have asked := Machine.run_askDatabase { machine with tree := prepared } caller.pid home
    (.merge (Key.compose table record) (fieldsOf pairs))
  have ran := prepared.runs_serves (serve caller.pid home machine.clock
    (.merge (Key.compose table record) (fieldsOf pairs)))
  rcases serving : prepared.run (serve caller.pid home machine.clock
    (.merge (Key.compose table record) (fieldsOf pairs))) with ⟨failure | answer, served⟩
  · rw [serving] at asked
    simp only [Machine.run_bind, asked] at done
    cases done
  rw [serving] at ran
  rcases ready_of_runs_serve (fun _ => rfl) ran with ⟨ready, keyspace, found⟩
  exact ⟨keyspace, ⟨_, prepared, preparing, fun _ same => same ▸ ready⟩, stored.symm.trans found⟩

/-- Where the database works a record that never expires is shown, with the lines for its
fields and nothing else. -/
theorem run_get_of_persistent {fields : Fields} (member : processes caller.pid)
    (areNames : AreNames table record) (works : Works processes home machine.tree keyspace)
    (live : keyspace.live? (Key.compose table record) machine.clock = some ⟨fields, none⟩) :
    ∃ tree, machine.run (get caller home table record) = (.ok (), { machine with
      tree := tree
      printed := machine.printed ++ String.join
        ((recordLines (Key.compose table record) fields .persistent).map (· ++ "\n")) }) := by
  rcases machine.run_prepared works member (.fetch (Key.compose table record)) with
    ⟨folder, prepared, fetched, preparing, asked, ready, left⟩
  rcases Machine.run_askDatabase_of_ready { machine with tree := fetched } member ready left
    (.lifetime (Key.compose table record)) with ⟨tree, asked', -, -⟩
  have spares : (StoreCall.fetch (Key.compose table record)).Spares (Key.compose table record) :=
    trivial
  have live' : Keyspace.live? ⟨(keyspace.serve machine.clock
      (.fetch (Key.compose table record))).2.entries, false⟩ (Key.compose table record)
      machine.clock = some ⟨fields, none⟩ :=
    Keyspace.live?_eq_some_iff.mpr
      ⟨(Keyspace.get?_serve_of_spares spares keyspace machine.clock).trans live, rfl⟩
  have lifetime := Keyspace.serve_lifetime_of_persistent live'
  refine ⟨tree, ?_⟩
  rw [get, recordKey_of_areNames areNames]
  simp only [Machine.run_bind, preparing, asked]
  rw [Keyspace.serve_fetch_answer, live]
  simp only [Option.map_some, Machine.run_bind, asked', lifetime, Machine.run_printLines]
  rfl

/-- Where the database works a record that is not there is missed. -/
theorem run_get_of_missing (member : processes caller.pid) (areNames : AreNames table record)
    (works : Works processes home machine.tree keyspace)
    (missing : keyspace.live? (Key.compose table record) machine.clock = none) :
    ∃ tree, machine.run (get caller home table record) =
      (.error (.user (.recordMissing (Key.compose table record))),
        { machine with tree := tree }) := by
  rcases machine.run_prepared works member (.fetch (Key.compose table record)) with
    ⟨folder, prepared, tree, preparing, asked, -, -⟩
  refine ⟨tree, ?_⟩
  rw [get, recordKey_of_areNames areNames]
  simp only [Machine.run_bind, preparing, asked]
  rw [Keyspace.serve_fetch_answer, missing]
  rfl

end RecordCommand

end Leasehold
