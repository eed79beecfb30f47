import Leasehold.Proofs.Command.Record

/-!
# Assigning fields again and again

Commands that set fields, each at a time of its own, put them over those that a record has.
A record that does not expire is then shown, and dumped, with the fields of all the
commands to its own table and name, one put over the other, and with no others.
-/

namespace Leasehold

open FileSystem Database RecordCommand Leasehold.Path

/-! ## One after the other -/

/-- A command that sets fields, and the time when it is given. -/
structure Assignment where
  caller : Caller
  time : Instant
  table : String
  record : String
  pairs : List String

/-- The pairs of the assignments to a record, each with a list of its own. -/
def setsTo (table record : String) (assignments : List Assignment) : List (List String) :=
  (assignments.filter fun made => made.table == table && made.record == record).map
    Assignment.pairs

/-- Gives a command that sets fields at its time. -/
def Machine.assign (home : Path) (machine : Machine) (made : Assignment) :
    Except Failure Machine :=
  match { machine with clock := made.time }.run
      (set made.caller home made.table made.record made.pairs) with
  | (.ok (), later) => .ok later
  | (.error failure, _) => .error failure

/-- Gives such commands one after the other, up to the first that fails. -/
def Machine.assignAll (home : Path) (machine : Machine) (assignments : List Assignment) :
    Except Failure Machine :=
  assignments.foldlM (Machine.assign home) machine

/-- The fields of a record, if there is one, with those in pairs put over them, one list of
pairs after the other. -/
def overlaid (fields? : Option Fields) (sets : List (List String)) : Option Fields :=
  sets.foldl (fun fields? pairs => some ((fields?.getD .empty).overlay (fieldsOf pairs))) fields?

theorem overlaid_cons (fields? : Option Fields) (pairs : List String)
    (sets : List (List String)) : overlaid fields? (pairs :: sets) =
      overlaid (some ((fields?.getD .empty).overlay (fieldsOf pairs))) sets :=
  rfl

/-- There is no record only where there was none and nothing was set. -/
theorem overlaid_eq_none_iff {fields? : Option Fields} {sets : List (List String)} :
    overlaid fields? sets = none ↔ fields? = none ∧ sets = [] := by
  induction sets generalizing fields? with
  | nil => exact (and_iff_left rfl).symm
  | cons pairs sets ih =>
      rw [overlaid_cons, ih]
      simp

/-- A field has the value that the pairs assign, or else the one it had. -/
theorem get?_overlaid (fields? : Option Fields) (sets : List (List String)) (name : String) :
    ((overlaid fields? sets).bind fun fields => fields.get? name) =
      (assigned? sets.flatten name).or (fields?.bind fun fields => fields.get? name) := by
  induction sets generalizing fields? with
  | nil => rfl
  | cons pairs sets ih =>
      have first : ((fields?.getD .empty).overlay (fieldsOf pairs)).get? name =
          (assigned? pairs name).or (fields?.bind fun fields => fields.get? name) := by
        rw [TextMap.get?_overlay, get?_fieldsOf]
        cases fields? with
        | none => rw [Option.getD_none, TextMap.get?_empty, Option.bind_none]
        | some fields => rfl
      rw [overlaid_cons, ih, Option.bind_some, first, List.flatten_cons, assigned?_append,
        Option.or_assoc]

/-! ## Records that do not expire -/

namespace Keyspace

variable {keyspace : Keyspace} {key : String} {fields? : Option Fields}

/-- A record that does not expire is live at any time. -/
theorem live?_of_persistent
    (persistent : keyspace.entries.get? key = fields?.map fun fields => ⟨fields, none⟩)
    (now : Instant) : keyspace.live? key now = fields?.map fun fields => ⟨fields, none⟩ := by
  rw [live?, persistent]
  cases fields? <;> rfl

/-- A record that does not expire has the fields put over it that are assigned to it. -/
theorem get?_serve_merge_of_persistent
    (persistent : keyspace.entries.get? key = fields?.map fun fields => ⟨fields, none⟩)
    (now : Instant) (fields : Fields) :
    (keyspace.serve now (.merge key fields)).2.entries.get? key =
      some ⟨(fields?.getD .empty).overlay fields, none⟩ := by
  rw [serve_merge_record, live?_of_persistent persistent]
  cases fields? <;> rfl

/-- Assigning to another record leaves it alone. -/
theorem get?_serve_merge_of_ne {other : String} (different : other ≠ key)
    (persistent : keyspace.entries.get? key = fields?.map fun fields => ⟨fields, none⟩)
    (now : Instant) (fields : Fields) :
    (keyspace.serve now (.merge other fields)).2.entries.get? key =
      fields?.map fun fields => ⟨fields, none⟩ := by
  have spares : (StoreCall.merge other fields).Spares key := different
  rw [get?_serve_of_spares spares, live?_of_persistent persistent]

end Keyspace

/-! ## After any number of assignments -/

variable {processes : Pid → Prop} {home : Path} {machine : Machine} {keyspace : Keyspace}

/-- Where the database works an assignment that makes sense is made. -/
theorem Machine.assign_of_works {made : Assignment} (member : processes made.caller.pid)
    (valid : AreValid made.table made.record made.pairs)
    (works : Works processes home machine.tree keyspace) : ∃ later,
      machine.assign home made = .ok later ∧
      Works processes home later.tree ⟨(keyspace.serve made.time
        (.merge (Key.compose made.table made.record) (fieldsOf made.pairs))).2.entries, false⟩ := by
  rcases run_set { machine with clock := made.time } member valid works with
    ⟨tree, ran, works'⟩
  exact ⟨_, by rw [assign, ran], works'⟩

/-- After assignments a record that did not expire has the fields of those to it put over
its own, and still does not expire. -/
theorem Machine.assignAll_of_works {assignments : List Assignment}
    (valid : ∀ made ∈ assignments,
      processes made.caller.pid ∧ AreValid made.table made.record made.pairs)
    (works : Works processes home machine.tree keyspace) : ∃ later after,
      machine.assignAll home assignments = .ok later ∧ Works processes home later.tree after ∧
      ∀ table record, AreNames table record → ∀ fields?,
        (keyspace.entries.get? (Key.compose table record) =
          Option.map (fun fields => ⟨fields, none⟩) fields?) →
        after.entries.get? (Key.compose table record) =
          (overlaid fields? (setsTo table record assignments)).map
            fun fields => ⟨fields, none⟩ := by
  induction assignments generalizing machine keyspace with
  | nil => exact ⟨machine, keyspace, rfl, works, fun _ _ _ _ persistent => persistent⟩
  | cons made assignments ih =>
      rw [List.forall_mem_cons] at valid
      rcases valid.1 with ⟨member, made_valid⟩
      rcases assign_of_works member made_valid works with ⟨middle, assigned, works'⟩
      rcases ih valid.2 works' with ⟨later, after, rest, works'', left⟩
      refine ⟨later, after, ?_, works'', ?_⟩
      · rw [assignAll, List.foldlM_cons, assigned]
        exact rest
      intro table record areNames fields? persistent
      -- Only an assignment to this table and name is one to this key.
      by_cases same : made.table = table ∧ made.record = record
      · rcases same with ⟨rfl, rfl⟩
        have put := Keyspace.get?_serve_merge_of_persistent persistent made.time
          (fieldsOf made.pairs)
        have sets : setsTo made.table made.record (made :: assignments) =
            made.pairs :: setsTo made.table made.record assignments := by
          simp [setsTo]
        rw [sets, overlaid_cons]
        exact left _ _ areNames _ put
      · have different : Key.compose made.table made.record ≠ Key.compose table record :=
          fun keys => same (made_valid.toAreNames.eq_of_compose_eq areNames keys)
        have kept := Keyspace.get?_serve_merge_of_ne different persistent made.time
          (fieldsOf made.pairs)
        have sets : setsTo table record (made :: assignments) =
            setsTo table record assignments := by
          rw [setsTo, List.filter_cons_of_neg, setsTo]
          simpa using same
        rw [sets]
        exact left _ _ areNames _ kept

namespace RecordCommand

/-- Asks the database for a dump, once its directory is there. -/
def dump (caller : Caller) (home : Path) : HostProgram Snapshot.dump.Reply :=
  HostProgram.ofFiles (prepare home) >>= fun _ =>
    HostProgram.askDatabase caller.pid home Snapshot.dump

/-- That a record is shown to some processes with the fields that it has, without any expiry,
or missed if it is not there, and that a dump has it under its table and its name, unless its
table is that of the lock. -/
structure Shows (processes : Pid → Prop) (home : Path) (machine : Machine)
    (table record : String) (fields? : Option Fields) : Prop where
  shown : ∀ fields, fields? = some fields → ∀ caller : Caller, processes caller.pid → ∃ tree,
    machine.run (get caller home table record) = (.ok (), { machine with
      tree := tree
      printed := machine.printed ++ String.join
        ((recordLines (Key.compose table record) fields .persistent).map (· ++ "\n")) })
  missed : fields? = none → ∀ caller : Caller, processes caller.pid → ∃ tree,
    machine.run (get caller home table record) =
      (.error (.user (.recordMissing (Key.compose table record))), { machine with tree := tree })
  dumped : table ≠ LockRecord.table → ∀ caller : Caller, processes caller.pid → ∃ tables tree,
    machine.run (dump caller home) = (.ok tables, { machine with tree := tree }) ∧
      Tables.record? tables table record = fields?

/-- Where the database works a record that does not expire is shown. -/
theorem shows_of_persistent {table record : String} {fields? : Option Fields}
    (areNames : AreNames table record) (works : Works processes home machine.tree keyspace)
    (persistent : keyspace.entries.get? (Key.compose table record) =
      fields?.map fun fields => ⟨fields, none⟩) :
    Shows processes home machine table record fields? := by
  have live := Keyspace.live?_of_persistent persistent machine.clock
  refine ⟨fun fields here caller member => ?_, fun missing caller member => ?_,
    fun other caller member => ?_⟩
  · subst here
    exact run_get_of_persistent member areNames works live
  · subst missing
    exact run_get_of_missing member areNames works live
  · rcases machine.run_prepared works member Snapshot.dump with
      ⟨folder, prepared, tree, preparing, asked, -, -⟩
    have accepted : LockRecord.isPersistable table = true := by
      simpa [LockRecord.isPersistable] using other
    refine ⟨_, tree, by rw [dump, Machine.run_bind, preparing, asked], ?_⟩
    rw [record?_dump, if_pos ⟨accepted, areNames.plain⟩, live, Option.map_map]
    exact Option.map_id'

/-! ## Addressing -/

/-- Records are addressed faithfully. A command that sets fields is refused exactly if its
arguments make no sense, whatever its host does, and then it asks the host for nothing. On a
host where any call may fail it assigns its fields, or the store did not answer and holds
what it held. Where the database works for the process it does assign them, and it works where
any such command succeeds. No two records that can be addressed share a key. And after any
number of such commands a record that does not expire is shown and dumped with the fields of
those to it put one over the other. -/
theorem addresses_faithfully (home : Path) :
    (∀ (σ : Type) (answers : (request : HostRequest) → request.Reply → σ → σ → Prop)
        (first last : σ) (result : Except Failure Unit) caller table record pairs,
        (set caller home table record pairs).Runs answers first result last →
        ((∃ problem, result = .error (.user problem)) ↔ ¬AreValid table record pairs)) ∧
    (∀ caller table record pairs, ¬AreValid table record pairs →
        ∃ problem, set caller home table record pairs = .done (.error (.user problem))) ∧
    (∀ caller table record pairs site later (result : Except Failure Unit),
        AreValid table record pairs →
        (set caller home table record pairs).Runs Site.Answers site result later →
        (∃ fault, result = .error (.storeUnavailable fault)) ∧
            stored? later.tree home = stored? site.tree home ∨
          result = .ok () ∧ ∃ now before after, later.readings = now :: site.readings ∧
            stored? site.tree home = some before ∧ stored? later.tree home = some after ∧
            before.Assigned (Key.compose table record) now (assigned? pairs) after) ∧
    (∀ (machine : Machine) (caller : Caller) table record pairs,
        (machine.run (set caller home table record pairs)).1 = .ok () →
        ∃ keyspace, Works (· = caller.pid) home machine.tree keyspace) ∧
    (∀ processes (machine : Machine) keyspace, Works processes home machine.tree keyspace →
        ∀ (caller : Caller) table record pairs, processes caller.pid →
          AreValid table record pairs → ∃ later after,
          machine.run (set caller home table record pairs) = (.ok (), later) ∧
          Works processes home later.tree after ∧
          keyspace.Assigned (Key.compose table record) machine.clock (assigned? pairs) after) ∧
    (∀ table record table' record', AreNames table record → AreNames table' record' →
        Key.compose table record = Key.compose table' record' →
        table = table' ∧ record = record') ∧
    ∀ processes (machine : Machine) keyspace, Works processes home machine.tree keyspace →
      ∀ assignments : List Assignment, (∀ made ∈ assignments,
        processes made.caller.pid ∧ AreValid made.table made.record made.pairs) →
      ∃ later, machine.assignAll home assignments = .ok later ∧
        ∀ table record fields?, AreNames table record →
          (keyspace.entries.get? (Key.compose table record) =
            Option.map (fun fields => ⟨fields, none⟩) fields?) →
          ∃ fields'?, (fields'? = none ↔ fields? = none ∧ setsTo table record assignments = []) ∧
            (∀ name, (fields'?.bind fun fields => fields.get? name) =
              (assigned? (setsTo table record assignments).flatten name).or
                (fields?.bind fun fields => fields.get? name)) ∧
            ∀ time, Shows processes home { later with clock := time } table record fields'? := by
  refine ⟨?_, fun caller _ _ _ => set_of_not_areValid caller home, fun _ _ _ _ _ _ _ => runs_set,
    fun machine _ _ _ _ => works_of_run_set machine, ?_, fun _ _ _ _ => AreNames.eq_of_compose_eq,
    ?_⟩
  · intro σ answers first last result caller table record pairs ran
    constructor
    · rintro ⟨problem, rfl⟩ valid
      rcases failure_of_runs_set valid ran with ⟨fault, same⟩
      cases same
    · intro not
      rcases set_of_not_areValid caller home not with ⟨problem, refused⟩
      rw [refused] at ran
      exact ⟨problem, ran.1⟩
  · intro processes machine keyspace works caller table record pairs member valid
    rcases run_set machine member valid works with ⟨tree, ran, works'⟩
    exact ⟨_, _, ran, works', Keyspace.assigned_serve pairs⟩
  · intro processes machine keyspace works assignments valid
    rcases Machine.assignAll_of_works valid works with ⟨later, after, made, works', left⟩
    refine ⟨later, made, fun table record fields? areNames persistent => ?_⟩
    have persistent' := left table record areNames fields? persistent
    exact ⟨_, overlaid_eq_none_iff, get?_overlaid fields? _,
      fun time => shows_of_persistent areNames works' persistent'⟩

/-- A machine whose database has one record, and beside its files the directory of a trail
and one that is in the way of the temporary file of process 2. -/
def portMachine : Machine :=
  ⟨⟨[], TransferCommand.onePort.nodes ++ [(["events", "db"], .directory),
    (["events.ndjson", "events", "db"], .file .empty), ([".db.json.2.tmp", "db"], .directory)]⟩,
    default, [], ⟨[], "", none⟩, "", []⟩

/-- Fields for that record, and for another one whose name has a separator in it. -/
def portSets : List Assignment :=
  [⟨TransferCommand.saver, default, "PORT", "0", ["mtu=1500", "mtu=9100"]⟩,
    ⟨TransferCommand.saver, Instant.max, "PORT", "0|x", ["mtu=1"]⟩,
    ⟨TransferCommand.saver, default, "PORT", "0", ["via=a=b"]⟩]

/-- There the database works for process 1. -/
theorem works_portMachine {keyspace : Keyspace}
    (stored : stored? portMachine.tree "db" = some keyspace) :
    Works (· = 1) "db" portMachine.tree keyspace := by
  have reaches : portMachine.tree.Reaches (keyspacePath "db") ["db.json", "db"] := by
    have located : (portMachine.tree.locate (keyspacePath "db")).toOption.map Prod.fst =
        some ["db.json", "db"] := by decide +kernel
    cases found : portMachine.tree.locate (keyspacePath "db") with
    | error failure => simp [found, Except.toOption] at located
    | ok there =>
        rw [found] at located
        obtain ⟨place, node⟩ := there
        cases located
        exact (Tree.locate_eq_ok_iff.mp found).1
  have files : ∀ name ∈ fileNames 1,
      portMachine.tree.node? (name :: ["db"]) ≠ some .directory := by decide +kernel
  have ready : ∀ pid, pid = 1 → Ready pid "db" ["db"] portMachine.tree := by
    rintro _ rfl
    exact ready_of_short reaches files (by decide +kernel)
  exact .of_ready rfl ready stored

/-- The record is shown with the fields that were set for it, the last ones of a name. -/
theorem addresses_faithfully_port : ∃ later tree,
    portMachine.assignAll "db" portSets = .ok later ∧
      { later with clock := default }.run (get TransferCommand.saver "db" "PORT" "0") =
        (.ok (), { later with
          clock := default
          tree := tree
          printed := later.printed ++ "PORT|0 (no expiry)\n  mtu: 9100\n  via: a=b\n" }) := by
  obtain ⟨keyspace, stored, found⟩ : ∃ keyspace, stored? portMachine.tree "db" = some keyspace ∧
      keyspace.entries.get? "PORT|0" = some ⟨.empty, none⟩ := by
    have held : (stored? portMachine.tree "db").bind (fun keyspace =>
        keyspace.entries.get? "PORT|0") = some ⟨.empty, none⟩ := by decide +kernel
    exact Option.bind_eq_some_iff.mp held
  have valid : ∀ made ∈ portSets,
      made.caller.pid = 1 ∧ AreValid made.table made.record made.pairs := by decide +kernel
  rcases (addresses_faithfully "db").2.2.2.2.2.2 (· = 1) portMachine keyspace
    (works_portMachine stored) portSets valid with ⟨later, made, after⟩
  rcases after "PORT" "0" (some .empty) ⟨by decide, by decide, by decide⟩ found with
    ⟨fields?, -, lookups, shows⟩
  have sets : (setsTo "PORT" "0" portSets).flatten = ["mtu=1500", "mtu=9100", "via=a=b"] := by
    decide +kernel
  rw [sets] at lookups
  cases fields? with
  | none => exact absurd (lookups "mtu") (by decide +kernel)
  | some fields =>
      have same : fields = fieldsOf ["mtu=1500", "mtu=9100", "via=a=b"] := by
        refine TextMap.ext fun name => ?_
        rw [get?_fieldsOf]
        have looked := lookups name
        rw [Option.bind_some, Option.bind_some, TextMap.get?_empty, Option.or_none] at looked
        exact looked
      subst same
      rcases (shows default).shown _ rfl TransferCommand.saver rfl with ⟨tree, shown⟩
      exact ⟨later, tree, made, shown⟩

end RecordCommand

end Leasehold
