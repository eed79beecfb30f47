import Leasehold.Proofs.Protected.Discipline
import Leasehold.Transfer

/-!
# Saving and loading spare the lock

A snapshot is taken by reading, and put into the store in place of the tables other
than that of the lock. The key of the lock has one separator only, so no record of
another table, whatever its name, comes to lie on it. So neither saving nor loading
any snapshot touches the lock record, and both are errands to be done under the lock.
-/

namespace Leasehold

/-! ## Keys -/

/-- A key with one separator can only be composed from its own table. -/
theorem Key.table_eq_of_compose_eq {table record other name : String}
    (plainTable : separator ∉ table.toList) (plainRecord : separator ∉ record.toList)
    (same : compose other name = compose table record) : other = table := by
  have chars := congrArg String.toList same
  simp only [compose, String.toList_append, String.toList_singleton, List.append_assoc,
    List.singleton_append] at chars
  rcases List.append_eq_append_iff.mp chars with ⟨more, longer, rest⟩ | ⟨more, longer, rest⟩
  · rcases more with _ | ⟨first, more⟩
    · exact String.toList_inj.mp (by simpa using longer.symm)
    · -- Then the separator behind `other` lies within `table`.
      rcases List.cons.inj rest with ⟨rfl, -⟩
      exact absurd (longer ▸ by simp) plainTable
  · rcases more with _ | ⟨first, more⟩
    · exact String.toList_inj.mp (by simpa using longer)
    · -- Then the separator before `name` lies within `record`.
      rcases List.cons.inj rest with ⟨rfl, after⟩
      exact absurd (after ▸ by simp) plainRecord

/-! ## Snapshots -/

namespace Snapshot

theorem spares_dump (key : String) : dump.Spares key :=
  trivial

/-- Putting a snapshot into a store spares the lock, whatever the snapshot holds. -/
theorem spares_restore (tables : Tables) : (restore tables).Spares LockRecord.key := by
  constructor
  · have split := Key.split?_compose (show Key.separator ∉ LockRecord.table.toList by decide)
      LockRecord.record
    rw [Keyspace.inTables, LockRecord.key, split]
    decide
  · intro record member
    rcases List.mem_flatMap.mp member with ⟨⟨table, records⟩, inTables, listed⟩
    rcases List.mem_map.mp listed with ⟨⟨name, fields⟩, -, rfl⟩
    have persistable : LockRecord.isPersistable table = true := (List.mem_filter.mp inTables).2
    intro same
    have lock : table = LockRecord.table :=
      Key.table_eq_of_compose_eq (by decide) (by decide) same
    rw [lock] at persistable
    exact absurd persistable (by decide)

end Snapshot

/-! ## Operations -/

namespace Transfer

variable {pid : Pid} {path : Path} {history : History}

open Procedure

theorem exportTo_keeps :
    (exportTo pid path).Keeps (calls (StoreCall.Spares LockRecord.key)) (fun _ _ => True)
      history := by
  apply keeps_ask_bind.mpr ⟨Snapshot.spares_dump _, _⟩
  rintro (failure | tables) time
  · trivial
  · apply Program.keeps_bind.mpr
    apply keeps_ofFiles
    rintro (failure | _)
    · trivial
    · exact keeps_note_bind.mpr trivial

theorem noteIgnored_keeps (tables : List String) :
    (Snapshot.noteIgnored path tables).Keeps (calls (StoreCall.Spares LockRecord.key))
      (fun _ _ => True) history := by
  induction tables with
  | nil => trivial
  | cons table tables ih => exact keeps_note_bind.mpr ih

theorem importFrom_keeps :
    (importFrom path).Keeps (calls (StoreCall.Spares LockRecord.key)) (fun _ _ => True)
      history := by
  have reads : (Snapshot.readFrom path).Keeps (calls (StoreCall.Spares LockRecord.key))
      (fun _ _ => True) history := by
    apply Program.keeps_bind.mpr
    apply keeps_ofFiles
    rintro (cause | text)
    · trivial
    · simp only
      split
      · trivial
      · exact Program.keeps_bind.mpr ((noteIgnored_keeps _).mono fun _ _ _ => trivial)
  apply Program.keeps_bind.mpr
  apply reads.mono
  rintro (failure | tables) later -
  · trivial
  · apply keeps_ask_bind.mpr ⟨Snapshot.spares_restore tables, _⟩
    rintro (failure | records) time
    · trivial
    · exact keeps_note_bind.mpr trivial

/-- An operation that only spares the record leaves the claimant in order. -/
theorem keeps_fits {α : Type} {operation : Procedure (Except Failure α)} {c : Claimant}
    {owner : Pid} {ttl : Duration} (fits : c.Fits LockRecord.key owner ttl history)
    (kept : operation.Keeps (calls (StoreCall.Spares LockRecord.key)) (fun _ _ => True) history) :
    (do return (← operation, c) : Procedure (Except Failure α × Claimant)).Keeps
      (calls (StoreCall.Spares LockRecord.key))
      (fun result later => result.2.Fits LockRecord.key owner ttl later) history := by
  have stable (call : StoreCall) (reply : call.Reply) (time : Instant) (history : History)
      (spares : call.Spares LockRecord.key) (fits : c.Fits LockRecord.key owner ttl history) :
      c.Fits LockRecord.key owner ttl (⟨call, reply, time⟩ :: history) :=
    fits.cons_of_spares spares
  apply Program.keeps_bind.mpr
  apply (keeps_and_invariant stable kept fits).mono
  exact fun result later ends => ends.2

/-! ## Errands -/

/-- Saving the configuration as an errand. -/
def saving (pid : Pid) (timing : LockTiming) (path : Path) (asks : Bool) : Errand Tables :=
  ⟨timing.heartbeat, if asks then some saveQuestion else none,
    fun c => do return (← exportTo pid path, c)⟩

/-- Loading the configuration as an errand. -/
def loading (timing : LockTiming) (path : Path) (asks : Bool) : Errand Nat :=
  ⟨timing.heartbeat, if asks then some (loadQuestion path) else none,
    fun c => do return (← importFrom path, c)⟩

theorem program_saving (timing : LockTiming) (asks : Bool) :
    (Flow.start (saving pid timing path asks) (.ofPid pid timing.ttl)).program =
      save pid timing path asks :=
  Flow.program_start _ _

theorem program_loading (timing : LockTiming) (asks : Bool) :
    (Flow.start (loading timing path asks) (.ofPid pid timing.ttl)).program =
      load pid timing path asks :=
  Flow.program_start _ _

theorem spares_saving (owner : Pid) (ttl : Duration) (timing : LockTiming) (asks : Bool) :
    (saving pid timing path asks).Spares LockRecord.key owner ttl :=
  fun _ _ fits => keeps_fits fits exportTo_keeps

theorem spares_loading (owner : Pid) (ttl : Duration) (timing : LockTiming) (asks : Bool) :
    (loading timing path asks).Spares LockRecord.key owner ttl :=
  fun _ _ fits => keeps_fits fits importFrom_keeps

end Transfer

end Leasehold
