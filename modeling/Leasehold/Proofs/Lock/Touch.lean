import Leasehold.Proofs.Lock.Duty
import Leasehold.Proofs.Surroundings.Alone

/-!
# What a duty may touch

What a claimant knows of the lock can be out of date by its next call, for others may
have done anything meanwhile. So what it is safe for a call to do has to be seen from the
call alone, whatever store it meets: it never changes the fields of a live record, it
touches a live record of another owner only where an attempt to take the lock finds it
without expiry, and it touches no other record at all.
-/

namespace Leasehold

open LockRecord

/-- That a call made for a claimant in one of its duties touches no more than it may. -/
structure Visit.Respects (c : Claimant) (duty : Duty) (visit : Visit) : Prop where
  /-- Fields of live records stay. -/
  fields : ∀ {key : String} {before after : Entry},
    visit.met.live? key visit.time = some before →
      visit.left.entries.get? key = some after → after.fields = before.fields
  /-- The live record of another owner stays, or gets an expiry that it did not have. -/
  foreign : ∀ {entry : Entry}, visit.met.live? c.key visit.time = some entry →
    ¬entry.BelongsTo c.pid →
      visit.left.entries.get? c.key = some entry ∨
        duty = .operate .acquire ∧ entry.expiresAt = none ∧
          visit.left.entries.get? c.key =
            some { entry with expiresAt := some (visit.time.add c.ttl) }
  /-- Other records stay unless they have expired. -/
  others : ∀ {key : String}, key ≠ c.key → visit.met.Lapses key [visit.time] visit.left

namespace Duty

variable {c : Claimant} {duty : Duty} {visit : Visit}

/-- The live record under the claimant's key after a call of a duty. -/
theorem Makes.left_live (makes : duty.Makes c visit.call) {entry : Entry}
    (live : visit.met.live? c.key visit.time = some entry) :
    visit.left.entries.get? c.key = some entry ∨
      visit.left.entries.get? c.key =
          some { entry with expiresAt := some (visit.time.add c.ttl) } ∧
        (entry.BelongsTo c.pid ∨ entry.expiresAt = none ∧ duty = .operate .acquire) ∨
      visit.left.entries.get? c.key = none ∧ entry.BelongsTo c.pid := by
  rw [Visit.left]
  split
  · rcases Keyspace.serve_live makes.concerns live with
      same | ⟨armed, own | ⟨unending, arms⟩⟩ | gone
    · exact .inl same
    · exact .inr (.inl ⟨armed, .inl own⟩)
    · rw [arms] at makes
      exact .inr (.inl ⟨armed, .inr ⟨unending, makes.acquires⟩⟩)
    · exact .inr (.inr gone)
  · exact .inl (Keyspace.get?_of_live? live)

/-- No call of a duty touches more than it may, whatever store it meets. -/
theorem Makes.respects (makes : duty.Makes c visit.call) : visit.Respects c duty where
  fields := by
    intro key before after live found
    by_cases same : key = c.key
    · subst same
      rcases makes.left_live live with kept | ⟨armed, -⟩ | ⟨gone, -⟩
      · rw [Option.some.inj (found.symm.trans kept)]
      · rw [Option.some.inj (found.symm.trans armed)]
      · rw [gone] at found
        contradiction
    · rcases visit.lapses_of_spares (makes.concerns.spares (Ne.symm same)) with kept | ⟨gone, -⟩
      · rw [kept, Keyspace.get?_of_live? live] at found
        rw [Option.some.inj found]
      · rw [gone] at found
        contradiction
  foreign := by
    intro entry live others
    rcases makes.left_live live with kept | ⟨armed, own | ⟨unending, acquires⟩⟩ | ⟨-, own⟩
    · exact .inl kept
    · exact absurd own others
    · exact .inr ⟨acquires, unending, armed⟩
    · exact absurd own others
  others := fun different => visit.lapses_of_spares (makes.concerns.spares different.symm)

open Surroundings

variable {interference : Interference} {surroundings later : Surroundings}

/-- Every call that a duty makes in a run touches no more than it may, whatever others do
before it and whether or not it fails. -/
theorem respects_of_runs {outcome : duty.Outcome} {c' : Claimant}
    (ran : (Procedure.ofLock (duty.program c)).Runs (Leads interference) surroundings
      (outcome, c') later) :
    ∃ visits, later.visits = visits ++ surroundings.visits ∧
      ∀ visit ∈ visits, visit.Respects c duty := by
  rcases runs_ofLock (duty.program_ended c surroundings.history) ran with
    ⟨-, ⟨visits, same, made⟩, -⟩
  exact ⟨visits, same, fun visit member => (made visit member).respects⟩

/-- A store where somebody else's record has no expiry. -/
def unending : Surroundings :=
  ⟨⟨TextMap.empty.insert LockRecord.key ⟨ownedBy 7, none⟩, false⟩, ⟨[], []⟩, [], []⟩

/-- Others may do anything in between, here they do nothing: an attempt to take the lock
gives the record an expiry. -/
theorem respects_of_runs_of_unending :
    ∃ later : Surroundings,
      later.keyspace.entries.get? LockRecord.key =
        some ⟨ownedBy 7, some (Instant.add default (.ofSeconds 10))⟩ ∧
      ∀ visit ∈ later.visits,
        visit.Respects (.ofPid 1 (.ofSeconds 10)) (.operate .acquire) := by
  have leads := @leads_undisturbed ⟨fun _ _ => True, fun _ _ => True⟩ (fun _ => trivial)
    (fun _ => trivial) default (.ok true)
  obtain ⟨⟨outcome, c'⟩, later, ran, armed⟩ :
      ∃ result later,
        (Procedure.ofLock ((Duty.operate .acquire).program (.ofPid 1 (.ofSeconds 10)))).Runs
          (Leads ⟨fun _ _ => True, fun _ _ => True⟩) unending result later ∧
        later.keyspace.entries.get? LockRecord.key =
          some ⟨ownedBy 7, some (Instant.add default (.ofSeconds 10))⟩ :=
    ⟨_, _, Program.runs_run leads _ _, by decide +kernel⟩
  rcases respects_of_runs ran with ⟨visits, same, respects⟩
  refine ⟨later, armed, ?_⟩
  rw [same]
  exact fun visit member => respects visit (List.append_nil visits ▸ member)

end Duty

end Leasehold
