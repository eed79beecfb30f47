import Leasehold.Proofs.Protected.Release
import Leasehold.Proofs.Surroundings.Files

/-!
# Around an operation

Before and after a protected operation only calls of the lock are made. They do nothing to
other records than to purge them, and no file is touched. So what is done to either is
done by the operation, if it is reached, between the last renewal and leaving.
-/

namespace Leasehold

open LockRecord Procedure Surroundings

/-! ## Calls of the lock -/

/-- That a visit has changed no record but the one under a key, except that it may have
purged some. -/
def Visit.PurgesBut (key : String) (visit : Visit) : Prop :=
  ∀ other, other ≠ key →
    visit.left.entries.get? other = visit.met.entries.get? other ∨
      visit.left.entries.get? other = visit.met.live? other visit.time

theorem Visit.purgesBut_of_fault {visit : Visit} {fault : StoreFault}
    (faulted : visit.fault? = some fault) (key : String) : visit.PurgesBut key := by
  intro other _
  rw [left, faulted]
  exact .inl rfl

theorem Visit.purgesBut_of_spares {key : String} {visit : Visit}
    (spares : ∀ other, other ≠ key → visit.call.Spares other) : visit.PurgesBut key := by
  intro other different
  cases served : visit.fault? with
  | some fault => exact Visit.purgesBut_of_fault served key other different
  | none =>
      right
      rw [left, served]
      exact Keyspace.get?_serve_of_spares (spares other different) _ _

theorem Visit.purgesBut_of_concerns {key : String} {owner : Pid} {ttl : Duration} {visit : Visit}
    (concerns : visit.call.Concerns key owner ttl) : visit.PurgesBut key :=
  Visit.purgesBut_of_spares fun _ different => concerns.spares different.symm

/-- That since earlier surroundings only calls of the lock have been made, with no effect on
other records but purging, and no files but those of others have changed. -/
structure Surroundings.Aside (owned : Place → Prop) (key : String) (owner : Pid) (ttl : Duration)
    (s later : Surroundings) : Prop where
  calls : Since (StoreCall.Concerns key owner ttl) s later
  files : s.tree.Varies owned later.tree

namespace Surroundings.Aside

variable {owned : Place → Prop} {key : String} {owner : Pid} {ttl : Duration}
  {s middle later : Surroundings} {α : Type}

theorem refl : Aside owned key owner ttl s s :=
  ⟨.refl _ s, .refl owned s.tree⟩

theorem trans (first : Aside owned key owner ttl s middle)
    (second : Aside owned key owner ttl middle later) : Aside owned key owner ttl s later :=
  ⟨first.calls.trans second.calls, first.files.trans second.files⟩

/-- The visits since then. -/
theorem visits (aside : Aside owned key owner ttl s later) :
    ∃ visits, later.visits = visits ++ s.visits ∧
      (∀ visit ∈ visits, visit.call.Concerns key owner ttl) ∧
      ∀ visit ∈ visits, visit.PurgesBut key := by
  rcases aside.calls with ⟨visits, same, concerns⟩
  exact ⟨visits, same, concerns,
    fun visit member => Visit.purgesBut_of_concerns (concerns visit member)⟩

/-- Programs of the lock. -/
theorem of_lock {program : LockProgram α} {ends : α → History → Prop} {result : α}
    {allows : StoreCall → Prop} (concerns : ∀ call, allows call → call.Concerns key owner ttl)
    (kept : program.Keeps (LockProgram.calls allows) ends s.history)
    (ran : (ofLock program).Runs (Leads (besides owned)) s result later) :
    Aside owned key owner ttl s later := by
  constructor
  · exact (runs_ofLock kept ran).2.1.mono concerns
  · exact varies_of_only (only_ofLock (fun _ => trivial) program) ran

end Surroundings.Aside

/-! ## Around the operation -/

/-- That an errand comes to its operation: the lock is acquired, there is agreement, and
the lock is held after the last renewal. -/
inductive Errand.Enters {α : Type} (interference : Interference) (errand : Errand α) (c : Claimant)
    (s : Surroundings) : Surroundings → Prop
  | intro {c₁ c₂ c₃ : Claimant} {s₁ s₂ entered : Surroundings} {renewal : Renewal}
      (acquired : (ofLock c.acquire).Runs (Leads interference) s (.ok (), c₁) s₁)
      (agreed : (agree c₁ errand.interval errand.question).Runs (Leads interference) s₁
        (.ok (), c₂) s₂)
      (renewed : (ofLock c₂.renew).Runs (Leads interference) s₂ (.ok renewal, c₃) entered)
      (holds : c₃.ensureHeld = .ok ()) : Enters interference errand c s entered

section

variable {α : Type} {owned : Place → Prop} {c c' c₁ c₂ : Claimant} {s s₁ s₂ later : Surroundings}
  {interval : Duration} {question : Option String} {body : Procedure (Except Failure α)}
  {outcome : Except Failure α}

theorem aside_of_acquire {acquired : Except Failure Unit}
    (ran : (ofLock c.acquire).Runs (Leads (besides owned)) s (acquired, c₁) s₁) :
    (∃ standing, c₁ = { c with standing := standing }) ∧ Aside owned c.key c.pid c.ttl s s₁ := by
  have kept := c.acquire_attempted s.history
  exact ⟨(runs_ofLock kept ran).1.same,
    .of_lock (fun _ contends => .sustain (.contend contends)) kept ran⟩

theorem aside_of_agree {verdict : Except Failure Unit}
    (ran : (agree c interval question).Runs (Leads (besides owned)) s (verdict, c₁) s₁) :
    (∃ standing, c₁ = { c with standing := standing }) ∧ Aside owned c.key c.pid c.ttl s s₁ := by
  have kept := agree_beaten c s.history interval question
  rcases ends_of_runs kept ran with ⟨_, beaten⟩
  refine ⟨beaten.same, (since_of_runs kept ran).mono fun _ => .sustain, ?_⟩
  exact varies_of_only (agree_only (fun _ => trivial) (fun _ => trivial) c interval question) ran

theorem aside_of_renew {renewal : Except Failure Renewal}
    (ran : (ofLock c.renew).Runs (Leads (besides owned)) s (renewal, c₁) s₁) :
    (∃ standing, c₁ = { c with standing := standing }) ∧ Aside owned c.key c.pid c.ttl s s₁ := by
  have kept := c.renew_renewing s.history
  exact ⟨(runs_ofLock kept ran).1.same, .of_lock (fun _ => .sustain) kept ran⟩

/-- Leaving does not change how the operation has ended. -/
theorem aside_of_leave {result : Except Failure α}
    (ran : (leave ⟨true⟩ c result).Runs (Leads (besides owned)) s (outcome, c') later) :
    outcome = result ∧ Aside owned c.key c.pid c.ttl s later := by
  have kept := leave_released c s.history result
  exact ⟨(ends_of_runs kept ran).1, since_of_runs kept ran,
    varies_of_only (leave_only (fun _ => trivial) ⟨true⟩ c result) ran⟩

/-- A protected operation is done between calls of the lock, or it fails and there are only
such calls. -/
theorem aside_or_operates
    (ran : (runProtected c interval question fun c => do return (← body, c)).Runs
      (Leads (besides owned)) s (outcome, c') later) :
    (∃ failure, outcome = .error failure ∧ Aside owned c.key c.pid c.ttl s later) ∨
    ∃ entered ended, (Errand.doing interval question body).Enters (besides owned) c s entered ∧
      Aside owned c.key c.pid c.ttl s entered ∧
      body.Runs (Leads (besides owned)) entered outcome ended ∧
      Aside owned c.key c.pid c.ttl ended later := by
  rcases @leaves_of_runs α _ _ _ _ _ (Errand.doing interval question body) _ ran with
    ⟨failure, acquired, rfl⟩ | ⟨beats, result, c₂, s₂, leaves, left⟩
  · exact .inl ⟨failure, rfl, (aside_of_acquire acquired).2⟩
  · rcases aside_of_leave left with ⟨rfl, last⟩
    cases leaves with
    | unwilling acquired agreed beaten =>
        rcases aside_of_acquire acquired with ⟨⟨_, rfl⟩, first⟩
        rcases aside_of_agree agreed with ⟨⟨_, rfl⟩, second⟩
        exact .inl ⟨_, rfl, (first.trans second).trans last⟩
    | unheld acquired agreed reconciled beaten =>
        rcases aside_of_acquire acquired with ⟨⟨_, rfl⟩, first⟩
        rcases aside_of_agree agreed with ⟨⟨_, rfl⟩, second⟩
        rcases runs_reconcile reconciled with ⟨_, renewed, -⟩
        rcases aside_of_renew renewed with ⟨⟨_, rfl⟩, third⟩
        exact .inl ⟨_, rfl, ((first.trans second).trans third).trans last⟩
    | operated acquired agreed reconciled beaten done =>
        rcases runs_reconcile reconciled with ⟨failure | renewal, renewed, holds⟩
        · contradiction
        · have enters : (Errand.doing interval question body).Enters (besides owned) c s _ :=
            .intro acquired agreed renewed holds.symm
          rcases aside_of_acquire acquired with ⟨⟨_, rfl⟩, first⟩
          rcases aside_of_agree agreed with ⟨⟨_, rfl⟩, second⟩
          rcases aside_of_renew renewed with ⟨⟨_, rfl⟩, third⟩
          rcases Program.runs_bind.mp done with ⟨_, _, operated, same, rfl⟩
          cases same
          exact .inr ⟨_, _, enters, (first.trans second).trans third, operated, last⟩

end

end Leasehold
