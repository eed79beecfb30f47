import Leasehold.Proofs.Program.Run
import Leasehold.Proofs.Protected.Flow

/-!
# The stages of a protected operation

A run of a protected operation ends in one of four ways: the lock is refused, nobody
agrees, the lock is not held in the end, or the operation is done. In each the run is
made up of runs of the stages, and only in the last the operation has a part. So what
is known of the runs of each stage is known of the whole.
-/

namespace Leasehold

open Procedure

variable {α σ : Type} {leads : (request : Request) → request.Reply → σ → σ → Prop}

/-- That a protected operation goes through its stages, from a state to a result and a
later state. -/
inductive Errand.Goes (leads : (request : Request) → request.Reply → σ → σ → Prop)
    (errand : Errand α) (c : Claimant) (state : σ) : Except Failure α × Claimant → σ → Prop
  | refused {failure : Failure} {c' : Claimant} {later : σ}
      (acquired : (ofLock c.acquire).Runs leads state (.error failure, c') later) :
      Goes leads errand c state (.error failure, c') later
  | unwilling {c₁ c₂ : Claimant} {s₁ s₂ later : σ} {failure : Failure}
      {result : Except Failure α × Claimant}
      (acquired : (ofLock c.acquire).Runs leads state (.ok (), c₁) s₁)
      (agreed : (agree c₁ errand.interval errand.question).Runs leads s₁ (.error failure, c₂) s₂)
      (withdrawn : (withdraw ⟨true⟩ c₂ failure).Runs leads s₂ result later) :
      Goes leads errand c state result later
  | unheld {c₁ c₂ c₃ : Claimant} {s₁ s₂ s₃ later : σ} {failure : Failure}
      {result : Except Failure α × Claimant}
      (acquired : (ofLock c.acquire).Runs leads state (.ok (), c₁) s₁)
      (agreed : (agree c₁ errand.interval errand.question).Runs leads s₁ (.ok (), c₂) s₂)
      (reconciled : (reconcile c₂).Runs leads s₂ (.error failure, c₃) s₃)
      (withdrawn : (withdraw ⟨true⟩ c₃ failure).Runs leads s₃ result later) :
      Goes leads errand c state result later
  | operated {c₁ c₂ c₃ c₄ : Claimant} {s₁ s₂ s₃ s₄ later : σ} {outcome : Except Failure α}
      {result : Except Failure α × Claimant}
      (acquired : (ofLock c.acquire).Runs leads state (.ok (), c₁) s₁)
      (agreed : (agree c₁ errand.interval errand.question).Runs leads s₁ (.ok (), c₂) s₂)
      (reconciled : (reconcile c₂).Runs leads s₂ (.ok (), c₃) s₃)
      (done : (errand.operation c₃).Runs leads s₃ (outcome, c₄) s₄)
      (left : (leave ⟨true⟩ c₄ outcome).Runs leads s₄ result later) :
      Goes leads errand c state result later

namespace Procedure

/-- Acquiring the lock for a guard is acquiring it. -/
theorem runs_guardAcquire {c c' : Claimant} {outcome : Except Failure Guard} {state later : σ} :
    (ofLock (Guard.acquire c)).Runs leads state (outcome, c') later ↔
      ∃ acquired, (ofLock c.acquire).Runs leads state (acquired, c') later ∧
        outcome = acquired.map fun _ => ⟨true⟩ := by
  rw [ofLock, Guard.acquire, Program.expand_bind, Program.runs_bind]
  constructor
  · rintro ⟨⟨acquired, _⟩, _, ran, same, rfl⟩
    rcases Prod.mk.inj same with ⟨rfl, rfl⟩
    exact ⟨acquired, ran, rfl⟩
  · rintro ⟨acquired, ran, rfl⟩
    exact ⟨(acquired, c'), later, ran, rfl, rfl⟩

/-- Reconciling is a renewal and what the claimant knows after it. -/
theorem runs_reconcile {c c' : Claimant} {outcome : Except Failure Unit} {state later : σ}
    (ran : (reconcile c).Runs leads state (outcome, c') later) :
    ∃ renewal, (ofLock c.renew).Runs leads state (renewal, c') later ∧
      outcome = renewal.bind fun _ => c'.ensureHeld := by
  rcases Program.runs_bind.mp ran with ⟨⟨failure | renewal, c₁⟩, reached, renewed, same, rfl⟩
  · cases same
    exact ⟨_, renewed, rfl⟩
  · cases same
    exact ⟨_, renewed, rfl⟩

variable {c : Claimant} {interval : Duration} {question : Option String}
  {operation : Claimant → Procedure (Except Failure α × Claimant)}
  {result : Except Failure α × Claimant} {state later : σ}

/-- A protected operation runs just as its stages do. -/
theorem runs_runProtected :
    (runProtected c interval question operation).Runs leads state result later ↔
      Errand.Goes leads ⟨interval, question, operation⟩ c state result later := by
  have cut := Flow.program_start ⟨interval, question, operation⟩ c
  rw [← cut, Flow.program, Flow.start, Program.runs_bind]
  constructor
  · rintro ⟨⟨outcome, c₁⟩, s₁, guarded, rest⟩
    rcases runs_guardAcquire.mp guarded with ⟨failure | ⟨⟩, acquired, rfl⟩
    · rcases rest with ⟨rfl, rfl⟩
      exact .refused acquired
    · rcases Program.runs_bind.mp rest with ⟨⟨failure | ⟨⟩, c₂⟩, s₂, agreed, rest⟩
      · exact .unwilling acquired agreed rest
      · rcases Program.runs_bind.mp rest with ⟨⟨failure | ⟨⟩, c₃⟩, s₃, reconciled, rest⟩
        · exact .unheld acquired agreed reconciled rest
        · rcases Program.runs_bind.mp rest with ⟨⟨outcome, c₄⟩, s₄, done, left⟩
          exact .operated acquired agreed reconciled done left
  · intro goes
    cases goes with
    | @refused failure c' later acquired =>
        exact ⟨(.error failure, c'), later, runs_guardAcquire.mpr ⟨_, acquired, rfl⟩, rfl, rfl⟩
    | @unwilling c₁ c₂ s₁ s₂ _ failure _ acquired agreed withdrawn =>
        exact ⟨(.ok ⟨true⟩, c₁), s₁, runs_guardAcquire.mpr ⟨_, acquired, rfl⟩,
          Program.runs_bind.mpr ⟨(.error failure, c₂), s₂, agreed, withdrawn⟩⟩
    | @unheld c₁ c₂ c₃ s₁ s₂ s₃ _ failure _ acquired agreed reconciled withdrawn =>
        exact ⟨(.ok ⟨true⟩, c₁), s₁, runs_guardAcquire.mpr ⟨_, acquired, rfl⟩,
          Program.runs_bind.mpr ⟨(.ok (), c₂), s₂, agreed,
            Program.runs_bind.mpr ⟨(.error failure, c₃), s₃, reconciled, withdrawn⟩⟩⟩
    | @operated c₁ c₂ c₃ c₄ s₁ s₂ s₃ s₄ _ outcome _ acquired agreed reconciled done left =>
        exact ⟨(.ok ⟨true⟩, c₁), s₁, runs_guardAcquire.mpr ⟨_, acquired, rfl⟩,
          Program.runs_bind.mpr ⟨(.ok (), c₂), s₂, agreed,
            Program.runs_bind.mpr ⟨(.ok (), c₃), s₃, reconciled,
              Program.runs_bind.mpr ⟨(outcome, c₄), s₄, done, left⟩⟩⟩⟩

end Procedure

end Leasehold
