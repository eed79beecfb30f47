import Leasehold.Proofs.Program.Contract

/-!
# Runs of programs

A run of a program answers its requests one after the other. Which replies there
can be and what they do to the state is up to a relation; there may be many
replies, so there may be many runs. What a contract promises, every run keeps.

A sequence runs as its parts do, and a program that makes only requests of some
kind leaves alone what no request of that kind touches.
-/

namespace Leasehold.Program

variable {Op Op' : Type} {Reply : Op → Type} {Reply' : Op' → Type} {α β σ : Type}
  {leads : (op : Op) → Reply op → σ → σ → Prop}

/-- That a program can run from a state to a result and a later state, if requests
are answered as `leads` says. -/
def Runs (leads : (op : Op) → Reply op → σ → σ → Prop) :
    Program Reply α → σ → α → σ → Prop
  | done outcome, state, result, later => result = outcome ∧ later = state
  | step op next, state, result, later =>
    ∃ reply middle, leads op reply state middle ∧ (next reply).Runs leads middle result later

@[simp]
theorem runs_done {outcome result : α} {state later : σ} :
    (done outcome : Program Reply α).Runs leads state result later ↔
      result = outcome ∧ later = state :=
  Iff.rfl

theorem runs_step {op : Op} {next : Reply op → Program Reply α} {result : α} {state later : σ} :
    (step op next).Runs leads state result later ↔
      ∃ reply middle, leads op reply state middle ∧
        (next reply).Runs leads middle result later :=
  Iff.rfl

theorem runs_bind {program : Program Reply α} {next : α → Program Reply β} {result : β}
    {state later : σ} :
    (program >>= next).Runs leads state result later ↔
      ∃ outcome middle, program.Runs leads state outcome middle ∧
        (next outcome).Runs leads middle result later := by
  induction program generalizing state with
  | done outcome =>
      constructor
      · intro ran
        exact ⟨outcome, state, ⟨rfl, rfl⟩, ran⟩
      · rintro ⟨_, _, ⟨rfl, rfl⟩, ran⟩
        exact ran
  | step op rest ih =>
      rw [step_bind, runs_step]
      constructor
      · rintro ⟨reply, middle, led, ran⟩
        rcases (ih reply).mp ran with ⟨outcome, reached, first, second⟩
        exact ⟨outcome, reached, ⟨reply, middle, led, first⟩, second⟩
      · rintro ⟨outcome, reached, ⟨reply, middle, led, first⟩, second⟩
        exact ⟨reply, middle, led, (ih reply).mpr ⟨outcome, reached, first, second⟩⟩

/-- A run on states is one on parts of them, if each request is answered on the parts too. -/
theorem Runs.pull {τ : Type} {leads' : (op : Op) → Reply op → τ → τ → Prop} (part : σ → τ)
    (parts : ∀ op reply state later, leads op reply state later →
      leads' op reply (part state) (part later))
    {program : Program Reply α} {state later : σ} {result : α}
    (ran : program.Runs leads state result later) :
    program.Runs leads' (part state) result (part later) := by
  induction program generalizing state with
  | done outcome =>
      obtain ⟨rfl, rfl⟩ := ran
      exact ⟨rfl, rfl⟩
  | step op next ih =>
      obtain ⟨reply, middle, led, ran⟩ := ran
      exact ⟨reply, part middle, parts op reply state middle led, ih reply ran⟩

/-- A run is one too where more replies are possible. -/
theorem Runs.mono {leads' : (op : Op) → Reply op → σ → σ → Prop}
    (wider : ∀ op reply state later, leads op reply state later → leads' op reply state later)
    {program : Program Reply α} {state later : σ} {result : α}
    (ran : program.Runs leads state result later) : program.Runs leads' state result later :=
  ran.pull id wider

/-- Expanding a sequence is expanding its parts. -/
theorem expand_bind (meaning : (op : Op) → Program Reply' (Reply op)) (program : Program Reply α)
    (next : α → Program Reply β) :
    (program >>= next).expand meaning =
      program.expand meaning >>= fun outcome => (next outcome).expand meaning := by
  induction program with
  | done outcome => rfl
  | step op rest ih =>
      rw [step_bind, expand, expand]
      refine Eq.trans ?_ (bind_assoc (meaning op) _ _).symm
      exact congrArg (meaning op).bind (funext ih)

/-! ## Contracts and runs -/

section

variable {τ : Type} {contract : Contract Reply σ} {ends : α → σ → Prop}
  {leads : (op : Op) → Reply op → τ → τ → Prop} {part : τ → σ}

/-- A run of a program that keeps a contract on part of the state ends as the contract
says. -/
theorem Keeps.of_runs
    (parts : ∀ op reply state later, leads op reply state later →
      contract.leads op reply (part state) (part later))
    {program : Program Reply α} {state later : τ} {result : α}
    (kept : program.Keeps contract ends (part state))
    (ran : program.Runs leads state result later) : ends result (part later) := by
  induction program generalizing state with
  | done outcome =>
      obtain ⟨rfl, rfl⟩ := ran
      exact kept
  | step op next ih =>
      obtain ⟨reply, middle, led, ran⟩ := ran
      exact ih reply (kept.2 reply _ (parts op reply state middle led)) ran

/-- What no allowed request changes, a run of a program that makes only such requests
does not change. -/
theorem Keeps.invariant_of_runs {invariant : τ → Prop}
    (parts : ∀ op reply state later, leads op reply state later →
      contract.leads op reply (part state) (part later))
    (stable : ∀ op reply state later, contract.allows op (part state) →
      leads op reply state later → invariant state → invariant later)
    {program : Program Reply α} {state later : τ} {result : α}
    (kept : program.Keeps contract ends (part state))
    (ran : program.Runs leads state result later) (begins : invariant state) :
    invariant later := by
  induction program generalizing state with
  | done outcome =>
      obtain ⟨-, rfl⟩ := ran
      exact begins
  | step op next ih =>
      obtain ⟨reply, middle, led, ran⟩ := ran
      rcases kept with ⟨allowed, rest⟩
      exact ih reply (rest reply _ (parts op reply state middle led)) ran
        (stable op reply state middle allowed led begins)

end

/-! ## Programs of one kind of requests -/

/-- That all requests that a program can come to make are of some kind. -/
def Only (kind : Op → Prop) : Program Reply α → Prop
  | done _ => True
  | step op next => kind op ∧ ∀ reply, (next reply).Only kind

theorem only_bind {kind : Op → Prop} {program : Program Reply α} {next : α → Program Reply β}
    (first : program.Only kind) (second : ∀ outcome, (next outcome).Only kind) :
    (program >>= next).Only kind := by
  induction program with
  | done outcome => exact second outcome
  | step op rest ih => exact ⟨first.1, fun reply => ih reply (first.2 reply)⟩

theorem Only.mono {kind kind' : Op → Prop} (weaker : ∀ op, kind op → kind' op)
    {program : Program Reply α} (only : program.Only kind) : program.Only kind' := by
  induction program with
  | done outcome => trivial
  | step op next ih => exact ⟨weaker op only.1, fun reply => ih reply (only.2 reply)⟩

theorem only_of_forall {kind : Op → Prop} (all : ∀ op, kind op) (program : Program Reply α) :
    program.Only kind := by
  induction program with
  | done outcome => trivial
  | step op next ih => exact ⟨all op, ih⟩

/-- What no request of a kind changes, a run of such requests does not change. -/
theorem Only.invariant {kind : Op → Prop} {invariant : σ → Prop}
    (stable : ∀ op reply state later, kind op → leads op reply state later →
      invariant state → invariant later)
    {program : Program Reply α} (only : program.Only kind) {state later : σ} {result : α}
    (ran : program.Runs leads state result later) (begins : invariant state) :
    invariant later := by
  induction program generalizing state with
  | done outcome =>
      obtain ⟨-, rfl⟩ := ran
      exact begins
  | step op next ih =>
      obtain ⟨reply, middle, led, ran⟩ := ran
      exact ih reply (only.2 reply) ran (stable op reply state middle only.1 led begins)

/-! ## Expanded programs -/

theorem only_expand {meaning : (op : Op) → Program Reply' (Reply op)} {kind : Op → Prop}
    {kind' : Op' → Prop} (means : ∀ op, kind op → (meaning op).Only kind')
    {program : Program Reply α} (only : program.Only kind) :
    (program.expand meaning).Only kind' := by
  induction program with
  | done outcome => trivial
  | step op next ih =>
      exact only_bind (means op only.1) fun reply => ih reply (only.2 reply)

/-- A run of an expanded program goes along with one of the program itself, if the
expansion of each request goes along with a reply to it. -/
theorem runs_of_expand {τ : Type} {leads' : (op : Op') → Reply' op → τ → τ → Prop}
    {meaning : (op : Op) → Program Reply' (Reply op)} {kind : Op → Prop} {relates : τ → σ → Prop}
    (means : ∀ op reply t later s, kind op → relates t s → (meaning op).Runs leads' t reply later →
      ∃ s', leads op reply s s' ∧ relates later s')
    {program : Program Reply α} {t later : τ} {s : σ} {result : α} (only : program.Only kind)
    (related : relates t s) (ran : (program.expand meaning).Runs leads' t result later) :
    ∃ s', program.Runs leads s result s' ∧ relates later s' := by
  induction program generalizing t s with
  | done outcome =>
      obtain ⟨rfl, rfl⟩ := ran
      exact ⟨s, ⟨rfl, rfl⟩, related⟩
  | step op next ih =>
      rcases runs_bind.mp ran with ⟨reply, middle, meant, rest⟩
      rcases means op reply t middle s only.1 related meant with ⟨s₁, led, related₁⟩
      rcases ih reply (only.2 reply) related₁ rest with ⟨s', ran', related'⟩
      exact ⟨s', ⟨reply, s₁, led, ran'⟩, related'⟩

/-! ## Runs that are functions -/

/-- A handler that answers as it may gives a run of every program, so every program
has one. -/
theorem runs_run {handler : (op : Op) → σ → Reply op × σ}
    (answers : ∀ op state, leads op (handler op state).1 state (handler op state).2)
    (program : Program Reply α) (state : σ) :
    program.Runs leads state (program.run handler state).1 (program.run handler state).2 := by
  induction program generalizing state with
  | done outcome => exact ⟨rfl, rfl⟩
  | step op next ih => exact ⟨_, _, answers op state, ih _ _⟩

/-- A program all of whose requests are answered by a handler has no run but that of the
handler. -/
theorem Only.eq_run {handler : (op : Op) → σ → Reply op × σ} {kind : Op → Prop}
    (handled : ∀ op reply state later, kind op → leads op reply state later →
      (reply, later) = handler op state)
    {program : Program Reply α} (only : program.Only kind) {state later : σ} {result : α}
    (ran : program.Runs leads state result later) :
    (result, later) = program.run handler state := by
  induction program generalizing state with
  | done outcome =>
      obtain ⟨rfl, rfl⟩ := ran
      rfl
  | step op next ih =>
      obtain ⟨reply, middle, led, ran⟩ := ran
      rw [run_step, ← handled op reply state middle only.1 led]
      exact ih reply (only.2 reply) ran

end Leasehold.Program
