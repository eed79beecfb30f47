import Leasehold.Program

/-!
# Contracts of programs

A contract says what a program may ask for in a state and which states a reply
can lead to. What the state is depends on what is to be proved: the calls made so
far, or all that is known of the surroundings. A program keeps a contract if,
whatever the replies, it asks only for what is allowed and ends in a state that
fits its result.

The main statements follow the construction of programs: sequences keep a
contract part by part, and an expanded program keeps one if the expansion of each
request does.
-/

namespace Leasehold

variable {Op Op' : Type} {Reply : Op → Type} {Reply' : Op' → Type} {α β σ : Type}

/-- What may be asked for in a state, and which states a reply can lead to. -/
structure Contract (Reply : Op → Type) (σ : Type) where
  allows : Op → σ → Prop
  leads : (op : Op) → Reply op → σ → σ → Prop

namespace Program

/-- Every request is allowed where it is made, and every end fits its result. -/
def Keeps (contract : Contract Reply σ) (ends : α → σ → Prop) : Program Reply α → σ → Prop
  | done result, state => ends result state
  | step op next, state =>
    contract.allows op state ∧
      ∀ reply later, contract.leads op reply state later → (next reply).Keeps contract ends later

variable {contract : Contract Reply σ}

@[simp]
theorem keeps_done (ends : α → σ → Prop) (result : α) (state : σ) :
    (done result : Program Reply α).Keeps contract ends state ↔ ends result state :=
  Iff.rfl

@[simp]
theorem keeps_step (ends : α → σ → Prop) (op : Op) (next : Reply op → Program Reply α)
    (state : σ) :
    (step op next).Keeps contract ends state ↔
      contract.allows op state ∧
        ∀ reply later, contract.leads op reply state later →
          (next reply).Keeps contract ends later :=
  Iff.rfl

/-- A weaker demand on the ends is kept too. -/
theorem Keeps.mono {ends ends' : α → σ → Prop}
    (weaker : ∀ result state, ends result state → ends' result state)
    {program : Program Reply α} {state : σ} (kept : program.Keeps contract ends state) :
    program.Keeps contract ends' state := by
  induction program generalizing state with
  | done result => exact weaker result state kept
  | step op next ih =>
      rcases kept with ⟨allowed, rest⟩
      constructor
      · exact allowed
      · intro reply later leads
        exact ih reply (rest reply later leads)

/-- A contract on part of the state is one on the whole state, if what is allowed on
the part is allowed and the part goes where it is said to. -/
theorem Keeps.pull {τ : Type} {contract' : Contract Reply τ} {ends : α → σ → Prop} (part : τ → σ)
    (allows : ∀ op state, contract.allows op (part state) → contract'.allows op state)
    (leads : ∀ op reply state later, contract'.leads op reply state later →
      contract.leads op reply (part state) (part later))
    {program : Program Reply α} {state : τ} (kept : program.Keeps contract ends (part state)) :
    program.Keeps contract' (fun result later => ends result (part later)) state := by
  induction program generalizing state with
  | done result => exact kept
  | step op next ih =>
      rcases kept with ⟨allowed, rest⟩
      constructor
      · exact allows op state allowed
      · intro reply later led
        exact ih reply (rest reply (part later) (leads op reply state later led))

/-- What no allowed request changes still holds at the end. -/
theorem Keeps.and_invariant {ends : α → σ → Prop} {invariant : σ → Prop}
    (stable : ∀ op state reply later, contract.allows op state →
      contract.leads op reply state later → invariant state → invariant later)
    {program : Program Reply α} {state : σ} (kept : program.Keeps contract ends state)
    (begins : invariant state) :
    program.Keeps contract (fun result later => ends result later ∧ invariant later) state := by
  induction program generalizing state with
  | done result => exact ⟨kept, begins⟩
  | step op next ih =>
      rcases kept with ⟨allowed, rest⟩
      constructor
      · exact allowed
      · intro reply later leads
        have still := stable op state reply later allowed leads begins
        exact ih reply (rest reply later leads) still

/-- A sequence keeps a contract if its second part does from every end of the
first. -/
theorem keeps_bind {ends : β → σ → Prop} {program : Program Reply α}
    {next : α → Program Reply β} {state : σ} :
    (program >>= next).Keeps contract ends state ↔
      program.Keeps contract (fun result later => (next result).Keeps contract ends later)
        state := by
  induction program generalizing state with
  | done result => exact Iff.rfl
  | step op rest ih =>
      rw [step_bind, keeps_step, keeps_step]
      exact and_congr_right fun _ =>
        forall_congr' fun reply => forall_congr' fun later => imp_congr_right fun _ => ih reply

/-- An expanded program keeps a contract if the meaning of each request leads
where the request itself is said to lead. -/
theorem keeps_expand {contract' : Contract Reply' σ} {ends : α → σ → Prop}
    {meaning : (op : Op) → Program Reply' (Reply op)}
    (means : ∀ op state, contract.allows op state →
      (meaning op).Keeps contract' (fun reply later => contract.leads op reply state later) state)
    {program : Program Reply α} {state : σ} (kept : program.Keeps contract ends state) :
    (program.expand meaning).Keeps contract' ends state := by
  induction program generalizing state with
  | done result => exact kept
  | step op next ih =>
      rcases kept with ⟨allowed, rest⟩
      apply keeps_bind.mpr
      apply (means op state allowed).mono
      intro reply later leads
      exact ih reply (rest reply later leads)

end Program

end Leasehold
