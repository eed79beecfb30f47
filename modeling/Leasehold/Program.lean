/-!
# Programs of single requests

A program is a tree: it has finished with a result, or it makes one request and
goes on with whatever reply it gets. Nothing happens between two requests, so a
statement about what others do "between two calls" is a statement about the
replies, and every handler sees exactly the requests that are in the tree.

The main laws are the monad laws and that running a sequence is running its
parts one after the other.
-/

namespace Leasehold

/-- A computation that makes requests of type `Op`, each answered in the type
`Reply` gives it, and ends with an `α`. -/
inductive Program {Op : Type} (Reply : Op → Type) (α : Type) : Type where
  | done (result : α)
  | step (op : Op) (next : Reply op → Program Reply α)

namespace Program

variable {Op Op' : Type} {Reply : Op → Type} {Reply' : Op' → Type} {α β γ σ : Type}

/-- Goes on with `next` where `program` finishes. -/
def bind : Program Reply α → (α → Program Reply β) → Program Reply β
  | done result, next => next result
  | step op rest, next => step op fun reply => (rest reply).bind next

instance : Monad (Program Reply) where
  pure := done
  bind := bind

@[simp]
theorem pure_eq_done (result : α) : (pure result : Program Reply α) = done result :=
  rfl

@[simp]
theorem done_bind (result : α) (next : α → Program Reply β) :
    (done result >>= next : Program Reply β) = next result :=
  rfl

@[simp]
theorem step_bind (op : Op) (rest : Reply op → Program Reply α) (next : α → Program Reply β) :
    (step op rest >>= next : Program Reply β) = step op fun reply => rest reply >>= next :=
  rfl

theorem bind_done (program : Program Reply α) : program.bind done = program := by
  induction program with
  | done result => rfl
  | step op rest ih => exact congrArg (step op) (funext ih)

theorem bind_assoc (program : Program Reply α) (f : α → Program Reply β)
    (g : β → Program Reply γ) :
    (program.bind f).bind g = program.bind fun result => (f result).bind g := by
  induction program with
  | done result => rfl
  | step op rest ih => exact congrArg (step op) (funext ih)

instance : LawfulMonad (Program Reply) :=
  LawfulMonad.mk' (Program Reply) bind_done (fun _ _ => rfl) bind_assoc

/-- The program of one request, finished with its reply. -/
def perform (op : Op) : Program Reply (Reply op) :=
  step op done

@[simp]
theorem perform_bind (op : Op) (next : Reply op → Program Reply β) :
    (perform op >>= next : Program Reply β) = step op next :=
  rfl

/-- Expands every request into a program over other requests. -/
def expand (meaning : (op : Op) → Program Reply' (Reply op)) :
    Program Reply α → Program Reply' α
  | done result => done result
  | step op rest => (meaning op).bind fun reply => (rest reply).expand meaning

/-- Answers every request from a state of type `σ`. -/
def run (handler : (op : Op) → σ → Reply op × σ) : Program Reply α → σ → α × σ
  | done result, state => (result, state)
  | step op rest, state =>
    let (reply, state') := handler op state
    (rest reply).run handler state'

@[simp]
theorem run_done (handler : (op : Op) → σ → Reply op × σ) (result : α) (state : σ) :
    (done result : Program Reply α).run handler state = (result, state) :=
  rfl

@[simp]
theorem run_step (handler : (op : Op) → σ → Reply op × σ) (op : Op)
    (rest : Reply op → Program Reply α) (state : σ) :
    (step op rest).run handler state =
      (rest (handler op state).1).run handler (handler op state).2 :=
  rfl

theorem run_bind (handler : (op : Op) → σ → Reply op × σ) (program : Program Reply α)
    (next : α → Program Reply β) (state : σ) :
    (program >>= next).run handler state =
      (next (program.run handler state).1).run handler (program.run handler state).2 := by
  induction program generalizing state with
  | done result => rfl
  | step op rest ih => exact ih _ _

/-- Answers every request in a monad of the caller's choice. -/
def interpret {m : Type → Type} [Monad m] (handler : (op : Op) → m (Reply op)) :
    Program Reply α → m α
  | done result => pure result
  | step op rest => do (rest (← handler op)).interpret handler

end Program

end Leasehold
