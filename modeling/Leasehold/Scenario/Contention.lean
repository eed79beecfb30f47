import Leasehold.Store

/-!
# Contention

What happens to a store between the calls of those who use it: others get in
with calls of their own, time passes, and a call may fail. It is planned by kind
of call: the oldest plan for a kind is carried out at the next call of that kind.
-/

namespace Leasehold

/-- The kinds of store calls. -/
inductive CallKind where
  | create
  | merge
  | fetch
  | expire
  | lifetime
  | delete
  | keys
  | dump
  | replace
  deriving DecidableEq, Repr

/-- The kind of a call. -/
def StoreCall.kind : StoreCall → CallKind
  | .create .. => .create
  | .merge .. => .merge
  | .fetch _ => .fetch
  | .expire .. => .expire
  | .lifetime _ => .lifetime
  | .delete .. => .delete
  | .keys => .keys
  | .dump _ => .dump
  | .replace .. => .replace

/-- Something that happens to a store. -/
inductive Disturbance where
  | advance (time : Duration)
  | rewind (time : Duration)
  | call (call : StoreCall)

/-- The first value of a kind, and the list without it. -/
def takeFirst {α : Type} (kind : CallKind) : List (CallKind × α) → Option (α × List (CallKind × α))
  | [] => none
  | (other, value) :: rest =>
    if other = kind then some (value, rest)
    else (takeFirst kind rest).map fun (found, rest) => (found, (other, value) :: rest)

/-- What is planned: what happens before calls, and with what words calls fail. -/
structure Contention where
  disturbances : List (CallKind × List Disturbance)
  faults : List (CallKind × String)

namespace Contention

/-- Nothing is planned. -/
def none : Contention :=
  ⟨[], []⟩

/-- What happens before a call, and what is planned after that. -/
def disturb (contention : Contention) (kind : CallKind) : List Disturbance × Contention :=
  match takeFirst kind contention.disturbances with
  | some (found, rest) => (found, { contention with disturbances := rest })
  | .none => ([], contention)

/-- With what words a call fails, and what is planned after that. -/
def fault? (contention : Contention) (kind : CallKind) : Option String × Contention :=
  match takeFirst kind contention.faults with
  | some (found, rest) => (some found, { contention with faults := rest })
  | .none => (.none, contention)

end Contention

end Leasehold
