import Leasehold.Failure
import Leasehold.Text.Blank

/-!
# Prompts

A question is asked on a terminal until a line answers it: `y` or `yes` is a
yes, `n`, `no` or nothing a no, whatever the case and the blanks around it, and
the end of the input is a no as well. Any other line is told to be invalid and
the question is asked again, which cannot go on for longer than there is input.
-/

namespace Leasehold

/-- What a line says to a question. -/
inductive Answer where
  | yes
  | no
  | unclear
  deriving DecidableEq, Repr

/-- What a line says. -/
def Answer.ofLine (line : String) : Answer :=
  let word := String.ofList ((Text.trim line.toList).map Char.toLower)
  if word = "y" ∨ word = "yes" then .yes
  else if word = "" ∨ word = "n" ∨ word = "no" then .no
  else .unclear

/-- The lines that are put out between questions. -/
def Answer.complaint : String :=
  "Error: invalid input\n"

/-- What stands between a question and its answer. -/
def Answer.hint : String :=
  " [y/N]: "

/-- A terminal: what is still to be read from it, what was written to it, and how
many bytes it takes. -/
structure Terminal where
  input : List UInt8
  output : String
  capacity : Option Nat
  deriving DecidableEq, Repr

namespace Terminal

/-- A terminal that takes everything. -/
def ofInput (input : ByteArray) : Terminal :=
  ⟨input.toList, "", none⟩

/-- Whether there is room for a text. -/
def hasRoom (terminal : Terminal) (text : String) : Bool :=
  text = "" || terminal.capacity.all fun capacity =>
    terminal.output.utf8ByteSize + text.utf8ByteSize ≤ capacity

/-- Writes a text as a whole or not at all. -/
def put (terminal : Terminal) (text : String) : Except IoFailure Unit × Terminal :=
  if terminal.hasRoom text then (.ok (), { terminal with output := terminal.output ++ text })
  else (.error .sinkFull, terminal)

/-- Splits off a line with its line feed. -/
def takeLine : List UInt8 → List UInt8 × List UInt8
  | [] => ([], [])
  | byte :: bytes =>
    if byte = 10 then ([byte], bytes)
    else
      let (line, rest) := takeLine bytes
      (byte :: line, rest)

theorem length_takeLine_le (bytes : List UInt8) : (takeLine bytes).2.length ≤ bytes.length := by
  induction bytes with
  | nil => exact Nat.le_refl _
  | cons byte bytes ih =>
    rw [takeLine]
    split
    · exact Nat.le_succ _
    · exact Nat.le_succ_of_le ih

theorem length_takeLine_lt {bytes : List UInt8} (nonempty : bytes ≠ []) :
    (takeLine bytes).2.length < bytes.length := by
  cases bytes with
  | nil => exact absurd rfl nonempty
  | cons byte bytes =>
    rw [takeLine]
    split
    · exact Nat.lt_succ_self _
    · exact Nat.lt_succ_of_le (length_takeLine_le bytes)

/-- Writes a question. -/
def pose (terminal : Terminal) (question : String) : Except IoFailure Unit × Terminal :=
  match terminal.put question with
  | (.error cause, terminal) => (.error cause, terminal)
  | (.ok (), terminal) => terminal.put Answer.hint

/-- A terminal after a line was read from it. -/
def skipLine (terminal : Terminal) : Terminal :=
  { terminal with input := (takeLine terminal.input).2 }

/-- The failure of a question for a cause. -/
def unread {α : Type} (cause : IoFailure) : Except Failure α :=
  .error (.user (.confirmationUnread cause))

/-- Reads a line and takes it for an answer; nothing if it is unclear. -/
def hear (terminal : Terminal) : Option (Except Failure Bool) × Terminal :=
  match String.fromUTF8? ⟨(takeLine terminal.input).1.toArray⟩ with
  | none => (some (unread .notUtf8), terminal.skipLine)
  | some line =>
    match Answer.ofLine line with
    | .yes => (some (.ok true), terminal.skipLine)
    | .no => (some (.ok false), terminal.skipLine)
    | .unclear =>
      match put terminal.skipLine Answer.complaint with
      | (.error cause, terminal) => (some (unread cause), terminal)
      | (.ok (), terminal) => (none, terminal)

/-- Asks a question once; nothing if the answer is unclear. -/
def askOnce (terminal : Terminal) (question : String) : Option (Except Failure Bool) × Terminal :=
  match terminal.pose question with
  | (.error cause, terminal) => (some (unread cause), terminal)
  | (.ok (), terminal) =>
    if terminal.input = [] then
      match terminal.put "\n" with
      | (.error cause, terminal) => (some (unread cause), terminal)
      | (.ok (), terminal) => (some (.ok false), terminal)
    else terminal.hear

@[simp]
theorem input_put (terminal : Terminal) (text : String) :
    (terminal.put text).2.input = terminal.input := by
  rw [put]
  split <;> rfl

@[simp]
theorem input_pose (terminal : Terminal) (question : String) :
    (terminal.pose question).2.input = terminal.input := by
  rw [pose]
  split
  next posed => exact (congrArg (·.2.input) posed).symm.trans (input_put _ _)
  next posed =>
    rw [input_put]
    exact (congrArg (·.2.input) posed).symm.trans (input_put _ _)

theorem input_hear (terminal : Terminal) :
    terminal.hear.2.input = (takeLine terminal.input).2 := by
  rw [hear]
  split
  · rfl
  · split
    · rfl
    · rfl
    · split
      next put => exact (congrArg (·.2.input) put).symm.trans (input_put _ _)
      next put => exact (congrArg (·.2.input) put).symm.trans (input_put _ _)

theorem length_input_askOnce_lt {terminal rest : Terminal} {question : String}
    (unclear : terminal.askOnce question = (none, rest)) :
    rest.input.length < terminal.input.length := by
  rw [askOnce] at unclear
  split at unclear
  · cases unclear
  next asked posed =>
    have same : asked.input = terminal.input :=
      (congrArg (·.2.input) posed).symm.trans (input_pose _ _)
    split at unclear
    · split at unclear <;> cases unclear
    next nonempty =>
      have heard : (takeLine asked.input).2 = rest.input :=
        (input_hear asked).symm.trans (congrArg (·.2.input) unclear)
      rw [← heard, ← same]
      exact length_takeLine_lt nonempty

/-- Asks a question; whether the answer is yes. -/
def ask (terminal : Terminal) (question : String) : Except Failure Bool × Terminal :=
  match _once : terminal.askOnce question with
  | (some outcome, terminal) => (outcome, terminal)
  | (none, terminal) => terminal.ask question
  termination_by terminal.input.length
  decreasing_by exact length_input_askOnce_lt _once

end Terminal

end Leasehold
