import Leasehold.Text.Blank
import Leasehold.Time.Calendar
import Leasehold.Time.Instant

/-!
# Timestamps

An instant is written as an RFC 3339 timestamp in UTC, ending in `Z`, with as
many groups of three fraction digits as it needs. Years outside 0 to 9999 carry
a sign. Reading is more lenient: numbers may be short, blanks may stand around
the separators, the date and the time may be separated by a blank, any offset is
accepted, and so is the second 60, which is a leap second.
-/

namespace Leasehold.Timestamp

open Leasehold.Text

/-! ## Writing -/

/-- A year in four digits, or with a sign and at least four. -/
def yearText (year : Int) : List Char :=
  if 0 ≤ year ∧ year ≤ 9999 then padded 4 year.toNat
  else (if year < 0 then '-' else '+') :: padded 4 year.natAbs

/-- Nothing for a whole second, and otherwise three, six or nine digits. -/
def fractionText (nano : Nat) : List Char :=
  if nano = 0 then []
  else if nano % 1000000 = 0 then '.' :: padded 3 (nano / 1000000)
  else if nano % 1000 = 0 then '.' :: padded 6 (nano / 1000)
  else '.' :: padded 9 nano

/-- An instant as a timestamp in UTC. -/
def write (t : Instant) : List Char :=
  let date := Date.ofDayNumber (t.second / 86400)
  let inDay := (t.second % 86400).toNat
  let second := inDay % 60 + t.nano / Duration.nanosPerSecond
  yearText date.year ++ '-' :: padded 2 date.month ++ '-' :: padded 2 date.day ++
    'T' :: padded 2 (inDay / 3600) ++ ':' :: padded 2 (inDay / 60 % 60) ++
    ':' :: padded 2 second ++ fractionText (t.nano % Duration.nanosPerSecond) ++ ['Z']

/-! ## Reading -/

/-- A step of a reader: what it found and the rest of the text. -/
abbrev Reader (α : Type) :=
  List Char → Option (α × List Char)

/-- Up to `most` digits after any blanks. -/
def number (most : Nat) : Reader Nat := fun cs =>
  takeDecimal? most (trimStart cs)

/-- A given character after any blanks. -/
def separator (expected : Char) : List Char → Option (List Char) := fun cs =>
  match trimStart cs with
  | c :: rest => if c = expected then some rest else none
  | [] => none

/-- A year: four digits at most, or a sign and any number of digits. -/
def year : Reader Int := fun cs =>
  match trimStart cs with
  | '-' :: rest => (takeDecimal? rest.length rest).map fun (n, rest) => (-(n : Int), rest)
  | '+' :: rest => (takeDecimal? rest.length rest).map fun (n, rest) => ((n : Int), rest)
  | rest => (takeDecimal? 4 rest).map fun (n, rest) => ((n : Int), rest)

/-- A date, which has to be in the calendar. -/
def date : Reader Date := fun cs => do
  let (year, cs) ← year cs
  let (month, cs) ← number 2 (← separator '-' cs)
  let (day, cs) ← number 2 (← separator '-' cs)
  let date : Date := ⟨year, month, day⟩
  if date.IsValid then some (date, cs) else none

/-- The nanoseconds after a point: nine digits count and further ones do not. -/
def fraction : Reader Nat
  | '.' :: cs => do
    let (n, rest) ← takeDecimal? 9 cs
    some (n * Nat.pow 10 (9 - (cs.length - rest.length)), rest.dropWhile Char.isDigit)
  | cs => some (0, cs)

/-- A time of day: its second, and its nanoseconds with the leap second. -/
def timeOfDay : Reader (Nat × Nat) := fun cs => do
  let (hour, cs) ← number 2 cs
  let (minute, cs) ← number 2 (← separator ':' cs)
  let (second, cs) ← number 2 (← separator ':' cs)
  let (nano, cs) ← fraction cs
  if hour < 24 ∧ minute < 60 ∧ second ≤ 60 then
    let leap := second / 60
    some ((hour * 3600 + minute * 60 + (second - leap), nano + leap * Duration.nanosPerSecond), cs)
  else none

/-- The value of a digit. -/
def digit? (c : Char) : Option Nat :=
  if c.isDigit then some (c.toNat - '0'.toNat) else none

/-- The seconds by which local time is ahead, given hours and minutes. -/
def hoursAndMinutes : Reader Nat
  | h :: h' :: cs => do
    let hours := (← digit? h) * 10 + (← digit? h')
    match cs.dropWhile fun c => c == ':' || isBlank c with
    | m :: m' :: rest =>
      let minutes := (← digit? m) * 10 + (← digit? m')
      if minutes < 60 ∧ hours < 24 then some (hours * 3600 + minutes * 60, rest) else none
    | _ => none
  | _ => none

/-- The offset of local time from UTC in seconds. -/
def offset : Reader Int := fun cs =>
  match trimStart cs with
  | 'Z' :: rest => some (0, rest)
  | 'z' :: rest => some (0, rest)
  | '+' :: rest => (hoursAndMinutes rest).map fun (n, rest) => ((n : Int), rest)
  | '-' :: rest => (hoursAndMinutes rest).map fun (n, rest) => (-(n : Int), rest)
  | '\u2212' :: rest => (hoursAndMinutes rest).map fun (n, rest) => (-(n : Int), rest)
  | u :: t :: c :: rest =>
    if [u, t, c].map Char.toLower = ['u', 't', 'c'] then some (0, rest) else none
  | _ => none

/-- The instant that a timestamp stands for. -/
def read? (cs : List Char) : Option Instant := do
  let (date, cs) ← date cs
  let cs ← match cs with
    | 'T' :: cs => some cs
    | 't' :: cs => some cs
    | ' ' :: cs => some cs
    | _ => none
  let ((second, nano), cs) ← timeOfDay cs
  let (offset, cs) ← offset cs
  if (trimStart cs).isEmpty then
    let local? := Instant.ofParts? (date.dayNumber * 86400 + second) nano
    local?.bind fun shown => Instant.ofParts? (shown.second - offset) shown.nano
  else none

end Leasehold.Timestamp
