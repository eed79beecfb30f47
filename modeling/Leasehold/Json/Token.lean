import Leasehold.Json.Raw

/-!
# JSON tokens

A text is read one character at a time. What has been read of an unfinished
token is the state between two characters, so the tokens of two texts put
together are found by reading the second from where the first left off.
-/

namespace Leasehold.Json

/-- A word of the JSON grammar. -/
inductive Token where
  | openBrace
  | closeBrace
  | openBracket
  | closeBracket
  | colon
  | comma
  | null
  | boolean (b : Bool)
  | number (literal : NumberLiteral)
  | text (units : RawText)
  deriving DecidableEq, Repr

/-- The digits at the front of a text, of which there is at least one. -/
def digits1 (cs : List Char) : Option (List Char × List Char) :=
  match cs.takeWhile Char.isDigit with
  | [] => none
  | found => some (found, cs.dropWhile Char.isDigit)

/-- The digits before the point: a zero stands alone. -/
def NumberLiteral.takeWhole : List Char → Option (List Char × List Char)
  | '0' :: rest => some (['0'], rest)
  | cs => digits1 cs

/-- The fraction, if there is a point. -/
def NumberLiteral.takeFraction : List Char → Option (Option (List Char) × List Char)
  | '.' :: rest => (digits1 rest).map fun (found, rest) => (some found, rest)
  | cs => some (none, cs)

/-- The exponent, if there is one: whether it is negative, and its digits. -/
def NumberLiteral.takeExponent : List Char → Option (Option (Bool × List Char) × List Char)
  | 'e' :: rest => signed rest
  | 'E' :: rest => signed rest
  | cs => some (none, cs)
where
  signed : List Char → Option (Option (Bool × List Char) × List Char)
    | '-' :: rest => (digits1 rest).map fun (found, rest) => (some (true, found), rest)
    | '+' :: rest => (digits1 rest).map fun (found, rest) => (some (false, found), rest)
    | rest => (digits1 rest).map fun (found, rest) => (some (false, found), rest)

/-- The number that the whole of a text is. -/
def NumberLiteral.read? (cs : List Char) : Option NumberLiteral := do
  let (negative, cs) := match cs with
    | '-' :: rest => (true, rest)
    | cs => (false, cs)
  let (whole, cs) ← takeWhole cs
  let (fraction, cs) ← takeFraction cs
  let (exponent, cs) ← takeExponent cs
  if cs.isEmpty then some ⟨negative, whole, fraction, exponent⟩ else none

/-- The token that a run of letters is. -/
def Token.ofWord? (cs : List Char) : Option Token :=
  if cs = ['n', 'u', 'l', 'l'] then some .null
  else if cs = ['t', 'r', 'u', 'e'] then some (.boolean true)
  else if cs = ['f', 'a', 'l', 's', 'e'] then some (.boolean false)
  else none

/-- The token of one punctuation mark. -/
def Token.ofMark? : Char → Option Token
  | '{' => some .openBrace
  | '}' => some .closeBrace
  | '[' => some .openBracket
  | ']' => some .closeBracket
  | ':' => some .colon
  | ',' => some .comma
  | _ => none

/-- What has been read of a token, latest first. -/
inductive Pending where
  | nothing
  | word (letters : List Char)
  | number (chars : List Char)
  | text (units : List TextUnit)
  | escape (units : List TextUnit)
  | code (units : List TextUnit) (digits : Nat) (value : Nat)
  deriving DecidableEq, Repr

/-- The tokens read so far, latest first, and the one that is being read. -/
structure Reading where
  tokens : List Token
  unfinished : Pending
  deriving DecidableEq, Repr

namespace Reading

/-- Before the first character. -/
def start : Reading :=
  ⟨[], .nothing⟩

/-- The four characters that may stand between tokens. -/
def isSpace (c : Char) : Bool :=
  c == ' ' || c == '\n' || c == '\t' || c == '\r'

/-- Whether a character can stand in a number. -/
def isNumberChar (c : Char) : Bool :=
  c.isDigit || c == '-' || c == '+' || c == '.' || c == 'e' || c == 'E'

/-- The character that a letter after a backslash stands for. -/
def escaped? : Char → Option Char
  | '"' => some '"'
  | '\\' => some '\\'
  | '/' => some '/'
  | 'b' => some '\x08'
  | 'f' => some '\x0c'
  | 'n' => some '\n'
  | 'r' => some '\r'
  | 't' => some '\t'
  | _ => none

/-- The value of a hexadecimal digit. -/
def hexDigit? (c : Char) : Option Nat :=
  if c.isDigit then some (c.toNat - '0'.toNat)
  else if 'a' ≤ c ∧ c ≤ 'f' then some (c.toNat - 'a'.toNat + 10)
  else if 'A' ≤ c ∧ c ≤ 'F' then some (c.toNat - 'A'.toNat + 10)
  else none

/-- Begins a token. -/
def begin (tokens : List Token) (c : Char) : Option Reading :=
  if isSpace c then some ⟨tokens, .nothing⟩
  else if c = '"' then some ⟨tokens, .text []⟩
  else if c.isDigit ∨ c = '-' then some ⟨tokens, .number [c]⟩
  else if c.isLower then some ⟨tokens, .word [c]⟩
  else (Token.ofMark? c).map fun token => ⟨token :: tokens, .nothing⟩

/-- Reads one more character. -/
def next (reading : Reading) (c : Char) : Option Reading :=
  match reading.unfinished with
  | .nothing => begin reading.tokens c
  | .word letters =>
    if c.isLower then some ⟨reading.tokens, .word (c :: letters)⟩
    else (Token.ofWord? letters.reverse).bind fun token => begin (token :: reading.tokens) c
  | .number chars =>
    if isNumberChar c then some ⟨reading.tokens, .number (c :: chars)⟩
    else
      (NumberLiteral.read? chars.reverse).bind fun literal =>
        begin (.number literal :: reading.tokens) c
  | .text units =>
    if c = '"' then some ⟨.text units.reverse :: reading.tokens, .nothing⟩
    else if c = '\\' then some ⟨reading.tokens, .escape units⟩
    else if c.toNat < 0x20 then none
    else some ⟨reading.tokens, .text (.char c :: units)⟩
  | .escape units =>
    if c = 'u' then some ⟨reading.tokens, .code units 0 0⟩
    else (escaped? c).map fun plain => ⟨reading.tokens, .text (.char plain :: units)⟩
  | .code units digits value =>
    (hexDigit? c).map fun digit =>
      let value := value * 16 + digit
      if digits = 3 then ⟨reading.tokens, .text (.code value :: units)⟩
      else ⟨reading.tokens, .code units (digits + 1) value⟩

/-- The tokens at the end of the text. -/
def finish? (reading : Reading) : Option (List Token) :=
  match reading.unfinished with
  | .nothing => some reading.tokens.reverse
  | .word letters =>
    (Token.ofWord? letters.reverse).map fun token => (token :: reading.tokens).reverse
  | .number chars =>
    (NumberLiteral.read? chars.reverse).map fun literal =>
      (.number literal :: reading.tokens).reverse
  | _ => none

/-- Reads characters from first to last. -/
def readAll? : Reading → List Char → Option Reading
  | reading, [] => some reading
  | reading, c :: cs => (reading.next c).bind fun reading => readAll? reading cs

theorem readAll?_append (reading : Reading) (cs ds : List Char) :
    reading.readAll? (cs ++ ds) = (reading.readAll? cs).bind fun r => r.readAll? ds := by
  induction cs generalizing reading with
  | nil => rfl
  | cons c cs ih =>
    rw [List.cons_append, readAll?, readAll?]
    cases reading.next c with
    | none => rfl
    | some after => exact ih after

end Reading

/-- The tokens of a text. -/
def tokens? (cs : List Char) : Option (List Token) :=
  (Reading.start.readAll? cs).bind Reading.finish?

end Leasehold.Json
