/-!
# Quoted text

A text between double quotes as it is shown in diagnostics: quotes and
backslashes are escaped, and so is everything that would not show.
-/

namespace Leasehold.Text

/-- Characters that are not shown as themselves: controls, separators other than
the blank, marks that combine with the character before, formatting, and code
points without an assigned character. -/
def isHidden (c : Char) : Bool :=
  let n := c.toNat
  n < 0x20 || (0x7f ≤ n && n ≤ 0xa0) || n == 0xad || (0x300 ≤ n && n ≤ 0x36f) ||
    (0x483 ≤ n && n ≤ 0x489) || (0x591 ≤ n && n ≤ 0x5bd) || (0x600 ≤ n && n ≤ 0x605) ||
    (0x610 ≤ n && n ≤ 0x61a) || n == 0x61c || (0x64b ≤ n && n ≤ 0x65f) || n == 0x1680 ||
    (0x1ab0 ≤ n && n ≤ 0x1ace) || (0x1dc0 ≤ n && n ≤ 0x1dff) || (0x2000 ≤ n && n ≤ 0x200f) ||
    (0x2028 ≤ n && n ≤ 0x202f) || (0x205f ≤ n && n ≤ 0x206f) || (0x20d0 ≤ n && n ≤ 0x20f0) ||
    n == 0x3000 || (0x302a ≤ n && n ≤ 0x302f) || (0x3099 ≤ n && n ≤ 0x309a) ||
    (0xe000 ≤ n && n ≤ 0xf8ff) || (0xfe00 ≤ n && n ≤ 0xfe0f) || (0xfe20 ≤ n && n ≤ 0xfe2f) ||
    n == 0xfeff || (0xfff0 ≤ n && n ≤ 0xfffb) || n == 0xfffe || n == 0xffff || 0xe0000 ≤ n

/-- A code point in lower-case hexadecimal. -/
def codePoint (c : Char) : List Char :=
  Nat.toDigits 16 c.toNat

/-- A character between quotes. -/
def quoteChar (c : Char) : List Char :=
  if c = '"' then ['\\', '"']
  else if c = '\\' then ['\\', '\\']
  else if c = '\n' then ['\\', 'n']
  else if c = '\r' then ['\\', 'r']
  else if c = '\t' then ['\\', 't']
  else if c = '\x00' then ['\\', '0']
  else if isHidden c then '\\' :: 'u' :: '{' :: codePoint c ++ ['}']
  else [c]

/-- A text between quotes. -/
def quoted (s : String) : String :=
  String.ofList ('"' :: s.toList.flatMap quoteChar ++ ['"'])

end Leasehold.Text
