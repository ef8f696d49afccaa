import Ensemble.Text.Printable

/-! # Quoted text

Messages show strings and byte strings in quoted form, so that control characters and invisible
marks stay readable. A quoted string stands between double quotes; the null character, tab,
carriage return, line feed, backslash and double quote are written `\0`, `\t`, `\r`, `\n`, `\\`
and `\"`, every character of `Printable.isEscaped` as `\u{h}` with `h` its code point in
lowercase hexadecimal without padding, and every other character as itself.

A quoted byte string is `b` followed by a double-quoted body in which the same six characters
take the same escapes, the printable ASCII bytes `20`–`7E` stand for themselves, and every other
byte is written `\xhh` with two lowercase hexadecimal digits.
-/

namespace Ensemble.Escaped

/-- Lowercase hexadecimal digits of `n`, at least `width` of them. -/
def hex (width n : Nat) : String :=
  let ds := Nat.toDigits 16 n
  String.ofList (List.replicate (width - ds.length) '0' ++ ds)

/-- The escape of one character inside a quoted string. -/
def char (c : Char) : String :=
  if c = '\x00' then "\\0"
  else if c = '\t' then "\\t"
  else if c = '\r' then "\\r"
  else if c = '\n' then "\\n"
  else if c = '\\' then "\\\\"
  else if c = '"' then "\\\""
  else if Printable.isEscaped c then "\\u\x7b" ++ hex 1 c.toNat ++ "\x7d"
  else String.singleton c

/-- A string in quoted form. -/
def string (s : String) : String :=
  "\"" ++ String.join (s.toList.map char) ++ "\""

/-- The escape of one byte inside a quoted byte string. -/
def byte (b : UInt8) : String :=
  if b = 0x0A then "\\n"
  else if b = 0x0D then "\\r"
  else if b = 0x09 then "\\t"
  else if b = 0x5C then "\\\\"
  else if b = 0x22 then "\\\""
  else if b = 0 then "\\0"
  else if 0x20 ≤ b && b < 0x7F then String.singleton (Char.ofNat b.toNat)
  else "\\x" ++ hex 2 b.toNat

/-- A byte string in quoted form. -/
def bytes (bs : List UInt8) : String :=
  "b\"" ++ String.join (bs.map byte) ++ "\""

end Ensemble.Escaped
