/-! # UTF-8 text

Strings travel as their UTF-8 bytes. `encode` writes a string's characters one after another in
the standard encoding, and `decode` reads bytes back into a string, refusing every sequence that
RFC 3629 does not derive. A refusal names the place: the length of the well-formed prefix, and
either the length of the maximal ill-formed run there or the fact that the bytes ended inside a
sequence that was well formed so far.

A lead byte decides how many bytes follow: `C2`–`DF` one, `E0`–`EF` two, `F0`–`F4` three, and
every following byte lies in `80`–`BF`. Four lead bytes narrow their second byte: after `E0` it
lies in `A0`–`BF` (no overlong form), after `ED` in `80`–`9F` (no surrogate), after `F0` in
`90`–`BF` (no overlong form) and after `F4` in `80`–`8F` (nothing above `U+10FFFF`).
-/

namespace Ensemble.Utf8

/-- Why a byte sequence is not UTF-8. `invalid k i`: the well-formed prefix has `i` bytes and the
ill-formed run after it has `k`; `incomplete i`: the bytes end inside a sequence that starts at
byte `i` and was well formed so far. -/
inductive Error where
  | invalid (length index : Nat)
  | incomplete (index : Nat)
  deriving DecidableEq, Repr

/-- The text that names a decoding error. -/
def Error.message : Error → String
  | .invalid k i =>
    "invalid utf-8 sequence of " ++ Nat.repr k ++ " bytes from index " ++ Nat.repr i
  | .incomplete i => "incomplete utf-8 byte sequence from index " ++ Nat.repr i

/-- The UTF-8 bytes of a string. -/
def encode (s : String) : List UInt8 :=
  s.toList.flatMap String.utf8EncodeChar

/-- A continuation byte, `80`–`BF`. -/
def isTail (b : UInt8) : Bool :=
  0x80 ≤ b && b ≤ 0xBF

/-- Whether `c` may follow the lead byte `b` of a three- or four-byte sequence. -/
def secondFits (b c : UInt8) : Bool :=
  if b = 0xE0 then 0xA0 ≤ c && c ≤ 0xBF
  else if b = 0xED then 0x80 ≤ c && c ≤ 0x9F
  else if b = 0xF0 then 0x90 ≤ c && c ≤ 0xBF
  else if b = 0xF4 then 0x80 ≤ c && c ≤ 0x8F
  else isTail c

/-- The payload bits of a continuation byte. -/
def low6 (b : UInt8) : Nat := b.toNat % 64

/-- The character of a two-byte sequence. -/
def char2 (b c : UInt8) : Char :=
  Char.ofNat ((b.toNat % 32) * 64 + low6 c)

/-- The character of a three-byte sequence. -/
def char3 (b c d : UInt8) : Char :=
  Char.ofNat ((b.toNat % 16) * 4096 + low6 c * 64 + low6 d)

/-- The character of a four-byte sequence. -/
def char4 (b c d e : UInt8) : Char :=
  Char.ofNat ((b.toNat % 8) * 262144 + low6 c * 4096 + low6 d * 64 + low6 e)

/-- Decoding from byte `i` on, with the characters read so far in reverse. -/
def decodeFrom (i : Nat) (acc : List Char) : List UInt8 → Except Error (List Char)
  | [] => .ok acc.reverse
  | b :: rest =>
    if b < 0x80 then
      decodeFrom (i + 1) (Char.ofNat b.toNat :: acc) rest
    else if 0xC2 ≤ b && b ≤ 0xDF then
      match rest with
      | [] => .error (.incomplete i)
      | c :: rest =>
        if isTail c then decodeFrom (i + 2) (char2 b c :: acc) rest
        else .error (.invalid 1 i)
    else if 0xE0 ≤ b && b ≤ 0xEF then
      match rest with
      | [] => .error (.incomplete i)
      | c :: rest =>
        if secondFits b c then
          match rest with
          | [] => .error (.incomplete i)
          | d :: rest =>
            if isTail d then decodeFrom (i + 3) (char3 b c d :: acc) rest
            else .error (.invalid 2 i)
        else .error (.invalid 1 i)
    else if 0xF0 ≤ b && b ≤ 0xF4 then
      match rest with
      | [] => .error (.incomplete i)
      | c :: rest =>
        if secondFits b c then
          match rest with
          | [] => .error (.incomplete i)
          | d :: rest =>
            if isTail d then
              match rest with
              | [] => .error (.incomplete i)
              | e :: rest =>
                if isTail e then decodeFrom (i + 4) (char4 b c d e :: acc) rest
                else .error (.invalid 3 i)
            else .error (.invalid 2 i)
        else .error (.invalid 1 i)
    else .error (.invalid 1 i)

/-- The string that a byte sequence encodes, or where it stops being UTF-8. -/
def decode (bs : List UInt8) : Except Error String :=
  String.ofList <$> decodeFrom 0 [] bs

end Ensemble.Utf8
