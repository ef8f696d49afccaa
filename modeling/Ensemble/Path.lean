import Ensemble.Text.Escaped

/-! # Node paths

A node path is `/`, or `/` followed by node names separated by `/`: no name is empty, `.` or
`..`, and no character of the path is a control (`U+0000`–`U+001F`, `U+007F`–`U+009F`), a
private-use character of the basic plane (`U+E000`–`U+F8FF`) or one of `U+FFF0`–`U+FFFF`.

`Path.check` tests the rules in a fixed order and reports the first that fails: the path is
empty; it does not start with `/`; it ends with `/` (the root apart); the leftmost empty or
relative name; the leftmost forbidden character.
-/

namespace Ensemble

/-- Why a string is not a node path. -/
inductive PathFault where
  | empty
  | noLeadingSlash
  | trailingSlash
  | emptyNode
  | relative
  | forbidden (c : Char)
  deriving DecidableEq, Repr

/-- The reason a message gives for a path fault. -/
def PathFault.reason : PathFault → String
  | .empty => "path must be a non-empty string"
  | .noLeadingSlash => "path must start with / character"
  | .trailingSlash => "path must not end with / character"
  | .emptyNode => "empty node name specified"
  | .relative => "relative paths not allowed"
  | .forbidden c => "invalid character \\u\x7b" ++ Escaped.hex 4 c.toNat ++ "\x7d"

namespace Path

/-- A character that no path may hold. -/
def isForbidden (c : Char) : Bool :=
  c.toNat ≤ 0x1F || (0x7F ≤ c.toNat && c.toNat ≤ 0x9F) ||
    (0xE000 ≤ c.toNat && c.toNat ≤ 0xF8FF) || (0xFFF0 ≤ c.toNat && c.toNat ≤ 0xFFFF)

/-- A node name that no path may hold: empty, `.` or `..`. -/
def isBadName (name : List Char) : Bool :=
  name.isEmpty || name == ['.'] || name == ['.', '.']

/-- The first rule that a string breaks, checked in the order of the rules. -/
def check (p : String) : Except PathFault Unit :=
  match p.toList with
  | [] => .error .empty
  | c :: rest =>
    if c ≠ '/' then .error .noLeadingSlash
    else if rest.isEmpty then .ok ()
    else if rest.getLast? == some '/' then .error .trailingSlash
    else
      match (rest.splitOn '/').find? isBadName with
      | some name => .error (if name.isEmpty then .emptyNode else .relative)
      | none =>
        match p.toList.find? isForbidden with
        | some c => .error (.forbidden c)
        | none => .ok ()

/-- Whether a string is a node path. -/
def isValid (p : String) : Bool :=
  match check p with
  | .ok _ => true
  | .error _ => false

end Path

end Ensemble
