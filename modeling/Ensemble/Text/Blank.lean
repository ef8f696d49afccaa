/-! # Blank characters

The blank characters are the code points with the Unicode property `White_Space`: the controls
`U+0009`–`U+000D`, the space, `U+0085`, the no-break space, the Ogham space mark, the spaces
`U+2000`–`U+200A`, the line and paragraph separators, the narrow no-break space, the medium
mathematical space and the ideographic space. Entries of a server list are trimmed of them at
both ends.
-/

namespace Ensemble.Blank

/-- The blank code points, as closed ranges in increasing order. -/
def ranges : List (Nat × Nat) :=
  [(0x9, 0xd), (0x20, 0x20), (0x85, 0x85), (0xa0, 0xa0), (0x1680, 0x1680), (0x2000, 0x200a),
   (0x2028, 0x2029), (0x202f, 0x202f), (0x205f, 0x205f), (0x3000, 0x3000)]

/-- Whether a character is blank. -/
def isBlank (c : Char) : Bool :=
  ranges.any fun r => r.1 ≤ c.toNat && c.toNat ≤ r.2

/-- A character list without its blank characters at either end. -/
def trimChars (cs : List Char) : List Char :=
  ((cs.dropWhile isBlank).reverse.dropWhile isBlank).reverse

/-- A string without its blank characters at either end. -/
def trim (s : String) : String :=
  String.ofList (trimChars s.toList)

end Ensemble.Blank
