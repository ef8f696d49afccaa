/-! # Decimal numerals

Numbers in messages are written in decimal without grouping or padding; a negative number is
preceded by `-`.
-/

namespace Ensemble.Decimal

/-- The decimal numeral of a natural number. -/
def ofNat (n : Nat) : String := Nat.repr n

/-- The decimal numeral of an integer, with `-` before a negative one. -/
def ofInt (x : Int) : String :=
  if x < 0 then "-" ++ Nat.repr x.natAbs else Nat.repr x.natAbs

end Ensemble.Decimal
