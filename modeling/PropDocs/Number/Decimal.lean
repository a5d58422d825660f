import PropDocs.Number.Double

/-!
# Decimals

A decimal as it is written: a sign, digits and a power of ten.  Texts with numbers in them are
read into decimals, and a decimal is rounded to a double only where a double is wanted.
-/

namespace PropDocs

/-- **Decimal.** The number `± digits · 10 ^ exponent`. -/
structure Decimal where
  negative : Bool := false
  digits : Nat
  exponent : Int := 0
  deriving DecidableEq, Repr, Inhabited

namespace Decimal

/-- The nearest double; a negative zero keeps its sign. -/
def toDouble (d : Decimal) : Double :=
  let x := Double.ofDecimal d.digits d.exponent
  if d.negative then x.negate else x

/-- The value of a digit character. -/
def digitValue (c : Char) : Nat :=
  c.toNat - '0'.toNat

/-- The value of a digit in any base up to sixteen. -/
def digitValue? (c : Char) : Option Nat :=
  if '0' ≤ c ∧ c ≤ '9' then some (c.toNat - 48)
  else if 'a' ≤ c ∧ c ≤ 'f' then some (c.toNat - 87)
  else if 'A' ≤ c ∧ c ≤ 'F' then some (c.toNat - 55)
  else none

/-- The natural number written by a list of digit characters. -/
def ofDigits (cs : List Char) : Nat :=
  cs.foldl (fun n c => 10 * n + digitValue c) 0

/-- The decimal with the given digits in front of and behind the point, and the given power of
ten. -/
def ofPieces (negative : Bool) (whole fraction : List Char) (exponent : Int) : Decimal :=
  { negative
    digits := ofDigits (whole ++ fraction)
    exponent := exponent - fraction.length }

end Decimal

end PropDocs
