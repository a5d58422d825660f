/-!
# Double-precision numbers

A number literal denotes a double-precision number.  `Double` holds its sixty-four bits, so that
equality is decidable and tells the two zeros apart.  Reading is exact: a decimal or a natural
number is rounded to the nearest double by arithmetic on natural numbers, a tie going to the even
neighbour.

* `Double.ofRatio`: the double nearest to a quotient of natural numbers;
* `Double.ofDecimal`: the double nearest to `digits · 10 ^ exponent`;
* `Double.parts`: a finite double as `mantissa · 2 ^ exponent`.
-/

namespace PropDocs

/-- **Double.** A double-precision number by its bits: a sign, eleven bits of exponent and
fifty-two bits of fraction. -/
structure Double where
  bits : UInt64
  deriving DecidableEq, Repr, Inhabited

namespace Double

/-- The bits of positive infinity: the largest exponent with an empty fraction. -/
def infinityBits : Nat := 2047 * Nat.pow 2 52

/-- Positive infinity. -/
def infinity : Double := ⟨UInt64.ofNat infinityBits⟩

/-- Positive zero. -/
def zero : Double := ⟨0⟩

/-- Changes the sign. -/
def negate (x : Double) : Double := ⟨x.bits ^^^ 0x8000000000000000⟩

/-- The sign bit is set; this holds of negative zero too. -/
def isNegative (x : Double) : Bool := x.bits >>> 63 == 1

/-- The bits without the sign. -/
def magnitude (x : Double) : Nat := x.bits.toNat % Nat.pow 2 63

/-- Neither infinite nor undefined. -/
def isFinite (x : Double) : Bool := x.magnitude < infinityBits

/-! ### Rounding -/

/-- **Rounded quotient.** `num / den` to the nearest natural number, a tie going to the even
one. -/
def roundDiv (num den : Nat) : Nat :=
  let q := num / den
  let r := num % den
  if 2 * r < den then q
  else if 2 * r > den then q + 1
  else if q % 2 = 0 then q else q + 1

/-- `num / den` in units of `2 ^ exponent`, rounded. -/
def scaled (num den : Nat) (exponent : Int) : Nat :=
  if 0 ≤ exponent then roundDiv num (den * Nat.pow 2 exponent.toNat)
  else roundDiv (num * Nat.pow 2 (-exponent).toNat) den

/-- The exponent of the unit in which `num / den` has fifty-three binary digits, but never below
the unit of the smallest double. -/
def unitExponent (num den : Nat) : Int :=
  let e : Int := (Nat.log2 num : Int) - (Nat.log2 den : Int) - 52
  let tooSmall :=
    if 0 ≤ e then num < den * Nat.pow 2 (52 + e.toNat)
    else num * Nat.pow 2 (-e).toNat < den * Nat.pow 2 52
  max (-1074) (if tooSmall then e - 1 else e)

/-- **Nearest double** of the quotient of two natural numbers, `den` being positive.  A quotient
past the largest double gives infinity. -/
def ofRatio (num den : Nat) : Double :=
  if num = 0 then zero
  else
    let e := unitExponent num den
    let bits := (e + 1074).toNat * Nat.pow 2 52 + scaled num den e
    ⟨UInt64.ofNat (min bits infinityBits)⟩

/-- The double nearest to a natural number. -/
def ofNat (n : Nat) : Double := ofRatio n 1

/-- The number of decimal digits of a natural number; zero has one. -/
def decimalLength (n : Nat) : Nat := (Nat.toDigits 10 n).length

/-- **Decimal.** The double nearest to `digits · 10 ^ exponent`.  Exponents far out of range are
answered without computing the power. -/
def ofDecimal (digits : Nat) (exponent : Int) : Double :=
  let top := (decimalLength digits : Int) + exponent
  if digits = 0 then zero
  else if top > 310 then infinity
  else if top < -330 then zero
  else if 0 ≤ exponent then ofRatio (digits * Nat.pow 10 exponent.toNat) 1
  else ofRatio digits (Nat.pow 10 (-exponent).toNat)

/-! ### Taking a double apart -/

/-- The mantissa and the exponent of a finite double: its magnitude is
`mantissa · 2 ^ exponent`. -/
def parts (x : Double) : Nat × Int :=
  let fraction : Nat := x.magnitude % Nat.pow 2 52
  let biased : Nat := x.magnitude / Nat.pow 2 52
  if biased = 0 then (fraction, -1074) else (fraction + Nat.pow 2 52, (biased : Int) - 1075)

end Double

end PropDocs
