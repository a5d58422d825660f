import PropDocs.Number.Double

/-!
# Shortest decimals

The text of a double is the shortest decimal that reads back as the same double; of several such
decimals the one nearest to the double is taken.  It is written positionally, without an
exponent, however large or small the number is, and a whole number has no fraction part.

* `Double.shortest`: digits and decimal exponent of that decimal;
* `Double.render`: its positional text.
-/

namespace PropDocs.Double

/-- **Rounding interval.** In units of a quarter of `2 ^ exponent`: the lower end, the value and
the upper end of the decimals that round to the double, and whether the ends belong to it. -/
structure Interval where
  lower : Nat
  value : Nat
  upper : Nat
  closed : Bool

/-- The rounding interval of a positive finite double.  Below a power of two the doubles lie twice
as close. -/
def interval (mantissa : Nat) (exponent : Int) : Interval :=
  let below := if mantissa = Nat.pow 2 52 ∧ exponent > -1074 then 1 else 2
  { lower := 4 * mantissa - below
    value := 4 * mantissa
    upper := 4 * mantissa + 2
    closed := mantissa % 2 == 0 }

/-- A number of quarter units lies in the interval.  `point` and the ends share the denominator
`scale`. -/
def Interval.contains (i : Interval) (scale point : Nat) : Bool :=
  if i.closed then i.lower * scale ≤ point && point ≤ i.upper * scale
  else i.lower * scale < point && point < i.upper * scale

/-- The decimal exponent just above a positive quotient: the least `k` of those tried with
`num / den < 10 ^ k`, starting at `k` and trying at most `fuel` of them. -/
def exponentAbove (num den : Nat) : (fuel : Nat) → (k : Int) → Int
  | 0, k => k
  | fuel + 1, k =>
    let below :=
      if 0 ≤ k then num < den * Nat.pow 10 k.toNat else num * Nat.pow 10 (-k).toNat < den
    if below then k else exponentAbove num den fuel (k + 1)

/-- A point of the grid with `n` digits; ten to the power `n` is written with the single digit
one. -/
def topped (n point : Nat) (grid : Int) : Nat × Int :=
  if point = Nat.pow 10 n then (1, grid + n) else (point, grid)

/-- **Grid search.** The first of the grids `10 ^ (top - n)`, for `n` significant digits, on which
a neighbour of the value lies in the interval; of two hits the nearer one, and the upper one on a
tie.  `num / den` is one quarter unit. -/
def search (i : Interval) (num den : Nat) (top : Int) : (fuel n : Nat) → Nat × Int
  | 0, n => (i.value * num / den, top - n)
  | fuel + 1, n =>
    let grid := top - n
    -- one grid step is `up / down`
    let up := if 0 ≤ grid then Nat.pow 10 grid.toNat else 1
    let down := if 0 ≤ grid then 1 else Nat.pow 10 (-grid).toNat
    -- every quantity over the common denominator `den * down`
    let scale := num * down
    let step := up * den
    let low := i.value * scale / step
    let high := low + 1
    let lowIn := 0 < low && i.contains scale (low * step)
    let highIn := i.contains scale (high * step)
    if lowIn && highIn then
      if 2 * (i.value * scale - low * step) < step then (low, grid) else topped n high grid
    else if lowIn then (low, grid)
    else if highIn then topped n high grid
    else search i num den top fuel (n + 1)

/-- **Shortest decimal** of a positive finite double, as digits and decimal exponent. -/
def shortest (x : Double) : Nat × Int :=
  let (mantissa, exponent) := x.parts
  let i := interval mantissa exponent
  let num := if 0 ≤ exponent - 2 then Nat.pow 2 (exponent - 2).toNat else 1
  let den := if 0 ≤ exponent - 2 then 1 else Nat.pow 2 (2 - exponent).toNat
  let top := exponentAbove (i.value * num) den 700 (-330)
  search i num den top 17 1

/-- **Positional text** of `digits · 10 ^ exponent`. -/
def positional (digits : Nat) (exponent : Int) : String :=
  let ds := Nat.toDigits 10 digits
  if 0 ≤ exponent then String.ofList (ds ++ List.replicate exponent.toNat '0')
  else
    let places := (-exponent).toNat
    if places < ds.length then
      String.ofList (ds.take (ds.length - places) ++ '.' :: ds.drop (ds.length - places))
    else String.ofList ('0' :: '.' :: List.replicate (places - ds.length) '0' ++ ds)

/-- **Text of a double.** A minus sign stands in front of negative zero too. -/
def render (x : Double) : String :=
  let body :=
    if x.magnitude = 0 then "0"
    else if x.magnitude = infinityBits then "inf"
    else if infinityBits < x.magnitude then "NaN"
    else
      let (digits, exponent) := x.shortest
      positional digits exponent
  if x.isNegative && x.magnitude ≤ infinityBits then "-" ++ body else body

end PropDocs.Double
