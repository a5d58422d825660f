import PropDocs.Json.Value
import PropDocs.Number.Shortest

/-!
# Numbers and dates in TOML

Integers have 64 bits; floats are rounded to doubles and may not overflow upwards; dates and times
have to exist in the calendar.
-/

namespace PropDocs.Toml

/-! ### Digits -/

/-- Digits behind a first one; an underscore may stand between two digits. -/
def moreDigits (isDigit : Char → Bool) : List Char → List Char × List Char
  | [] => ([], [])
  | '_' :: d :: cs =>
    if isDigit d then
      let (ds, rest) := moreDigits isDigit cs
      (d :: ds, rest)
    else ([], '_' :: d :: cs)
  | d :: cs =>
    if isDigit d then
      let (ds, rest) := moreDigits isDigit cs
      (d :: ds, rest)
    else ([], d :: cs)

/-- At least one digit. -/
def digitRun (isDigit : Char → Bool) : List Char → Option (List Char × List Char)
  | d :: cs =>
    if isDigit d then
      let (ds, rest) := moreDigits isDigit cs
      some (d :: ds, rest)
    else none
  | [] => none

/-- Decimal digits that do not start with a zero, or a single zero. -/
def wholeDigits : List Char → Option (List Char × List Char)
  | '0' :: rest => some (['0'], rest)
  | cs => digitRun Char.isDigit cs

/-- A sign: whether it is negative, and what follows it. -/
def readSign : List Char → Bool × List Char
  | '-' :: rest => (true, rest)
  | '+' :: rest => (false, rest)
  | cs => (false, cs)

/-! ### Integers and floats -/

/-- The value of a digit in any base up to sixteen. -/
def baseDigit (c : Char) : Nat :=
  if c.isDigit then c.toNat - 48
  else if 'a' ≤ c ∧ c ≤ 'f' then c.toNat - 87
  else if 'A' ≤ c ∧ c ≤ 'F' then c.toNat - 55
  else 16

/-- A positive integer of 64 bits in a base. -/
def readBased (base : Nat) (cs : List Char) : Option (Json × List Char) := do
  let (ds, rest) ← digitRun (fun c => baseDigit c < base) cs
  let n := ds.foldl (fun n c => base * n + baseDigit c) 0
  if n < Nat.pow 2 63 then some (.nat n, rest) else none

/-- A decimal integer of 64 bits. -/
def readDecimal (cs : List Char) : Option (Json × List Char) := do
  let (negative, cs) := readSign cs
  let (ds, rest) ← wholeDigits cs
  let digits := Decimal.ofDigits ds
  let bound := if negative then Nat.pow 2 63 else Nat.pow 2 63 - 1
  if digits ≤ bound then some (.number { negative, digits }, rest) else none

/-- **Integer.** -/
def readInteger : List Char → Option (Json × List Char)
  | '0' :: 'x' :: rest => readBased 16 rest
  | '0' :: 'o' :: rest => readBased 8 rest
  | '0' :: 'b' :: rest => readBased 2 rest
  | cs => readDecimal cs

/-- The fraction of a float. -/
def readFraction : List Char → Option (List Char × List Char)
  | '.' :: rest => digitRun Char.isDigit rest
  | _ => none

/-- The power of ten of a float. -/
def readExponent : List Char → Option (Int × List Char)
  | e :: rest =>
    if e = 'e' ∨ e = 'E' then do
      let (negative, rest) := readSign rest
      let (ds, rest) ← digitRun Char.isDigit rest
      let n : Int := Decimal.ofDigits ds
      return (if negative then -n else n, rest)
    else none
  | [] => none

/-- The infinite value, as a decimal beyond all doubles. -/
def infinite (negative : Bool) : Json :=
  .number { negative, digits := 1, exponent := 400 }

/-- The floats that are written as words.  Decimals have nothing for the one that is no number: it
is read as zero. -/
def readSpecial (cs : List Char) : Option (Json × List Char) :=
  let (negative, cs) := readSign cs
  match cs with
  | 'i' :: 'n' :: 'f' :: rest => some (infinite negative, rest)
  | 'n' :: 'a' :: 'n' :: rest => some (.number { negative, digits := 0 }, rest)
  | _ => none

/-- **Float.** A fraction, a power of ten, or both. -/
def readFloat (cs : List Char) : Option (Json × List Char) := do
  let (negative, cs) := readSign cs
  let (whole, rest) ← wholeDigits cs
  let (fraction, exponent, rest) ←
    match readFraction rest with
    | some (fraction, rest) =>
      match readExponent rest with
      | some (exponent, rest) => some (fraction, exponent, rest)
      | none => some (fraction, 0, rest)
    | none => (readExponent rest).map fun (exponent, rest) => ([], exponent, rest)
  let d := Decimal.ofPieces negative whole fraction exponent
  if d.toDouble = Double.infinity then none else some (.number d, rest)

/-! ### Dates and times -/

/-- A number of exactly `n` digits. -/
def fixedDigits : (n acc : Nat) → List Char → Option (Nat × List Char)
  | 0, acc, cs => some (acc, cs)
  | n + 1, acc, c :: cs =>
    if c.isDigit then fixedDigits n (10 * acc + Decimal.digitValue c) cs else none
  | _ + 1, _, [] => none

/-- Two digits between the given bounds. -/
def twoDigits (lo hi : Nat) (cs : List Char) : Option (List Char) := do
  let (n, rest) ← fixedDigits 2 0 cs
  if lo ≤ n ∧ n ≤ hi then some rest else none

/-- One given character. -/
def expect (c : Char) : List Char → Option (List Char)
  | d :: rest => if d = c then some rest else none
  | [] => none

/-- A year with 366 days. -/
def isLeapYear (year : Nat) : Bool :=
  year % 4 == 0 && (year % 100 != 0 || year % 400 == 0)

/-- The number of days of a month. -/
def daysIn (year month : Nat) : Nat :=
  if month = 2 then if isLeapYear year then 29 else 28
  else if month = 4 ∨ month = 6 ∨ month = 9 ∨ month = 11 then 30
  else 31

/-- What follows a date. -/
def afterDate? (cs : List Char) : Option (List Char) := do
  let (year, rest) ← fixedDigits 4 0 cs
  let rest ← expect '-' rest
  let (month, rest) ← fixedDigits 2 0 rest
  let rest ← expect '-' rest
  if 1 ≤ month ∧ month ≤ 12 then twoDigits 1 (daysIn year month) rest else none

/-- What follows a time of day. -/
def afterTime? (cs : List Char) : Option (List Char) := do
  let rest ← twoDigits 0 23 cs
  let rest ← expect ':' rest
  let rest ← twoDigits 0 59 rest
  let rest ← expect ':' rest
  let rest ← twoDigits 0 60 rest
  match rest with
  | '.' :: c :: more =>
    some (if c.isDigit then more.dropWhile Char.isDigit else rest)
  | _ => some rest

/-- What follows an offset from universal time, if there is one. -/
def afterOffset (cs : List Char) : List Char :=
  match cs with
  | 'Z' :: rest | 'z' :: rest => rest
  | '+' :: rest | '-' :: rest =>
    (do twoDigits 0 59 (← expect ':' (← twoDigits 0 23 rest))).getD cs
  | _ => cs

/-- What follows a date, a time, or both. -/
def afterDateTime? (cs : List Char) : Option (List Char) :=
  match afterDate? cs with
  | some rest =>
    match rest with
    | t :: more =>
      if t = 'T' ∨ t = 't' ∨ t = ' ' then
        match afterTime? more with
        | some rest => some (afterOffset rest)
        | none => some rest
      else some rest
    | [] => some []
  | none => afterTime? cs

/-- **Date and time**, as a record of its text. -/
def readDateTime (cs : List Char) : Option (Json × List Char) := do
  let rest ← afterDateTime? cs
  let text := String.ofList (cs.take (cs.length - rest.length))
  return (.record [("datetime", .text text)], rest)

/-- **Number or date.** -/
def readNumber (cs : List Char) : Option (Json × List Char) :=
  ((readDateTime cs).or (readFloat cs)).or ((readSpecial cs).or (readInteger cs))

end PropDocs.Toml
