/-!
# Decimal numbers

An integer is an optional sign and at least one digit. Settings hold integers of 64 bits: a text that writes
a number outside that range is no integer for them.

A decimal number is an optional sign, digits with at most one point among or around them, and an optional
exponent; the words for infinity and for no number are accepted in any case. Its value is the nearest binary
number of double precision, ties to even.
-/

namespace Tracing.Number

/-! ### Integers -/

/-- The value of a decimal digit. -/
def digitValue (c : Char) : Option Nat :=
  if '0' ≤ c ∧ c ≤ '9' then some (c.toNat - 48) else none

/-- A decimal digit. -/
def isDigit (c : Char) : Bool := (digitValue c).isSome

/-- The number that follows `n` when more digits are appended; other characters count as zero. -/
def appendDigits (n : Nat) (cs : List Char) : Nat :=
  cs.foldl (fun n c => n * 10 + (digitValue c).getD 0) n

/-- The number that a list of digits writes. -/
def natValue (cs : List Char) : Nat := appendDigits 0 cs

/-- The number that a text of digits alone writes. -/
def readNat (cs : List Char) : Option Nat :=
  if cs ≠ [] ∧ cs.all isDigit then some (natValue cs) else none

/-- The number that a text writes, of any size: digits with an optional sign. -/
def readInt : List Char → Option Int
  | '-' :: cs => (readNat cs).map fun n => -(n : Int)
  | '+' :: cs => (readNat cs).map fun n => (n : Int)
  | cs => (readNat cs).map fun n => (n : Int)

/-- The numbers of 64 bits with a sign. -/
def fitsInt64 (n : Int) : Bool := Int64.minValue.toInt ≤ n && n ≤ Int64.maxValue.toInt

/-- The number of 64 bits that a text writes. -/
def readInt64 (cs : List Char) : Option Int := (readInt cs).filter fitsInt64

/-! ### Numbers of double precision -/

/-- A decimal number without its sign: the digits as one number, times a power of ten. -/
structure Decimal where
  digits : Nat
  exponent : Int
deriving Repr, DecidableEq

/-- The exponent part that ends a decimal number: nothing, or a mark and an integer. -/
def readExponent : List Char → Option Int
  | [] => some 0
  | c :: cs => if c = 'e' ∨ c = 'E' then readInt cs else none

/-- A decimal number without a sign. -/
def readDecimal (cs : List Char) : Option Decimal :=
  let whole := cs.takeWhile isDigit
  let rest := cs.dropWhile isDigit
  let fraction := match rest with
    | '.' :: rest => rest.takeWhile isDigit
    | _ => []
  let tail := match rest with
    | '.' :: rest => rest.dropWhile isDigit
    | _ => rest
  if whole = [] ∧ fraction = [] then none
  else (readExponent tail).map fun exponent =>
    { digits := natValue (whole ++ fraction), exponent := exponent - fraction.length }

/-- The nearest number of double precision. Magnitudes beyond the range of the format, which need no
arithmetic, are decided by the position of the leading digit. -/
def Decimal.toFloat (d : Decimal) : Float :=
  if d.digits = 0 then 0.0
  else
    let leading : Int := d.exponent + (Nat.toDigits 10 d.digits).length
    if leading > 400 then 1.0 / 0.0
    else if leading < -400 then 0.0
    else if d.exponent < 0 then Float.ofScientific d.digits true d.exponent.natAbs
    else Float.ofScientific d.digits false d.exponent.natAbs

/-- A word of the seven-bit code in lower case. -/
def foldWord (cs : List Char) : List Char :=
  cs.map fun c => if 'A' ≤ c ∧ c ≤ 'Z' then Char.ofNat (c.toNat + 32) else c

/-- The magnitude that a text without sign writes. -/
def readMagnitude (cs : List Char) : Option Float :=
  let word := foldWord cs
  if word = "inf".toList ∨ word = "infinity".toList then some (1.0 / 0.0)
  else if word = "nan".toList then some (0.0 / 0.0)
  else (readDecimal cs).map Decimal.toFloat

/-- The number of double precision that a text writes. -/
def readFloat : List Char → Option Float
  | '-' :: cs => (readMagnitude cs).map fun x => -x
  | '+' :: cs => readMagnitude cs
  | cs => readMagnitude cs

end Tracing.Number
