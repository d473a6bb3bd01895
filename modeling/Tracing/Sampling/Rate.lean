import Tracing.Number.Decimal
import Tracing.TraceState.Header

/-!
# Sample rates

A sample rate is a probability with four decimal places. The rate of the root of a trace travels in the member
that the agent owns in the trace state, among attributes of the form `name:value` with semicolons between them.
-/

namespace Tracing.SampleRate

open Text Number

/-- The number of steps between no sampling and full sampling. -/
def steps : Float := 10000.0

/-- A number from zero to `steps` as the nearest whole number, a half going up. Zero keeps its sign. -/
def nearest (x : Float) : Float :=
  if x == 0.0 then x
  else
    let whole := x.toUInt64.toFloat
    if x - whole ≥ 0.5 then whole + 1.0 else whole

/-- A number moved into the interval of probabilities. -/
def clamp (x : Float) : Float := if x < 0.0 then 0.0 else if x > 1.0 then 1.0 else x

/-- A rate as a probability with four places. A rate above zero stays above zero, and what is no number counts
as full sampling. -/
def round (rate : Float) : Float :=
  if rate.isNaN then 1.0
  else
    let p := clamp rate
    let rounded := nearest (p * steps) / steps
    if rounded == 0.0 && p > 0.0 then 1.0 / steps else rounded

/-- The digits of a count of steps after the point, without the zeros at the end. -/
def fractionDigits (n : Nat) : List Char :=
  let digits := Nat.toDigits 10 n
  trimEndBy (· == '0') (List.replicate (4 - digits.length) '0' ++ digits)

/-- The text of a rounded rate: as many places as it needs. -/
def text (rounded : Float) : String :=
  let n := (nearest (rounded * steps)).toUInt64.toNat
  let fraction := fractionDigits (n % 10000)
  let sign := if rounded.toBits = 0x8000000000000000 then "-" else ""
  let point := if fraction = [] then "" else "."
  sign ++ toString (n / 10000) ++ point ++ String.ofList fraction

/-- The key of the member that the agent owns. -/
def vendorKey : String := "es"

/-- The name of the attribute that holds the rate. -/
def rateAttribute : List Char := ['s']

/-- The attributes that the value of a member writes; pieces without a colon are none. -/
def attributes (value : List Char) : List (List Char × List Char) :=
  (split ';' value).filterMap (splitOnce ':')

/-- The rate that the first attribute of its name writes, if that is a probability. -/
def ofValue (value : List Char) : Option Float := do
  let (_, text) ← (attributes value).find? fun a => a.1 == rateAttribute
  let rate ← readFloat text
  if 0.0 ≤ rate && rate ≤ 1.0 then some (round rate) else none

/-- The rate that a trace state carries. -/
def ofState (s : TraceState) : Option Float := do
  let value ← s.get? vendorKey
  ofValue value.toList

/-- The state with the member that records a rate in front. -/
def record (s : TraceState) (rate : Float) : TraceState :=
  match s.insert vendorKey ("s:" ++ text (round rate)) with
  | .ok s => s
  | .error _ => s

end Tracing.SampleRate
