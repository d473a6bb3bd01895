/-!
# Time

Instants count nanoseconds from the epoch and may lie before it; durations are never negative. Time is always
handed in by the caller: nothing in this library reads a clock.
-/

namespace Tracing

/-- A span of time in nanoseconds. -/
structure Duration where
  nanos : Nat
deriving DecidableEq, Repr, Inhabited

/-- A point in time, in nanoseconds from the epoch. -/
structure Instant where
  nanos : Int
deriving DecidableEq, Repr, Inhabited

namespace Instant

/-- The later of two instants. -/
def latest (a b : Instant) : Instant := ⟨max a.nanos b.nanos⟩

/-- The time from `start` to `finish`, zero if `finish` comes first. -/
def elapsed (start finish : Instant) : Duration := ⟨(finish.nanos - start.nanos).toNat⟩

end Instant

namespace Duration

/-- The duration of a number of seconds. -/
def ofSeconds (n : Nat) : Duration := ⟨n * 1000000000⟩

/-- Whole milliseconds, rounded down. -/
def toMillis (d : Duration) : Nat := d.nanos / 1000000

/-- The digits of a fraction with `width` places, without the zeros at its end. -/
def fractionText (width fraction : Nat) : String :=
  let digits := Nat.toDigits 10 fraction
  let padded := List.replicate (width - digits.length) '0' ++ digits
  let kept := (padded.reverse.dropWhile (· == '0')).reverse
  if kept = [] then "" else "." ++ String.ofList kept

/-- A duration in the largest unit of which it holds at least one, with as many decimal places as it
needs. -/
def text (d : Duration) : String :=
  let n := d.nanos
  let write (unit width : Nat) (name : String) : String :=
    toString (n / unit) ++ fractionText width (n % unit) ++ name
  if n ≥ 1000000000 then write 1000000000 9 "s"
  else if n ≥ 1000000 then write 1000000 6 "ms"
  else if n ≥ 1000 then write 1000 3 "µs"
  else write 1 0 "ns"

end Duration

end Tracing
