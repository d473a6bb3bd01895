import Tracing.Act
import Tracing.Number.Decimal
import Tracing.Sampling
import Tracing.Text.LowerCase
import Tracing.Text.Split

/-!
# Settings

What a tracer is built with. The defaults may be changed by three variables of the environment; a variable
whose text has no meaning is reported and leaves its default.
-/

namespace Tracing

open Text Number

/-- The largest count of a machine word, which as a limit means none. -/
def unlimited : Nat := UInt64.size - 1

/-- How long a registry keeps an entry, and how many. -/
structure RegistryPolicy where
  maxAge : Duration := .ofSeconds 300
  capacity : Nat := 10000
deriving DecidableEq, Repr, Inhabited

/-- What a tracer is built with, its sampler and its sources aside. -/
structure Settings where
  sampling : Sampling := .alwaysOn
  /-- The most live spans of one transaction. -/
  maxSpans : Nat := 500
  /-- Write the header of the vendor's older agents too. -/
  writeLegacy : Bool := true
  /-- Panic on misuse. -/
  strict : Bool := false
  registry : RegistryPolicy := {}
deriving DecidableEq, Repr, Inhabited

/-- The variables of the environment that settings are read from. -/
structure Environment where
  sampleRate : Option String := none
  maxSpans : Option String := none
  writeLegacy : Option String := none
deriving DecidableEq, Repr, Inhabited

namespace Settings

/-- The way to sample that a text names: a probability. -/
def readSampling (s : String) : Option Sampling := do
  let rate ← readFloat (trim s.toList)
  if 0.0 ≤ rate && rate ≤ 1.0 then some (.ofRate rate) else none

/-- The span limit that a text names: an integer, where a negative one means no limit. -/
def readMaxSpans (s : String) : Option Nat :=
  (readInt64 (trim s.toList)).map fun n => if n < 0 then unlimited else n.toNat

/-- The truth value that a text names, in any case of its letters. -/
def readFlag (s : String) : Option Bool :=
  let word := String.ofList (foldAscii (trim s.toList))
  if ["true", "1", "yes", "on"].contains word then some true
  else if ["false", "0", "no", "off"].contains word then some false
  else none

/-- A setting from its variable: the default if the variable is not set or has no meaning, and then an event. -/
def fromVariable {α : Type} (default : α) (read : String → Option α) (complain : String → Event) :
    Option String → α × List Event
  | none => (default, [])
  | some text =>
    match read text with
    | some a => (a, [])
    | none => (default, [complain text])

/-- The settings that the environment asks for, with the complaints about it. -/
def ofEnvironment (env : Environment) : Settings × List Event :=
  let defaults : Settings := {}
  let (sampling, e₁) := fromVariable defaults.sampling readSampling .invalidSampleRate env.sampleRate
  let (maxSpans, e₂) := fromVariable defaults.maxSpans readMaxSpans .invalidMaxSpans env.maxSpans
  let (writeLegacy, e₃) := fromVariable defaults.writeLegacy readFlag .invalidLegacyFlag env.writeLegacy
  ({ defaults with sampling, maxSpans, writeLegacy }, e₁ ++ e₂ ++ e₃)

end Settings

end Tracing
