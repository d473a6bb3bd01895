import Tracing.Ident
import Tracing.Sampling.Rate

/-!
# Sampling

Whether a trace is recorded in detail is decided once, when its root starts. A sampler makes that decision from
the trace and the name of the root, and may take into account how often it was asked before; chance enters as
a sequence of numbers that the caller hands in.
-/

namespace Tracing

/-- What a sampler decides for a root, and the rate at which it did. -/
structure SamplingDecision where
  sampled : Bool
  rate : Float
deriving DecidableEq, Repr, Inhabited

/-- A decision procedure for roots. The first argument counts the earlier decisions. -/
structure Sampler where
  decide : (asked : Nat) → TraceId → (name : String) → SamplingDecision

instance : Inhabited Sampler := ⟨⟨fun _ _ _ => default⟩⟩

/-- The ways to sample that settings can name. -/
inductive Sampling where
  | alwaysOn
  | alwaysOff
  /-- Each root on its own with the given probability, which is rounded before use. -/
  | ratio (rate : Float)
deriving DecidableEq, Repr, Inhabited

namespace Sampling

/-- The way to sample at a rate, rounded at once. -/
def ofRate (rate : Float) : Sampling := .ratio (SampleRate.round rate)

/-- The probability that a root is sampled. -/
def rate : Sampling → Float
  | alwaysOn => 1.0
  | alwaysOff => 0.0
  | ratio p => SampleRate.round p

/-- The decision with a number drawn from the unit interval, which counts only between the two extremes. -/
def decide (s : Sampling) (draw : Float) : SamplingDecision :=
  let rate := s.rate
  { sampled := if rate ≥ 1.0 then true else if rate ≤ 0.0 then false else draw < rate, rate }

/-- The sampler that draws its numbers from a sequence. -/
def sampler (s : Sampling) (draws : Nat → Float) : Sampler := ⟨fun asked _ _ => s.decide (draws asked)⟩

end Sampling

/-- The sampler that hands out given decisions in turn and repeats the last one. -/
def Sampler.ofDecisions (first : SamplingDecision) (rest : List SamplingDecision) : Sampler :=
  ⟨fun asked _ _ => ((first :: rest)[asked]?).getD ((first :: rest).getLast (by simp))⟩

end Tracing
