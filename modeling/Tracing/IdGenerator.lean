import Tracing.Ident

/-!
# Sources of identifiers

A source hands out identifiers for traces and spans. What it hands out next may depend on how many of either
kind it has handed out, so a source is a pair of functions of these two counts together with the counts.
-/

namespace Tracing

/-- A source of identifiers and how many it has handed out. -/
structure IdGenerator where
  traceAt : (traces spans : Nat) → TraceId
  spanAt : (traces spans : Nat) → SpanId
  traces : Nat := 0
  spans : Nat := 0

namespace IdGenerator

/-- The next identifier of a trace. -/
def nextTrace (g : IdGenerator) : TraceId × IdGenerator :=
  (g.traceAt g.traces g.spans, { g with traces := g.traces + 1 })

/-- The next identifier of a span. -/
def nextSpan (g : IdGenerator) : SpanId × IdGenerator :=
  (g.spanAt g.traces g.spans, { g with spans := g.spans + 1 })

/-- The source that counts from one, with one counter for both kinds. The counter has 64 bits. -/
def increment : IdGenerator where
  traceAt traces spans := .ofNat ((traces + spans + 1) % UInt64.size)
  spanAt traces spans := .ofNat (traces + spans + 1)

/-- The source that hands out given identifiers first and counts from one afterwards. -/
def scripted (traceIds : List TraceId) (spanIds : List SpanId) : IdGenerator where
  traceAt traces spans :=
    traceIds[traces]?.getD
      (.ofNat (((traces - traceIds.length) + (spans - spanIds.length) + 1) % UInt64.size))
  spanAt traces spans :=
    spanIds[spans]?.getD (.ofNat ((traces - traceIds.length) + (spans - spanIds.length) + 1))

/-- The source that takes its identifiers from sequences of numbers, for instance random ones. -/
def ofWords (traceWords spanWords : Nat → Nat) : IdGenerator where
  traceAt traces _ := .ofNat (traceWords traces)
  spanAt _ spans := .ofNat (spanWords spans)

/-- The words of 64 bits that follow a seed in a scrambled order. Each step of the scrambling can be undone, so no
word comes twice within a full period. -/
def scrambled (seed n : Nat) : Nat := ((seed + n) * 6364136223846793005 + 1442695040888963407) % UInt64.size

/-- The source of pseudo-random identifiers that follow from a seed. -/
def ofSeed (seed : Nat) : IdGenerator :=
  ofWords (fun n => scrambled seed (2 * n) * UInt64.size + scrambled seed (2 * n + 1)) (scrambled seed)

instance : Inhabited IdGenerator := ⟨increment⟩

end IdGenerator

end Tracing
