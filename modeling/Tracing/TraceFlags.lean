/-!
# Trace flags

Eight flags travel with a trace. The format defines the lowest one: the trace is sampled.
-/

namespace Tracing

/-- The flags of a trace, one bit each. -/
structure TraceFlags where
  bits : UInt8
deriving DecidableEq, Inhabited, Repr

namespace TraceFlags

/-- No flag. -/
def none : TraceFlags := ⟨0⟩

/-- The sampled flag alone. -/
def sampled : TraceFlags := ⟨1⟩

/-- Flags common to both. -/
def inter (a b : TraceFlags) : TraceFlags := ⟨a.bits &&& b.bits⟩

/-- Flags of either. -/
def union (a b : TraceFlags) : TraceFlags := ⟨a.bits ||| b.bits⟩

/-- The flags that are not set. -/
def compl (a : TraceFlags) : TraceFlags := ⟨~~~a.bits⟩

/-- The sampled flag is set. -/
def isSampled (a : TraceFlags) : Bool := a.inter sampled == sampled

/-- The flags with the sampled flag as given. -/
def withSampled (a : TraceFlags) (on : Bool) : TraceFlags :=
  if on then a.union sampled else a.inter sampled.compl

/-- The flags of a sampling decision. -/
def ofSampled (on : Bool) : TraceFlags := none.withSampled on

@[simp] theorem isSampled_ofSampled (on : Bool) : (ofSampled on).isSampled = on := by
  cases on <;> decide

end TraceFlags

end Tracing
