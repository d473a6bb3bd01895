import Tracing.Ident
import Tracing.TraceFlags
import Tracing.TraceState.Basic

/-!
# Trace context

Where execution stands within a trace: the trace, the current span or transaction, the sampling decision and
what the vendors say. Of the flags only the sampled one is kept, which is the only one that the format defines.
-/

namespace Tracing

/-- The identity of a point of execution within a trace. -/
structure TraceContext where
  traceId : TraceId
  spanId : SpanId
  flags : TraceFlags
  state : TraceState
deriving DecidableEq, Inhabited

namespace TraceContext

/-- The context that names no trace. -/
def none : TraceContext := ⟨.zero, .zero, .none, .empty⟩

/-- A context that keeps the sampled flag alone. -/
def make (traceId : TraceId) (spanId : SpanId) (flags : TraceFlags) (state : TraceState) : TraceContext :=
  ⟨traceId, spanId, flags.inter .sampled, state⟩

/-- Both identifiers name something. -/
def isValid (tc : TraceContext) : Bool := tc.traceId.isValid && tc.spanId.isValid

/-- The trace is sampled. -/
def isSampled (tc : TraceContext) : Bool := tc.flags.isSampled

/-- The same point of a trace seen from another span. -/
def withSpanId (tc : TraceContext) (spanId : SpanId) : TraceContext := { tc with spanId }

/-- The same point of a trace with another state. -/
def withState (tc : TraceContext) (state : TraceState) : TraceContext := { tc with state }

end TraceContext

end Tracing
