import Tracing.Time
import Tracing.TraceContext

/-!
# Handles

A transaction is the unit of work traced in one process, and a span is one operation within it. What is fixed
when they start stands in the handle itself, so that handles can be copied and asked without the agent; what
changes later is kept by the agent under the slot of the handle. A span is live, or it was dropped and stands in
for its parent.
-/

namespace Tracing

/-- A tracer of an agent. -/
structure Tracer where
  slot : Nat
deriving DecidableEq, Repr, Inhabited

/-- A transaction. -/
structure Transaction where
  slot : Nat
  tracer : Tracer
  traceContext : TraceContext
  /-- The span of the caller, if the transaction continues a trace. -/
  parentId : Option SpanId
  /-- The rate at which the trace was sampled, if known. -/
  sampleRate : Option Float
  start : Instant
  /-- The most live spans that it may start. -/
  maxSpans : Nat
deriving DecidableEq, Inhabited

namespace Transaction

/-- The identifier of a transaction, which is that of its span. -/
def id (t : Transaction) : SpanId := t.traceContext.spanId

/-- The transaction and its spans are recorded. -/
def isSampled (t : Transaction) : Bool := t.traceContext.isSampled

/-- Both handles stand for one transaction. -/
def same (t u : Transaction) : Bool := t.slot == u.slot

end Transaction

/-- A span that is recorded. -/
structure LiveSpan where
  slot : Nat
  traceContext : TraceContext
  parentId : SpanId
  start : Instant
  transaction : Transaction
deriving DecidableEq, Inhabited

/-- A span: recorded, or dropped and standing for its parent. -/
inductive Span where
  | live (span : LiveSpan)
  | dropped (traceContext : TraceContext) (transaction : Option Transaction)
deriving DecidableEq, Inhabited

namespace Span

/-- The context to hand on from within the span. -/
def traceContext : Span → TraceContext
  | live s => s.traceContext
  | dropped tc _ => tc

/-- The span records nothing. -/
def isDropped : Span → Bool
  | live _ => false
  | dropped .. => true

/-- The transaction that the span belongs to, if any. -/
def transaction : Span → Option Transaction
  | live s => some s.transaction
  | dropped _ t => t

/-- The span or transaction that a live span was started in. -/
def parentId : Span → Option SpanId
  | live s => some s.parentId
  | dropped .. => none

/-- When a live span started. -/
def start : Span → Option Instant
  | live s => some s.start
  | dropped .. => none

/-- The span belongs to the transaction. -/
def belongsTo (s : Span) (t : Transaction) : Bool := s.transaction.any fun own => own.same t

end Span

end Tracing
