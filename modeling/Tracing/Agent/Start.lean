import Tracing.Agent.Basic
import Tracing.Text.Split

/-!
# Starting transactions and spans

A transaction continues the trace of its caller if it is given one: it inherits the trace, the sampling decision and
the state. Otherwise it is the root of a new trace, and the sampling decision is made here, once. A span is live if
its transaction is sampled, has not ended and has not reached its limit; else it is dropped and stands for its
parent.
-/

namespace Tracing

/-- What a transaction may be started with. -/
structure TransactionOptions where
  /-- The caller's trace context; one that names no trace counts as none. -/
  parent : Option TraceContext := none
  /-- The rate at which a root is sampled, in place of the tracer's sampler. -/
  rate : Option Float := none
  /-- When it started, if not now. -/
  start : Option Instant := none

/-- What a span may be started with. -/
structure SpanOptions where
  /-- The parent; one of another transaction counts as none. -/
  parent : Option Span := none
  /-- When it started, if not now; never before its parent. -/
  start : Option Instant := none

/-- The attributes of a span of a dotted type, which is cut into type, subtype and action. Further dots belong to
the action, and an empty part counts as none. -/
def SpanData.ofType (name type : String) : SpanData :=
  let part (cs : List Char) : Option String := if cs = [] then none else some (String.ofList cs)
  match Text.splitOnce '.' type.toList with
  | none => { name, type }
  | some (base, rest) =>
    match Text.splitOnce '.' rest with
    | none => { name, type := String.ofList base, subtype := part rest }
    | some (subtype, action) =>
      { name, type := String.ofList base, subtype := part subtype, action := part action }

namespace Agent

variable {P : Type}

/-- The decision about a root: with its own rate if it has one, else the sampler's. -/
def decide (a : Agent P) (t : Tracer) (rate : Option Float) (traceId : TraceId) (name : String) :
    SamplingDecision × Agent P :=
  let state := a.tracer t
  match rate with
  | some r =>
    ((Sampling.ofRate r).decide (state.draws state.drawn), a.setTracer t { state with drawn := state.drawn + 1 })
  | none =>
    (state.sampler.decide state.asked.length traceId name,
      a.setTracer t { state with asked := state.asked ++ [(traceId, name)] })

/-- Adds a transaction with its attributes. -/
def addTransaction (a : Agent P) (data : TransactionData) : Nat × Agent P :=
  (a.transactions.size, { a with transactions := a.transactions.push { data := some data } })

/-- Where a transaction stands: its trace context, its parent and its rate, if known. -/
structure Origin where
  traceContext : TraceContext
  parentId : Option SpanId
  sampleRate : Option Float

/-- The origin of a transaction that continues the trace of its caller. -/
def Origin.continuing (parent : TraceContext) (spanId : SpanId) : Origin where
  traceContext := parent.withSpanId spanId
  parentId := some parent.spanId
  sampleRate := if parent.isSampled then SampleRate.ofState parent.state else some 0.0

/-- The origin of a root after its sampling decision. -/
def Origin.root (traceId : TraceId) (spanId : SpanId) (d : SamplingDecision) : Origin :=
  let rate := if d.sampled then d.rate else 0.0
  { traceContext := .make traceId spanId (.ofSampled d.sampled) (SampleRate.record .empty rate)
    parentId := none
    sampleRate := some rate }

/-- Starts a transaction. -/
def startTransaction (a : Agent P) (t : Tracer) (name type : String) (options : TransactionOptions)
    (now : Instant) : Transaction × Agent P :=
  let (spanId, a) := a.drawSpanId t
  let (origin, a) : Origin × Agent P :=
    match options.parent.filter TraceContext.isValid with
    | some parent => (.continuing parent spanId, a)
    | none =>
      let (traceId, a) := a.drawTraceId t
      let (d, a) := a.decide t options.rate traceId name
      (.root traceId spanId d, a)
  let (slot, a) := a.addTransaction { name, type }
  ({ slot, tracer := t, traceContext := origin.traceContext, parentId := origin.parentId,
     sampleRate := origin.sampleRate, start := options.start.getD now,
     maxSpans := (a.tracer t).settings.maxSpans }, a)

/-- Starts a transaction that continues the trace of a context. -/
def startTransactionFrom (a : Agent P) (t : Tracer) (name type : String) (cx : Context) (now : Instant) :
    Transaction × Agent P :=
  a.startTransaction t name type { parent := cx.traceContext } now

/-- Counts a dropped span. -/
def countDropped (a : Agent P) (t : Transaction) : Agent P :=
  let state := a.transaction t
  a.setTransaction t { state with count := { state.count with dropped := state.count.dropped + 1 } }

/-- Counts a live span. -/
def countStarted (a : Agent P) (t : Transaction) : Agent P :=
  let state := a.transaction t
  a.setTransaction t { state with count := { state.count with started := state.count.started + 1 } }

/-- Adds a live span with its attributes. -/
def addSpan (a : Agent P) (data : SpanData) : Nat × Agent P :=
  (a.spans.size, { a with spans := a.spans.push (some data) })

/-- Starts a span of a transaction. -/
def startSpan (a : Agent P) (t : Transaction) (name type : String) (options : SpanOptions) (now : Instant) :
    Span × Agent P :=
  let parent := options.parent.filter fun s => s.belongsTo t
  let parentContext := (parent.map Span.traceContext).getD t.traceContext
  if a.hasEnded t then (.dropped parentContext (some t), a)
  else if !t.isSampled || (a.spanCount t).started ≥ t.maxSpans then
    (.dropped parentContext (some t), a.countDropped t)
  else
    let parentStart := (parent.bind Span.start).getD t.start
    let (spanId, a) := (a.countStarted t).drawSpanId t.tracer
    let (slot, a) := a.addSpan (.ofType name type)
    (.live { slot, traceContext := parentContext.withSpanId spanId, parentId := parentContext.spanId,
             start := (options.start.getD now).latest parentStart, transaction := t }, a)

/-- Starts a child of a span. Without a transaction there is nothing to record it in. -/
def startChild (a : Agent P) (s : Span) (name type : String) (now : Instant) : Span × Agent P :=
  match s.transaction with
  | some t => a.startSpan t name type { parent := some s } now
  | none => (.dropped s.traceContext none, a)

/-- Starts a child of what is active in a context, and derives the context in which it is active. Without an active
trace the span is dropped, and the context stays as it is. -/
def startSpanIn (a : Agent P) (cx : Context) (name type : String) (now : Instant) :
    Span × Context × Agent P :=
  match cx.span, cx.transaction with
  | some parent, _ =>
    let (s, a) := a.startChild parent name type now
    (s, cx.withSpan s, a)
  | none, some t =>
    let (s, a) := a.startSpan t name type {} now
    (s, cx.withSpan s, a)
  | none, none => (.dropped .none none, cx, a)

end Agent

end Tracing
