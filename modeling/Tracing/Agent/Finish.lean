import Tracing.Agent.Basic

/-!
# Editing, ending and reporting

Attributes can be set until a transaction or a span ends; afterwards setting them changes nothing. Ending freezes
the attributes into a record and hands it to the processors. Ending again is a misuse and changes nothing. A
dropped span takes all of this and does nothing. An error is captured as a record that names where in a trace it
happened.
-/

namespace Tracing

/-- A change of an attribute of a transaction. -/
inductive TransactionEdit where
  | name (name : String)
  | type (type : String)
  | result (result : String)
  | outcome (outcome : Outcome)
  | tag (key value : String)
deriving DecidableEq

/-- The attributes after a change. -/
def TransactionEdit.apply : TransactionEdit → TransactionData → TransactionData
  | .name s, d => { d with name := s }
  | .type s, d => { d with type := s }
  | .result s, d => { d with result := some s }
  | .outcome o, d => { d with outcome := o }
  | .tag key value, d => { d with tags := d.tags.put key value }

/-- A change of an attribute of a span. -/
inductive SpanEdit where
  | name (name : String)
  | subtype (subtype : String)
  | action (action : String)
  | tag (key value : String)
deriving DecidableEq

/-- The attributes after a change. -/
def SpanEdit.apply : SpanEdit → SpanData → SpanData
  | .name s, d => { d with name := s }
  | .subtype s, d => { d with subtype := some s }
  | .action s, d => { d with action := some s }
  | .tag key value, d => { d with tags := d.tags.put key value }

/-- How something ends: now, at a given time, or after a given duration. -/
inductive Ending where
  | now
  | at (time : Instant)
  | after (duration : Duration)
deriving DecidableEq

/-- The duration of what started at `start` and ends now or otherwise. An end before the start gives zero. -/
def Ending.duration (e : Ending) (start now : Instant) : Duration :=
  match e with
  | .now => start.elapsed now
  | .at t => start.elapsed t
  | .after d => d

namespace Agent

variable {P : Type} [Processor P]

/-- Changes an attribute of a transaction that has not ended. -/
def editTransaction (a : Agent P) (t : Transaction) (e : TransactionEdit) : Agent P :=
  let state := a.transaction t
  a.setTransaction t { state with data := state.data.map e.apply }

/-- Changes an attribute of a live span that has not ended. -/
def editSpan (a : Agent P) (s : Span) (e : SpanEdit) : Agent P :=
  match s with
  | .live s => a.setSpan s ((a.span s).map e.apply)
  | .dropped .. => a

/-- An act on the processors of a tracer. -/
def onProcessors {α : Type} (t : Tracer) (x : Act (List P) α) : Act (Agent P) α :=
  Act.onPart (fun a => (a.tracer t).processors)
    (fun ps a => a.setTracer t { a.tracer t with processors := ps }) x

/-- An act on one processor of a tracer, by its place; nothing if there is none. -/
def onProcessor {α : Type} (t : Tracer) (k : Nat) (x : Act P α) : Act (Agent P) (Option α) :=
  onProcessors t (Act.nth k x)

/-- Hands a record to the processors of a tracer, unless it is shut down. -/
def emit (t : Tracer) (r : Record) : Act (Agent P) Unit := do
  if !((← Act.get).tracer t).isShutdown then onProcessors t (Processor.onEndAll r)

/-- Reports a misuse to a tracer. -/
def misuse (t : Tracer) (e : UsageError) : Act (Agent P) Unit := do
  Act.misuse ((← Act.get).tracer t).settings.strict e

/-- The record of a transaction with the attributes that it ended with. -/
def transactionRecord (t : Transaction) (d : TransactionData) (count : SpanCount) (duration : Duration) :
    TransactionRecord where
  name := d.name
  type := d.type
  result := d.result
  outcome := d.outcome
  tags := d.tags
  traceContext := t.traceContext
  parentId := t.parentId
  sampleRate := t.sampleRate
  start := t.start
  duration := duration
  spanCount := count

/-- The record of a span with the attributes that it ended with. -/
def spanRecord (s : LiveSpan) (d : SpanData) (duration : Duration) : SpanRecord where
  name := d.name
  type := d.type
  subtype := d.subtype
  action := d.action
  tags := d.tags
  traceContext := s.traceContext
  parentId := s.parentId
  transactionId := s.transaction.id
  start := s.start
  duration := duration

/-- Ends a transaction. -/
def endTransaction (t : Transaction) (ending : Ending) (now : Instant) : Act (Agent P) Unit := do
  let state := (← Act.get).transaction t
  match state.data with
  | none => misuse t.tracer (.alreadyEnded .transaction t.id)
  | some d =>
    Act.modify (·.setTransaction t { state with data := none })
    emit t.tracer (.transaction (transactionRecord t d state.count (ending.duration t.start now)))

/-- Ends a span. -/
def endSpan (s : Span) (ending : Ending) (now : Instant) : Act (Agent P) Unit := do
  match s with
  | .dropped .. => return
  | .live s =>
    match (← Act.get).span s with
    | none => misuse s.transaction.tracer (.alreadyEnded .span s.traceContext.spanId)
    | some d =>
      Act.modify (·.setSpan s none)
      emit s.transaction.tracer (.span (spanRecord s d (ending.duration s.start now)))

/-- The record of an error that happened in a context: linked to the active span, if that belongs to a transaction,
or else to the active transaction. -/
def errorRecord (a : Agent P) (id : TraceId) (cx : Context) (message : String) (causes : List String) :
    ErrorRecord :=
  let parent := ((cx.span.filter fun s => s.transaction.isSome).map Span.traceContext)
    <|> cx.transaction.map Transaction.traceContext
  { id, traceId := parent.map TraceContext.traceId, transactionId := cx.transaction.map Transaction.id,
    parentId := parent.map TraceContext.spanId, sampled := cx.transaction.map Transaction.isSampled,
    transactionType := cx.transaction.bind fun t => (a.transaction t).data.map TransactionData.type,
    message, causes }

/-- Captures an error and returns its record, which has an identifier of its own. -/
def captureError (t : Tracer) (cx : Context) (message : String) (causes : List String) :
    Act (Agent P) ErrorRecord := do
  let id ← Act.update fun a => a.drawTraceId t
  let r := (← Act.get).errorRecord id cx message causes
  emit t (.error r)
  return r

end Agent

end Tracing
