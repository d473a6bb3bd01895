import Tracing.Context
import Tracing.IdGenerator
import Tracing.Processor.Basic
import Tracing.Settings

/-!
# The agent

The agent keeps what changes about the tracers, transactions and spans of a process: each table holds, under the
slot of a handle, the state of that tracer, transaction or span. A transaction or a span holds its attributes until
it ends; from then on there is nothing left to change.
-/

namespace Tracing

/-- The attributes of a transaction that has not ended. -/
structure TransactionData where
  name : String
  type : String
  result : Option String := none
  outcome : Outcome := .unknown
  tags : Tags := []
deriving DecidableEq, Inhabited

/-- What changes about a transaction. -/
structure TransactionState where
  /-- The attributes; nothing once it has ended. -/
  data : Option TransactionData := none
  count : SpanCount := {}
deriving DecidableEq, Inhabited

/-- The attributes of a live span that has not ended. -/
structure SpanData where
  name : String
  type : String
  subtype : Option String := none
  action : Option String := none
  tags : Tags := []
deriving DecidableEq, Inhabited

/-- What changes about a tracer, and what it was built with. -/
structure TracerState (P : Type) where
  settings : Settings := {}
  sampler : Sampler
  /-- The numbers drawn for roots with a rate of their own. -/
  draws : Nat → Float := fun _ => 0.0
  drawn : Nat := 0
  /-- The slot of the source of identifiers, which tracers may share. -/
  generator : Nat
  processors : List P := []
  isShutdown : Bool := false
  /-- The roots that the sampler was asked about, oldest first. -/
  asked : List (TraceId × String) := []

instance {P : Type} : Inhabited (TracerState P) := ⟨{ sampler := default, generator := 0 }⟩

/-- The tracers, transactions and spans of a process. -/
structure Agent (P : Type) where
  tracers : Array (TracerState P) := #[]
  generators : Array IdGenerator := #[]
  transactions : Array TransactionState := #[]
  /-- The attributes of each live span; nothing once it has ended. -/
  spans : Array (Option SpanData) := #[]

namespace Agent

variable {P : Type}

/-- The agent of a process in which nothing has started. -/
def empty : Agent P := {}

/-- Adds a source of identifiers. -/
def addGenerator (a : Agent P) (g : IdGenerator) : Nat × Agent P :=
  (a.generators.size, { a with generators := a.generators.push g })

/-- Adds a tracer. -/
def addTracer (a : Agent P) (state : TracerState P) : Tracer × Agent P :=
  (⟨a.tracers.size⟩, { a with tracers := a.tracers.push state })

/-- The state of a tracer. -/
def tracer (a : Agent P) (t : Tracer) : TracerState P := a.tracers.getD t.slot default

/-- Changes the state of a tracer. -/
def setTracer (a : Agent P) (t : Tracer) (state : TracerState P) : Agent P :=
  { a with tracers := a.tracers.setIfInBounds t.slot state }

/-- The state of a transaction. -/
def transaction (a : Agent P) (t : Transaction) : TransactionState := a.transactions.getD t.slot default

/-- Changes the state of a transaction. -/
def setTransaction (a : Agent P) (t : Transaction) (state : TransactionState) : Agent P :=
  { a with transactions := a.transactions.setIfInBounds t.slot state }

/-- The attributes of a live span, unless it has ended. -/
def span (a : Agent P) (s : LiveSpan) : Option SpanData := a.spans.getD s.slot none

/-- Changes the attributes of a live span. -/
def setSpan (a : Agent P) (s : LiveSpan) (data : Option SpanData) : Agent P :=
  { a with spans := a.spans.setIfInBounds s.slot data }

/-- The transaction has ended. -/
def hasEnded (a : Agent P) (t : Transaction) : Bool := (a.transaction t).data.isNone

/-- How many spans the transaction has started. -/
def spanCount (a : Agent P) (t : Transaction) : SpanCount := (a.transaction t).count

/-- The span is live and has not ended. -/
def isRecording (a : Agent P) : Span → Bool
  | .live s => (a.span s).isSome
  | .dropped .. => false

/-- Draws from the source of a tracer. -/
def draw {α : Type} (a : Agent P) (t : Tracer) (next : IdGenerator → α × IdGenerator) : α × Agent P :=
  let slot := (a.tracer t).generator
  let (id, g) := next (a.generators.getD slot default)
  (id, { a with generators := a.generators.setIfInBounds slot g })

/-- Draws the identifier of a span. -/
def drawSpanId (a : Agent P) (t : Tracer) : SpanId × Agent P := a.draw t IdGenerator.nextSpan

/-- Draws the identifier of a trace. -/
def drawTraceId (a : Agent P) (t : Tracer) : TraceId × Agent P := a.draw t IdGenerator.nextTrace

end Agent

end Tracing
