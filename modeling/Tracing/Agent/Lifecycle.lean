import Tracing.Agent.Finish

/-!
# Flush, shutdown and release

A tracer is flushed any number of times and shut down once. It is shut down at the latest when nothing holds it any
more: not its own handle, nor a transaction, a span or a context that leads to it.
-/

namespace Tracing

/-- What keeps tracers alive. -/
inductive Holder where
  | tracer (t : Tracer)
  | transaction (t : Transaction)
  | span (s : Span)
  | context (cx : Context)

namespace Holder

/-- The tracer of a span that belongs to a transaction. -/
def ofSpan (s : Span) : List Tracer := s.transaction.toList.map Transaction.tracer

/-- The tracers that a holder keeps alive. -/
def tracers : Holder → List Tracer
  | tracer t => [t]
  | transaction t => [t.tracer]
  | span s => ofSpan s
  | context cx => cx.transaction.toList.map Transaction.tracer ++ cx.span.toList.flatMap ofSpan

end Holder

namespace Agent

variable {P : Type} [Processor P]

/-- Exports all that the processors of a tracer hold. -/
def forceFlush (t : Tracer) : Act (Agent P) ExportResult := do
  if ((← Act.get).tracer t).isShutdown then return .error .alreadyShutdown
  onProcessors t Processor.forceFlushAll

/-- Shuts a tracer down, once. Records that come later are discarded. -/
def shutdown (t : Tracer) : Act (Agent P) ExportResult := do
  if ((← Act.get).tracer t).isShutdown then return .error .alreadyShutdown
  Act.modify fun a => a.setTracer t { a.tracer t with isShutdown := true }
  onProcessors t Processor.shutdownAll

/-- Shuts down a tracer that nothing holds any more; nobody learns the result. -/
def releaseUnheld (held : List Tracer) (t : Tracer) : Act (Agent P) Unit := do
  if !held.contains t then
    let _ ← shutdown t

/-- Shuts down the given tracers as far as nothing holds them. -/
def releaseAll (held : List Tracer) : List Tracer → Act (Agent P) Unit
  | [] => return
  | t :: rest => do
    releaseUnheld held t
    releaseAll held rest

/-- Shuts down all tracers that none of the holders keeps alive. -/
def release (holders : List Holder) : Act (Agent P) Unit := do
  let held := holders.flatMap Holder.tracers
  releaseAll held ((List.range (← Act.get).tracers.size).map Tracer.mk)

end Agent

end Tracing
