import Tracing.Export.Error
import Tracing.Traceparent
import Tracing.Usage

/-!
# Diagnostic events

The agent never reports its own troubles to the code that it observes. It emits events instead, each with a
level, the part of the agent it comes from, a name and fields of text.
-/

namespace Tracing

/-- How serious an event is. -/
inductive Level where
  | error
  | warn
  | debug
deriving DecidableEq, Repr

/-- The word for a level. -/
def Level.text : Level → String
  | error => "ERROR"
  | warn => "WARN"
  | debug => "DEBUG"

/-- What the agent reports about itself. -/
inductive Event where
  /-- A context was not attached because the stack of its thread is full. -/
  | attachFailed (maxDepth : Nat)
  /-- A guard stood for a position that no attached context can have. -/
  | outOfOrderDrop (position : Nat)
  /-- A guard stood for a position beyond the stack of its thread. -/
  | popOutOfBounds (position length : Nat)
  | malformedStandardHeader (error : HeaderError)
  | malformedLegacyHeader (error : HeaderError)
  | invalidState (error : HeaderError)
  | shutdownFailed (error : ExportError)
  /-- An export on the thread of the caller failed. -/
  | directExportFailed (error : ExportError)
  /-- An export on the thread of a queue failed. -/
  | queuedExportFailed (error : ExportError)
  | workerExiting
  | droppingStarted
  | recordsDropped (count : Nat)
  | misuse (error : UsageError)
  | registryFull (capacity : Nat)
  | orphansSwept (count : Nat) (maxAge : Duration)
  | expiredReplaced (key : String)
  | invalidSampleRate (value : String)
  | invalidMaxSpans (value : String)
  | invalidLegacyFlag (value : String)
  | callbackPanicked (operation message : String)
deriving DecidableEq

namespace Event

/-- The level of an event. -/
def level : Event → Level
  | callbackPanicked .. => .error
  | attachFailed .. | outOfOrderDrop .. | popOutOfBounds .. | droppingStarted | recordsDropped .. | misuse ..
  | registryFull .. | orphansSwept .. | invalidSampleRate .. | invalidMaxSpans .. | invalidLegacyFlag .. => .warn
  | malformedStandardHeader .. | malformedLegacyHeader .. | invalidState .. | shutdownFailed ..
  | directExportFailed .. | queuedExportFailed .. | workerExiting | expiredReplaced .. => .debug

/-- The part of the agent that an event comes from. -/
def source : Event → String
  | attachFailed .. | outOfOrderDrop .. | popOutOfBounds .. => "apm"
  | _ => "apm_sdk"

/-- The name of an event. -/
def name : Event → String
  | attachFailed .. => "Context.AttachFailed"
  | outOfOrderDrop .. => "Context.OutOfOrderDrop"
  | popOutOfBounds .. => "Context.PopOutOfBounds"
  | malformedStandardHeader .. => "TraceContextPropagator.MalformedHeader"
  | malformedLegacyHeader .. => "LegacyTraceparentPropagator.MalformedHeader"
  | invalidState .. => "TraceContextPropagator.InvalidTraceState"
  | shutdownFailed .. => "Tracer.ShutdownError"
  | directExportFailed .. => "SimpleProcessor.OnEnd.Error"
  | queuedExportFailed .. => "QueueProcessor.ExportError"
  | workerExiting => "QueueProcessor.ThreadExiting"
  | droppingStarted => "QueueProcessor.RecordDroppingStarted"
  | recordsDropped .. => "QueueProcessor.RecordsDropped"
  | misuse .. => "Tracer.UsageError"
  | registryFull .. => "CorrelationRegistry.Full"
  | orphansSwept .. => "CorrelationRegistry.OrphansSwept"
  | expiredReplaced .. => "CorrelationRegistry.ExpiredEntryReplaced"
  | invalidSampleRate .. => "Tracer.Config.InvalidSampleRate"
  | invalidMaxSpans .. => "Tracer.Config.InvalidMaxSpans"
  | invalidLegacyFlag .. => "Tracer.Config.InvalidBool"
  | callbackPanicked .. => "Adapter.Panic"

/-- The fields of an event with their names. -/
def fields : Event → List (String × String)
  | attachFailed maxDepth =>
    [("max_depth", toString maxDepth),
     ("message",
      "Context stack is full; the current context is unchanged and dropping the guard has no effect")]
  | outOfOrderDrop position =>
    [("position", toString position), ("message", "Attempted to pop the base or overflow position")]
  | popOutOfBounds position length =>
    [("position", toString position), ("stack_length", toString length),
     ("message", "Attempted to pop beyond the end of the context stack")]
  | malformedStandardHeader e | malformedLegacyHeader e | invalidState e => [("error", e.message)]
  | shutdownFailed e => [("error", e.message)]
  | directExportFailed e | queuedExportFailed e => [("reason", e.detail)]
  | workerExiting => [("reason", "channel disconnected")]
  | droppingStarted =>
    [("message",
      "QueueProcessor dropped a record because the queue is full. " ++
        "Further drops are counted and reported at shutdown.")]
  | recordsDropped count => [("dropped_count", toString count)]
  | misuse e => [("error", e.message)]
  | registryFull capacity => [("capacity", toString capacity)]
  | orphansSwept count maxAge =>
    [("swept_count", toString count), ("max_age_ms", toString maxAge.toMillis)]
  | expiredReplaced key => [("key", key)]
  | invalidSampleRate value =>
    [("message",
      "ELASTIC_APM_TRANSACTION_SAMPLE_RATE must be a number between 0.0 and 1.0. Falling back to 1.0"),
     ("value", value)]
  | invalidMaxSpans value =>
    [("message", "ELASTIC_APM_TRANSACTION_MAX_SPANS must be an integer. Falling back to the default"),
     ("value", value)]
  | invalidLegacyFlag value =>
    [("message",
      "ELASTIC_APM_USE_ELASTIC_TRACEPARENT_HEADER must be true or false. Falling back to true"),
     ("value", value)]
  | callbackPanicked operation message => [("operation", operation), ("message", message)]

end Event

end Tracing
