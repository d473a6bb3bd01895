import Tracing.Export.Exporter
import Tracing.Processor.Basic

/-!
# Direct processors

A direct processor exports each record as soon as it arrives, on the thread of the caller. It holds nothing, so
there is nothing to flush. If its exporter panics, the panic reaches the caller, and from then on the exporter
counts as poisoned and is not used any more.
-/

namespace Tracing

/-- A processor that exports on the thread of the caller. -/
structure DirectProcessor (E : Type) where
  exporter : E
  isShutdown : Bool := false
  /-- A call of the exporter was cut short. -/
  poisoned : Bool := false
deriving DecidableEq, Inhabited

namespace DirectProcessor

variable {E : Type} [Exporter E]

/-- The failure of a call on a poisoned exporter. -/
def poison : ExportError := .internal "mutex poisoned: poisoned lock: another task failed inside"

/-- Calls the exporter, unless it is poisoned. -/
def call (x : Act E ExportResult) : Act (DirectProcessor E) ExportResult := fun p =>
  if p.poisoned then (.ok (.error poison), p, [])
  else match x p.exporter with
    | (.ok r, e, events) => (.ok r, { p with exporter := e }, events)
    | (.error panic, e, events) => (.error panic, { p with exporter := e, poisoned := true }, events)

/-- Exports a record, and reports a failure. After shutdown the record is discarded. -/
def onEnd (r : Record) : Act (DirectProcessor E) Unit := do
  if !(← Act.get).isShutdown then
    if let .error e ← call (Exporter.deliver [r]) then Act.emit (.directExportFailed e)

/-- Shuts the exporter down, once. -/
def shutdown : Act (DirectProcessor E) ExportResult := do
  if (← Act.get).isShutdown then return .error .alreadyShutdown
  Act.modify fun p => { p with isShutdown := true }
  call Exporter.close

instance : Processor (DirectProcessor E) where
  onEnd := onEnd
  forceFlush := return .ok ()
  shutdown := shutdown

end DirectProcessor

end Tracing
