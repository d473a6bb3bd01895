import Tracing.Act
import Tracing.Record

/-!
# Exporters

An exporter takes records out of the process in batches. It may fail, and a faulty one may panic. Besides the
interface there are a store that keeps all records in memory, and an exporter that rehearses failures in front of
such a store.
-/

namespace Tracing

/-- What takes records out of the process. -/
class Exporter (E : Type) where
  /-- Exports one batch. -/
  deliver : List Record → Act E ExportResult
  /-- Ends the export. -/
  close : Act E ExportResult := pure (.ok ())
  /-- A batch can be delivered now; until it can, the one who delivers waits. -/
  isReady : E → Bool := fun _ => true

/-- Records kept in memory, in the order of export. -/
structure MemoryStore where
  records : Array Record := #[]
deriving DecidableEq, Inhabited

namespace MemoryStore

/-- The store with a batch more. -/
def append (s : MemoryStore) (batch : List Record) : MemoryStore := ⟨s.records ++ batch.toArray⟩

/-- The transactions kept. -/
def transactions (s : MemoryStore) : List TransactionRecord :=
  s.records.toList.filterMap fun
    | .transaction r => some r
    | _ => none

/-- The spans kept. -/
def spans (s : MemoryStore) : List SpanRecord :=
  s.records.toList.filterMap fun
    | .span r => some r
    | _ => none

/-- The errors kept. -/
def errors (s : MemoryStore) : List ErrorRecord :=
  s.records.toList.filterMap fun
    | .error r => some r
    | _ => none

instance : Exporter MemoryStore where
  deliver batch := do
    Act.modify (·.append batch)
    return .ok ()

end MemoryStore

/-- An exporter that rehearses failures: it notes its calls, fails or panics at given ones, and can be made to
wait. Records of a failed call are lost. -/
structure RehearsedExporter where
  /-- The messages of the calls that fail, by number. -/
  failures : List (Nat × String) := []
  /-- The number of the call that panics. -/
  panicOn : Option Nat := none
  /-- The message with which closing fails. -/
  closeFailure : Option String := none
  /-- While this is false, calls wait. -/
  isOpen : Bool := true
  /-- The sizes of the batches of all calls. -/
  batches : Array Nat := #[]
  closes : Nat := 0
  store : MemoryStore := {}
deriving DecidableEq, Inhabited

namespace RehearsedExporter

/-- One call: noted first, then cut short, refused or kept. -/
def deliver (batch : List Record) : Act RehearsedExporter ExportResult := do
  let e ← Act.get
  let call := e.batches.size
  Act.modify fun e => { e with batches := e.batches.push batch.length }
  if e.panicOn = some call then
    Act.panic ⟨some "exporter panic"⟩
  else match e.failures.lookup call with
    | some message => return .error (.internal message)
    | none =>
      Act.modify fun e => { e with store := e.store.append batch }
      return .ok ()

/-- Closing is counted, and fails if the script says so. -/
def close : Act RehearsedExporter ExportResult := do
  let e ← Act.get
  Act.modify fun e => { e with closes := e.closes + 1 }
  match e.closeFailure with
  | some message => return .error (.internal message)
  | none => return .ok ()

instance : Exporter RehearsedExporter where
  deliver := deliver
  close := close
  isReady := isOpen

end RehearsedExporter

end Tracing
