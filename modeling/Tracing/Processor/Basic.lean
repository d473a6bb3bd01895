import Tracing.Act
import Tracing.Record

/-!
# Processors

A processor receives every record of a tracer and decides when to export it. It can be asked to export all that it
holds, and it is shut down once.
-/

namespace Tracing

/-- What receives the records of a tracer. -/
class Processor (P : Type) where
  /-- Takes a record. -/
  onEnd : Record → Act P Unit
  /-- Exports all records held. -/
  forceFlush : Act P ExportResult
  /-- Exports all records held and ends the work. -/
  shutdown : Act P ExportResult

/-- Runs an act on each state of a list in order; a panic leaves the rest as it was. -/
def Act.forEach {σ α : Type} (x : Act σ α) : Act (List σ) (List α) := fun
  | [] => (.ok [], [], [])
  | s :: rest =>
    match x s with
    | (.error p, s, events) => (.error p, s :: rest, events)
    | (.ok a, s, events) =>
      let (r, rest, more) := Act.forEach x rest
      (r.map (a :: ·), s :: rest, events ++ more)

/-- Runs an act on one state of a list, by its place; nothing if there is none. -/
def Act.nth {σ α : Type} (k : Nat) (x : Act σ α) : Act (List σ) (Option α) := fun l =>
  match l[k]? with
  | none => (.ok none, l, [])
  | some s =>
    let (r, s, events) := x s
    (r.map some, l.set k s, events)

/-- The first failure of several results. -/
def firstFailure : List ExportResult → ExportResult
  | [] => .ok ()
  | .error e :: _ => .error e
  | .ok () :: rest => firstFailure rest

/-- The last failure of several results. -/
def lastFailure (rs : List ExportResult) : ExportResult := firstFailure rs.reverse

namespace Processor

variable {P : Type} [Processor P]

/-- Hands a record to all processors in order. -/
def onEndAll (r : Record) : Act (List P) Unit := do
  let _ ← Act.forEach (onEnd r)
  return ()

/-- Flushes all processors in order; the first failure counts. -/
def forceFlushAll : Act (List P) ExportResult := do
  return firstFailure (← Act.forEach forceFlush)

/-- Shuts one processor down, and reports a failure. -/
def shutdownReported : Act P ExportResult := do
  let r ← shutdown
  if let .error e := r then Act.emit (.shutdownFailed e)
  return r

/-- Shuts all processors down in order; the last failure counts. -/
def shutdownAll : Act (List P) ExportResult := do
  return lastFailure (← Act.forEach shutdownReported)

end Processor

end Tracing
