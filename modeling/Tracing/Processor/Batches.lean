import Tracing.Export.Exporter
import Tracing.Processor.Basic

/-!
# Batches

Records held back are exported in consecutive batches of a greatest size, all of that size but the last. Every
batch is attempted, whatever became of the one before it.
-/

namespace Tracing

/-- Consecutive pieces of a list of `size + 1` elements each, except that the last may be shorter. -/
def piecesOf {α : Type} (size : Nat) (l : List α) : List (List α) :=
  if l = [] then [] else l.take (size + 1) :: piecesOf size (l.drop (size + 1))
termination_by l.length
decreasing_by
  have : l.length ≠ 0 := by simpa using ‹¬ l = []›
  simp only [List.length_drop]
  omega

/-- The batches of a list of records under a limit, which counts as one if it is zero. -/
def batchesOf {α : Type} (limit : Nat) (l : List α) : List (List α) := piecesOf (limit - 1) l

/-- Exports batches in order; all are attempted, and the last failure counts. -/
def deliverAll {E : Type} [Exporter E] : List (List Record) → Act E ExportResult
  | [] => return .ok ()
  | batch :: rest => do
    let first ← Exporter.deliver batch
    match ← deliverAll rest with
    | .error e => return .error e
    | .ok () => return first

/-- Exports all records in batches. -/
def exportBatches {E : Type} [Exporter E] (limit : Nat) (records : List Record) : Act E ExportResult :=
  deliverAll (batchesOf limit records)

end Tracing
