import Tracing.Processor.Queue
import Tracing.Proofs.Act
import Tracing.Proofs.Processor.Batches

/-! # Watching an exporter

What a worker does to its exporter shows in the calls that it makes. A watched exporter notes the batches that are
handed to it, also those that it fails to export, and how often it is closed; it does otherwise what the exporter
behind it does (`Act.Mirrors`). One that never panics comes back from every call, and so the worker hands over its
whole buffer, batch by batch. -/

namespace Tracing

/-- An exporter together with the calls that were made on it. -/
structure Watched (E : Type) where
  inner : E
  /-- The batches handed over, oldest first. -/
  batches : List (List Record) := []
  closes : Nat := 0

namespace Watched

variable {E : Type}

/-- The exporter after more calls. -/
def noted (w : Watched E) (inner : E) (batches : List (List Record)) (closes : Nat) : Watched E :=
  ⟨inner, w.batches ++ batches, w.closes + closes⟩

theorem noted_noted (w : Watched E) (inner inner' : E) (batches batches' : List (List Record)) (closes closes' : Nat) :
    (w.noted inner batches closes).noted inner' batches' closes' =
      w.noted inner' (batches ++ batches') (closes + closes') := by
  simp [noted, Nat.add_assoc]

variable [Exporter E]

/-- A call on the exporter behind. -/
def call {α : Type} (x : Act E α) : Act (Watched E) α := Act.onPart Watched.inner (fun e w => { w with inner := e }) x

instance : Exporter (Watched E) where
  deliver batch := do
    Act.modify fun w => { w with batches := w.batches ++ [batch] }
    call (Exporter.deliver batch)
  close := do
    Act.modify fun w => { w with closes := w.closes + 1 }
    call Exporter.close
  isReady w := Exporter.isReady w.inner

end Watched

/-- The act returns a result and leaves a state with the property. -/
def Act.Returns {σ α : Type} (P : σ → Prop) (x : Act σ α) (s : σ) : Prop := (∃ a, (x s).1 = .ok a) ∧ P (x s).2.1

/-- No run of calls of the exporter ends in a panic. -/
def NeverPanics {E : Type} [Exporter E] (e : E) : Prop :=
  ∃ good : E → Prop, good e ∧ ∀ e, good e →
    (∀ batch, Act.Returns good (Exporter.deliver batch) e) ∧ Act.Returns good Exporter.close e

section
variable {E : Type} [Exporter E]

theorem NeverPanics.deliver {e : E} (h : NeverPanics e) (batch : List Record) :
    Act.Returns NeverPanics (Exporter.deliver batch) e := by
  obtain ⟨good, he, hgood⟩ := h
  obtain ⟨hok, hnext⟩ := (hgood e he).1 batch
  exact ⟨hok, good, hnext, hgood⟩

theorem NeverPanics.close {e : E} (h : NeverPanics e) : Act.Returns NeverPanics Exporter.close e := by
  obtain ⟨good, he, hgood⟩ := h
  obtain ⟨hok, hnext⟩ := (hgood e he).2
  exact ⟨hok, good, hnext, hgood⟩

theorem MemoryStore.neverPanics {s : MemoryStore} : NeverPanics s :=
  ⟨fun _ => True, trivial, fun _ _ => ⟨fun _ => ⟨⟨.ok (), rfl⟩, trivial⟩, ⟨⟨.ok (), rfl⟩, trivial⟩⟩⟩

/-- A rehearsed exporter without a panic in its script may fail but never panics. -/
theorem RehearsedExporter.neverPanics {e : RehearsedExporter} (h : e.panicOn = none) : NeverPanics e := by
  refine ⟨fun e => e.panicOn = none, h, fun e h => ⟨fun batch => ?_, ?_⟩⟩
  · show Act.Returns _ (RehearsedExporter.deliver batch) e
    cases hscript : e.failures.lookup e.batches.size <;>
      simp [Act.Returns, RehearsedExporter.deliver, Act.bind_run, Act.get, Act.modify, h, hscript]
  · show Act.Returns _ RehearsedExporter.close e
    cases hscript : e.closeFailure <;>
      simp [Act.Returns, RehearsedExporter.close, Act.bind_run, Act.get, Act.modify, h, hscript]

/-- What becomes of batches that are exported one after the other. After a panic there are no more results. -/
def outcomes : List (List Record) → E → List ExportResult
  | [], _ => []
  | batch :: rest, e =>
    match Exporter.deliver batch e with
    | (.ok r, e, _) => r :: outcomes rest e
    | (.error _, _, _) => []

/-- Every batch comes to a result, and the last failure among them counts. -/
theorem deliverAll_result (batches : List (List Record)) {e : E} (h : NeverPanics e) :
    (deliverAll batches e).1 = .ok (lastFailure (outcomes batches e)) ∧
      (outcomes batches e).length = batches.length := by
  induction batches generalizing e with
  | nil => exact ⟨rfl, rfl⟩
  | cons batch rest ih =>
    obtain ⟨⟨r, hr⟩, hnext⟩ := h.deliver batch
    rcases hrun : Exporter.deliver batch e with ⟨result, next, events⟩
    rw [hrun] at hr hnext
    cases hr
    obtain ⟨hrest, hlength⟩ := ih hnext
    have houtcomes : outcomes (batch :: rest) e = r :: outcomes rest next := by rw [outcomes, hrun]
    rw [houtcomes]
    refine ⟨?_, congrArg (· + 1) hlength⟩
    rw [deliverAll, Act.bind_run, hrun]
    dsimp only
    rcases hmore : deliverAll rest next with ⟨result, last, more⟩
    rw [hmore] at hrest
    cases hrest
    rw [Act.bind_run, hmore]
    cases hfailure : lastFailure (outcomes rest next) with
    | error failure => exact congrArg Except.ok (lastFailure_cons_of_error hfailure r).symm
    | ok => exact congrArg Except.ok (lastFailure_cons_of_ok hfailure r).symm

namespace Watched

theorem deliver_run {w : Watched E} (h : NeverPanics w.inner) (batch : List Record) :
    ∃ r inner events, Exporter.deliver batch w = (.ok r, w.noted inner [batch] 0, events) ∧ NeverPanics inner := by
  obtain ⟨⟨r, hr⟩, hnext⟩ := h.deliver batch
  have hrun : Exporter.deliver batch w = ((Exporter.deliver batch w.inner).1,
      w.noted (Exporter.deliver batch w.inner).2.1 [batch] 0, (Exporter.deliver batch w.inner).2.2) := rfl
  rw [hrun, hr]
  exact ⟨r, _, _, rfl, hnext⟩

theorem close_run {w : Watched E} (h : NeverPanics w.inner) :
    ∃ r inner events, Exporter.close w = (.ok r, w.noted inner [] 1, events) ∧ NeverPanics inner := by
  obtain ⟨⟨r, hr⟩, hnext⟩ := h.close
  have hrun : Exporter.close w = ((Exporter.close w.inner).1,
      w.noted (Exporter.close w.inner).2.1 [] 1, (Exporter.close w.inner).2.2) := by
    unfold noted
    rw [List.append_nil]
    rfl
  rw [hrun, hr]
  exact ⟨r, _, _, rfl, hnext⟩

theorem neverPanics {w : Watched E} (h : NeverPanics w.inner) : NeverPanics w := by
  refine ⟨fun w => NeverPanics w.inner, h, fun w h => ⟨fun batch => ?_, ?_⟩⟩
  · obtain ⟨r, inner, events, hrun, hinner⟩ := deliver_run h batch
    unfold Act.Returns
    rw [hrun]
    exact ⟨⟨r, rfl⟩, hinner⟩
  · obtain ⟨r, inner, events, hrun, hinner⟩ := close_run h
    unfold Act.Returns
    rw [hrun]
    exact ⟨⟨r, rfl⟩, hinner⟩

/-- All batches are handed over in order, whatever becomes of them. -/
theorem deliverAll_run (batches : List (List Record)) {w : Watched E} (h : NeverPanics w.inner) :
    ∃ r inner events, deliverAll batches w = (.ok r, w.noted inner batches 0, events) ∧ NeverPanics inner := by
  induction batches generalizing w with
  | nil =>
    refine ⟨.ok (), w.inner, [], ?_, h⟩
    unfold noted
    rw [deliverAll, List.append_nil]
    rfl
  | cons batch rest ih =>
    obtain ⟨first, inner, events, hfirst, hinner⟩ := deliver_run h batch
    obtain ⟨r, inner', more, hrest, hinner'⟩ := ih (w := w.noted inner [batch] 0) hinner
    rw [deliverAll, Act.bind_run, hfirst]
    dsimp only
    rw [Act.bind_run, hrest, noted_noted]
    cases r with
    | ok => exact ⟨first, inner', _, rfl, hinner'⟩
    | error e => exact ⟨.error e, inner', _, rfl, hinner'⟩

end Watched

/-! ### Behind the watch -/

namespace Watched

theorem mirrors_deliver (batch : List Record) :
    Act.Mirrors (inner (E := E)) (Exporter.deliver batch) (Exporter.deliver batch) := fun _ => rfl

theorem mirrors_close : Act.Mirrors (inner (E := E)) Exporter.close Exporter.close := fun _ => rfl

theorem mirrors_deliverAll :
    ∀ batches : List (List Record), Act.Mirrors (inner (E := E)) (deliverAll batches) (deliverAll batches)
  | [] => Act.Mirrors.pure _
  | batch :: rest => by
    refine Act.Mirrors.bind (mirrors_deliver batch) fun first => ?_
    refine Act.Mirrors.bind (mirrors_deliverAll rest) fun r => ?_
    cases r with
    | ok => exact Act.Mirrors.pure _
    | error e => exact Act.Mirrors.pure _

end Watched

/-! ### The worker -/

/-- How often an errand closes the exporter. -/
def Errand.closes : Errand → Nat
  | shutdown _ => 1
  | due | flush _ => 0

namespace QueueProcessor

theorem exportFor_run {p : QueueProcessor (Watched E)} (errand : Errand) (h : NeverPanics p.exporter.inner) :
    ∃ r inner events, p.exportFor errand p.exporter =
      (.ok r, p.exporter.noted inner (batchesOf p.settings.maxBatchSize p.buffer) errand.closes, events) ∧
        NeverPanics inner := by
  obtain ⟨r, inner, events, hrun, hinner⟩ :=
    Watched.deliverAll_run (batchesOf p.settings.maxBatchSize p.buffer) h
  cases errand with
  | due => exact ⟨r, inner, events, hrun, hinner⟩
  | flush ticket => exact ⟨r, inner, events, hrun, hinner⟩
  | shutdown ticket =>
    obtain ⟨closed, inner', more, hclose, hinner'⟩ := Watched.close_run
      (w := p.exporter.noted inner (batchesOf p.settings.maxBatchSize p.buffer) 0) hinner
    refine ⟨firstFailure [r, closed], inner', events ++ more, ?_, hinner'⟩
    rw [exportFor, exportBatches, Act.bind_run, hrun]
    dsimp only
    rw [Act.bind_run, hclose, Watched.noted_noted, List.append_nil]
    simp [Errand.closes]

/-- The worker of a processor with a watched exporter hands over its whole buffer in batches, and closes the exporter
if it was to shut down. -/
theorem perform_run {p : QueueProcessor (Watched E)} {errand : Errand} (hworker : p.worker = .exporting errand)
    (h : NeverPanics p.exporter.inner) : ∃ r inner events,
      p.perform = finish { p with
        exporter := p.exporter.noted inner (batchesOf p.settings.maxBatchSize p.buffer) errand.closes
        workerEvents := p.workerEvents ++ events } errand r ∧ NeverPanics inner := by
  obtain ⟨r, inner, events, hrun, hinner⟩ := exportFor_run errand h
  refine ⟨r, inner, events, ?_, hinner⟩
  unfold perform
  simp only [hworker, hrun]

end QueueProcessor
end
end Tracing
