import Tracing.Proofs.Processor.Feeding

/-! # Observing processors

What a tracer asks of its processors shows in the calls that they receive. An observed processor notes the calls, and
otherwise does what the processor behind it does. One that never panics comes back from every call, also from one that
failed, so the calls go through the whole list of processors of a tracer (`CalledOnce`). -/

namespace Tracing

/-- A call that a processor receives. -/
inductive ProcessorCall where
  | onEnd (r : Record)
  | forceFlush
  | shutdown
deriving DecidableEq

/-- A processor together with the calls that it received, oldest first. -/
structure Observed (P : Type) where
  inner : P
  calls : List ProcessorCall := []

namespace Observed

variable {P : Type}

/-- A call on the processor behind. -/
def call {α : Type} (c : ProcessorCall) (x : Act P α) : Act (Observed P) α :=
  Act.onPart inner (fun p o => ⟨p, o.calls ++ [c]⟩) x

theorem mirrors_call {α : Type} (c : ProcessorCall) (x : Act P α) : Act.Mirrors inner (call c x) x := fun _ => rfl

instance [Processor P] : Processor (Observed P) where
  onEnd r := call (.onEnd r) (Processor.onEnd r)
  forceFlush := call .forceFlush Processor.forceFlush
  shutdown := call .shutdown Processor.shutdown

/-- Work of the processor behind, which is no call. -/
def work (f : P → P) (o : Observed P) : Observed P := { o with inner := f o.inner }

/-- The work that observed processors do, if those behind do the given work. -/
def Work (own : (P → P) → Prop) (g : Observed P → Observed P) : Prop := ∃ f, own f ∧ g = work f

end Observed

/-- The processors in a list were called once each, in order, whatever came of it: what they returned, what became of
them, and their events. -/
structure CalledOnce {P : Type} (c : ProcessorCall) (ask : Act (Observed P) ExportResult) (ps : List (Observed P))
    (results : List ExportResult) (ps' : List (Observed P)) (events : List Event) : Prop where
  returned : ps.map (fun p => (ask p).1) = results.map .ok
  became : ps' = ps.map fun p => (ask p).2.1
  noted : ps'.map Observed.calls = ps.map fun p => p.calls ++ [c]
  emitted : events = ps.flatMap fun p => (ask p).2.2

/-! ### Calls of observed processors -/

section
variable {P : Type} [Processor P]

namespace Observed
variable {own : (P → P) → Prop} {o : Observed P}

/-- The processor behind never panics. -/
def Calm (own : (P → P) → Prop) (o : Observed P) : Prop := Processor.NeverPanics own o.inner

theorem Calm.onEnd (h : o.Calm own) (r : Record) : Act.Returns (Calm own) (Processor.onEnd r) o :=
  Processor.NeverPanics.onEnd h r

theorem Calm.forceFlush (h : o.Calm own) : Act.Returns (Calm own) Processor.forceFlush o :=
  Processor.NeverPanics.forceFlush h

theorem shutdownReported_calls (o : Observed P) :
    (Processor.shutdownReported o).2.1.calls = o.calls ++ [.shutdown] := by
  have hcalls : (Processor.shutdown o).2.1.calls = o.calls ++ [.shutdown] := rfl
  unfold Processor.shutdownReported
  rw [Act.bind_run]
  rcases hrun : Processor.shutdown o with ⟨result, next, events⟩
  rw [hrun] at hcalls
  cases result with
  | error p => exact hcalls
  | ok r => cases r <;> exact hcalls

theorem Calm.shutdownReported (h : o.Calm own) : Act.Returns (Calm own) Processor.shutdownReported o := by
  have hshutdown : Act.Returns (Calm own) Processor.shutdown o := Processor.NeverPanics.shutdown h
  refine Act.Returns.bind hshutdown fun r o ho => ?_
  cases r <;> exact ⟨⟨_, rfl⟩, ho⟩

end Observed

section
variable {own : (P → P) → Prop} {ps : List (Observed P)}

theorem CalledOnce.forceFlush (h : ∀ p ∈ ps, p.Calm own) : ∃ results ps' events,
    CalledOnce .forceFlush Processor.forceFlush ps results ps' events ∧
      Processor.forceFlushAll ps = (.ok (firstFailure results), ps', events) := by
  obtain ⟨results, hresults, hrun⟩ := Processor.forceFlushAll_run fun p hp => (h p hp).forceFlush.1
  exact ⟨results, _, _, ⟨hresults, rfl, List.map_map, rfl⟩, hrun⟩

theorem CalledOnce.shutdown (h : ∀ p ∈ ps, p.Calm own) : ∃ results ps' events,
    CalledOnce .shutdown Processor.shutdownReported ps results ps' events ∧
      Processor.shutdownAll ps = (.ok (lastFailure results), ps', events) := by
  obtain ⟨results, hresults, hrun⟩ := Processor.shutdownAll_run fun p hp => (h p hp).shutdownReported.1
  refine ⟨results, _, _, ⟨hresults, rfl, ?_, rfl⟩, hrun⟩
  rw [List.map_map]
  exact List.map_congr_left fun p _ => p.shutdownReported_calls

end
end
end Tracing
