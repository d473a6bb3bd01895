import Tracing.Proofs.Processor.Delivery

/-! # Abandoned processors

When the last caller lets go of a queue processor, nobody can put messages into the queue any more. The worker goes on
with those that wait there, and exits when it finds none. Until then it does just what it does in a history where the
processor is still held (`QueueHistory.LetGo.exists_held`), so the flow of the records goes on, too. But the worker
exits without an export: a buffer that fills no batch stays behind. -/

namespace Tracing

open QueueProcessor

namespace QueueProcessor
variable {E : Type}

/-- The worker of a released processor exits. -/
def leave (p : QueueProcessor E) : QueueProcessor E :=
  { p.release with worker := .exited, workerEvents := p.workerEvents ++ [.workerExiting] }

/-- Whether the processor is held matters to the worker only when no message waits. -/
theorem receive_release (p : QueueProcessor E) (overdue : Bool) :
    (p.worker = .waiting ∧ p.queue = [] ∧ p.release.receive overdue = p.leave) ∨
      p.release.receive overdue = (p.receive overdue).release := by
  obtain ⟨settings, exporter, queue, buffer, worker, answers, nextTicket, dropped, isShutdown, released, events⟩ := p
  cases worker with
  | waiting =>
    rcases queue with _ | ⟨_ | _ | _, rest⟩
    · exact .inl ⟨rfl, rfl, rfl⟩
    all_goals exact .inr rfl
  | exporting => exact .inr rfl
  | exited => exact .inr rfl

theorem receive_of_exited {p : QueueProcessor E} (h : p.worker = .exited) (overdue : Bool) :
    p.receive overdue = p := by
  unfold receive
  rw [h]

variable [Exporter E]

theorem perform_release (p : QueueProcessor E) : p.release.perform = p.perform.release := by
  have hworker : p.release.worker = p.worker := rfl
  cases h : p.worker with
  | waiting =>
    rw [perform_of_idle (p := p) (by rw [h]; exact nofun), perform_of_idle (by rw [hworker, h]; exact nofun)]
  | exited =>
    rw [perform_of_idle (p := p) (by rw [h]; exact nofun), perform_of_idle (by rw [hworker, h]; exact nofun)]
  | exporting errand =>
    have hexport : p.release.exportFor errand = p.exportFor errand := by cases errand <;> rfl
    have hexporter : p.release.exporter = p.exporter := rfl
    unfold perform
    simp only [hworker, h, hexport, hexporter]
    cases (p.exportFor errand p.exporter).1 with
    | error => rfl
    | ok r => cases errand <;> rfl

end QueueProcessor

namespace QueueHistory
variable {E : Type} [Exporter E]

/-- The histories that go on after the processor was let go at any moment. -/
inductive LetGo : QueueHistory E → Prop where
  | release {h : QueueHistory E} (reach : Reachable h) : LetGo (h.work QueueProcessor.release)
  | receive {h : QueueHistory E} (go : LetGo h) (overdue : Bool) : LetGo (h.work (QueueProcessor.receive overdue))
  /-- The worker may have given up waiting just before. -/
  | timeout {h : QueueHistory E} (go : LetGo h) (waiting : h.processor.worker = .waiting) : LetGo h.timeout
  | perform {h : QueueHistory E} (go : LetGo h) : LetGo (h.work QueueProcessor.perform)

/-- The processor might have been let go only now, or the worker has left since. -/
theorem LetGo.exists_held {h : QueueHistory E} (go : LetGo h) : ∃ held : QueueHistory E, Reachable held ∧
    (h = held.work QueueProcessor.release ∨
      held.processor.worker = .waiting ∧ held.processor.queue = [] ∧ h = held.work leave) := by
  -- The worker takes each step in the held history instead, and leaves that only for good.
  induction go with
  | release reach => exact ⟨_, reach, .inl rfl⟩
  | receive _ overdue ih =>
    obtain ⟨held, reach, rfl | ⟨hworker, hqueue, rfl⟩⟩ := ih
    · rcases receive_release held.processor overdue with ⟨hworker, hqueue, hleave⟩ | hreceive
      · exact ⟨held, reach, .inr ⟨hworker, hqueue, congrArg (fun p => { held with processor := p }) hleave⟩⟩
      · exact ⟨_, reach.next (.receive held overdue), .inl (congrArg (fun p => { held with processor := p }) hreceive)⟩
    · have hstays : held.processor.leave.receive overdue = held.processor.leave := receive_of_exited rfl overdue
      exact ⟨held, reach, .inr ⟨hworker, hqueue, congrArg (fun p => { held with processor := p }) hstays⟩⟩
  | timeout _ waiting ih =>
    obtain ⟨held, reach, rfl | ⟨-, -, rfl⟩⟩ := ih
    · exact ⟨_, reach.next (.timeout held waiting), .inl rfl⟩
    · cases waiting
  | perform _ ih =>
    obtain ⟨held, reach, rfl | ⟨hworker, hqueue, rfl⟩⟩ := ih
    · exact ⟨_, reach.next (.perform held),
        .inl (congrArg (fun p => { held with processor := p }) (perform_release held.processor))⟩
    · have hstays : held.processor.leave.perform = held.processor.leave := perform_of_idle nofun
      exact ⟨held, reach, .inr ⟨hworker, hqueue, congrArg (fun p => { held with processor := p }) hstays⟩⟩

/-- A worker that exited found the queue empty, and has less than a batch in its buffer. -/
theorem LetGo.exited {h : QueueHistory E} (go : LetGo h) (hexited : h.processor.worker = .exited) :
    h.processor.queue = [] ∧ h.processor.buffer.length < max 1 h.processor.settings.maxBatchSize := by
  obtain ⟨held, reach, rfl | ⟨hworker, hqueue, rfl⟩⟩ := go.exists_held
  · -- It shut down before the processor was let go.
    obtain ⟨hqueue, hbuffer⟩ := reach.sound.stage.of_exited hexited
    refine ⟨hqueue, ?_⟩
    show held.processor.buffer.length < _
    rw [hbuffer]
    exact Nat.lt_of_lt_of_le Nat.zero_lt_one (Nat.le_max_left _ _)
  · exact ⟨hqueue, reach.sound.partly hworker⟩

theorem LetGo.flow {h : QueueHistory E} (go : LetGo h) :
    h.processor.exporter.batches.flatten ++ h.processor.buffer ++ recordsOf h.processor.queue = h.accepted ∧
      h.accepted.length + h.processor.dropped = h.offered := by
  obtain ⟨held, reach, rfl | ⟨-, -, rfl⟩⟩ := go.exists_held <;>
    exact ⟨reach.sound.flow, reach.sound.counted⟩

/-- After the processor was let go, the batches handed over so far, the buffer of the worker and the records in the
queue are still the accepted records in order, and with the refused ones all that was offered. When the worker exits,
it does nothing any more: no record is left in the queue, but those in the buffer, less than a batch, are not handed
over. Only if a single record fills a batch there can be none. -/
theorem abandoned_records_flow {h : QueueHistory E} (go : LetGo h) :
    let p := h.processor
    p.exporter.batches.flatten ++ p.buffer ++ recordsOf p.queue = h.accepted ∧
      h.accepted.length + p.dropped = h.offered ∧
      (p.worker = .exited →
        p.exporter.batches.flatten ++ p.buffer = h.accepted ∧
        p.buffer.length < max 1 p.settings.maxBatchSize ∧
        (p.exporter.batches.flatten = h.accepted ↔ p.buffer = []) ∧
        (p.settings.maxBatchSize ≤ 1 → p.exporter.batches.flatten = h.accepted) ∧
        p.perform = p ∧ ∀ overdue, p.receive overdue = p) := by
  intro p
  obtain ⟨hflow, hcounted⟩ := go.flow
  refine ⟨hflow, hcounted, fun hexited => ?_⟩
  obtain ⟨hqueue, hlength⟩ := go.exited hexited
  have hleft : p.exporter.batches.flatten ++ p.buffer = h.accepted := by
    have hempty : recordsOf p.queue = [] := congrArg recordsOf hqueue
    rw [← hflow, hempty, List.append_nil]
  have hall : p.exporter.batches.flatten = h.accepted ↔ p.buffer = [] := by
    rw [← hleft]
    exact List.self_eq_append_right
  refine ⟨hleft, hlength, hall, fun hsingle => ?_, perform_of_idle (by rw [hexited]; exact nofun),
    receive_of_exited hexited⟩
  rw [Nat.max_eq_left hsingle, Nat.lt_one_iff] at hlength
  exact hall.mpr (List.eq_nil_of_length_eq_zero hlength)

/-- A record reaches the worker, which waits for more when the processor is let go. -/
def sampleAbandoned : QueueHistory MemoryStore :=
  let start : QueueHistory MemoryStore := { processor := { settings := {}, exporter := { inner := {} } } }
  (((start.offer default).work (receive false)).work release).work (receive false)

theorem sampleAbandoned_letGo : LetGo sampleAbandoned :=
  .receive (.release (.next (.next (.init _ MemoryStore.neverPanics) (.offer _ default)) (.receive _ false))) false

theorem abandoned_records_flow_in_sampleAbandoned :
    LetGo sampleAbandoned ∧ sampleAbandoned.processor.worker = .exited ∧ sampleAbandoned.accepted = [default] ∧
      sampleAbandoned.processor.exporter.batches.flatten ≠ sampleAbandoned.accepted ∧
      sampleAbandoned.processor.perform = sampleAbandoned.processor := by
  obtain ⟨-, -, hexited⟩ := abandoned_records_flow sampleAbandoned_letGo
  obtain ⟨-, -, hall, -, hstays, -⟩ := hexited rfl
  refine ⟨sampleAbandoned_letGo, rfl, rfl, fun hsame => ?_, hstays⟩
  cases hall.mp hsame

/-- An exporter that never fails does not get every record that was accepted, although nobody asked for shutdown. -/
theorem exited_worker_keeps_buffer :
    (∀ (s : MemoryStore) (batch : List Record), (Exporter.deliver batch s).1 = .ok (.ok ())) ∧
      ¬ ∀ h : QueueHistory MemoryStore, LetGo h → h.processor.isShutdown = false → h.processor.worker = .exited →
        h.processor.exporter.batches.flatten = h.accepted := by
  refine ⟨fun _ _ => rfl, fun hclaim => ?_⟩
  have hsame := hclaim sampleAbandoned sampleAbandoned_letGo rfl rfl
  cases hsame

end QueueHistory
end Tracing
