import Tracing.Proofs.Processor.Steps

/-! # Delivery of queued records

Callers offer records and ask for flushes and for shutdown, one call at a time; between the calls the worker takes
its steps, in any order. What the callers and the worker did so far is kept beside the processor
(`QueueHistory`): the records that were accepted, how many were offered before shutdown, and what was reported.

The invariant (`QueueHistory.Sound`) follows the accepted records from the queue through the buffer to the exporter,
and the processor through its stages. The watch on the exporter is no restriction: with it taken off, the histories
cover every state of a processor in use (`QueueHistory.InUse`), among them those that the calls of a tracer lead to. -/

namespace Tracing

open QueueProcessor

/-- A processor with a watched exporter, and what has come about since it was made. -/
structure QueueHistory (E : Type) where
  processor : QueueProcessor (Watched E)
  /-- The records that were put into the queue, oldest first. -/
  accepted : List Record := []
  /-- How many records were offered before shutdown was asked for. -/
  offered : Nat := 0
  /-- What was reported to the callers, oldest first. -/
  reports : List Event := []

namespace QueueHistory

variable {E : Type} [Exporter E]

/-- A record is offered. -/
def offer (h : QueueHistory E) (r : Record) : QueueHistory E where
  processor := (QueueProcessor.offer r h.processor).2.1
  accepted := if !h.processor.isShutdown && h.processor.hasRoom then h.accepted ++ [r] else h.accepted
  offered := if h.processor.isShutdown then h.offered else h.offered + 1
  reports := h.reports ++ (QueueProcessor.offer r h.processor).2.2

/-- A record is offered and refused. -/
def miss (h : QueueHistory E) : QueueHistory E where
  processor := (QueueProcessor.refuse h.processor).2.1
  accepted := h.accepted
  offered := h.offered + 1
  reports := h.reports ++ (QueueProcessor.refuse h.processor).2.2

/-- Someone makes a request. -/
def request (h : QueueHistory E) (x : Act (QueueProcessor (Watched E)) (Except ExportError Nat)) : QueueHistory E :=
  { h with processor := (x h.processor).2.1, reports := h.reports ++ (x h.processor).2.2 }

/-- The worker takes a step. -/
def work (h : QueueHistory E) (f : QueueProcessor (Watched E) → QueueProcessor (Watched E)) : QueueHistory E :=
  { h with processor := f h.processor }

/-- The scheduled delay ends before the worker gets a message. -/
def timeout (h : QueueHistory E) : QueueHistory E := h.work fun p => { p with worker := .exporting .due }

/-- One step of a caller or of the worker. -/
inductive Step : QueueHistory E → QueueHistory E → Prop where
  | offer (h : QueueHistory E) (r : Record) : Step h (h.offer r)
  /-- A queue of size zero has no place for a record when the worker is only just going to wait for one. -/
  | miss (h : QueueHistory E) (isOpen : h.processor.isShutdown = false)
      (rendezvous : h.processor.settings.maxQueueSize = 0) : Step h h.miss
  | requestFlush (h : QueueHistory E) : Step h (h.request QueueProcessor.requestFlush)
  | requestShutdown (h : QueueHistory E) : Step h (h.request QueueProcessor.requestShutdown)
  | receive (h : QueueHistory E) (overdue : Bool) : Step h (h.work (QueueProcessor.receive overdue))
  /-- This may be at any moment, since a message may come in just when the worker gives up waiting. -/
  | timeout (h : QueueHistory E) (waiting : h.processor.worker = .waiting) : Step h h.timeout
  | perform (h : QueueHistory E) : Step h (h.work QueueProcessor.perform)

/-- The histories of a processor that is made with any settings and an exporter that never panics. -/
inductive Reachable : QueueHistory E → Prop where
  | init (settings : QueueSettings) {e : E} (sturdy : NeverPanics e) :
      Reachable { processor := { settings, exporter := { inner := e } } }
  | next {h h' : QueueHistory E} (reach : Reachable h) (step : Step h h') : Reachable h'

/-- What was reported of refused records. -/
def refusals (p : QueueProcessor (Watched E)) : List Event :=
  (if 0 < p.dropped then [.droppingStarted] else []) ++
    if p.isShutdown = true ∧ 0 < p.dropped then [.recordsDropped p.dropped] else []

/-- What holds of a history at every moment. -/
structure Sound (h : QueueHistory E) : Prop where
  sturdy : NeverPanics h.processor.exporter.inner
  held : h.processor.released = false
  flow : h.processor.exporter.batches.flatten ++ h.processor.buffer ++ recordsOf h.processor.queue = h.accepted
  counted : h.accepted.length + h.processor.dropped = h.offered
  partly : h.processor.worker = .waiting → h.processor.buffer.length < max 1 h.processor.settings.maxBatchSize
  sizes : ∀ batch ∈ h.processor.exporter.batches,
    batch ≠ [] ∧ batch.length ≤ max 1 h.processor.settings.maxBatchSize
  reported : h.reports = refusals h.processor
  stage : Stage h.processor

namespace Sound
variable {h : QueueHistory E}

theorem init (settings : QueueSettings) {e : E} (sturdy : NeverPanics e) :
    Sound ({ processor := { settings, exporter := { inner := e } } } : QueueHistory E) where
  sturdy := sturdy
  held := rfl
  flow := rfl
  counted := rfl
  partly _ := Nat.lt_of_lt_of_le Nat.zero_lt_one (Nat.le_max_left _ _)
  sizes batch hb := by cases hb
  reported := rfl
  stage := .running rfl ⟨nofun, nofun⟩ nofun rfl

/-- A record is refused while nobody has asked for shutdown. -/
theorem miss (hs : h.Sound) (isOpen : h.processor.isShutdown = false) : h.miss.Sound := by
  unfold QueueHistory.miss
  rw [refuse_run]
  exact {
    sturdy := hs.sturdy
    held := hs.held
    flow := hs.flow
    counted := by
      show h.accepted.length + (h.processor.dropped + 1) = h.offered + 1
      rw [← hs.counted, Nat.add_assoc]
    partly := hs.partly
    sizes := hs.sizes
    reported := by
      show h.reports ++ _ = _
      rw [hs.reported]
      unfold refusals
      by_cases hd : h.processor.dropped = 0
      · simp [hd, isOpen]
      · simp [hd, isOpen, Nat.pos_of_ne_zero hd]
    stage := by
      cases hs.stage with
      | running isOpen serving ordinary closes => exact .running isOpen serving ordinary closes
      | asked isShutdown serving queue ordinary closes => exact .asked isShutdown serving queue ordinary closes
      | closing isShutdown worker queue closes => exact .closing isShutdown worker queue closes
      | closed isShutdown worker queue buffer closes => exact .closed isShutdown worker queue buffer closes }

/-- A record that was put into the queue is accepted. -/
theorem enqueue (hs : h.Sound) (isOpen : h.processor.isShutdown = false) (r : Record) :
    Sound { h with processor := h.processor.enqueue (.record r)
                   accepted := h.accepted ++ [r]
                   offered := h.offered + 1 } where
  sturdy := hs.sturdy
  held := hs.held
  flow := by
    simp [QueueProcessor.enqueue, ← hs.flow]
  counted := by
    have hcounted := hs.counted
    show (h.accepted ++ [r]).length + h.processor.dropped = h.offered + 1
    rw [List.length_append, List.length_singleton]
    omega
  partly := hs.partly
  sizes := hs.sizes
  reported := hs.reported
  stage := by
    obtain ⟨serving, ordinary, closes⟩ := hs.stage.of_open isOpen
    exact .running isOpen serving (ordinary.append fun _ => Message.noConfusion) closes

theorem offer (hs : h.Sound) (r : Record) : (h.offer r).Sound := by
  unfold QueueHistory.offer
  cases isShutdown : h.processor.isShutdown with
  | true =>
    rw [offer_of_shutdown r isShutdown]
    simpa using hs
  | false =>
    cases room : h.processor.hasRoom with
    | true =>
      rw [offer_of_room r isShutdown room]
      simpa using hs.enqueue isShutdown r
    | false =>
      rw [offer_of_full r isShutdown room]
      exact hs.miss isShutdown

theorem requestFlush (hs : h.Sound) : (h.request QueueProcessor.requestFlush).Sound := by
  unfold request
  rcases requestFlush_run h.processor with ⟨e, hrun⟩ | ⟨isOpen, hrun⟩ <;> rw [hrun, List.append_nil]
  · exact hs
  · exact {
      sturdy := hs.sturdy
      held := hs.held
      flow := by simpa using hs.flow
      counted := hs.counted
      partly := hs.partly
      sizes := hs.sizes
      reported := hs.reported
      stage := by
        obtain ⟨serving, ordinary, closes⟩ := hs.stage.of_open isOpen
        exact .running isOpen serving (ordinary.append nofun) closes }

theorem requestShutdown (hs : h.Sound) : (h.request QueueProcessor.requestShutdown).Sound := by
  unfold request
  cases isShutdown : h.processor.isShutdown with
  | true =>
    rw [requestShutdown_of_shutdown isShutdown, List.append_nil]
    exact hs
  | false =>
    obtain ⟨serving, ordinary, closes⟩ := hs.stage.of_open isShutdown
    rw [requestShutdown_run isShutdown serving.1]
    exact {
      sturdy := hs.sturdy
      held := hs.held
      flow := by simpa using hs.flow
      counted := hs.counted
      partly := hs.partly
      sizes := hs.sizes
      reported := by
        show h.reports ++ _ = _
        rw [hs.reported]
        simp [refusals, isShutdown]
      stage := .asked rfl serving rfl ordinary closes }

theorem receive (hs : h.Sound) (overdue : Bool) : (h.work (QueueProcessor.receive overdue)).Sound := by
  unfold work
  rcases receive_run hs.held overdue with hsame | ⟨hworker, m, rest, hqueue, htakes⟩
  · rw [hsame]
    exact hs
  · obtain ⟨hexporter, hsettings, hreleased, hdropped, hshutdown, -⟩ := htakes.kept
    exact {
      sturdy := hexporter ▸ hs.sturdy
      held := hreleased.trans hs.held
      flow := by
        show (h.processor.receive overdue).exporter.batches.flatten ++ (h.processor.receive overdue).buffer ++
          recordsOf (h.processor.receive overdue).queue = h.accepted
        rw [List.append_assoc, htakes.flow, hexporter, ← hqueue, ← List.append_assoc]
        exact hs.flow
      counted := by
        show h.accepted.length + (h.processor.receive overdue).dropped = h.offered
        rw [hdropped]
        exact hs.counted
      partly := htakes.partly
      sizes := by
        show ∀ batch ∈ (h.processor.receive overdue).exporter.batches,
          batch ≠ [] ∧ batch.length ≤ max 1 (h.processor.receive overdue).settings.maxBatchSize
        rw [hexporter, hsettings]
        exact hs.sizes
      reported := by
        show h.reports = refusals (h.processor.receive overdue)
        unfold refusals
        rw [hdropped, hshutdown]
        exact hs.reported
      stage := htakes.stage hworker hqueue hs.stage }

/-- A worker that gave up waiting leaves the request to shut down where it is. -/
theorem timeout (hs : h.Sound) (waiting : h.processor.worker = .waiting) : h.timeout.Sound where
  sturdy := hs.sturdy
  held := hs.held
  flow := hs.flow
  counted := hs.counted
  partly := nofun
  sizes := hs.sizes
  reported := hs.reported
  stage := by
    cases hs.stage with
    | running isOpen _ ordinary closes => exact .running isOpen ⟨nofun, nofun⟩ ordinary closes
    | asked isShutdown _ queue ordinary closes => exact .asked isShutdown ⟨nofun, nofun⟩ queue ordinary closes
    | closing _ worker =>
      rw [waiting] at worker
      cases worker
    | closed _ worker =>
      rw [waiting] at worker
      cases worker

/-- What an export leaves in the queue, and how far the processor has come with it. -/
theorem performed (hs : h.Sound) {errand : Errand} (hworker : h.processor.worker = .exporting errand)
    {r : ExportResult} {inner : E} {events : List Event}
    (hperform : h.processor.perform = finish { h.processor with
      exporter := h.processor.exporter.noted inner (batchesOf h.processor.settings.maxBatchSize h.processor.buffer)
        errand.closes
      workerEvents := h.processor.workerEvents ++ events } errand r) :
    recordsOf h.processor.perform.queue = recordsOf h.processor.queue ∧ Stage h.processor.perform := by
  have hserving : Serving h.processor.worker → ∀ ticket, errand ≠ .shutdown ticket := by
    rintro hw ticket rfl
    exact hw.2 ticket hworker
  obtain ⟨hexporter, -, -, -, hshutdown, hbuffer⟩ := finish_kept { h.processor with
    exporter := h.processor.exporter.noted inner (batchesOf h.processor.settings.maxBatchSize h.processor.buffer)
      errand.closes
    workerEvents := h.processor.workerEvents ++ events } errand r
  have hclosed := congrArg Watched.closes hexporter
  rw [hperform]
  cases hs.stage with
  | running isOpen serving ordinary closes =>
    obtain ⟨hw, hq⟩ := finish_of_serving _ errand r (hserving serving)
    have hopen : h.processor.exporter.closes + errand.closes = 0 := by
      rw [closes, closes_of_serving (hserving serving)]
    refine ⟨congrArg recordsOf hq, .running (hshutdown.trans isOpen) ?_ (hq ▸ ordinary) (hclosed.trans hopen)⟩
    rw [hw]
    exact ⟨nofun, nofun⟩
  | asked isShutdown serving queue ordinary closes =>
    obtain ⟨hw, hq⟩ := finish_of_serving _ errand r (hserving serving)
    have hopen : h.processor.exporter.closes + errand.closes = 0 := by
      rw [closes, closes_of_serving (hserving serving)]
    refine ⟨congrArg recordsOf hq, .asked (hshutdown.trans isShutdown) ?_ (hq.trans queue) ordinary
      (hclosed.trans hopen)⟩
    rw [hw]
    exact ⟨nofun, nofun⟩
  | @closing isShutdown ticket worker queue closes =>
    obtain rfl : errand = .shutdown ticket := WorkerState.exporting.inj (hworker.symm.trans worker)
    rw [queue]
    exact ⟨rfl, .closed (hshutdown.trans isShutdown) rfl rfl hbuffer (hclosed.trans (congrArg (· + 1) closes))⟩
  | closed _ worker =>
    rw [hworker] at worker
    cases worker

theorem perform (hs : h.Sound) : (h.work QueueProcessor.perform).Sound := by
  unfold work
  cases hworker : h.processor.worker with
  | waiting =>
    rw [perform_of_idle (by rw [hworker]; exact nofun)]
    exact hs
  | exited =>
    rw [perform_of_idle (by rw [hworker]; exact nofun)]
    exact hs
  | exporting errand =>
    obtain ⟨r, inner, events, hperform, hinner⟩ := perform_run hworker hs.sturdy
    obtain ⟨hexporter, hsettings, hreleased, hdropped, hshutdown, hbuffer⟩ := finish_kept { h.processor with
      exporter := h.processor.exporter.noted inner (batchesOf h.processor.settings.maxBatchSize h.processor.buffer)
        errand.closes
      workerEvents := h.processor.workerEvents ++ events } errand r
    obtain ⟨hqueue, hstage⟩ := hs.performed hworker hperform
    rw [← hperform] at hexporter hsettings hreleased hdropped hshutdown hbuffer
    have hbatches := perform_batches hworker hs.sturdy
    exact {
      sturdy := by
        show NeverPanics h.processor.perform.exporter.inner
        rw [hexporter]
        exact hinner
      held := hreleased.trans hs.held
      flow := by
        show h.processor.perform.exporter.batches.flatten ++ h.processor.perform.buffer ++
          recordsOf h.processor.perform.queue = h.accepted
        rw [hbatches, hbuffer, hqueue, List.flatten_append, flatten_batchesOf, List.append_nil]
        exact hs.flow
      counted := by
        show h.accepted.length + h.processor.perform.dropped = h.offered
        rw [hdropped]
        exact hs.counted
      partly := fun _ => by
        show h.processor.perform.buffer.length < _
        rw [hbuffer]
        exact Nat.lt_of_lt_of_le Nat.zero_lt_one (Nat.le_max_left _ _)
      sizes := by
        show ∀ batch ∈ h.processor.perform.exporter.batches,
          batch ≠ [] ∧ batch.length ≤ max 1 h.processor.perform.settings.maxBatchSize
        rw [hbatches, hsettings]
        intro batch hb
        rcases List.mem_append.mp hb with hb | hb
        · exact hs.sizes batch hb
        · exact length_of_mem_batchesOf hb
      reported := by
        show h.reports = refusals h.processor.perform
        unfold refusals
        rw [hdropped, hshutdown]
        exact hs.reported
      stage := hstage }

end Sound

theorem Reachable.sound {h : QueueHistory E} (reach : Reachable h) : Sound h := by
  induction reach with
  | init settings sturdy => exact Sound.init settings sturdy
  | next _ step ih =>
    cases step with
    | offer r => exact ih.offer r
    | miss isOpen _ => exact ih.miss isOpen
    | requestFlush => exact ih.requestFlush
    | requestShutdown => exact ih.requestShutdown
    | receive overdue => exact ih.receive overdue
    | timeout waiting => exact ih.timeout waiting
    | perform => exact ih.perform

/-! ### Records that are handed over -/

/-- Letting the worker run until it is idle leads to a history that comes about. -/
theorem Reachable.settle {h : QueueHistory E} (reach : Reachable h) : Reachable (h.work QueueProcessor.settle) :=
  settle_induction (motive := fun p => Reachable { h with processor := p })
    (fun _ overdue hp => hp.next (.receive _ overdue)) (fun _ hp => hp.next (.perform _)) reach

/-- A tracer that hands a record over offers it and lets the worker run. -/
theorem Reachable.onEnd {h : QueueHistory E} (reach : Reachable h) (r : Record) : ∃ h' events,
    Processor.onEnd r h.processor = (.ok (), h'.processor, events) ∧ Reachable h' ∧
      h'.accepted = (h.offer r).accepted ∧ h'.reports = h.reports ++ events :=
  ⟨(h.offer r).work QueueProcessor.settle, _, onEnd_run r h.processor, (reach.next (.offer h r)).settle, rfl, rfl⟩

/-! ### Processors without a watch -/

/-- The states of a processor in use that is made with the settings and the exporter. -/
inductive InUse (settings : QueueSettings) (e : E) : QueueProcessor E → Prop where
  | made : InUse settings e { settings, exporter := e }
  | offer {p : QueueProcessor E} (h : InUse settings e p) (r : Record) :
      InUse settings e (QueueProcessor.offer r p).2.1
  | miss {p : QueueProcessor E} (h : InUse settings e p) (isOpen : p.isShutdown = false)
      (rendezvous : p.settings.maxQueueSize = 0) : InUse settings e (QueueProcessor.refuse p).2.1
  | requestFlush {p : QueueProcessor E} (h : InUse settings e p) :
      InUse settings e (QueueProcessor.requestFlush p).2.1
  | requestShutdown {p : QueueProcessor E} (h : InUse settings e p) :
      InUse settings e (QueueProcessor.requestShutdown p).2.1
  | receive {p : QueueProcessor E} (h : InUse settings e p) (overdue : Bool) : InUse settings e (p.receive overdue)
  | timeout {p : QueueProcessor E} (h : InUse settings e p) (waiting : p.worker = .waiting) :
      InUse settings e { p with worker := .exporting .due }
  | perform {p : QueueProcessor E} (h : InUse settings e p) : InUse settings e p.perform

namespace InUse
variable {settings : QueueSettings} {e : E} {p : QueueProcessor E}

theorem settle (use : InUse settings e p) : InUse settings e p.settle :=
  settle_induction (fun _ overdue h => h.receive overdue) (fun _ h => h.perform) use

theorem await {x : Act (QueueProcessor E) (Except ExportError Nat)} (use : InUse settings e (x p).2.1) :
    InUse settings e (QueueProcessor.await x p).2.1 := by
  rcases await_state x p with heq | heq <;> rw [heq]
  · exact use
  · exact use.settle

/-- What a tracer calls leaves the processor in use. -/
theorem calls (use : InUse settings e p) : (∀ r, InUse settings e (Processor.onEnd r p).2.1) ∧
    InUse settings e (Processor.forceFlush p).2.1 ∧ InUse settings e (Processor.shutdown p).2.1 := by
  refine ⟨fun r => ?_, await use.requestFlush, await use.requestShutdown⟩
  rw [onEnd_run]
  exact (use.offer r).settle

end InUse

/-- Every state of a processor in use is that of a history, with the watch taken off. -/
theorem InUse.exists_history {settings : QueueSettings} {e : E} (sturdy : NeverPanics e) {p : QueueProcessor E}
    (use : InUse settings e p) : ∃ h : QueueHistory E, Reachable h ∧ h.processor.unwatched = p := by
  induction use with
  | made => exact ⟨_, .init settings sturdy, rfl⟩
  | offer _ r ih =>
    obtain ⟨h, reach, rfl⟩ := ih
    exact ⟨_, reach.next (.offer h r), (mirrors_offer r).state _⟩
  | miss _ isOpen rendezvous ih =>
    obtain ⟨h, reach, rfl⟩ := ih
    exact ⟨_, reach.next (.miss h isOpen rendezvous), mirrors_refuse.state _⟩
  | requestFlush _ ih =>
    obtain ⟨h, reach, rfl⟩ := ih
    exact ⟨_, reach.next (.requestFlush h), mirrors_requestFlush.state _⟩
  | requestShutdown _ ih =>
    obtain ⟨h, reach, rfl⟩ := ih
    exact ⟨_, reach.next (.requestShutdown h), mirrors_requestShutdown.state _⟩
  | receive _ overdue ih =>
    obtain ⟨h, reach, rfl⟩ := ih
    exact ⟨_, reach.next (.receive h overdue), unwatched_receive _ _⟩
  | timeout _ waiting ih =>
    obtain ⟨h, reach, rfl⟩ := ih
    exact ⟨_, reach.next (.timeout h waiting), rfl⟩
  | perform _ ih =>
    obtain ⟨h, reach, rfl⟩ := ih
    exact ⟨_, reach.next (.perform h), unwatched_perform _⟩

/-! ### The main result -/

/-- At every moment the batches handed over so far, the buffer of the worker and the records in the queue are the
accepted records in order, also in the middle of an export, after any number of its batches. With the refused ones they
are all that was offered before shutdown. The worker waits only with less than a full batch, and no batch is larger.
Once it has shut down, everything accepted was handed over and the exporter was closed once. The first refusal is
reported, and at shutdown their number. -/
theorem accepted_records_flow {h : QueueHistory E} (reach : Reachable h) :
    let p := h.processor
    let limit := max 1 p.settings.maxBatchSize
    p.exporter.batches.flatten ++ p.buffer ++ recordsOf p.queue = h.accepted ∧
      (∀ errand count, p.worker = .exporting errand →
        let exporter := (deliverAll ((batchesOf p.settings.maxBatchSize p.buffer).take count) p.exporter).2.1
        exporter.batches.flatten ++ p.buffer.drop (count * limit) ++ recordsOf p.queue = h.accepted) ∧
      h.accepted.length + p.dropped = h.offered ∧
      (p.worker = .waiting → p.buffer.length < limit) ∧
      (∀ batch ∈ p.exporter.batches, batch ≠ [] ∧ batch.length ≤ limit) ∧
      (p.worker = .exited → p.isShutdown = true ∧ p.exporter.batches.flatten = h.accepted ∧ p.exporter.closes = 1) ∧
      (p.worker ≠ .exited → p.exporter.closes = 0) ∧
      h.reports = (if 0 < p.dropped then [.droppingStarted] else []) ++
        if p.isShutdown = true ∧ 0 < p.dropped then [.recordsDropped p.dropped] else [] := by
  intro p limit
  have hs := reach.sound
  refine ⟨hs.flow, fun errand count _ => ?_, hs.counted, hs.partly, hs.sizes, fun hexited => ?_, fun hthere => ?_,
    hs.reported⟩
  · obtain ⟨_, inner, _, hrun, -⟩ :=
      Watched.deliverAll_run ((batchesOf p.settings.maxBatchSize p.buffer).take count) hs.sturdy
    rw [hrun]
    show (p.exporter.batches ++ (batchesOf p.settings.maxBatchSize p.buffer).take count).flatten ++
      p.buffer.drop (count * limit) ++ recordsOf p.queue = h.accepted
    rw [List.flatten_append, List.append_assoc p.exporter.batches.flatten, flatten_take_batchesOf]
    exact hs.flow
  · have hflow := hs.flow
    cases hs.stage with
    | running _ serving => exact absurd hexited serving.1
    | asked _ serving => exact absurd hexited serving.1
    | closing _ worker => rw [show h.processor.worker = _ from hexited] at worker; cases worker
    | closed isShutdown _ queue buffer closes =>
      rw [queue, buffer, recordsOf_nil, List.append_nil, List.append_nil] at hflow
      exact ⟨isShutdown, hflow, closes⟩
  · cases hs.stage with
    | running _ _ _ closes => exact closes
    | asked _ _ _ _ closes => exact closes
    | closing _ _ _ closes => exact closes
    | closed _ worker => exact absurd worker hthere

/-- A queue for one record takes the first of two, and its worker is about to shut down an exporter that fails. -/
def sampleHistory : QueueHistory RehearsedExporter :=
  let start : QueueHistory RehearsedExporter :=
    { processor :=
        { settings := { maxQueueSize := 1, maxBatchSize := 2 }
          exporter := { inner := { failures := [(0, "unreachable")], closeFailure := some "unreachable" } } } }
  let full := (start.offer default).offer default
  ((full.work (receive false)).request QueueProcessor.requestShutdown).work (receive false)

theorem sampleHistory_reachable : Reachable sampleHistory :=
  .next (.next (.next (.next (.next (.init _ (RehearsedExporter.neverPanics rfl)) (.offer _ default))
    (.offer _ default)) (.receive _ false)) (.requestShutdown _)) (.receive _ false)

theorem accepted_records_flow_in_sampleHistory :
    let h := sampleHistory.work QueueProcessor.perform
    Reachable h ∧ h.processor.exporter.batches.flatten = [default] ∧ h.processor.exporter.closes = 1 ∧
      h.reports = [.droppingStarted, .recordsDropped 1] := by
  have hreach : Reachable (sampleHistory.work QueueProcessor.perform) :=
    sampleHistory_reachable.next (.perform _)
  have hworker : sampleHistory.processor.worker = .exporting (.shutdown 0) := rfl
  obtain ⟨r, inner, events, hperform, -⟩ := perform_run hworker (RehearsedExporter.neverPanics rfl)
  have hexited : (sampleHistory.work QueueProcessor.perform).processor.worker = .exited := by
    show sampleHistory.processor.perform.worker = .exited
    rw [hperform]
    rfl
  have hdropped : (sampleHistory.work QueueProcessor.perform).processor.dropped = 1 := by
    show sampleHistory.processor.perform.dropped = 1
    rw [hperform]
    rfl
  obtain ⟨-, -, -, -, -, hend, -, hreports⟩ := accepted_records_flow hreach
  obtain ⟨hshutdown, hflow, hcloses⟩ := hend hexited
  rw [hdropped, hshutdown] at hreports
  exact ⟨hreach, hflow, hcloses, hreports⟩

end QueueHistory
end Tracing
