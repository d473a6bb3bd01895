import Tracing.Proofs.Processor.Watched

/-! # Steps of a queue processor

What the callers and the worker of a queue processor do in one step, and how far the processor has come on its way to
the end (`QueueProcessor.Stage`): the request to shut down is the last message of the queue, then the errand of the
worker, and then done. A worker that is let run takes these steps until it is idle (`QueueProcessor.isIdle_settle`). -/

namespace Tracing

/-- The records that wait in a queue. -/
def recordsOf (queue : List Message) : List Record :=
  queue.filterMap fun
    | .record r => some r
    | .flush _ | .shutdown _ => none

@[simp] theorem recordsOf_nil : recordsOf [] = [] := rfl

@[simp] theorem recordsOf_append (queue more : List Message) :
    recordsOf (queue ++ more) = recordsOf queue ++ recordsOf more := List.filterMap_append

@[simp] theorem recordsOf_record (r : Record) (queue : List Message) :
    recordsOf (.record r :: queue) = r :: recordsOf queue := rfl

@[simp] theorem recordsOf_flush (ticket : Nat) (queue : List Message) :
    recordsOf (.flush ticket :: queue) = recordsOf queue := rfl

@[simp] theorem recordsOf_shutdown (ticket : Nat) (queue : List Message) :
    recordsOf (.shutdown ticket :: queue) = recordsOf queue := rfl

namespace QueueProcessor

/-! ### Calls -/

section Calls
variable {E : Type} {p : QueueProcessor E}

theorem refuse_run (p : QueueProcessor E) : refuse p =
    (.ok (), { p with dropped := p.dropped + 1 }, if p.dropped = 0 then [.droppingStarted] else []) := by
  by_cases h : p.dropped = 0 <;> simp [refuse, Act.bind_run, Act.get, Act.modify, Act.emit, h]

theorem offer_of_shutdown (r : Record) (h : p.isShutdown = true) : offer r p = (.ok (), p, []) := by
  simp [offer, Act.bind_run, Act.get, h]

theorem offer_of_room (r : Record) (hopen : p.isShutdown = false) (h : p.hasRoom = true) :
    offer r p = (.ok (), p.enqueue (.record r), []) := by
  simp [offer, Act.bind_run, Act.get, Act.modify, hopen, h]

theorem offer_of_full (r : Record) (hopen : p.isShutdown = false) (h : p.hasRoom = false) :
    offer r p = refuse p := by
  simp [offer, Act.bind_run, Act.get, hopen, h]

theorem offer_returns (r : Record) (p : QueueProcessor E) : ∃ q events, offer r p = (.ok (), q, events) := by
  cases hopen : p.isShutdown with
  | true => exact ⟨_, _, offer_of_shutdown r hopen⟩
  | false =>
    cases hroom : p.hasRoom with
    | true => exact ⟨_, _, offer_of_room r hopen hroom⟩
    | false => exact ⟨_, _, (offer_of_full r hopen hroom).trans (refuse_run p)⟩

/-- A request to flush takes a ticket and a place in the queue, or fails and changes nothing. -/
theorem requestFlush_run (p : QueueProcessor E) : (∃ e, requestFlush p = (.ok (.error e), p, [])) ∨
    p.isShutdown = false ∧ requestFlush p = (.ok (.ok p.nextTicket),
      { p with nextTicket := p.nextTicket + 1, queue := p.queue ++ [.flush p.nextTicket] }, []) := by
  cases hs : p.isShutdown <;> cases hr : p.hasRoom <;>
    simp [requestFlush, takeTicket, enqueue, Act.bind_run, Act.get, Act.update, Act.modify, hs, hr]

theorem requestShutdown_of_shutdown (h : p.isShutdown = true) :
    requestShutdown p = (.ok (.error .alreadyShutdown), p, []) := by
  simp [requestShutdown, Act.bind_run, Act.get, h]

/-- The first request to shut down takes the last place in the queue, and the number of refused records is reported. -/
theorem requestShutdown_run (hopen : p.isShutdown = false) (hworker : p.worker ≠ .exited) :
    requestShutdown p = (.ok (.ok p.nextTicket),
      { p with isShutdown := true, nextTicket := p.nextTicket + 1, queue := p.queue ++ [.shutdown p.nextTicket] },
      if 0 < p.dropped then [.recordsDropped p.dropped] else []) := by
  by_cases h : 0 < p.dropped <;>
    simp [requestShutdown, takeTicket, enqueue, Act.bind_run, Act.get, Act.update, Act.modify, Act.emit, hopen, h,
      hworker]

theorem answerTo_run (p : QueueProcessor E) (ticket : Nat) : answerTo ticket p =
    (.ok ((p.answers.lookup ticket).getD (.error (.timeout p.settings.flushTimeout))), p, []) := by
  simp [answerTo, Act.bind_run, Act.get]

end Calls

/-! ### The request to shut down -/

/-- None of the messages asks for shutdown. -/
def Ordinary (queue : List Message) : Prop := ∀ ticket, .shutdown ticket ∉ queue

theorem Ordinary.append {queue : List Message} (h : Ordinary queue) {m : Message}
    (hm : ∀ ticket, m ≠ .shutdown ticket) : Ordinary (queue ++ [m]) := by
  intro ticket hmem
  rcases List.mem_append.mp hmem with hmem | hmem
  · exact h ticket hmem
  · exact hm ticket (List.mem_singleton.mp hmem).symm

/-- The worker is there and not about to shut down. -/
def Serving (w : WorkerState) : Prop := w ≠ .exited ∧ ∀ ticket, w ≠ .exporting (.shutdown ticket)

/-- How far a processor has come on its way to the end. -/
inductive Stage {E : Type} (p : QueueProcessor (Watched E)) : Prop where
  /-- Nobody has asked for shutdown. -/
  | running (isOpen : p.isShutdown = false) (serving : Serving p.worker) (ordinary : Ordinary p.queue)
      (closes : p.exporter.closes = 0)
  /-- The request to shut down is the last message. -/
  | asked (isShutdown : p.isShutdown = true) (serving : Serving p.worker) {before : List Message} {ticket : Nat}
      (queue : p.queue = before ++ [.shutdown ticket]) (ordinary : Ordinary before) (closes : p.exporter.closes = 0)
  /-- The worker is about to shut down. -/
  | closing (isShutdown : p.isShutdown = true) {ticket : Nat} (worker : p.worker = .exporting (.shutdown ticket))
      (queue : p.queue = []) (closes : p.exporter.closes = 0)
  /-- The worker has shut down. -/
  | closed (isShutdown : p.isShutdown = true) (worker : p.worker = .exited) (queue : p.queue = [])
      (buffer : p.buffer = []) (closes : p.exporter.closes = 1)

namespace Stage
variable {E : Type} {p : QueueProcessor (Watched E)}

/-- Until someone asks for shutdown, the worker serves ordinary messages. -/
theorem of_open (h : Stage p) (isOpen : p.isShutdown = false) :
    Serving p.worker ∧ Ordinary p.queue ∧ p.exporter.closes = 0 := by
  cases h with
  | running _ serving ordinary closes => exact ⟨serving, ordinary, closes⟩
  | asked isShutdown => rw [isShutdown] at isOpen; cases isOpen
  | closing isShutdown => rw [isShutdown] at isOpen; cases isOpen
  | closed isShutdown => rw [isShutdown] at isOpen; cases isOpen

/-- Nothing is behind the request to shut down that the worker is at. -/
theorem queue_of_closing (h : Stage p) {ticket : Nat} (hworker : p.worker = .exporting (.shutdown ticket)) :
    p.queue = [] := by
  cases h with
  | running _ serving => exact absurd hworker (serving.2 ticket)
  | asked _ serving => exact absurd hworker (serving.2 ticket)
  | closing _ _ queue => exact queue
  | closed _ worker => rw [worker] at hworker; cases hworker

/-- A worker that is gone has left nothing behind. -/
theorem of_exited (h : Stage p) (hworker : p.worker = .exited) : p.queue = [] ∧ p.buffer = [] := by
  cases h with
  | running _ serving => exact absurd hworker serving.1
  | asked _ serving => exact absurd hworker serving.1
  | closing _ worker => rw [worker] at hworker; cases hworker
  | closed _ _ queue buffer => exact ⟨queue, buffer⟩

end Stage

/-! ### Taking a message -/

/-- What the worker comes to be when it takes a message. -/
inductive Takes {E : Type} (p : QueueProcessor E) : Message → List Message → QueueProcessor E → Prop where
  /-- A record that fills no batch stays in the buffer. -/
  | keep (r : Record) (rest : List Message) (partly : p.buffer.length + 1 < p.settings.maxBatchSize) :
      Takes p (.record r) rest { p with queue := rest, buffer := p.buffer ++ [r] }
  | due (r : Record) (rest : List Message) :
      Takes p (.record r) rest { p with queue := rest, buffer := p.buffer ++ [r], worker := .exporting .due }
  | flush (ticket : Nat) (rest : List Message) :
      Takes p (.flush ticket) rest { p with queue := rest, worker := .exporting (.flush ticket) }
  | shutdown (ticket : Nat) (rest : List Message) :
      Takes p (.shutdown ticket) rest { p with queue := rest, worker := .exporting (.shutdown ticket) }

/-- The worker of a processor that is held takes the first message if it waits for one, and else does nothing. -/
theorem receive_run {E : Type} {p : QueueProcessor E} (held : p.released = false) (overdue : Bool) :
    p.receive overdue = p ∨ p.worker = .waiting ∧
      ∃ m rest, p.queue = m :: rest ∧ Takes p m rest (p.receive overdue) := by
  unfold receive
  split
  · rename_i r rest hworker hqueue
    refine .inr ⟨hworker, _, _, hqueue, ?_⟩
    dsimp only
    split
    · exact .due r rest
    · rename_i h
      have hpartly : p.buffer.length + 1 < p.settings.maxBatchSize := by
        simp only [Bool.or_eq_true, decide_eq_true_eq, List.length_append, List.length_singleton, not_or] at h
        omega
      rw [← hworker]
      exact .keep r rest hpartly
  · exact .inr ⟨‹_›, _, _, ‹_›, .flush _ _⟩
  · exact .inr ⟨‹_›, _, _, ‹_›, .shutdown _ _⟩
  · rw [held]
    exact .inl rfl
  · exact .inl rfl

namespace Takes
variable {E : Type} {p p' : QueueProcessor (Watched E)} {m : Message} {rest : List Message}

theorem flow (h : Takes p m rest p') : p'.buffer ++ recordsOf p'.queue = p.buffer ++ recordsOf (m :: rest) := by
  cases h <;> simp

/-- Taking a message changes nothing else. -/
theorem kept (h : Takes p m rest p') : p'.exporter = p.exporter ∧ p'.settings = p.settings ∧
    p'.released = p.released ∧ p'.dropped = p.dropped ∧ p'.isShutdown = p.isShutdown ∧ p'.queue = rest := by
  cases h <;> exact ⟨rfl, rfl, rfl, rfl, rfl, rfl⟩

/-- The worker waits on only while its buffer fills no batch. -/
theorem partly (h : Takes p m rest p') (hworker : p'.worker = .waiting) :
    p'.buffer.length < max 1 p'.settings.maxBatchSize := by
  cases h with
  | keep r _ hfits =>
    show (p.buffer ++ [r]).length < max 1 p.settings.maxBatchSize
    rw [List.length_append, List.length_singleton]
    omega
  | due => cases hworker
  | flush => cases hworker
  | shutdown => cases hworker

theorem serving (h : Takes p m rest p') (hm : ∀ ticket, m ≠ .shutdown ticket) (hbefore : p.worker = .waiting) :
    Serving p'.worker := by
  cases h with
  | keep =>
    rw [hbefore]
    exact ⟨nofun, nofun⟩
  | due => exact ⟨nofun, nofun⟩
  | flush => exact ⟨nofun, nofun⟩
  | shutdown ticket => exact absurd rfl (hm ticket)

theorem stage (h : Takes p m rest p') (hbefore : p.worker = .waiting) (hqueue : p.queue = m :: rest)
    (hstage : Stage p) : Stage p' := by
  obtain ⟨hexporter, -, -, -, hshutdown, hrest⟩ := h.kept
  have hcloses := congrArg Watched.closes hexporter
  cases hstage with
  | running isOpen _ ordinary closes =>
    rw [hqueue] at ordinary
    have hm : ∀ ticket, m ≠ .shutdown ticket := fun ticket hm => ordinary ticket (hm ▸ List.mem_cons_self)
    refine .running (hshutdown.trans isOpen) (h.serving hm hbefore) ?_ (hcloses.trans closes)
    rw [hrest]
    exact fun ticket hmem => ordinary ticket (List.mem_cons_of_mem _ hmem)
  | @asked isShutdown _ before ticket queue ordinary closes =>
    rw [hqueue] at queue
    cases before with
    | nil =>
      obtain ⟨rfl, rfl⟩ := List.cons.inj queue
      cases h with
      | shutdown => exact .closing isShutdown rfl rfl closes
    | cons m' before =>
      obtain ⟨rfl, hqueue'⟩ := List.cons.inj queue
      have hm : ∀ ticket, m ≠ .shutdown ticket := fun ticket hm => ordinary ticket (hm ▸ List.mem_cons_self)
      exact .asked (hshutdown.trans isShutdown) (h.serving hm hbefore) (hrest.trans hqueue')
        (fun ticket hmem => ordinary ticket (List.mem_cons_of_mem _ hmem)) (hcloses.trans closes)
  | closing _ worker =>
    rw [hbefore] at worker
    cases worker
  | closed _ worker =>
    rw [hbefore] at worker
    cases worker

end Takes

/-! ### Exporting -/

theorem perform_of_idle {E : Type} [Exporter E] {p : QueueProcessor E} (h : ∀ errand, p.worker ≠ .exporting errand) :
    p.perform = p := by
  unfold perform
  split
  · exact absurd ‹_› (h _)
  · rfl

section Finish
variable {E : Type} (p : QueueProcessor (Watched E)) (errand : Errand) (r : ExportResult)

theorem finish_kept : (p.finish errand r).exporter = p.exporter ∧ (p.finish errand r).settings = p.settings ∧
    (p.finish errand r).released = p.released ∧ (p.finish errand r).dropped = p.dropped ∧
    (p.finish errand r).isShutdown = p.isShutdown ∧ (p.finish errand r).buffer = [] := by
  cases errand <;> exact ⟨rfl, rfl, rfl, rfl, rfl, rfl⟩

theorem finish_of_serving (h : ∀ ticket, errand ≠ .shutdown ticket) :
    (p.finish errand r).worker = .waiting ∧ (p.finish errand r).queue = p.queue := by
  cases errand with
  | due => exact ⟨rfl, rfl⟩
  | flush => exact ⟨rfl, rfl⟩
  | shutdown ticket => exact absurd rfl (h ticket)

theorem closes_of_serving {errand : Errand} (h : ∀ ticket, errand ≠ .shutdown ticket) : errand.closes = 0 := by
  cases errand with
  | due => rfl
  | flush => rfl
  | shutdown ticket => exact absurd rfl (h ticket)

end Finish

/-- An export hands over the whole buffer. -/
theorem perform_batches {E : Type} [Exporter E] {p : QueueProcessor (Watched E)} {errand : Errand}
    (hworker : p.worker = .exporting errand) (h : NeverPanics p.exporter.inner) :
    p.perform.exporter.batches = p.exporter.batches ++ batchesOf p.settings.maxBatchSize p.buffer := by
  obtain ⟨r, inner, events, hperform, -⟩ := perform_run hworker h
  obtain ⟨hexporter, -⟩ := finish_kept { p with
    exporter := p.exporter.noted inner (batchesOf p.settings.maxBatchSize p.buffer) errand.closes
    workerEvents := p.workerEvents ++ events } errand r
  rw [hperform, hexporter]
  rfl

/-! ### Letting the worker run -/

section Settle
variable {E : Type} {p : QueueProcessor E}

/-- The most steps that the worker may take: two for each message, one for the export that it is at, and one to go. -/
def stepsLeft (p : QueueProcessor E) : Nat :=
  match p.worker with
  | .waiting => 2 * p.queue.length + 1
  | .exporting _ => 2 * p.queue.length + 2
  | .exited => 0

theorem stepsLeft_le (p : QueueProcessor E) : p.stepsLeft ≤ 2 * p.queue.length + 2 := by
  unfold stepsLeft
  split <;> omega

theorem receive_settings (p : QueueProcessor E) (overdue : Bool) : (p.receive overdue).settings = p.settings := by
  unfold receive
  split
  · rfl
  · rfl
  · rfl
  · split <;> rfl
  · rfl

variable [Exporter E]

/-- A worker that runs takes messages and exports, and does nothing else. -/
theorem workerStep_cases (p : QueueProcessor E) :
    p.workerStep = p ∨ p.workerStep = p.perform ∨ ∃ overdue, p.workerStep = p.receive overdue := by
  unfold workerStep
  split
  · exact .inr (.inr ⟨_, rfl⟩)
  · split
    · exact .inl rfl
    · exact .inr (.inl rfl)
  · exact .inl rfl

/-- What these two steps keep holds when the worker has run until it is idle. -/
theorem settle_induction {motive : QueueProcessor E → Prop}
    (receive : ∀ p overdue, motive p → motive (p.receive overdue)) (perform : ∀ p, motive p → motive p.perform)
    (h : motive p) : motive p.settle := by
  have hsteps : ∀ n p, motive p → motive (workerSteps n p) := by
    intro n
    induction n with
    | zero => exact fun _ h => h
    | succ n ih =>
      intro p h
      unfold workerSteps
      split
      · exact h
      · refine ih _ ?_
        rcases workerStep_cases p with heq | heq | ⟨overdue, heq⟩ <;> rw [heq]
        · exact h
        · exact perform p h
        · exact receive p overdue h
  exact hsteps _ p h

theorem perform_settings (p : QueueProcessor E) : p.perform.settings = p.settings := by
  unfold perform
  cases p.worker with
  | waiting => rfl
  | exited => rfl
  | exporting errand =>
    dsimp only
    split
    · cases errand <;> rfl
    · rfl

theorem settle_settings (p : QueueProcessor E) : p.settle.settings = p.settings :=
  settle_induction (motive := fun q => q.settings = p.settings)
    (fun q overdue h => (receive_settings q overdue).trans h) (fun q h => (perform_settings q).trans h) rfl

theorem stepsLeft_perform {errand : Errand} (hworker : p.worker = .exporting errand) :
    p.perform.stepsLeft < p.stepsLeft := by
  have hbefore : p.stepsLeft = 2 * p.queue.length + 2 := by simp only [stepsLeft, hworker]
  rw [hbefore]
  simp only [perform, hworker]
  split
  · cases errand <;> simp [finish, stepsLeft]
  · simp [stepsLeft]

theorem stepsLeft_receive (hworker : p.worker = .waiting) (h : p.isIdle = false) (overdue : Bool) :
    (p.receive overdue).stepsLeft < p.stepsLeft := by
  have hbefore : p.stepsLeft = 2 * p.queue.length + 1 := by simp only [stepsLeft, hworker]
  rw [hbefore]
  rcases hqueue : p.queue with _ | ⟨m, rest⟩
  · have hreleased : p.released = true := by simpa [isIdle, hworker, hqueue] using h
    simp [receive, stepsLeft, hworker, hqueue, hreleased]
  · have hrest : (p.receive overdue).queue = rest := by cases m <;> simp only [receive, hworker, hqueue]
    have hle := stepsLeft_le (p.receive overdue)
    rw [hrest] at hle
    rw [List.length_cons]
    omega

/-- Each step of a worker that is not idle is one less to take. -/
theorem stepsLeft_workerStep (h : p.isIdle = false) : p.workerStep.stepsLeft < p.stepsLeft := by
  unfold workerStep
  split
  · exact stepsLeft_receive ‹_› h _
  · rename_i errand hworker
    have hready : p.isBlocked = false := by simpa only [isIdle, hworker] using h
    rw [hready]
    exact stepsLeft_perform hworker
  · rename_i hworker
    simp [isIdle, hworker] at h

/-- The worker is let run for as many steps as it can take. -/
theorem isIdle_settle (p : QueueProcessor E) : p.settle.isIdle = true := by
  have hsteps : ∀ n (p : QueueProcessor E), p.stepsLeft ≤ n → (workerSteps n p).isIdle = true := by
    intro n
    induction n with
    | zero =>
      intro p h
      show p.isIdle = true
      unfold stepsLeft at h
      split at h
      · omega
      · omega
      · rename_i hworker
        simp only [isIdle, hworker]
    | succ n ih =>
      intro p h
      unfold workerSteps
      split
      · assumption
      · rename_i hbusy
        exact ih _ (Nat.le_of_lt_succ (Nat.lt_of_lt_of_le (stepsLeft_workerStep (Bool.eq_false_iff.mpr hbusy)) h))
  exact hsteps _ p (Nat.le_succ_of_le (stepsLeft_le p))

/-! ### Calls that let the worker run -/

theorem onEnd_run (r : Record) (p : QueueProcessor E) :
    Processor.onEnd r p = (.ok (), (offer r p).2.1.settle, (offer r p).2.2) := by
  have hbind : Processor.onEnd r p = (offer r >>= fun _ => Act.modify settle) p := rfl
  obtain ⟨q, events, hrun⟩ := offer_returns r p
  rw [hbind, Act.bind_run, hrun]
  simp [Act.modify]

variable {x : Act (QueueProcessor E) (Except ExportError Nat)} {q : QueueProcessor E} {events : List Event}

theorem await_of_error {e : ExportError} (h : x p = (.ok (.error e), q, events)) :
    await x p = (.ok (.error e), q, events) := by
  simp [await, Act.bind_run, h]

theorem await_of_ticket {ticket : Nat} (h : x p = (.ok (.ok ticket), q, events)) :
    await x p = ((answerTo ticket q.settle).1, q.settle, events) := by
  simp [await, Act.bind_run, h, Act.modify, answerTo_run]

/-- A request that got no ticket leaves the worker alone. -/
theorem await_state (x : Act (QueueProcessor E) (Except ExportError Nat)) (p : QueueProcessor E) :
    (await x p).2.1 = (x p).2.1 ∨ (await x p).2.1 = (x p).2.1.settle := by
  rcases hrun : x p with ⟨panic | e | ticket, q, events⟩
  · exact .inl (by simp [await, Act.bind_run, hrun])
  · exact .inl (by rw [await_of_error hrun])
  · exact .inr (by rw [await_of_ticket hrun])

end Settle

/-! ### Behind the watch

The callers and the worker of a processor with a watched exporter do what they do with the exporter behind it. -/

section Unwatched
variable {E : Type}

/-- The processor with the exporter behind the watch. -/
def unwatched (p : QueueProcessor (Watched E)) : QueueProcessor E := { p with exporter := p.exporter.inner }

theorem mirrors_refuse : Act.Mirrors (unwatched (E := E)) refuse refuse := by
  intro p
  rw [refuse_run, refuse_run]
  rfl

theorem mirrors_offer (r : Record) : Act.Mirrors (unwatched (E := E)) (offer r) (offer r) := by
  intro p
  have hroom : p.unwatched.hasRoom = p.hasRoom := rfl
  cases hopen : p.isShutdown with
  | true => rw [offer_of_shutdown r hopen, offer_of_shutdown r (p := p.unwatched) hopen]
  | false =>
    cases h : p.hasRoom with
    | true =>
      rw [offer_of_room r hopen h, offer_of_room r (p := p.unwatched) hopen (hroom.trans h)]
      rfl
    | false =>
      rw [offer_of_full r hopen h, offer_of_full r (p := p.unwatched) hopen (hroom.trans h)]
      exact mirrors_refuse p

theorem mirrors_requestFlush : Act.Mirrors (unwatched (E := E)) requestFlush requestFlush := by
  intro p
  have hopen : p.unwatched.isShutdown = p.isShutdown := rfl
  have hroom : p.unwatched.hasRoom = p.hasRoom := rfl
  cases hs : p.isShutdown <;> cases hr : p.hasRoom <;>
    simp [requestFlush, takeTicket, enqueue, Act.bind_run, Act.get, Act.update, Act.modify, hopen, hroom, hs, hr]
  exact ⟨rfl, rfl⟩

theorem mirrors_requestShutdown : Act.Mirrors (unwatched (E := E)) requestShutdown requestShutdown := by
  intro p
  have hopen : p.unwatched.isShutdown = p.isShutdown := rfl
  have hdropped : p.unwatched.dropped = p.dropped := rfl
  have hworker : p.unwatched.worker = p.worker := rfl
  cases hs : p.isShutdown with
  | true => simp [requestShutdown, Act.bind_run, Act.get, hopen, hs]
  | false =>
    by_cases hd : 0 < p.dropped <;> by_cases hw : p.worker = .exited <;>
      simp [requestShutdown, takeTicket, enqueue, Act.bind_run, Act.get, Act.update, Act.modify, Act.emit, hopen,
        hdropped, hworker, hs, hd, hw] <;>
      first | rfl | exact ⟨rfl, rfl⟩

theorem unwatched_receive (p : QueueProcessor (Watched E)) (overdue : Bool) :
    (p.receive overdue).unwatched = p.unwatched.receive overdue := by
  obtain ⟨settings, exporter, queue, buffer, worker, answers, nextTicket, dropped, isShutdown, released, events⟩ := p
  cases worker <;> rcases queue with _ | ⟨_ | _ | _, rest⟩ <;> first | rfl | (cases released <;> rfl)

theorem unwatched_finish (p : QueueProcessor (Watched E)) (errand : Errand) (r : ExportResult) :
    (p.finish errand r).unwatched = p.unwatched.finish errand r := by
  cases errand <;> rfl

variable [Exporter E]

theorem mirrors_exportFor (p : QueueProcessor (Watched E)) (errand : Errand) :
    Act.Mirrors Watched.inner (p.exportFor errand) (p.unwatched.exportFor errand) := by
  have hbatches := Watched.mirrors_deliverAll (E := E) (batchesOf p.settings.maxBatchSize p.buffer)
  cases errand with
  | due => exact hbatches
  | flush ticket => exact hbatches
  | shutdown ticket =>
    exact Act.Mirrors.bind hbatches fun _ => Act.Mirrors.bind Watched.mirrors_close fun _ => Act.Mirrors.pure _

/-- The worker does the same without the watch, also if the exporter panics. -/
theorem unwatched_perform (p : QueueProcessor (Watched E)) : p.perform.unwatched = p.unwatched.perform := by
  have hunwatched : p.unwatched.worker = p.worker := rfl
  have hidle : (∀ errand, p.worker ≠ .exporting errand) → p.perform.unwatched = p.unwatched.perform := by
    intro h
    rw [perform_of_idle h, perform_of_idle (hunwatched ▸ h)]
  cases hworker : p.worker with
  | waiting => exact hidle (by rw [hworker]; exact nofun)
  | exited => exact hidle (by rw [hworker]; exact nofun)
  | exporting errand =>
    have hexport := mirrors_exportFor p errand p.exporter
    have hexporter : p.unwatched.exporter = p.exporter.inner := rfl
    rw [hworker] at hunwatched
    unfold perform
    simp only [hworker, hunwatched, hexporter, hexport]
    cases (p.exportFor errand p.exporter).1 with
    | error => rfl
    | ok r => exact unwatched_finish _ errand r

theorem unwatched_workerStep (p : QueueProcessor (Watched E)) :
    p.workerStep.unwatched = p.unwatched.workerStep := by
  have hworker' : p.unwatched.worker = p.worker := rfl
  have hblocked : p.unwatched.isBlocked = p.isBlocked := rfl
  cases hworker : p.worker with
  | waiting =>
    simp only [workerStep, hworker', hworker]
    exact unwatched_receive p _
  | exporting errand =>
    simp only [workerStep, hworker', hworker, hblocked]
    split
    · rfl
    · exact unwatched_perform p
  | exited =>
    simp only [workerStep, hworker', hworker]

theorem unwatched_settle (p : QueueProcessor (Watched E)) : p.settle.unwatched = p.unwatched.settle := by
  have hsteps : ∀ n (p : QueueProcessor (Watched E)),
      (workerSteps n p).unwatched = workerSteps n p.unwatched := by
    intro n
    induction n with
    | zero => exact fun _ => rfl
    | succ n ih =>
      intro p
      have hidle : p.unwatched.isIdle = p.isIdle := rfl
      unfold workerSteps
      rw [hidle]
      split
      · rfl
      · rw [ih, unwatched_workerStep]
  exact hsteps _ p

theorem mirrors_await {x : Act (QueueProcessor (Watched E)) (Except ExportError Nat)}
    {y : Act (QueueProcessor E) (Except ExportError Nat)} (h : Act.Mirrors unwatched x y) :
    Act.Mirrors unwatched (await x) (await y) := by
  refine Act.Mirrors.bind h fun result => ?_
  cases result with
  | error e => exact Act.Mirrors.pure _
  | ok ticket =>
    exact Act.Mirrors.bind (Act.Mirrors.modify fun p => (unwatched_settle p).symm) fun _ _ => rfl

end Unwatched

end QueueProcessor
end Tracing
