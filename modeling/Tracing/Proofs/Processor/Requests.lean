import Mathlib.Data.List.Nodup
import Mathlib.Logic.Relation
import Tracing.Proofs.Lists
import Tracing.Proofs.Processor.Delivery

/-! # Requests and their answers

A request takes its place in the queue behind the records that were accepted before it, so the worker comes to it
when it has taken just these, in order. What was asked and what was answered is kept beside a history of a processor
(`RequestHistory`). The invariant (`RequestHistory.InOrder`) says that the requests come to their answers one after
the other, and that those without an answer are the one that the worker is at and those in the queue.

The histories go on when a caller gives up, since looking for an answer changes nothing. A call that flushes or shuts
down a processor makes a request, lets the worker run and looks for the answer; it comes back with what the worker
answered in such a history (`RequestHistory.Awaited`). -/

namespace Tracing

open QueueProcessor

/-- A request as it was put into the queue. -/
structure Request where
  ticket : Nat
  /-- It asks for shutdown, and else for a flush. -/
  forShutdown : Bool
  /-- The records that were accepted before it, oldest first. -/
  before : List Record

/-- An answer as the worker gave it. -/
structure Reply where
  ticket : Nat
  forShutdown : Bool
  result : ExportResult
  /-- The records that were handed to the exporter by then, oldest first. -/
  handed : List Record
  /-- The batches that the worker exported for it. -/
  exported : List (List Record)
  /-- What became of these batches. -/
  outcomes : List ExportResult

/-- The request that an answer settles: just what was accepted before it was handed over. -/
def Reply.request (a : Reply) : Request := ⟨a.ticket, a.forShutdown, a.handed⟩

/-- The requests in a queue whose worker took these records before. -/
def requestsBehind (before : List Record) : List Message → List Request
  | [] => []
  | .record r :: rest => requestsBehind (before ++ [r]) rest
  | .flush ticket :: rest => ⟨ticket, false, before⟩ :: requestsBehind before rest
  | .shutdown ticket :: rest => ⟨ticket, true, before⟩ :: requestsBehind before rest

theorem requestsBehind_append (before : List Record) (queue more : List Message) :
    requestsBehind before (queue ++ more) =
      requestsBehind before queue ++ requestsBehind (before ++ recordsOf queue) more := by
  induction queue generalizing before with
  | nil => simp [requestsBehind]
  | cons m rest ih => cases m <;> simp [requestsBehind, ih]

/-- The request that a worker with these records is at. -/
def WorkerState.requests (before : List Record) : WorkerState → List Request
  | .exporting (.flush ticket) => [⟨ticket, false, before⟩]
  | .exporting (.shutdown ticket) => [⟨ticket, true, before⟩]
  | .exporting .due | .waiting | .exited => []

namespace QueueProcessor
variable {E : Type} {p p' : QueueProcessor (Watched E)}

/-- The records that the worker has taken. -/
def taken (p : QueueProcessor (Watched E)) : List Record := p.exporter.batches.flatten ++ p.buffer

/-- The requests that have no answer yet, oldest first. -/
def pending (p : QueueProcessor (Watched E)) : List Request :=
  p.worker.requests p.taken ++ requestsBehind p.taken p.queue

theorem pending_of_enqueued {m : Message} (hworker : p'.worker = p.worker) (htaken : p'.taken = p.taken)
    (hqueue : p'.queue = p.queue ++ [m]) :
    p'.pending = p.pending ++ requestsBehind (p.taken ++ recordsOf p.queue) [m] := by
  unfold pending
  rw [hworker, htaken, hqueue, requestsBehind_append, List.append_assoc]

theorem pending_enqueue_record (r : Record) : (p.enqueue (.record r)).pending = p.pending := by
  have h : (p.enqueue (.record r)).pending =
      p.pending ++ requestsBehind (p.taken ++ recordsOf p.queue) [.record r] := pending_of_enqueued rfl rfl rfl
  exact h.trans (List.append_nil _)

/-- The worker takes a request in hand, or a record that its requests behind count on. -/
theorem Takes.pending {m : Message} {rest : List Message} (h : Takes p m rest p') (hworker : p.worker = .waiting)
    (hqueue : p.queue = m :: rest) : p'.pending = p.pending := by
  unfold QueueProcessor.pending taken
  rw [hworker, hqueue]
  cases h <;> simp [WorkerState.requests, requestsBehind, hworker]

theorem Takes.answers {m : Message} {rest : List Message} (h : Takes p m rest p') :
    p'.nextTicket = p.nextTicket ∧ p'.answers = p.answers := by
  cases h <;> exact ⟨rfl, rfl⟩

variable [Exporter E]

/-- The answers that the worker gives with its export. -/
def answered (p : QueueProcessor (Watched E)) : List Reply :=
  let exported := p.perform.exporter.batches.drop p.exporter.batches.length
  -- The latest answers stand in front.
  (p.perform.answers.take (p.perform.answers.length - p.answers.length)).map fun (ticket, result) =>
    { ticket, result
      forShutdown := p.worker = .exporting (.shutdown ticket)
      handed := p.perform.exporter.batches.flatten
      exported, outcomes := outcomes exported p.exporter }

theorem answered_of_none (h : p.perform.answers = p.answers) : answered p = [] := by
  simp [answered, h]

theorem answered_of_one {ticket : Nat} {r : ExportResult} {batches : List (List Record)}
    (hanswers : p.perform.answers = (ticket, r) :: p.answers)
    (hbatches : p.perform.exporter.batches = p.exporter.batches ++ batches) : answered p =
      [{ ticket, result := r
         forShutdown := p.worker = .exporting (.shutdown ticket)
         handed := p.exporter.batches.flatten ++ batches.flatten
         exported := batches
         outcomes := outcomes batches p.exporter }] := by
  simp [answered, hanswers, hbatches]

/-- The answer to a flush tells of the last batch that failed. -/
theorem perform_flush {ticket : Nat} (hworker : p.worker = .exporting (.flush ticket))
    (h : NeverPanics p.exporter.inner) : p.perform.answers =
      (ticket, lastFailure (outcomes (batchesOf p.settings.maxBatchSize p.buffer) p.exporter)) :: p.answers := by
  obtain ⟨hresult, -⟩ :=
    deliverAll_result (batchesOf p.settings.maxBatchSize p.buffer) (Watched.neverPanics h)
  rcases hrun : deliverAll (batchesOf p.settings.maxBatchSize p.buffer) p.exporter with ⟨result, exporter, events⟩
  rw [hrun] at hresult
  cases hresult
  unfold perform
  simp only [hworker, exportFor, exportBatches, hrun]
  rfl

theorem perform_taken {errand : Errand} (hworker : p.worker = .exporting errand) (h : NeverPanics p.exporter.inner) :
    p.perform.taken = p.taken := by
  obtain ⟨r, inner, events, hperform, -⟩ := perform_run hworker h
  have hbuffer : p.perform.buffer = [] := by
    rw [hperform]
    cases errand <;> rfl
  unfold taken
  rw [perform_batches hworker h, hbuffer, List.flatten_append, flatten_batchesOf, List.append_nil]

/-- What an export leaves of the requests, and what it answers. -/
structure Settles (p : QueueProcessor (Watched E)) : Prop where
  pending : p.pending = (answered p).map Reply.request ++ p.perform.pending
  nextTicket : p.perform.nextTicket = p.nextTicket
  answers : p.perform.answers = ((answered p).map fun a => (a.ticket, a.result)).reverse ++ p.answers
  judged : ∀ a ∈ answered p,
    a.outcomes.length = a.exported.length ∧ (a.forShutdown = false → a.result = lastFailure a.outcomes)

theorem Settles.of_idle (h : ∀ errand, p.worker ≠ .exporting errand) : Settles p := by
  have hsame := perform_of_idle h
  have hnone : answered p = [] := answered_of_none (by rw [hsame])
  exact {
    pending := by rw [hnone, hsame]; rfl
    nextTicket := by rw [hsame]
    answers := by rw [hnone, hsame]; rfl
    judged := by rw [hnone]; exact nofun }

/-- The worker is at a request to shut down only when nothing is behind it. -/
theorem Settles.of_exporting {errand : Errand} (hworker : p.worker = .exporting errand)
    (h : NeverPanics p.exporter.inner) (hlast : ∀ ticket, errand = .shutdown ticket → p.queue = []) : Settles p := by
  obtain ⟨r, inner, events, hperform, -⟩ := perform_run hworker h
  have hbatches := perform_batches hworker h
  have htaken := perform_taken hworker h
  have hhanded : p.exporter.batches.flatten ++ (batchesOf p.settings.maxBatchSize p.buffer).flatten = p.taken := by
    rw [flatten_batchesOf]
    rfl
  have hlength : (outcomes (batchesOf p.settings.maxBatchSize p.buffer) p.exporter).length =
      (batchesOf p.settings.maxBatchSize p.buffer).length := (deliverAll_result _ (Watched.neverPanics h)).2
  -- The requests behind stay in the queue. Shutdown clears it, but then there are none.
  cases errand with
  | due =>
    have hanswers : p.perform.answers = p.answers := by rw [hperform]; rfl
    have hnone := answered_of_none hanswers
    refine ⟨?_, by rw [hperform]; rfl, by rw [hnone, hanswers]; rfl, by rw [hnone]; exact nofun⟩
    unfold QueueProcessor.pending
    rw [hnone, htaken, hworker, hperform]
    rfl
  | flush ticket =>
    have hone := answered_of_one (perform_flush hworker h) hbatches
    refine ⟨?_, by rw [hperform]; rfl, by rw [hone, perform_flush hworker h]; rfl, ?_⟩
    · unfold QueueProcessor.pending
      rw [hone, hhanded, htaken, hworker, hperform]
      rfl
    · rw [hone]
      simp [hlength]
  | shutdown ticket =>
    have hanswers : p.perform.answers = (ticket, r) :: p.answers := by rw [hperform]; rfl
    have hone := answered_of_one hanswers hbatches
    refine ⟨?_, by rw [hperform]; rfl, by rw [hone, hanswers]; rfl, ?_⟩
    · unfold QueueProcessor.pending
      rw [hone, hhanded, htaken, hworker, hlast ticket rfl, hperform]
      simp [finish, WorkerState.requests, requestsBehind, Reply.request]
    · rw [hone]
      simp [hlength, hworker]

end QueueProcessor

/-- A history of a processor with what was asked and answered in it, oldest first. -/
structure RequestHistory (E : Type) where
  history : QueueHistory E
  requests : List Request := []
  replies : List Reply := []

namespace RequestHistory
variable {E : Type} {f : RequestHistory E}

/-- What comes to be asked with a call: something if it gets a ticket. -/
def made (f : RequestHistory E) (forShutdown : Bool) : Except Panic (Except ExportError Nat) → List Request
  | .ok (.ok ticket) => [⟨ticket, forShutdown, f.history.accepted⟩]
  | .ok (.error _) | .error _ => []

/-- Someone makes a request. -/
def ask (f : RequestHistory E) (forShutdown : Bool)
    (x : Act (QueueProcessor (Watched E)) (Except ExportError Nat)) : RequestHistory E :=
  { f with history := f.history.request x
           requests := f.requests ++ f.made forShutdown (x f.history.processor).1 }

theorem ask_of_error {forShutdown : Bool} {x : Act (QueueProcessor (Watched E)) (Except ExportError Nat)}
    {e : ExportError} (h : x f.history.processor = (.ok (.error e), f.history.processor, [])) :
    f.ask forShutdown x = f := by
  unfold ask QueueHistory.request
  rw [h, made, List.append_nil, List.append_nil]

theorem ask_of_ticket {forShutdown : Bool} {x : Act (QueueProcessor (Watched E)) (Except ExportError Nat)}
    {ticket : Nat} {p : QueueProcessor (Watched E)} {events : List Event}
    (h : x f.history.processor = (.ok (.ok ticket), p, events)) : f.ask forShutdown x =
      { f with history := { f.history with processor := p, reports := f.history.reports ++ events }
               requests := f.requests ++ [⟨ticket, forShutdown, f.history.accepted⟩] } := by
  unfold ask QueueHistory.request
  rw [h]
  rfl

section Steps
variable [Exporter E]

/-- The worker exports its buffer, and gives an answer if it does so on request. -/
def perform (f : RequestHistory E) : RequestHistory E :=
  { f with history := f.history.work QueueProcessor.perform
           replies := f.replies ++ answered f.history.processor }

/-- One step of a caller or of the worker. -/
inductive Step : RequestHistory E → RequestHistory E → Prop where
  | offer (f : RequestHistory E) (r : Record) : Step f { f with history := f.history.offer r }
  | miss (f : RequestHistory E) (isOpen : f.history.processor.isShutdown = false)
      (rendezvous : f.history.processor.settings.maxQueueSize = 0) : Step f { f with history := f.history.miss }
  /-- A queue of size zero may also refuse a request when its worker is about to wait for one; nothing changes then. -/
  | requestFlush (f : RequestHistory E) : Step f (f.ask false QueueProcessor.requestFlush)
  | requestShutdown (f : RequestHistory E) : Step f (f.ask true QueueProcessor.requestShutdown)
  | receive (f : RequestHistory E) (overdue : Bool) :
      Step f { f with history := f.history.work (QueueProcessor.receive overdue) }
  | timeout (f : RequestHistory E) (waiting : f.history.processor.worker = .waiting) :
      Step f { f with history := f.history.timeout }
  | perform (f : RequestHistory E) : Step f f.perform

/-- The histories of a processor that is made with any settings and an exporter that never panics. -/
inductive Reachable : RequestHistory E → Prop where
  | init (settings : QueueSettings) {e : E} (sturdy : NeverPanics e) :
      Reachable { history := { processor := { settings, exporter := { inner := e } } } }
  | next {f f' : RequestHistory E} (reach : Reachable f) (step : Step f f') : Reachable f'

theorem Step.history {f' : RequestHistory E} (step : Step f f') : QueueHistory.Step f.history f'.history := by
  cases step with
  | offer r => exact .offer _ r
  | miss isOpen rendezvous => exact .miss _ isOpen rendezvous
  | requestFlush => exact .requestFlush _
  | requestShutdown => exact .requestShutdown _
  | receive overdue => exact .receive _ overdue
  | timeout waiting => exact .timeout _ waiting
  | perform => exact .perform _

theorem Reachable.history (reach : Reachable f) : QueueHistory.Reachable f.history := by
  induction reach with
  | init settings sturdy => exact .init settings sturdy
  | next _ step ih => exact ih.next step.history

/-- Keeping the requests and answers is no restriction. -/
theorem exists_of_history {h : QueueHistory E} (reach : QueueHistory.Reachable h) :
    ∃ f : RequestHistory E, Reachable f ∧ f.history = h := by
  induction reach with
  | init settings sturdy => exact ⟨_, .init settings sturdy, rfl⟩
  | next _ step ih =>
    obtain ⟨f, reach, rfl⟩ := ih
    cases step with
    | offer r => exact ⟨_, reach.next (.offer f r), rfl⟩
    | miss isOpen rendezvous => exact ⟨_, reach.next (.miss f isOpen rendezvous), rfl⟩
    | requestFlush => exact ⟨_, reach.next (.requestFlush f), rfl⟩
    | requestShutdown => exact ⟨_, reach.next (.requestShutdown f), rfl⟩
    | receive overdue => exact ⟨_, reach.next (.receive f overdue), rfl⟩
    | timeout waiting => exact ⟨_, reach.next (.timeout f waiting), rfl⟩
    | perform => exact ⟨_, reach.next (.perform f), rfl⟩

end Steps

/-- What holds of the requests and answers at every moment. -/
structure InOrder (f : RequestHistory E) : Prop where
  settled : f.requests = f.replies.map Reply.request ++ f.history.processor.pending
  tickets : f.requests.map Request.ticket = List.range f.history.processor.nextTicket
  answers : f.history.processor.answers = (f.replies.map fun a => (a.ticket, a.result)).reverse
  judged : ∀ a ∈ f.replies,
    a.outcomes.length = a.exported.length ∧ (a.forShutdown = false → a.result = lastFailure a.outcomes)

namespace InOrder

theorem init (settings : QueueSettings) (e : E) :
    InOrder ({ history := { processor := { settings, exporter := { inner := e } } } } : RequestHistory E) where
  settled := rfl
  tickets := rfl
  answers := rfl
  judged := nofun

/-- Nothing is asked or answered. -/
theorem quiet (ho : f.InOrder) {h : QueueHistory E} (hpending : h.processor.pending = f.history.processor.pending)
    (hticket : h.processor.nextTicket = f.history.processor.nextTicket)
    (hanswers : h.processor.answers = f.history.processor.answers) : InOrder { f with history := h } where
  settled := ho.settled.trans (by rw [hpending])
  tickets := ho.tickets.trans (by rw [hticket])
  answers := hanswers.trans ho.answers
  judged := ho.judged

theorem miss (ho : f.InOrder) : InOrder { f with history := f.history.miss } := by
  unfold QueueHistory.miss
  rw [refuse_run]
  exact ho.quiet rfl rfl rfl

theorem offer (ho : f.InOrder) (r : Record) : InOrder { f with history := f.history.offer r } := by
  unfold QueueHistory.offer
  cases isShutdown : f.history.processor.isShutdown with
  | true =>
    rw [offer_of_shutdown r isShutdown]
    exact ho.quiet rfl rfl rfl
  | false =>
    cases room : f.history.processor.hasRoom with
    | true =>
      rw [offer_of_room r isShutdown room]
      exact ho.quiet (pending_enqueue_record r) rfl rfl
    | false =>
      rw [offer_of_full r isShutdown room, refuse_run]
      exact ho.quiet rfl rfl rfl

theorem timeout (ho : f.InOrder) (waiting : f.history.processor.worker = .waiting) :
    InOrder { f with history := f.history.timeout } := by
  refine ho.quiet ?_ rfl rfl
  unfold pending
  rw [waiting]
  rfl

/-- No ticket is given twice. -/
theorem nodup (ho : f.InOrder) :
    (f.replies.map Reply.ticket ++ f.history.processor.pending.map Request.ticket).Nodup := by
  have htickets := ho.tickets
  rw [ho.settled, List.map_append, List.map_map] at htickets
  have hsame : Request.ticket ∘ Reply.request = Reply.ticket := rfl
  rw [← hsame, htickets]
  exact List.nodup_range

theorem keys (ho : f.InOrder) :
    f.history.processor.answers.map Prod.fst = (f.replies.map Reply.ticket).reverse := by
  rw [ho.answers, List.map_reverse, List.map_map]
  rfl

theorem answerTo_of_reply (ho : f.InOrder) {a : Reply} (ha : a ∈ f.replies) :
    answerTo a.ticket f.history.processor = (.ok a.result, f.history.processor, []) := by
  have hnodup : (f.history.processor.answers.map Prod.fst).Nodup := by
    rw [ho.keys, (List.reverse_perm _).nodup_iff]
    exact (List.nodup_append.mp ho.nodup).1
  have hmem : (a.ticket, a.result) ∈ f.history.processor.answers := by
    rw [ho.answers, List.mem_reverse]
    exact List.mem_map_of_mem ha
  rw [answerTo_run, (lookup_eq_some_iff_mem hnodup).mpr hmem]
  rfl

theorem answerTo_of_none (ho : f.InOrder) {ticket : Nat} (h : ticket ∉ f.replies.map Reply.ticket) :
    answerTo ticket f.history.processor =
      (.ok (.error (.timeout f.history.processor.settings.flushTimeout)), f.history.processor, []) := by
  have hnone : f.history.processor.answers.lookup ticket = none := by
    rw [← Option.not_isSome_iff_eq_none, lookup_isSome_iff_mem, ho.keys, List.mem_reverse]
    exact h
  rw [answerTo_run, hnone]
  rfl

variable [Exporter E]

/-- The records accepted so far are those that the worker took and those in the queue, so a request put behind them
stands behind just these. -/
theorem enqueued (ho : f.InOrder) (hs : f.history.Sound) {m : Message} {r : Request} {h : QueueHistory E}
    (hr : r.ticket = f.history.processor.nextTicket) (hm : requestsBehind f.history.accepted [m] = [r])
    (hworker : h.processor.worker = f.history.processor.worker)
    (htaken : h.processor.taken = f.history.processor.taken)
    (hqueue : h.processor.queue = f.history.processor.queue ++ [m])
    (hticket : h.processor.nextTicket = f.history.processor.nextTicket + 1)
    (hanswers : h.processor.answers = f.history.processor.answers) :
    InOrder { f with history := h, requests := f.requests ++ [r] } where
  settled := by
    show f.requests ++ [r] = f.replies.map Reply.request ++ h.processor.pending
    rw [pending_of_enqueued hworker htaken hqueue, taken, hs.flow, hm, ho.settled, List.append_assoc]
  tickets := by
    show (f.requests ++ [r]).map Request.ticket = List.range h.processor.nextTicket
    rw [hticket, List.range_succ, List.map_append, ho.tickets, List.map_singleton, hr]
  answers := hanswers.trans ho.answers
  judged := ho.judged

theorem requestFlush (ho : f.InOrder) (hs : f.history.Sound) :
    InOrder (f.ask false QueueProcessor.requestFlush) := by
  rcases requestFlush_run f.history.processor with ⟨e, hrun⟩ | ⟨-, hrun⟩
  · rw [ask_of_error hrun]
    exact ho
  · rw [ask_of_ticket hrun]
    exact ho.enqueued hs rfl rfl rfl rfl rfl rfl rfl

theorem requestShutdown (ho : f.InOrder) (hs : f.history.Sound) :
    InOrder (f.ask true QueueProcessor.requestShutdown) := by
  cases isShutdown : f.history.processor.isShutdown with
  | true =>
    rw [ask_of_error (requestShutdown_of_shutdown isShutdown)]
    exact ho
  | false =>
    rw [ask_of_ticket (requestShutdown_run isShutdown (hs.stage.of_open isShutdown).1.1)]
    exact ho.enqueued hs rfl rfl rfl rfl rfl rfl rfl

theorem receive (ho : f.InOrder) (hs : f.history.Sound) (overdue : Bool) :
    InOrder { f with history := f.history.work (QueueProcessor.receive overdue) } := by
  unfold QueueHistory.work
  rcases receive_run hs.held overdue with hsame | ⟨hworker, m, rest, hqueue, htakes⟩
  · rw [hsame]
    exact ho
  · exact ho.quiet (htakes.pending hworker hqueue) htakes.answers.1 htakes.answers.2

theorem perform (ho : f.InOrder) (hs : f.history.Sound) : InOrder f.perform := by
  have hanswers : Settles f.history.processor := by
    cases hworker : f.history.processor.worker with
    | waiting => exact .of_idle (by rw [hworker]; exact nofun)
    | exited => exact .of_idle (by rw [hworker]; exact nofun)
    | exporting errand =>
      refine .of_exporting hworker hs.sturdy ?_
      rintro ticket rfl
      exact hs.stage.queue_of_closing hworker
  exact {
    settled := by
      show f.requests = (f.replies ++ answered f.history.processor).map Reply.request ++
        f.history.processor.perform.pending
      rw [ho.settled, hanswers.pending, List.map_append, List.append_assoc]
    tickets := ho.tickets.trans (congrArg List.range hanswers.nextTicket.symm)
    answers := by
      show f.history.processor.perform.answers = _
      rw [hanswers.answers, ho.answers, RequestHistory.perform, List.map_append, List.reverse_append]
    judged := by
      intro a ha
      rcases List.mem_append.mp ha with ha | ha
      · exact ho.judged a ha
      · exact hanswers.judged a ha }

end InOrder

variable [Exporter E]

theorem Reachable.inOrder (reach : Reachable f) : InOrder f := by
  induction reach with
  | init settings => exact InOrder.init settings _
  | next reach step ih =>
    -- A request counts on the flow of the records before it.
    have hs := reach.history.sound
    cases step with
    | offer r => exact ih.offer r
    | miss => exact ih.miss
    | requestFlush => exact ih.requestFlush hs
    | requestShutdown => exact ih.requestShutdown hs
    | receive overdue => exact ih.receive hs overdue
    | timeout waiting => exact ih.timeout waiting
    | perform => exact ih.perform hs

/-- A flush is a barrier: when the worker answers it, just the records that were accepted before it were handed to the
exporter, and it is a success exactly if no batch that was exported for it failed. The worker answers each flush that it
comes to. The caller gets this answer, or none within its time. No record is lost, handed over twice or put out of
order, whether or not a flush fails; one that is not put into the queue changes nothing at all. -/
theorem flushes_are_barriers {f : RequestHistory E} (reach : Reachable f) :
    let p := f.history.processor
    p.exporter.batches.flatten ++ p.buffer ++ recordsOf p.queue = f.history.accepted ∧
      (f.requests.map Request.ticket).Nodup ∧
      (∀ a ∈ f.replies,
        (∃ asked ∈ f.requests, asked.ticket = a.ticket ∧ asked.forShutdown = a.forShutdown ∧
          a.handed = asked.before) ∧
        a.outcomes.length = a.exported.length ∧
        (a.forShutdown = false → (a.result = .ok () ↔ ∀ outcome ∈ a.outcomes, outcome = .ok ())) ∧
        answerTo a.ticket p = (.ok a.result, p, [])) ∧
      (∀ ticket, p.worker = .exporting (.flush ticket) →
        ∃ a, f.perform.replies = f.replies ++ [a] ∧ a.ticket = ticket ∧ a.forShutdown = false) ∧
      (∀ asked ∈ f.requests, asked.ticket ∉ f.replies.map Reply.ticket →
        answerTo asked.ticket p = (.ok (.error (.timeout p.settings.flushTimeout)), p, [])) ∧
      ∀ e p' events, QueueProcessor.requestFlush p = (.ok (.error e), p', events) → p' = p ∧ events = [] := by
  intro p
  have ho := reach.inOrder
  refine ⟨reach.history.sound.flow, ?_, fun a ha => ⟨?_, (ho.judged a ha).1, fun hflush => ?_, ?_⟩,
    fun ticket hworker => ?_, fun asked _ hnone => ho.answerTo_of_none hnone, ?_⟩
  · rw [ho.tickets]
    exact List.nodup_range
  · refine ⟨a.request, ?_, rfl, rfl, rfl⟩
    rw [ho.settled]
    exact List.mem_append_left _ (List.mem_map_of_mem ha)
  · rw [(ho.judged a ha).2 hflush]
    exact lastFailure_eq_ok_iff
  · exact ho.answerTo_of_reply ha
  · have hsturdy := reach.history.sound.sturdy
    have hone := answered_of_one (perform_flush hworker hsturdy) (perform_batches hworker hsturdy)
    exact ⟨_, congrArg (f.replies ++ ·) hone, rfl, by simp [hworker]⟩
  · intro e p' events hfailed
    rcases requestFlush_run p with ⟨e', hrun⟩ | ⟨-, hrun⟩ <;> rw [hrun] at hfailed <;> cases hfailed
    exact ⟨rfl, rfl⟩

/-- An exporter fails with the batch of a flush, before which one record was accepted, and one more after. -/
def sampleRequests : RequestHistory RehearsedExporter :=
  let start : RequestHistory RehearsedExporter :=
    { history := { processor :=
        { settings := {}, exporter := { inner := { failures := [(0, "unreachable")] } } } } }
  let asked := { start with history := start.history.offer default }.ask false QueueProcessor.requestFlush
  let late := { asked with history := asked.history.offer default }
  let taken := { late with history := late.history.work (receive false) }
  { taken with history := taken.history.work (receive false) }

theorem sampleRequests_reachable : Reachable sampleRequests :=
  .next (.next (.next (.next (.next (.init _ (RehearsedExporter.neverPanics rfl)) (.offer _ default))
    (.requestFlush _)) (.offer _ default)) (.receive _ false)) (.receive _ false)

theorem flushes_are_barriers_in_sampleRequests :
    let f := sampleRequests.perform
    Reachable f ∧ f.history.accepted = [default, default] ∧
      (f.replies.map fun a => (a.ticket, a.handed, a.result.isOk)) = [(0, [default], false)] ∧
      (∀ a ∈ f.replies, ∃ asked ∈ f.requests, asked.ticket = a.ticket ∧ a.handed = asked.before) ∧
      ∀ a ∈ f.replies, answerTo a.ticket f.history.processor = (.ok a.result, f.history.processor, []) := by
  have hreach : Reachable sampleRequests.perform := sampleRequests_reachable.next (.perform _)
  obtain ⟨-, -, hreplies, -⟩ := flushes_are_barriers hreach
  refine ⟨hreach, rfl, by decide +kernel, fun a ha => ?_, fun a ha => (hreplies a ha).2.2.2⟩
  obtain ⟨⟨asked, hasked, hticket, -, hhanded⟩, -⟩ := hreplies a ha
  exact ⟨asked, hasked, hticket, hhanded⟩

/-! ### Calls that wait for an answer

A caller that flushes or shuts down makes a request, lets the worker run and looks for the answer. These are steps of a
history, and the call returns what the worker answered in it. -/

/-- Any number of steps of callers and of the worker. -/
abbrev Steps : RequestHistory E → RequestHistory E → Prop := Relation.ReflTransGen Step

theorem Reachable.steps {f' : RequestHistory E} (reach : Reachable f) (steps : Steps f f') : Reachable f' := by
  induction steps with
  | refl => exact reach
  | tail _ step ih => exact ih.next step

/-- The worker that is let run takes steps of the history. -/
theorem exists_settle (f : RequestHistory E) : ∃ f', Steps f f' ∧
    f'.history = f.history.work QueueProcessor.settle ∧ f'.requests = f.requests := by
  refine settle_induction (motive := fun p =>
    ∃ f', Steps f f' ∧ f'.history = { f.history with processor := p } ∧ f'.requests = f.requests) ?_ ?_
    ⟨f, .refl, rfl, rfl⟩
  · rintro p overdue ⟨f', steps, hhistory, hrequests⟩
    refine ⟨_, steps.tail (.receive f' overdue), ?_, hrequests⟩
    show f'.history.work (QueueProcessor.receive overdue) = _
    rw [hhistory]
    rfl
  · rintro p ⟨f', steps, hhistory, hrequests⟩
    refine ⟨_, steps.tail (.perform f'), ?_, hrequests⟩
    show f'.history.work QueueProcessor.perform = _
    rw [hhistory]
    rfl

/-- The request that a call makes. -/
def request (f : RequestHistory E) (forShutdown : Bool) : Request :=
  ⟨f.history.processor.nextTicket, forShutdown, f.history.accepted⟩

/-- What a caller gets, and what has come about by then. -/
inductive Gets (f : RequestHistory E) (forShutdown : Bool) : ExportResult → RequestHistory E → Prop where
  /-- The request was not put into the queue, and nothing has come about. -/
  | refused (e : ExportError) : Gets f forShutdown (.error e) f
  /-- The worker answered the request. -/
  | answered {f' : RequestHistory E} {a : Reply} (reply : a ∈ f'.replies) (asked : a.request = f.request forShutdown)
      (requests : f'.requests = f.requests ++ [a.request]) : Gets f forShutdown a.result f'
  /-- The exporter lets the worker wait before it has come to the request. -/
  | late {f' : RequestHistory E} (unanswered : f.history.processor.nextTicket ∉ f'.replies.map Reply.ticket)
      (blocked : f'.history.processor.isBlocked = true)
      (requests : f'.requests = f.requests ++ [f.request forShutdown]) :
      Gets f forShutdown (.error (.timeout f.history.processor.settings.flushTimeout)) f'

/-- A call that comes back with a result, and the steps that it takes. -/
structure Awaited (f : RequestHistory E) (forShutdown : Bool) (call : Act (QueueProcessor (Watched E)) ExportResult)
    (result : ExportResult) (f' : RequestHistory E) : Prop where
  steps : Steps f f'
  returned : ∃ events, call f.history.processor = (.ok result, f'.history.processor, events) ∧
    f'.history.reports = f.history.reports ++ events
  accepted : f'.history.accepted = f.history.accepted
  gets : Gets f forShutdown result f'

/-- A worker that is idle before it has come to a request stands before its exporter. -/
theorem Reachable.isBlocked (reach : Reachable f) (hidle : f.history.processor.isIdle = true) {r : Request}
    (hr : r ∈ f.requests) (hnone : r.ticket ∉ f.replies.map Reply.ticket) : f.history.processor.isBlocked = true := by
  have hpending : r ∈ f.history.processor.pending := by
    rw [reach.inOrder.settled] at hr
    rcases List.mem_append.mp hr with hr | hr
    · obtain ⟨a, ha, rfl⟩ := List.mem_map.mp hr
      exact absurd (List.mem_map_of_mem ha) hnone
    · exact hr
  have hs := reach.history.sound
  cases hworker : f.history.processor.worker with
  | waiting =>
    have hqueue : f.history.processor.queue = [] := by simpa [isIdle, hworker, hs.held] using hidle
    simp [pending, hworker, hqueue, WorkerState.requests, requestsBehind] at hpending
  | exporting errand => simpa only [isIdle, hworker] using hidle
  | exited =>
    obtain ⟨hqueue, -⟩ := hs.stage.of_exited hworker
    simp [pending, hworker, hqueue, WorkerState.requests, requestsBehind] at hpending

theorem Awaited.of_error (forShutdown : Bool) {x : Act (QueueProcessor (Watched E)) (Except ExportError Nat)}
    {e : ExportError} (hrun : x f.history.processor = (.ok (.error e), f.history.processor, [])) :
    Awaited f forShutdown (await x) (.error e) f :=
  ⟨.refl, ⟨[], await_of_error hrun, (List.append_nil _).symm⟩, rfl, .refused e⟩

theorem Awaited.of_ticket {forShutdown : Bool} {x : Act (QueueProcessor (Watched E)) (Except ExportError Nat)}
    {p : QueueProcessor (Watched E)} {events : List Event} (reach : Reachable f) (step : Step f (f.ask forShutdown x))
    (hrun : x f.history.processor = (.ok (.ok f.history.processor.nextTicket), p, events))
    (hsettings : p.settings = f.history.processor.settings) :
    ∃ result f', Awaited f forShutdown (await x) result f' := by
  obtain ⟨f', settled, hhistory, hrequests⟩ := exists_settle (f.ask forShutdown x)
  have steps : Steps f f' := .head step settled
  have reach' := reach.steps steps
  rw [ask_of_ticket hrun] at hhistory hrequests
  have hprocessor : f'.history.processor = p.settle := by rw [hhistory]; rfl
  have hasked : f.request forShutdown ∈ f'.requests := by
    rw [hrequests]
    exact List.mem_append_right _ List.mem_cons_self
  have hawait : await x f.history.processor =
      ((answerTo f.history.processor.nextTicket f'.history.processor).1, f'.history.processor, events) := by
    rw [hprocessor]
    exact await_of_ticket hrun
  have hreports : f'.history.reports = f.history.reports ++ events := by rw [hhistory]; rfl
  have haccepted : f'.history.accepted = f.history.accepted := by rw [hhistory]; rfl
  by_cases hreply : f.history.processor.nextTicket ∈ f'.replies.map Reply.ticket
  · obtain ⟨a, ha, hticket⟩ := List.mem_map.mp hreply
    have ha' : a.request ∈ f'.requests := by
      rw [reach'.inOrder.settled]
      exact List.mem_append_left _ (List.mem_map_of_mem ha)
    -- No two requests have one ticket.
    have hnodup : (f'.requests.map Request.ticket).Nodup := reach'.inOrder.tickets ▸ List.nodup_range
    have hrequest := List.inj_on_of_nodup_map hnodup ha' hasked hticket
    rw [← hticket, reach'.inOrder.answerTo_of_reply ha] at hawait
    refine ⟨_, f', steps, ⟨events, hawait, hreports⟩, haccepted, .answered ha hrequest ?_⟩
    rw [hrequest]
    exact hrequests
  · have hblocked := reach'.isBlocked (by rw [hprocessor]; exact isIdle_settle p) hasked hreply
    rw [reach'.inOrder.answerTo_of_none hreply, hprocessor, settle_settings, hsettings] at hawait
    exact ⟨_, f', steps, ⟨events, hprocessor ▸ hawait, hreports⟩, haccepted, .late hreply hblocked hrequests⟩

/-- A flush comes back: with the answer that the worker gave to its request, or with the reason why there is none. -/
theorem Reachable.forceFlush (reach : Reachable f) : ∃ result f', Awaited f false Processor.forceFlush result f' := by
  rcases requestFlush_run f.history.processor with ⟨e, hrun⟩ | ⟨-, hrun⟩
  · exact ⟨_, f, .of_error false hrun⟩
  · exact Awaited.of_ticket reach (.requestFlush f) hrun rfl

/-- A flush that comes back as a success was answered when all records accepted before it had been handed over, and no
batch that was exported for it failed. -/
theorem Reachable.handed_of_success (reach : Reachable f) {p : QueueProcessor (Watched E)} {events : List Event}
    (h : Processor.forceFlush f.history.processor = (.ok (.ok ()), p, events)) :
    ∃ f', Steps f f' ∧ f'.history.processor = p ∧
      ∃ a ∈ f'.replies, a.handed = f.history.accepted ∧ ∀ outcome ∈ a.outcomes, outcome = .ok () := by
  obtain ⟨result, f', steps, ⟨events', hrun, -⟩, -, gets⟩ := reach.forceFlush
  obtain ⟨hresult, hstate⟩ := Prod.mk.inj (hrun.symm.trans h)
  refine ⟨f', steps, (Prod.mk.inj hstate).1, ?_⟩
  cases gets with
  | refused e => cases hresult
  | late => cases hresult
  | @answered _ a reply asked requests =>
    have hjudged := ((reach.steps steps).inOrder.judged a reply).2 (congrArg Request.forShutdown asked)
    exact ⟨a, reply, congrArg Request.before asked,
      lastFailure_eq_ok_iff.mp (hjudged.symm.trans (Except.ok.inj hresult))⟩

theorem Reachable.shutdown (reach : Reachable f) : ∃ result f', Awaited f true Processor.shutdown result f' := by
  cases isShutdown : f.history.processor.isShutdown with
  | true => exact ⟨_, f, .of_error true (requestShutdown_of_shutdown isShutdown)⟩
  | false =>
    have hworker := (reach.history.sound.stage.of_open isShutdown).1.1
    exact Awaited.of_ticket reach (.requestShutdown f) (requestShutdown_run isShutdown hworker) rfl

/-- Without the watch the call does the same. -/
theorem Awaited.unwatched {f' : RequestHistory E} {forShutdown : Bool} {result : ExportResult}
    {x : Act (QueueProcessor (Watched E)) (Except ExportError Nat)}
    {y : Act (QueueProcessor E) (Except ExportError Nat)} (h : Awaited f forShutdown (await x) result f')
    (hmirrors : Act.Mirrors QueueProcessor.unwatched x y) : ∃ events,
      await y f.history.processor.unwatched = (.ok result, f'.history.processor.unwatched, events) := by
  obtain ⟨events, hrun, -⟩ := h.returned
  exact ⟨events, by rw [mirrors_await hmirrors f.history.processor, hrun]⟩

/-- The calls of a processor in use come back as those of a history, with the watch taken off. -/
theorem exists_awaited {settings : QueueSettings} {e : E} (sturdy : NeverPanics e) {p : QueueProcessor E}
    (use : QueueHistory.InUse settings e p) : ∃ f, Reachable f ∧ f.history.processor.unwatched = p ∧
      (∃ result f' events, Awaited f false Processor.forceFlush result f' ∧
        Processor.forceFlush p = (.ok result, f'.history.processor.unwatched, events)) ∧
      ∃ result f' events, Awaited f true Processor.shutdown result f' ∧
        Processor.shutdown p = (.ok result, f'.history.processor.unwatched, events) := by
  obtain ⟨h, reachHistory, rfl⟩ := use.exists_history sturdy
  obtain ⟨f, reach, rfl⟩ := exists_of_history reachHistory
  obtain ⟨flushed, f', hflush⟩ := reach.forceFlush
  obtain ⟨closed, f'', hshutdown⟩ := reach.shutdown
  obtain ⟨events, hrun⟩ := hflush.unwatched mirrors_requestFlush
  obtain ⟨events', hrun'⟩ := hshutdown.unwatched mirrors_requestShutdown
  exact ⟨f, reach, rfl, ⟨flushed, f', events, hflush, hrun⟩, ⟨closed, f'', events', hshutdown, hrun'⟩⟩

end RequestHistory
end Tracing
