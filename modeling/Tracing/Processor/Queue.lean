import Tracing.Processor.Batches
import Tracing.Time

/-!
# Queue processors

A queue processor hands its records to a worker, which runs beside the callers and alone touches the exporter. The
callers put messages into a bounded queue: a record, or a request to flush or to shut down, which carries a ticket
for the answer. The worker takes the messages in order and collects records in a buffer. It exports the buffer when
a batch is full, when the scheduled delay has passed, and on request.

The state below changes in the steps of the callers and of the worker. Taking a message and exporting are two steps
of the worker, because an exporter may let it wait in between. `settle` runs the worker until it has to wait; a
caller that waits for an answer gets what the worker comes to by then.
-/

namespace Tracing

/-! ### Settings -/

/-- How a queue processor queues and exports. -/
structure QueueSettings where
  /-- The most messages that wait in the queue. -/
  maxQueueSize : Nat := 2048
  /-- The longest time between two exports. -/
  scheduledDelay : Duration := .ofSeconds 5
  /-- The most records of one export. -/
  maxBatchSize : Nat := 512
  /-- How long a caller waits for a flush or a shutdown. -/
  flushTimeout : Duration := .ofSeconds 5
deriving DecidableEq, Repr, Inhabited

namespace QueueSettings

/-- The settings with batches no larger than the queue. -/
def capped (s : QueueSettings) : QueueSettings := { s with maxBatchSize := min s.maxBatchSize s.maxQueueSize }

/-- The settings as reports show them. -/
def text (s : QueueSettings) : String :=
  "QueueConfig \x7b max_queue_size: " ++ toString s.maxQueueSize ++ ", scheduled_delay: " ++
    s.scheduledDelay.text ++ ", max_export_batch_size: " ++ toString s.maxBatchSize ++
    ", flush_timeout: " ++ s.flushTimeout.text ++ " \x7d"

end QueueSettings

/-! ### States -/

/-- What a caller puts into the queue. -/
inductive Message where
  | record (r : Record)
  | flush (ticket : Nat)
  | shutdown (ticket : Nat)
deriving DecidableEq

/-- Why the worker exports its buffer. -/
inductive Errand where
  /-- A batch is full, or the delay has passed. -/
  | due
  | flush (ticket : Nat)
  | shutdown (ticket : Nat)
deriving DecidableEq

/-- What the worker is at. -/
inductive WorkerState where
  /-- It waits for a message. -/
  | waiting
  /-- It is about to export its buffer. -/
  | exporting (errand : Errand)
  /-- It is gone, and the queue with it. -/
  | exited
deriving DecidableEq

/-- A processor with a queue and a worker. -/
structure QueueProcessor (E : Type) where
  settings : QueueSettings
  exporter : E
  /-- The messages that wait, oldest first. -/
  queue : List Message := []
  /-- The records that the worker has taken and not exported. -/
  buffer : List Record := []
  worker : WorkerState := .waiting
  /-- The answers to the requests by ticket, latest first. -/
  answers : List (Nat × ExportResult) := []
  nextTicket : Nat := 0
  /-- How many records were refused, as a number without bound: a counter of 64 bits shows the same until it has
  counted 2^64 of them, and there it would begin again at zero. -/
  dropped : Nat := 0
  isShutdown : Bool := false
  /-- Nobody can put messages into the queue any more. -/
  released : Bool := false
  /-- What the worker reported, oldest first. -/
  workerEvents : List Event := []

namespace QueueProcessor

variable {E : Type} [Exporter E]

/-! ### Steps of the worker -/

/-- The worker takes the first message. `overdue` says whether the scheduled delay has passed by then. If there is
no message and none can come, the worker exits. -/
def receive (overdue : Bool) (p : QueueProcessor E) : QueueProcessor E :=
  match p.worker, p.queue with
  | .waiting, .record r :: rest =>
    let buffer := p.buffer ++ [r]
    let full := buffer.length ≥ p.settings.maxBatchSize
    { p with queue := rest, buffer, worker := if full || overdue then .exporting .due else .waiting }
  | .waiting, .flush ticket :: rest => { p with queue := rest, worker := .exporting (.flush ticket) }
  | .waiting, .shutdown ticket :: rest => { p with queue := rest, worker := .exporting (.shutdown ticket) }
  | .waiting, [] =>
    if p.released then { p with worker := .exited, workerEvents := p.workerEvents ++ [.workerExiting] } else p
  | _, _ => p

/-- The scheduled delay passes while the worker waits. -/
def passDelay (p : QueueProcessor E) : QueueProcessor E :=
  if p.worker = .waiting ∧ p.queue = [] then { p with worker := .exporting .due } else p

/-- What the worker exports on an errand: the buffer, and at shutdown the exporter is closed whatever became of the
buffer. -/
def exportFor (p : QueueProcessor E) : Errand → Act E ExportResult
  | .due | .flush _ => exportBatches p.settings.maxBatchSize p.buffer
  | .shutdown _ => do
    let exported ← exportBatches p.settings.maxBatchSize p.buffer
    let closed ← Exporter.close
    return firstFailure [exported, closed]

/-- The worker after its export came back with a result. -/
def finish (p : QueueProcessor E) (errand : Errand) (r : ExportResult) : QueueProcessor E :=
  let p := { p with buffer := [] }
  match errand with
  | .due =>
    let report := match r with
      | .error e => [.queuedExportFailed e]
      | .ok () => []
    { p with worker := .waiting, workerEvents := p.workerEvents ++ report }
  | .flush ticket => { p with worker := .waiting, answers := (ticket, r) :: p.answers }
  | .shutdown ticket => { p with worker := .exited, queue := [], answers := (ticket, r) :: p.answers }

/-- The worker exports its buffer. If the exporter panics, the worker is gone with all that it held. -/
def perform (p : QueueProcessor E) : QueueProcessor E :=
  match p.worker with
  | .exporting errand =>
    let (r, exporter, events) := p.exportFor errand p.exporter
    let p := { p with exporter, workerEvents := p.workerEvents ++ events }
    match r with
    | .ok r => p.finish errand r
    | .error _ => { p with worker := .exited, queue := [], buffer := [] }
  | _ => p

/-- The worker stands before an exporter that lets it wait. -/
def isBlocked (p : QueueProcessor E) : Bool :=
  match p.worker with
  | .exporting _ => !p.buffer.isEmpty && !Exporter.isReady p.exporter
  | _ => false

/-- The worker has nothing to do until a caller, the exporter or time lets it go on. -/
def isIdle (p : QueueProcessor E) : Bool :=
  match p.worker with
  | .waiting => p.queue.isEmpty && !p.released
  | .exporting _ => p.isBlocked
  | .exited => true

/-- The next step of the worker when time does not matter: a delay of zero is always over, any other never. -/
def workerStep (p : QueueProcessor E) : QueueProcessor E :=
  match p.worker with
  | .waiting => p.receive (p.settings.scheduledDelay.nanos == 0)
  | .exporting _ => if p.isBlocked then p else p.perform
  | .exited => p

/-- A number of steps of the worker, or fewer if it becomes idle. -/
def workerSteps : Nat → QueueProcessor E → QueueProcessor E
  | 0, p => p
  | n + 1, p => if p.isIdle then p else workerSteps n p.workerStep

/-- Runs the worker until it is idle: each message takes two steps at most. -/
def settle (p : QueueProcessor E) : QueueProcessor E := workerSteps (2 * p.queue.length + 3) p

/-! ### Steps of the callers -/

/-- A message can be put into the queue without waiting. A queue of size zero hands messages over to a worker that
waits for one. -/
def hasRoom (p : QueueProcessor E) : Bool :=
  if p.worker = .exited then false
  else if p.settings.maxQueueSize = 0 then p.worker = .waiting && p.queue.isEmpty
  else decide (p.queue.length < p.settings.maxQueueSize)

/-- Puts a message at the end of the queue. -/
def enqueue (p : QueueProcessor E) (m : Message) : QueueProcessor E := { p with queue := p.queue ++ [m] }

/-- Refuses a record: it is counted, and the first refusal is reported. -/
def refuse : Act (QueueProcessor E) Unit := do
  let p ← Act.get
  Act.modify fun p => { p with dropped := p.dropped + 1 }
  if p.dropped = 0 then Act.emit .droppingStarted

/-- Offers a record. After shutdown it is discarded, and without room it is refused. -/
def offer (r : Record) : Act (QueueProcessor E) Unit := do
  let p ← Act.get
  if p.isShutdown then return
  if p.hasRoom then Act.modify (·.enqueue (.record r)) else refuse

/-- Takes the next ticket. -/
def takeTicket : Act (QueueProcessor E) Nat :=
  Act.update fun p => (p.nextTicket, { p with nextTicket := p.nextTicket + 1 })

/-- Asks for a flush: the ticket of the answer, or why there will be none. -/
def requestFlush : Act (QueueProcessor E) (Except ExportError Nat) := do
  let p ← Act.get
  if p.isShutdown then return .error .alreadyShutdown
  if !p.hasRoom then return .error (.internal "failed to send ForceFlush message")
  let ticket ← takeTicket
  Act.modify (·.enqueue (.flush ticket))
  return .ok ticket

/-- Asks for shutdown, once, and reports how many records were refused. The request waits for room if need be, so
that its place is at the end of the queue in any case. -/
def requestShutdown : Act (QueueProcessor E) (Except ExportError Nat) := do
  let p ← Act.get
  if p.isShutdown then return .error .alreadyShutdown
  Act.modify fun p => { p with isShutdown := true }
  if p.dropped > 0 then Act.emit (.recordsDropped p.dropped)
  if p.worker = .exited then return .error (.internal "failed to send Shutdown message")
  let ticket ← takeTicket
  Act.modify (·.enqueue (.shutdown ticket))
  return .ok ticket

/-- The answer to a request. A caller waits for it no longer than the settings say. -/
def answerTo (ticket : Nat) : Act (QueueProcessor E) ExportResult := do
  let p ← Act.get
  return (p.answers.lookup ticket).getD (.error (.timeout p.settings.flushTimeout))

/-- Lets the worker run, and then looks for the answer to a request. -/
def await (request : Act (QueueProcessor E) (Except ExportError Nat)) : Act (QueueProcessor E) ExportResult := do
  match ← request with
  | .error e => return .error e
  | .ok ticket =>
    Act.modify settle
    answerTo ticket

instance : Processor (QueueProcessor E) where
  onEnd r := do
    offer r
    Act.modify settle
  forceFlush := await requestFlush
  shutdown := await requestShutdown

/-- Nobody holds the processor any more: the worker ends once it has taken all messages. -/
def release (p : QueueProcessor E) : QueueProcessor E := { p with released := true }

/-- The size of the batch that the worker is delivering while the exporter lets it wait. -/
def batchInProgress (p : QueueProcessor E) : Option Nat :=
  if p.isBlocked then (batchesOf p.settings.maxBatchSize p.buffer).head?.map List.length else none

end QueueProcessor

end Tracing
