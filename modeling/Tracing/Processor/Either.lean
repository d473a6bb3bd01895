import Tracing.Processor.Direct
import Tracing.Processor.Queue

/-!
# Processors of either kind

A tracer may have direct processors and queue processors side by side.
-/

namespace Tracing

/-- A direct processor or a queue processor. -/
inductive EitherProcessor (E : Type) where
  | direct (p : DirectProcessor E)
  | queue (p : QueueProcessor E)

namespace EitherProcessor

variable {E : Type} [Exporter E] {α : Type}

/-- Runs the act of the kind at hand. -/
def act (onDirect : Act (DirectProcessor E) α) (onQueue : Act (QueueProcessor E) α) :
    Act (EitherProcessor E) α := fun
  | direct p => let (r, p, events) := onDirect p; (r, direct p, events)
  | queue p => let (r, p, events) := onQueue p; (r, queue p, events)

instance : Processor (EitherProcessor E) where
  onEnd r := act (Processor.onEnd r) (Processor.onEnd r)
  forceFlush := act Processor.forceFlush Processor.forceFlush
  shutdown := act Processor.shutdown Processor.shutdown

/-- The exporter. -/
def exporter : EitherProcessor E → E
  | direct p => p.exporter
  | queue p => p.exporter

/-- Changes the exporter, after which a worker that waited for it may go on. -/
def adjust (f : E → E) : EitherProcessor E → EitherProcessor E
  | direct p => direct { p with exporter := f p.exporter }
  | queue p => queue { p with exporter := f p.exporter }.settle

/-- The worker stands before an exporter that lets it wait. -/
def isBlocked : EitherProcessor E → Bool
  | direct _ => false
  | queue p => p.isBlocked

/-- The worker is gone. A direct processor has none. -/
def isDead : EitherProcessor E → Bool
  | direct _ => true
  | queue p => p.worker == .exited

/-- Time passes until the worker has exported what it holds, unless the scheduled delay is longer than
`patience`. -/
def wait (patience : Duration) : EitherProcessor E → EitherProcessor E
  | direct p => direct p
  | queue p => queue (if p.settings.scheduledDelay.nanos ≤ patience.nanos then p.passDelay.settle else p)

/-- Nobody holds the processor any more. -/
def release : EitherProcessor E → EitherProcessor E
  | direct p => direct p
  | queue p => queue p.release.settle

/-- Takes the events that the worker has reported. -/
def takeWorkerEvents : EitherProcessor E → List Event × EitherProcessor E
  | direct p => ([], direct p)
  | queue p => (p.workerEvents, queue { p with workerEvents := [] })

/-- The size of the batch that a worker is delivering while the exporter lets it wait. -/
def batchInProgress : EitherProcessor E → Option Nat
  | direct _ => none
  | queue p => p.batchInProgress

end EitherProcessor

end Tracing
