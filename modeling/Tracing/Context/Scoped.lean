import Tracing.Act
import Tracing.Context.Stack

/-!
# Work within a context

A piece of work that runs in several turns, such as a future, a stream or a sink, can be wrapped so that one
context is current during each of its turns. The wrapper attaches the context before a turn and drops its guard
after it, so that wrappers nest.
-/

namespace Tracing

/-- An act on the state of some work and on the stack of its thread. -/
abbrev Turn (σ κ α : Type) := Act (σ × ContextStack κ) α

namespace Turn

variable {σ κ α : Type}

/-- Work on the stack alone. -/
def onStack (f : ContextStack κ → α × ContextStack κ × List Event) : Turn σ κ α := fun (s, stack) =>
  let (a, stack, events) := f stack
  (.ok a, (s, stack), events)

/-- Attaches a context. -/
def attach (cx : κ) : Turn σ κ ContextGuard := onStack (·.attach cx)

/-- Drops a guard. -/
def detach (g : ContextGuard) : Turn σ κ Unit := onStack fun stack => ((), stack.detach g)

/-- The current context. -/
def current : Turn σ κ κ := onStack fun stack => (stack.current, stack, [])

/-- One turn of wrapped work: the context is attached, and its guard dropped even if the turn panics. -/
def within (cx : κ) (turn : Turn σ κ α) : Turn σ κ α := fun (s, stack) =>
  let (g, stack, e₁) := stack.attach cx
  let (r, (s, stack), e₂) := turn (s, stack)
  let (stack, e₃) := stack.detach g
  (r, (s, stack), e₁ ++ e₂ ++ e₃)

end Turn

/-- Work that a context is wrapped around: the context and the state of the work. -/
structure Wrapped (κ σ : Type) where
  context : κ
  inner : σ
deriving Repr

/-- A turn of the inner work as a turn of the wrapped work. -/
def Wrapped.turn {κ σ α : Type} (inner : Turn σ κ α) : Turn (Wrapped κ σ) κ α := fun (w, stack) =>
  let (r, (s, stack), events) := Turn.within w.context inner (w.inner, stack)
  (r, ({ w with inner := s }, stack), events)

end Tracing
