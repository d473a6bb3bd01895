import Tracing.Event

/-!
# Acts

An act changes a state, emits events and either returns a value or is cut short by a panic. What it changed and
emitted before the panic remains. A guard around a callback turns the panic into an event.
-/

namespace Tracing

/-- What cuts an act short; `none` if it carries no text. -/
structure Panic where
  text : Option String
deriving DecidableEq, Repr

/-- The text of a panic as reports show it. -/
def Panic.message (p : Panic) : String := p.text.getD "unknown panic"

/-- A computation on a state of type `σ`: the result, the state afterwards and the events, oldest first. -/
def Act (σ α : Type) : Type := σ → Except Panic α × σ × List Event

namespace Act

variable {σ τ α β : Type}

/-- Runs an act in a state. -/
def run (x : Act σ α) (s : σ) : Except Panic α × σ × List Event := x s

/-- Returns a value and nothing else. -/
protected def pure (a : α) : Act σ α := fun s => (.ok a, s, [])

/-- Runs one act after another; a panic in the first one ends both. -/
protected def bind (x : Act σ α) (f : α → Act σ β) : Act σ β := fun s =>
  match x s with
  | (.ok a, s, events) =>
    let (r, s, more) := f a s
    (r, s, events ++ more)
  | (.error p, s, events) => (.error p, s, events)

instance : Monad (Act σ) where
  pure := Act.pure
  bind := Act.bind

/-- The state. -/
def get : Act σ σ := fun s => (.ok s, s, [])

/-- Changes the state. -/
def modify (f : σ → σ) : Act σ Unit := fun s => (.ok (), f s, [])

/-- Changes the state and returns a value. -/
def update (f : σ → α × σ) : Act σ α := fun s =>
  let (a, s) := f s
  (.ok a, s, [])

/-- Emits an event. -/
def emit (e : Event) : Act σ Unit := fun s => (.ok (), s, [e])

/-- Cuts the act short. -/
def panic (p : Panic) : Act σ α := fun s => (.error p, s, [])

/-- Runs an act on a part of the state. -/
def onPart (view : σ → τ) (put : τ → σ → σ) (x : Act τ α) : Act σ α := fun s =>
  let (r, part, events) := x (view s)
  (r, put part s, events)

/-- Runs a callback so that a panic in it ends here: the result is then nothing, and an event tells of it. -/
def guard (operation : String) (x : Act σ α) : Act σ (Option α) := fun s =>
  match x s with
  | (.ok a, s, events) => (.ok (some a), s, events)
  | (.error p, s, events) => (.ok none, s, events ++ [.callbackPanicked operation p.message])

/-- Reports a misuse, and in strict mode panics with its wording. -/
def misuse (strict : Bool) (e : UsageError) : Act σ Unit := do
  emit (.misuse e)
  if strict then panic ⟨some e.message⟩

@[simp] theorem pure_run (a : α) (s : σ) : (pure a : Act σ α) s = (.ok a, s, []) := rfl

theorem bind_run (x : Act σ α) (f : α → Act σ β) (s : σ) :
    (x >>= f) s = match x s with
      | (.ok a, s, events) => ((f a s).1, (f a s).2.1, events ++ (f a s).2.2)
      | (.error p, s, events) => (.error p, s, events) := rfl

end Act

end Tracing
