import Tracing.Event

/-!
# The stack of contexts

A thread has one current context. Attaching a context makes it current and gives a guard; dropping the guard
makes the context current again that was current before. Guards may be dropped in any order: dropping one below
the top only clears its slot, and the current context changes when the top is dropped, past all slots cleared
under it.

Each slot keeps the context that was current when the slot was filled. A guard knows the height of the stack
just after its context was attached, which is the guard's position. The stack has a greatest height; a context
attached beyond it is refused, and its guard has no effect.
-/

namespace Tracing

/-- The contexts attached on one thread, of any type. -/
structure ContextStack (α : Type) where
  current : α
  /-- For each position from one upwards, the context that the one attached there replaced. -/
  slots : Array (Option α) := #[]
deriving Repr, DecidableEq

/-- What an attached context is dropped by. -/
structure ContextGuard where
  position : Nat
deriving DecidableEq, Repr, Inhabited

namespace ContextStack

variable {α : Type}

/-- The position below all guards. -/
def bottom : Nat := 0

/-- The position of the guards of refused contexts. Positions have 16 bits. -/
def overflow : Nat := 65535

/-- The stack of a thread on which nothing is attached. -/
def ofBase (base : α) : ContextStack α := { current := base }

/-- All contexts that the stack keeps. -/
def contexts (s : ContextStack α) : List α := s.current :: s.slots.toList.filterMap id

/-- A context can still be attached. -/
def hasRoom (s : ContextStack α) : Bool := s.slots.size + 1 < overflow

/-- The stack with a context attached. -/
def push (s : ContextStack α) (cx : α) : ContextStack α :=
  { current := cx, slots := s.slots.push (some s.current) }

/-- Attaches a context, if there is room. -/
def attach (s : ContextStack α) (cx : α) : ContextGuard × ContextStack α × List Event :=
  if s.hasRoom then (⟨s.slots.size + 1⟩, s.push cx, [])
  else (⟨overflow⟩, s, [.attachFailed overflow])

/-- The slots without the cleared ones at the top. -/
def dropCleared (slots : Array (Option α)) : Array (Option α) := slots.popWhile Option.isNone

/-- The stack after its top was dropped: the context of the highest slot still filled is current. -/
def pop (s : ContextStack α) : ContextStack α :=
  let slots := dropCleared s.slots
  match slots.back? with
  | some (some cx) => { current := cx, slots := slots.pop }
  | _ => { s with slots := slots }

/-- The stack with a slot cleared. -/
def clear (s : ContextStack α) (position : Nat) : ContextStack α :=
  { s with slots := s.slots.setIfInBounds position none }

/-- Drops the context at a position. -/
def popAt (s : ContextStack α) (position : Nat) : ContextStack α × List Event :=
  if position = bottom ∨ position = overflow then (s, [.outOfOrderDrop position])
  else if position = s.slots.size then (s.pop, [])
  else if position > s.slots.size then (s, [.popOutOfBounds position s.slots.size])
  else (s.clear position, [])

/-- Drops a guard. The guard of a refused context has no effect. -/
def detach (s : ContextStack α) (g : ContextGuard) : ContextStack α × List Event :=
  if bottom < g.position ∧ g.position < overflow then s.popAt g.position else (s, [])

/-- Attaches a context a number of times; the guards in the order of attaching. -/
def attachTimes (cx : α) : Nat → ContextStack α → List ContextGuard × ContextStack α × List Event
  | 0, s => ([], s, [])
  | n + 1, s =>
    let (g, s, events) := s.attach cx
    let (gs, s, more) := attachTimes cx n s
    (g :: gs, s, events ++ more)

/-- Drops guards in order; the context that is current after each. -/
def detachAll : List ContextGuard → ContextStack α → List α × ContextStack α × List Event
  | [], s => ([], s, [])
  | g :: gs, s =>
    let (s, events) := s.detach g
    let current := s.current
    let (currents, s, more) := detachAll gs s
    (current :: currents, s, events ++ more)

end ContextStack

/-- A guard as reports show it. -/
def ContextGuard.text (g : ContextGuard) : String :=
  "ContextGuard \x7b cx_pos: " ++ toString g.position ++ ", _marker: PhantomData<*const ()> \x7d"

end Tracing
