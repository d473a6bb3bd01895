import Tracing.TraceState.Grammar

/-!
# Trace state

The data that the vendors along a trace add to it: an ordered list of members, the most recent first. The
members of other vendors are opaque and keep their order. A state has at most 32 members and no key twice; the
operations below keep that, and refuse members that break it with the cause.
-/

namespace Tracing

open TraceState

/-- Why a list member is refused. -/
inductive TraceStateError where
  | key (key : String)
  | value (value : String)
  /-- The text of a member has no sign between a key and a value. -/
  | member (text : String)
  | duplicateKey (key : String)
  | tooManyMembers (limit : Nat)
deriving DecidableEq, Repr

/-- The wording of a trace state error. -/
def TraceStateError.message : TraceStateError → String
  | key k => s!"{k} is not a valid key in TraceState, see https://www.w3.org/TR/trace-context/#key for more details"
  | value v =>
    s!"{v} is not a valid value in TraceState, see https://www.w3.org/TR/trace-context/#value for more details"
  | member m =>
    s!"{m} is not a valid list member in TraceState, see https://www.w3.org/TR/trace-context/#list for more details"
  | duplicateKey k => s!"{k} appears more than once in TraceState"
  | tooManyMembers n => s!"TraceState holds more than {n} list members"

/-- What one vendor says about a trace. -/
structure Member where
  key : String
  value : String
deriving DecidableEq, Repr, Inhabited

/-- The members of a trace, the most recent first. -/
structure TraceState where
  members : List Member := []
deriving DecidableEq, Repr, Inhabited

namespace TraceState

/-- The most members that a state holds. -/
def maxMembers : Nat := 32

/-- The state without members. -/
def empty : TraceState := {}

/-- No member is held. -/
def isEmpty (s : TraceState) : Bool := s.members.isEmpty

/-- The number of members. -/
def size (s : TraceState) : Nat := s.members.length

/-- The value under a key. -/
def get? (s : TraceState) (key : String) : Option String :=
  (s.members.find? fun m => m.key == key).map Member.value

/-- A member that may follow the members already held, or the first rule that it breaks. -/
def accept (held : List Member) (m : Member) : Except TraceStateError Member :=
  if !isKey m.key.toList then .error (.key m.key)
  else if !isValue m.value.toList then .error (.value m.value)
  else if held.any fun h => h.key == m.key then .error (.duplicateKey m.key)
  else if held.length = maxMembers then .error (.tooManyMembers maxMembers)
  else .ok m

/-- Members accepted one after the other, up to the first that is refused. -/
def acceptAll : (held : List Member) → List Member → Except TraceStateError (List Member)
  | held, [] => .ok held
  | held, m :: rest => do
    let m ← accept held m
    acceptAll (held ++ [m]) rest

/-- The state of a list of members, all of which have to be valid. -/
def ofMembers (ms : List Member) : Except TraceStateError TraceState :=
  (acceptAll [] ms).map TraceState.mk

/-- The state without the member under a key; the others keep their order. -/
def remove (s : TraceState) (key : String) : TraceState :=
  ⟨s.members.eraseP fun m => m.key == key⟩

/-- Deletes the member under a key, which has to be valid. -/
def delete (s : TraceState) (key : String) : Except TraceStateError TraceState :=
  if !isKey key.toList then .error (.key key) else .ok (s.remove key)

/-- Puts a member in front, replacing the one under its key. A full state loses its last member. -/
def insert (s : TraceState) (key value : String) : Except TraceStateError TraceState :=
  if !isKey key.toList then .error (.key key)
  else if !isValue value.toList then .error (.value value)
  else
    let rest := (s.remove key).members
    let kept := if rest.length = maxMembers then rest.dropLast else rest
    .ok ⟨⟨key, value⟩ :: kept⟩

end TraceState

end Tracing
