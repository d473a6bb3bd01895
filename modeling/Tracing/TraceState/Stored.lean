import Tracing.TraceState.Header

/-!
# Trace states as they are held

A trace state without members takes no memory: it holds nothing, and not a list without members. The operations
below work on what is held and keep it in that form.
-/

namespace Tracing.TraceState

/-- What a trace state holds: nothing, or a list of members. -/
structure Stored where
  held : Option (List Member)
deriving DecidableEq, Repr

namespace Stored

/-- The state that holds nothing. -/
def none : Stored := ⟨.none⟩

/-- The members in order. -/
def members (s : Stored) : List Member := s.held.getD []

/-- The trace state that is held. -/
def state (s : Stored) : TraceState := ⟨s.members⟩

/-- Members are held unless there are none. -/
def ofList (ms : List Member) : Stored := if ms.isEmpty then none else ⟨some ms⟩

/-- The state of a list of members, all of which have to be valid. -/
def ofMembers (ms : List Member) : Except TraceStateError Stored := (acceptAll [] ms).map ofList

/-- Reads the values of repeated headers as if they were one list, reporting every member left out. -/
def parse (values : List String) : Stored × List TraceStateError :=
  let (members, errors) := parseTexts [] (values.flatMap fun v => memberTexts v.toList)
  (ofList members, errors)

/-- Reads one header value in which every member has to be valid. -/
def ofHeader (s : String) : Except TraceStateError Stored := do
  ofMembers (← membersOfTexts (terminatedTexts s.toList))

/-- The state without the member under a key. When the last member goes, nothing is held. -/
def remove (s : Stored) (key : String) : Stored :=
  match s.held with
  | .none => s
  | some ms => ofList (ms.eraseP fun m => m.key == key)

/-- Deletes the member under a key, which has to be valid. -/
def delete (s : Stored) (key : String) : Except TraceStateError Stored :=
  if !isKey key.toList then .error (.key key) else .ok (s.remove key)

/-- Puts a member in front, replacing the one under its key. A full state loses its last member. -/
def insert (s : Stored) (key value : String) : Except TraceStateError Stored :=
  if !isKey key.toList then .error (.key key)
  else if !isValue value.toList then .error (.value value)
  else
    let rest := (s.remove key).members
    let kept := if rest.length = maxMembers then rest.dropLast else rest
    .ok ⟨some (⟨key, value⟩ :: kept)⟩

end Stored

end Tracing.TraceState
