import Tracing.TraceState.Basic
import Tracing.Text.Split

/-!
# Trace states in headers

A header writes the members in order, each as key, sign and value, with a comma between neighbours. Writing
stops before the first member that would pass a limit of bytes. Reading is lenient (`parse`: a refused member is
reported and left out) or strict (`ofHeader`: any fault refuses the whole text).
-/

namespace Tracing

open Text

/-- The text of a member: key, sign and value. -/
def Member.chars (m : Member) : List Char := m.key.toList ++ '=' :: m.value.toList

/-- The member that a text writes, cut at the first sign, whatever its key and value. -/
def Member.ofChars (cs : List Char) : Option Member :=
  (splitOnce '=' cs).map fun (key, value) => ⟨String.ofList key, String.ofList value⟩

namespace TraceState

/-- The most bytes of a header that carries a state. -/
def maxHeaderLength : Nat := 4096

/-- A space or a tab, which may stand around a member. -/
def isPadding (c : Char) : Bool := c == ' ' || c == '\t'

/-- The texts of the members in one header value, without padding and without blank ones. -/
def memberTexts (cs : List Char) : List (List Char) :=
  ((split ',' cs).map (trimBy isPadding)).filter (· ≠ [])

/-- The texts of the members in one header value in which a comma ends each member, without padding and without blank
ones. -/
def terminatedTexts (cs : List Char) : List (List Char) :=
  ((splitTerminated ',' cs).map (trimBy isPadding)).filter (· ≠ [])

/-- The member of a text that may follow the members already held, or the first rule that it breaks. -/
def acceptText (held : List Member) (cs : List Char) : Except TraceStateError Member :=
  match Member.ofChars cs with
  | none => .error (.member (String.ofList cs))
  | some m => accept held m

/-- Reads texts of members in order. A refused member is reported and left out; one member more than a state
holds is reported and ends the reading. -/
def parseTexts : (held : List Member) → List (List Char) → List Member × List TraceStateError
  | held, [] => (held, [])
  | held, cs :: rest =>
    match acceptText held cs with
    | .ok m => parseTexts (held ++ [m]) rest
    | .error (.tooManyMembers n) => (held, [.tooManyMembers n])
    | .error e =>
      let (members, errors) := parseTexts held rest
      (members, e :: errors)

/-- Reads the values of repeated headers as if they were one list, reporting every member left out. -/
def parse (values : List String) : TraceState × List TraceStateError :=
  let (members, errors) := parseTexts [] (values.flatMap fun v => memberTexts v.toList)
  (⟨members⟩, errors)

/-- The members that texts write, up to the first text that writes none. -/
def membersOfTexts : List (List Char) → Except TraceStateError (List Member)
  | [] => .ok []
  | cs :: rest =>
    match Member.ofChars cs with
    | none => .error (.member (String.ofList cs))
    | some m => (membersOfTexts rest).map (m :: ·)

/-- Reads one header value in which every member has to be valid. A text that writes no member at all is
refused before any member is looked at. -/
def ofHeader (s : String) : Except TraceStateError TraceState := do
  ofMembers (← membersOfTexts (terminatedTexts s.toList))

/-- The text of one more member after a text that may be empty. -/
def follow (written : List Char) (m : Member) : List Char :=
  if written = [] then m.chars else written ++ ',' :: m.chars

/-- Appends members in order, stopping before the first that would pass the limit. -/
def writeWithin (limit : Nat) : (written : List Char) → List Member → List Char
  | written, [] => written
  | written, m :: rest =>
    let next := follow written m
    if byteLength next ≤ limit then writeWithin limit next rest else written

/-- The header of as many leading members as fit a limit of bytes. -/
def headerWithin (s : TraceState) (limit : Nat) : String := String.ofList (writeWithin limit [] s.members)

/-- The header of a state. -/
def header (s : TraceState) : String := s.headerWithin maxHeaderLength

end TraceState

end Tracing
