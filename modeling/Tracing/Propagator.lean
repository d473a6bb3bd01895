import Tracing.Carrier
import Tracing.Context
import Tracing.Event

/-!
# Propagators

A propagator writes the trace context of a context into the headers of an outbound message, and reads the
headers of an inbound message into a context. There is one propagator for the standard headers and one for the
header of the vendor's older agents. Several can be used as one: all of them write in order, and each reads into
the context that the one before it left, so the last one that can read its header wins. What cannot be read leaves
the context as it was.
-/

namespace Tracing

/-- The form in which a trace context travels. -/
inductive Propagator where
  /-- The standard headers. -/
  | standard
  /-- The header of the vendor's older agents; the state is read but not written. -/
  | legacy
  /-- What a tracer uses: both forms are read, the standard one preferred, and the standard one is written, with
  the older one if asked for. -/
  | agent (writeLegacy : Bool)
  /-- Several propagators used as one. -/
  | composite (parts : List Propagator)
deriving Repr, Inhabited

namespace Propagator

open Traceparent

/-- Writes the standard headers; a state without members leaves its header alone. -/
def injectStandard (cx : Context) (c : Carrier) : Carrier :=
  match cx.traceContext with
  | none => c
  | some tc =>
    let c := c.set standardHeader (format tc)
    let state := tc.state.header
    if state.isEmpty then c else c.set stateHeader state

/-- Writes the older header. -/
def injectLegacy (cx : Context) (c : Carrier) : Carrier :=
  match cx.traceContext with
  | none => c
  | some tc => c.set legacyHeader (format tc)

/-- The trace context with the state of the carrier's headers. A carrier without such a header leaves the state
empty. -/
def readState (tc : TraceContext) (c : Carrier) : TraceContext × List Event :=
  match c.getAll? stateHeader with
  | none => (tc, [])
  | some values =>
    let (state, fault) := TraceState.parseHeaders values
    (tc.withState state, (fault.map Event.invalidState).toList)

/-- Reads one parent header, and the state with it. -/
def extractParent (header : String) (complain : HeaderError → Event) (cx : Context) (c : Carrier) :
    Context × List Event :=
  match c.get? header with
  | none => (cx, [])
  | some value =>
    match Traceparent.parse header value with
    | .error e => (cx, [complain e])
    | .ok tc =>
      let (tc, events) := readState tc c
      (cx.withRemote tc, events)

/-- Reads the standard headers. -/
def extractStandard : Context → Carrier → Context × List Event :=
  extractParent standardHeader .malformedStandardHeader

/-- Reads the older header. -/
def extractLegacy : Context → Carrier → Context × List Event :=
  extractParent legacyHeader .malformedLegacyHeader

mutual

/-- Writes the trace context of a context into the headers of a message. -/
def inject : Propagator → Context → Carrier → Carrier
  | standard, cx, c => injectStandard cx c
  | legacy, cx, c => injectLegacy cx c
  | agent writeLegacy, cx, c =>
    let c := injectStandard cx c
    if writeLegacy then injectLegacy cx c else c
  | composite parts, cx, c => injectAll parts cx c

/-- Writes with all parts in order. -/
def injectAll : List Propagator → Context → Carrier → Carrier
  | [], _, c => c
  | p :: rest, cx, c => injectAll rest cx (inject p cx c)

end

mutual

/-- Reads the headers of a message into a context, and reports what could not be read. -/
def extract : Propagator → Context → Carrier → Context × List Event
  | standard, cx, c => extractStandard cx c
  | legacy, cx, c => extractLegacy cx c
  | agent _, cx, c =>
    let (cx, e₁) := extractLegacy cx c
    let (cx, e₂) := extractStandard cx c
    (cx, e₁ ++ e₂)
  | composite parts, cx, c => extractAll parts cx c

/-- Reads with all parts in order, each into the context that the one before it left. -/
def extractAll : List Propagator → Context → Carrier → Context × List Event
  | [], cx, _ => (cx, [])
  | p :: rest, cx, c =>
    let (cx, e₁) := extract p cx c
    let (cx, e₂) := extractAll rest cx c
    (cx, e₁ ++ e₂)

end

/-- Names with the later occurrences of each left out. -/
def distinct (names : List String) : List String :=
  names.foldl (fun seen n => if seen.contains n then seen else seen ++ [n]) []

mutual

/-- The headers that the propagator announces. -/
def fields : Propagator → List String
  | standard => [standardHeader, stateHeader]
  | legacy => [legacyHeader]
  | agent _ => distinct ([legacyHeader] ++ [standardHeader, stateHeader])
  | composite parts => distinct (fieldsAll parts)

/-- The headers that the parts announce, in order. -/
def fieldsAll : List Propagator → List String
  | [] => []
  | p :: rest => fields p ++ fieldsAll rest

end

end Propagator

end Tracing
