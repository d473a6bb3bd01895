import Tracing.TraceContext
import Tracing.TraceState.Header
import Tracing.Text.Split

/-!
# Traceparent

The text form of a trace context without its state: version, trace, span and flags, with hyphens between them.
It is written in version 00 with one flag, and read with white space around it and digits of either case. Two
headers carry this text, the standard one and an older one of a single vendor; an error names the header.
-/

namespace Tracing

open Text

/-- Why the headers of a trace cannot be read. -/
inductive HeaderError where
  | malformed (header reason : String)
  | invalidState (error : TraceStateError)
deriving DecidableEq, Repr

/-- The wording of a header error. -/
def HeaderError.message : HeaderError → String
  | malformed header reason => s!"malformed {header} header: {reason}"
  | invalidState e => s!"invalid tracestate: {e.message}"

namespace Traceparent

/-- The standard header. -/
def standardHeader : String := "traceparent"

/-- The header of the vendor's older agents. -/
def legacyHeader : String := "elastic-apm-traceparent"

/-- The header of the trace state. -/
def stateHeader : String := "tracestate"

/-- What is wrong with the text of a trace context. -/
inductive Fault where
  | fields (found : Nat)
  | version
  | unsupported (version : String)
  | traceId (error : IdentError)
  | spanId (error : IdentError)
  | flags
  | zeroTrace
  | zeroSpan
deriving DecidableEq, Repr

/-- The wording of a fault. -/
def Fault.message : Fault → String
  | fields found => s!"expected 4 fields, found {found}"
  | version => "invalid version"
  | unsupported v => s!"unsupported version {v}"
  | traceId e => s!"trace id: {e.message}"
  | spanId e => s!"parent id: {e.message}"
  | flags => "flags must be 2 hex digits"
  | zeroTrace => "trace id is zero"
  | zeroSpan => "parent id is zero"

/-- Exactly two digits. -/
def isHexPair (cs : List Char) : Bool := byteLength cs == 2 && cs.all isHexDigit

/-- The trace context that four fields write. Faults are looked for from left to right, zeros last. -/
def ofFields (version trace span flags : List Char) : Except Fault TraceContext :=
  if !isHexPair version then .error .version
  else if version ≠ ['0', '0'] then .error (.unsupported (String.ofList version))
  else match Ident.decode 32 trace, Ident.decode 16 span with
    | .error e, _ => .error (.traceId e)
    | .ok _, .error e => .error (.spanId e)
    | .ok trace, .ok span =>
      if !isHexPair flags then .error .flags
      else if !(TraceId.ofNat trace).isValid then .error .zeroTrace
      else if !(SpanId.ofNat span).isValid then .error .zeroSpan
      else .ok (.make (.ofNat trace) (.ofNat span) ⟨UInt8.ofNat (hexValue flags)⟩ .empty)

/-- The trace context of a text, with an empty state. -/
def decode (cs : List Char) : Except Fault TraceContext :=
  match split '-' (trim cs) with
  | [version, trace, span, flags] => ofFields version trace span flags
  | fields => .error (.fields fields.length)

/-- The trace context of the value of a header. -/
def parse (header value : String) : Except HeaderError TraceContext :=
  (decode value.toList).mapError fun fault => .malformed header fault.message

/-- The text of a trace context. -/
def encode (tc : TraceContext) : List Char :=
  "00-".toList ++ tc.traceId.digits ++ '-' :: tc.spanId.digits ++
    '-' :: hexDigits 2 (tc.flags.inter .sampled).bits.toNat

/-- The value of a header that carries a trace context. -/
def format (tc : TraceContext) : String := String.ofList (encode tc)

end Traceparent

/-- Reads the values of the state headers, with the first fault as a header error. -/
def TraceState.parseHeaders (values : List String) : TraceState × Option HeaderError :=
  let (state, errors) := TraceState.parse values
  (state, errors.head?.map HeaderError.invalidState)

end Tracing
