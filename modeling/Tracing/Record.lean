import Tracing.Transaction

/-!
# Records

When a transaction or a span ends, or an error is captured, the agent freezes it into a record and hands it to its
processors.
-/

namespace Tracing

/-- How a transaction went, seen by its caller. -/
inductive Outcome where
  | success
  | failure
  | unknown
deriving DecidableEq, Repr, Inhabited

/-- The word for an outcome. -/
def Outcome.text : Outcome → String
  | success => "Success"
  | failure => "Failure"
  | unknown => "Unknown"

/-- How many spans a transaction started: live ones, and ones dropped because the transaction is not sampled or
reached its limit. The counts are numbers without bound: a counter of 64 bits shows the same until it has counted
2^64 spans, and there it would begin again at zero. -/
structure SpanCount where
  started : Nat := 0
  dropped : Nat := 0
deriving DecidableEq, Repr, Inhabited

/-- Names and texts attached to a transaction or a span, in the order in which the names first came. -/
abbrev Tags := List (String × String)

/-- The tags with a text under a name: in place of an earlier one, else at the end. -/
def Tags.put (key value : String) : Tags → Tags
  | [] => [(key, value)]
  | (k, v) :: rest => if k = key then (k, value) :: rest else (k, v) :: Tags.put key value rest

/-- A transaction that ended. -/
structure TransactionRecord where
  name : String
  type : String
  result : Option String
  outcome : Outcome
  tags : Tags
  traceContext : TraceContext
  parentId : Option SpanId
  sampleRate : Option Float
  start : Instant
  duration : Duration
  spanCount : SpanCount
deriving DecidableEq, Inhabited

/-- A live span that ended. -/
structure SpanRecord where
  name : String
  type : String
  subtype : Option String
  action : Option String
  tags : Tags
  traceContext : TraceContext
  parentId : SpanId
  transactionId : SpanId
  start : Instant
  duration : Duration
deriving DecidableEq, Inhabited

/-- An error that was captured. In a trace it names the trace, the transaction and the span or transaction that
was active. -/
structure ErrorRecord where
  id : TraceId
  traceId : Option TraceId
  transactionId : Option SpanId
  parentId : Option SpanId
  sampled : Option Bool
  /-- The type of the transaction, unless it had ended. -/
  transactionType : Option String
  message : String
  /-- The errors behind it, the nearest first. -/
  causes : List String
deriving DecidableEq, Inhabited

/-- What the agent reports. -/
inductive Record where
  | transaction (r : TransactionRecord)
  | span (r : SpanRecord)
  | error (r : ErrorRecord)
deriving DecidableEq, Inhabited

end Tracing
