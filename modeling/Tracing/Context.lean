import Tracing.Transaction

/-!
# Contexts

A context carries what is current: the active transaction and span, the caller in another process, and values
of the code that uses the agent. It never changes; a context with one value more or another one is derived from
it.
-/

namespace Tracing

/-- A value of the code that uses the agent. -/
inductive Value where
  | number (n : Int)
  | text (s : String)
deriving DecidableEq, Repr, Inhabited

/-- The transaction that is active, and the span within it if one is. -/
structure ActiveTrace where
  transaction : Transaction
  span : Option Span
deriving DecidableEq, Inhabited

/-- What is current at a point of execution. -/
structure Context where
  active : Option ActiveTrace := none
  /-- The caller in another process. -/
  remote : Option TraceContext := none
  /-- Values under their keys, at most one for a key. -/
  values : List (String × Value) := []
deriving DecidableEq, Inhabited

namespace Context

/-- The context without values. -/
def empty : Context := {}

/-- The value under a key. -/
def get? (cx : Context) (key : String) : Option Value := cx.values.lookup key

/-- The context with a value under a key, in place of an earlier one. -/
def withValue (cx : Context) (key : String) (value : Value) : Context :=
  { cx with values := (key, value) :: cx.values.filter (·.1 ≠ key) }

/-- How many values the context holds, the active trace and the caller included. -/
def size (cx : Context) : Nat := cx.active.toList.length + cx.remote.toList.length + cx.values.length

/-- The context holds nothing. -/
def isEmpty (cx : Context) : Bool := cx.size == 0

/-- The active transaction. -/
def transaction (cx : Context) : Option Transaction := cx.active.map ActiveTrace.transaction

/-- The active span. -/
def span (cx : Context) : Option Span := cx.active.bind ActiveTrace.span

/-- A transaction is active. -/
def hasActiveTrace (cx : Context) : Bool := cx.transaction.isSome

/-- The context in which the transaction is active, and no span. -/
def withTransaction (cx : Context) (t : Transaction) : Context := { cx with active := some ⟨t, none⟩ }

/-- The context in which the span is active, and with it its transaction, or else the one active before. Without
either the context stays as it is. -/
def withSpan (cx : Context) (s : Span) : Context :=
  match s.transaction <|> cx.transaction with
  | some t => { cx with active := some ⟨t, some s⟩ }
  | none => cx

/-- The context called from another process. -/
def withRemote (cx : Context) (tc : TraceContext) : Context := { cx with remote := some tc }

/-- The trace context to hand on from here: that of the active span if it names a trace, else that of the
active transaction, else that of the caller; nothing if it names no trace. -/
def traceContext (cx : Context) : Option TraceContext :=
  ((cx.span.map Span.traceContext).filter TraceContext.isValid
    <|> cx.transaction.map Transaction.traceContext
    <|> cx.remote).filter TraceContext.isValid

/-- The count of values as reports show it. -/
def text (cx : Context) : String := "Context \x7b entries count: " ++ toString cx.size ++ " \x7d"

end Context

end Tracing
