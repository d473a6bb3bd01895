import Tracing.Ident

/-!
# Misuse

Faults of the code that uses the agent. They are reported and leave everything as it was; in strict mode they
stop the caller as well.
-/

namespace Tracing

/-- What can be ended. -/
inductive Kind where
  | transaction
  | span
deriving DecidableEq, Repr

/-- The word for a kind. -/
def Kind.text : Kind → String
  | transaction => "transaction"
  | span => "span"

/-- A misuse of the agent. -/
inductive UsageError where
  /-- A transaction or a span was ended again. -/
  | alreadyEnded (kind : Kind) (id : SpanId)
  /-- A key was registered while a span was live under it; `key` is the key as messages show it. -/
  | keyInUse (key : String)
deriving DecidableEq

/-- The wording of a misuse. -/
def UsageError.message : UsageError → String
  | alreadyEnded kind id => s!"{kind.text} {id.text} ended more than once"
  | keyInUse key => s!"correlation key {key} is already registered"

end Tracing
