import Tracing.Text.Visible
import Tracing.Time

/-!
# Failures of the export pipeline

An export, a flush or a shutdown either succeeds or fails for one of three causes. Reports show a failure in
one of two forms: its wording, or its cause with the details (`detail`).
-/

namespace Tracing

/-- Why an export, a flush or a shutdown failed. -/
inductive ExportError where
  | alreadyShutdown
  | timeout (after : Duration)
  | internal (message : String)
deriving DecidableEq, Repr

/-- The result of an export, a flush or a shutdown. -/
abbrev ExportResult := Except ExportError Unit

namespace ExportError

/-- The wording of a failure. -/
def message : ExportError → String
  | alreadyShutdown => "processor or exporter already shut down"
  | timeout after => s!"operation timed out after {after.text}"
  | internal message => message

/-- The cause of a failure with its details. -/
def detail : ExportError → String
  | alreadyShutdown => "AlreadyShutdown"
  | timeout after => s!"Timeout({after.text})"
  | internal message => s!"InternalFailure({Text.quoted message})"

end ExportError

end Tracing
