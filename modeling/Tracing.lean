import Tracing.Agent.Lifecycle
import Tracing.Agent.Start
import Tracing.Context.Scoped
import Tracing.Processor.Either
import Tracing.Proofs.Agent.Inheritance
import Tracing.Proofs.Context.Guards
import Tracing.Proofs.Processor.Delivery
import Tracing.Proofs.Registry.Expiry
import Tracing.Proofs.TraceState.RoundTrip
import Tracing.Propagator
import Tracing.Registry
import Tracing.Proofs.Propagator.Precedence
import Tracing.Proofs.Propagator.Relay
import Tracing.Proofs.Agent.Attributes
import Tracing.Proofs.Agent.Tables
import Tracing.Proofs.Agent.Notes
import Tracing.Proofs.Agent.Reports
import Tracing.Proofs.Agent.Emitting
import Tracing.Proofs.Agent.Journal
import Tracing.Proofs.TraceState.Canonical
import Tracing.Proofs.Traceparent.Grammar
import Tracing.Proofs.Agent.SpanTree
import Tracing.Proofs.Agent.ActiveParent
import Tracing.Proofs.Context.Capacity
import Tracing.Proofs.Context.Polls
import Tracing.Proofs.Registry.Retention
import Tracing.Proofs.Registry.Custody
import Tracing.Proofs.Agent.ErrorLinks
import Tracing.Proofs.Agent.Strictness
import Tracing.Proofs.Propagator.Fields
import Tracing.Proofs.Propagator.Reuse
import Tracing.Proofs.Agent.Identities
import Tracing.Proofs.Agent.Shutdown
import Tracing.Proofs.Carrier.Forms
import Tracing.Proofs.Carrier.Casing
import Tracing.Proofs.Carrier.Overwriting
import Tracing.Proofs.Propagator.Footprint
import Tracing.Proofs.Processor.Requests
import Tracing.Proofs.Processor.Abandoned
import Tracing.Proofs.TraceState.Verdicts
import Tracing.Proofs.TraceState.Repeated
import Tracing.Proofs.TraceState.Edits
import Tracing.Proofs.TraceState.StrictFaults
import Tracing.Proofs.TraceState.Conforming
import Tracing.Proofs.Number.ExactValues
import Tracing.Proofs.Number.Double
import Tracing.Proofs.Sampling.Rounding
import Tracing.Proofs.Number.Digits
import Tracing.Proofs.Sampling.Recorded
import Tracing.Proofs.Agent.SampleRates
import Tracing.Proofs.Processor.Draining
import Tracing.Proofs.Settings.SpanLimit
import Tracing.Proofs.Carrier.Foreign
import Tracing.Proofs.TraceState.KeyScan
import Tracing.Proofs.Ident.Reading
