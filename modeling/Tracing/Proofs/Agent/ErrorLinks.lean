import Tracing.Proofs.Agent.ActiveParent
import Tracing.Proofs.Propagator.Relay

/-! # What errors are linked to

An error is linked where the trace goes on: to what is handed on to other processes, and to what a transaction
continues that is started from the context. The two are read from a context by different rules. One of them asks
whether the active span belongs to a transaction, and the other one whether it names a trace. They agree because every
context is coherent (`Context.Coherent`), whatever it was derived from (`Context.Built`). For that, a span outside of
any transaction has to stand for nothing, and agents hand out no other ones (`Span.Issued`). -/

namespace Tracing

/-! ### Spans -/

namespace Span

/-- The spans that agents hand out. -/
inductive Issued : Span → Prop where
  | onTransaction {P : Type} (a : Agent P) (t : Transaction) (name type : String) (options : SpanOptions)
      (now : Instant) : Issued (a.startSpan t name type options now).1
  | onSpan {P : Type} {parent : Span} (h : Issued parent) (a : Agent P) (name type : String) (now : Instant) :
      Issued (a.startChild parent name type now).1
  | inContext {P : Type} {cx : Context} (h : ∀ s, cx.span = some s → Issued s) (a : Agent P) (name type : String)
      (now : Instant) : Issued (a.startSpanIn cx name type now).1

/-- If the span belongs to a transaction, neither has an identifier of zero. -/
def Named (s : Span) : Prop :=
  ∀ t, s.transaction = some t → s.traceContext.isValid = true ∧ t.traceContext.isValid = true

/-- A span outside of any transaction stands for nothing. -/
theorem Issued.traceContext_of_outside {s : Span} (h : s.Issued) (outside : s.transaction = none) :
    s.traceContext = .none := by
  induction h with
  | onTransaction a t name type options now =>
    cases outside.symm.trans (Agent.startSpan_started a t name type options now).transaction
  | @onSpan _ parent _ a name type now ih =>
    cases hown : parent.transaction with
    | some t => cases outside.symm.trans (Agent.startChild_started hown a name type now).transaction
    | none =>
      -- The child stands for what its parent stands for.
      rw [Agent.startChild_of_none hown]
      exact ih hown
  | @inContext _ cx _ a name type now ih =>
    cases hspan : cx.span with
    | some parent =>
      obtain ⟨_, hstart⟩ := Agent.startSpanIn_of_span hspan a name type now
      rw [hstart] at outside ⊢
      cases hown : parent.transaction with
      | some t => cases outside.symm.trans (Agent.startChild_started hown a name type now).transaction
      | none =>
        rw [Agent.startChild_of_none hown]
        exact ih parent hspan hown
    | none =>
      cases hactive : cx.transaction with
      | some t =>
        obtain ⟨_, hstart⟩ := Agent.startSpanIn_of_transaction hspan hactive a name type now
        rw [hstart] at outside
        cases outside.symm.trans (Agent.startSpan_started a t name type {} now).transaction
      | none =>
        rw [Agent.startSpanIn_of_none hspan hactive]
        rfl

end Span

/-! ### Contexts -/

namespace Context

/-- The contexts that can be built. -/
inductive Built : Context → Prop where
  | empty : Built .empty
  | withValue {cx : Context} (h : Built cx) (key : String) (value : Value) : Built (cx.withValue key value)
  | withTransaction {cx : Context} (h : Built cx) {t : Transaction} (named : t.traceContext.isValid = true) :
      Built (cx.withTransaction t)
  | withSpan {cx : Context} (h : Built cx) {s : Span} (issued : s.Issued) (named : s.Named) : Built (cx.withSpan s)
  | withRemote {cx : Context} (h : Built cx) (tc : TraceContext) : Built (cx.withRemote tc)
  | extract {cx : Context} (h : Built cx) (p : Propagator) (c : Carrier) : Built (p.extract cx c).1
  /-- The context in which a span is active that was started through another one. -/
  | startSpan {P : Type} {cx : Context} (h : Built cx) (a : Agent P) (name type : String) (now : Instant)
      (named : (a.startSpanIn cx name type now).1.Named) : Built (a.startSpanIn cx name type now).2.1

variable {cx : Context} {s : Span} {t : Transaction}

/-- A start through a context makes its span active there. -/
theorem startSpanIn_withSpan {P : Type} (a : Agent P) (cx : Context) (name type : String) (now : Instant) :
    (a.startSpanIn cx name type now).2.1 = cx.withSpan (a.startSpanIn cx name type now).1 := by
  unfold Agent.startSpanIn
  split
  · rfl
  · rfl
  · rename_i hactive
    simp [withSpan, Span.transaction, hactive]

theorem issued_withSpan (h : ∀ x, cx.span = some x → x.Issued) (issued : s.Issued) :
    ∀ x, (cx.withSpan s).span = some x → x.Issued := by
  unfold withSpan
  split
  · intro x hx
    exact Option.some.inj hx ▸ issued
  · exact h

theorem Built.issued (h : cx.Built) : ∀ s, cx.span = some s → s.Issued := by
  induction h with
  | empty => exact nofun
  | withValue _ _ _ ih => exact ih
  | withTransaction => exact nofun
  | withSpan _ issued _ ih => exact issued_withSpan ih issued
  | withRemote _ _ ih => exact ih
  | @extract cx _ p c ih =>
    obtain ⟨_, hextract⟩ := p.extract_eq cx c
    rw [hextract]
    exact ih
  | startSpan _ a name type now _ ih =>
    rw [startSpanIn_withSpan]
    exact issued_withSpan ih (.inContext ih a name type now)

theorem Coherent.of_active {cx' : Context} (h : cx.Coherent) (hactive : cx'.active = cx.active) : cx'.Coherent := by
  have htransaction : cx'.transaction = cx.transaction := congrArg (Option.map _) hactive
  have hspan : cx'.span = cx.span := congrArg (Option.bind · ActiveTrace.span) hactive
  exact ⟨htransaction ▸ h.transaction, hspan ▸ htransaction ▸ h.span⟩

theorem coherent_span (hvalid : t.traceContext.isValid = true) (hown : s.transaction = some t ∧
    s.traceContext.isValid = true ∨ s.transaction = none ∧ s.traceContext = .none) :
    ({ cx with active := some ⟨t, some s⟩ } : Context).Coherent where
  transaction u hu := Option.some.inj hu ▸ hvalid
  span x hx := by
    obtain rfl := Option.some.inj hx
    exact ⟨t, rfl, hown⟩

theorem Coherent.withSpan (h : cx.Coherent) (issued : s.Issued) (named : s.Named) : (cx.withSpan s).Coherent := by
  unfold Context.withSpan
  cases hown : s.transaction with
  | some t => exact coherent_span (named t hown).2 (.inl ⟨hown, (named t hown).1⟩)
  | none =>
    -- The transaction stays that was active before, if one was.
    cases hactive : cx.transaction with
    | some t => exact coherent_span (h.transaction t hactive) (.inr ⟨hown, issued.traceContext_of_outside hown⟩)
    | none => exact h

theorem Built.coherent (h : cx.Built) : cx.Coherent := by
  induction h with
  | empty => exact ⟨nofun, nofun⟩
  | withValue _ _ _ ih => exact ih.of_active rfl
  | withTransaction _ named => exact ⟨fun u hu => Option.some.inj hu ▸ named, nofun⟩
  | withSpan _ issued named ih => exact ih.withSpan issued named
  | withRemote _ _ ih => exact ih.of_active rfl
  | @extract cx _ p c ih =>
    obtain ⟨_, hextract⟩ := p.extract_eq cx c
    rw [hextract]
    exact ih.of_active rfl
  | startSpan built a name type now named ih =>
    rw [startSpanIn_withSpan]
    exact ih.withSpan (.inContext built.issued a name type now) named

end Context

/-! ### Where the trace goes on -/

namespace Propagator

open Traceparent

variable {cx : Context} {tc : TraceContext}

/-- The parent headers that a tracer writes. -/
def writtenHeaders (writeLegacy : Bool) : List String :=
  if writeLegacy then [standardHeader, legacyHeader] else [standardHeader]

/-- Whatever the carrier had before, each parent header names what is handed on. -/
theorem get?_inject_agent (htc : cx.traceContext = some tc) (writeLegacy : Bool) (c : Carrier) :
    ∀ name ∈ writtenHeaders writeLegacy, ((agent writeLegacy).inject cx c).get? name = some (format tc) := by
  have hstandard := get?_injectStandard htc c
  have hascii : ∀ name ∈ parentHeaders, IsAsciiName name := fun name => isAsciiName_of_mem_parentHeaders
  rw [inject]
  cases writeLegacy with
  | false => simpa [writtenHeaders] using hstandard
  | true =>
    have hlegacy : ∀ name ∈ parentHeaders, (injectLegacy cx (injectStandard cx c)).get? name =
        if sameName legacyHeader name then some (format tc) else (injectStandard cx c).get? name := by
      intro name hname
      rw [injectLegacy, htc]
      exact Carrier.get?_set _ _ (hascii _ (by simp [parentHeaders])) (hascii _ hname)
    have hother : sameName legacyHeader standardHeader = false := by decide
    intro name hname
    rcases List.mem_cons.mp hname with rfl | hname
    · exact (hlegacy _ (by simp [parentHeaders])).trans (by rw [hother]; exact hstandard)
    · obtain rfl := List.mem_singleton.mp hname
      exact (hlegacy _ (by simp [parentHeaders])).trans (if_pos (sameName_iff.mpr rfl))

end Propagator

/-- The error names no trace and nothing in one. -/
structure ErrorRecord.IsUnlinked (r : ErrorRecord) : Prop where
  traceId : r.traceId = none
  parentId : r.parentId = none
  transactionId : r.transactionId = none
  sampled : r.sampled = none
  transactionType : r.transactionType = none

/-- The header can be read, and names the trace and the span. -/
def Carrier.NamesCaller (c : Carrier) (tc : TraceContext) (header : String) : Prop :=
  ∃ value read, c.get? header = some value ∧ Traceparent.parse header value = .ok read ∧
    read.traceId = tc.traceId ∧ read.spanId = tc.spanId

namespace Agent

variable {P : Type} {cx : Context} {t : Transaction}

/-- Without an active transaction there is nothing to link an error to, not even a caller. -/
theorem errorRecord_isUnlinked (hnone : cx.transaction = none) (a : Agent P) (id : TraceId) (message : String)
    (causes : List String) : (a.errorRecord id cx message causes).IsUnlinked := by
  have hactive : cx.active = none := Option.map_eq_none_iff.mp hnone
  have hspan : cx.span = none := by rw [Context.span, hactive]; rfl
  constructor <;> simp [errorRecord, hnone, hspan]

theorem startTransactionFrom_continues {tc : TraceContext} (htc : cx.traceContext = some tc) (a : Agent P)
    (tracer : Tracer) (name type : String) (now : Instant) :
    (a.startTransactionFrom tracer name type cx now).1.traceContext.traceId = tc.traceId ∧
      (a.startTransactionFrom tracer name type cx now).1.parentId = some tc.spanId := by
  have hvalid : tc.isValid = true := (Option.mem_filter_iff.mp htc).2
  have hparent : ({ parent := cx.traceContext } : TransactionOptions).parent.filter TraceContext.isValid = some tc := by
    rw [htc, Option.filter_some, if_pos hvalid]
  rw [startTransactionFrom, startTransaction_of_parent hparent]
  exact ⟨rfl, rfl⟩

/-- A captured error is handed to the processors and returned. With an active transaction, it is linked to what is
handed on from the context: the headers that a tracer writes name just that, and a transaction that is started from
the context continues it. The error names the active transaction too, which is the one that the active span belongs
to if it belongs to any. Without an active transaction the error is not linked, whoever the caller is. -/
theorem errors_link_where_traces_go_on [Processor P] (built : cx.Built) (a : Agent P) (tracer : Tracer)
    (message : String) (causes : List String) :
    ∃ r, captureError tracer cx message causes a =
        (do emit tracer (.error r); return r : Act (Agent P) ErrorRecord) (a.drawTraceId tracer).2 ∧
      (∀ t, cx.transaction = some t → r.transactionId = some t.id ∧ r.sampled = some t.isSampled ∧
        (∀ s u, cx.span = some s → s.transaction = some u → u = t) ∧
        ∃ tc, cx.traceContext = some tc ∧ r.traceId = some tc.traceId ∧ r.parentId = some tc.spanId ∧
          (∀ writeLegacy c, ∀ header ∈ Propagator.writtenHeaders writeLegacy,
            ((Propagator.agent writeLegacy).inject cx c).NamesCaller tc header) ∧
          ∀ (b : Agent P) u name type now,
            (b.startTransactionFrom u name type cx now).1.traceContext.traceId = tc.traceId ∧
              (b.startTransactionFrom u name type cx now).1.parentId = some tc.spanId) ∧
      (cx.transaction = none → r.IsUnlinked) := by
  have hcoherent := built.coherent
  let b := (a.drawTraceId tracer).2
  let id := (a.drawTraceId tracer).1
  refine ⟨b.errorRecord id cx message causes, rfl, fun t active => ?_, fun hnone => ?_⟩
  · obtain ⟨tc, htc, hparent⟩ := hcoherent.traceContext_eq_parent active
    obtain ⟨htrace, hspan⟩ := b.errorRecord_parent id cx message causes
    have hvalid : tc.isValid = true := (Option.mem_filter_iff.mp htc).2
    refine ⟨congrArg (Option.map Transaction.id) active, congrArg (Option.map Transaction.isSampled) active,
      fun s u hs hu => ?_, tc, htc, ?_, ?_, fun writeLegacy c header hh => ?_,
      fun b u name type now => b.startTransactionFrom_continues htc u name type now⟩
    · obtain ⟨v, hv, ⟨hown, -⟩ | ⟨outside, -⟩⟩ := hcoherent.span s hs
      · obtain rfl : u = v := Option.some.inj (hu.symm.trans hown)
        exact Option.some.inj (hv.symm.trans active)
      · cases hu.symm.trans outside
    · rw [htrace, hparent]
      rfl
    · rw [hspan, hparent]
      rfl
    · exact ⟨_, _, Propagator.get?_inject_agent htc writeLegacy c header hh, Traceparent.parse_format header hvalid,
        rfl, rfl⟩
  · exact b.errorRecord_isUnlinked hnone id message causes

/-- Under a span from before the request, an error is linked to the request. -/
theorem errors_link_where_traces_go_on_in_sampleOutside :
    Process.sampleOutside.Built ∧ Process.sampleOutside.transaction = some Process.sampleRequest ∧
      ∃ r, (captureError ⟨0⟩ Process.sampleOutside "lost" [] Process.sampleServing.agent).1 = .ok r ∧
        r.transactionId = some (.ofNat 1) ∧ r.traceId = some (.ofNat 7) ∧ r.parentId = some (.ofNat 1) := by
  have alone : ∀ s, Context.empty.span = some s → s.Issued := nofun
  have issued : (Span.dropped .none none).Issued := .inContext alone Process.sampleEarly.agent "setup" "app" ⟨0⟩
  have built : Process.sampleOutside.Built :=
    (Context.Built.empty.withTransaction (t := Process.sampleRequest) (by decide)).withSpan issued nofun
  obtain ⟨r, hrun, hlinked, -⟩ := errors_link_where_traces_go_on built Process.sampleServing.agent ⟨0⟩ "lost" []
  obtain ⟨hid, -, -, tc, htc, htrace, hparent, -⟩ := hlinked Process.sampleRequest rfl
  have hreturned : (captureError ⟨0⟩ Process.sampleOutside "lost" [] Process.sampleServing.agent).1 = .ok r := by
    rw [hrun]
    rfl
  obtain rfl : Process.sampleRequest.traceContext = tc := Option.some.inj htc
  exact ⟨built, rfl, r, hreturned, hid, htrace, hparent⟩

end Agent
end Tracing
