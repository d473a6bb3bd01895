import Tracing.Proofs.Agent.Process
import Tracing.Proofs.Traceparent.RoundTrip

/-! # What a start gives

A transaction either continues the trace it is given or is the root of a new one, and only a root without a rate of
its own asks the sampler, whose answer is then its flag and its rate (`Agent.DecidedBy`). A span belongs to the
transaction it was started in and stays in the trace of its parent, whether it is live or dropped. -/

namespace Tracing

/-- Both name the same trace and agree on its sampling. -/
def TraceContext.SameTrace (tc other : TraceContext) : Prop :=
  tc.traceId = other.traceId ∧ tc.isSampled = other.isSampled

namespace TraceContext.SameTrace
variable {a b c : TraceContext}

theorem refl (a : TraceContext) : a.SameTrace a := ⟨rfl, rfl⟩

theorem symm (h : a.SameTrace b) : b.SameTrace a := ⟨h.1.symm, h.2.symm⟩

theorem trans (h : a.SameTrace b) (h' : b.SameTrace c) : a.SameTrace c := ⟨h.1.trans h'.1, h.2.trans h'.2⟩

theorem withSpanId (a : TraceContext) (id : SpanId) : (a.withSpanId id).SameTrace a := ⟨rfl, rfl⟩

end TraceContext.SameTrace

theorem TraceContext.isValid_withSpanId {tc : TraceContext} {id : SpanId} (h : tc.isValid = true)
    (hid : id.isValid = true) : (tc.withSpanId id).isValid = true := by
  have htrace : tc.traceId.isValid = true := (Bool.and_eq_true_iff.mp h).1
  exact Bool.and_eq_true_iff.mpr ⟨htrace, hid⟩

namespace Agent

variable {P : Type} {a : Agent P} {t : Tracer} {name type : String} {options : TransactionOptions} {now : Instant}

/-! ### Transactions -/

/-- The transaction follows on the given caller, if that names a trace, and is a root otherwise. -/
def Follows (parent : Option TraceContext) (t : Transaction) : Prop :=
  match parent.filter TraceContext.isValid with
  | some p => t.traceContext.SameTrace p ∧ t.parentId = some p.spanId
  | none => t.parentId = none

/-- What a start of a transaction asks of the sampler: nothing, unless it is a root without a rate of its own. -/
def question (t : Transaction) (rate : Option Float) (name : String) : List (TraceId × String) :=
  if t.parentId = none ∧ rate = none then [(t.traceContext.traceId, name)] else []

/-- The transaction is a root that was started on the decision. -/
structure StartedOn (d : SamplingDecision) (t : Transaction) : Prop where
  isSampled : t.isSampled = d.sampled
  sampleRate : t.sampleRate = some (if d.sampled then d.rate else 0.0)
  state : t.traceContext.state = SampleRate.record .empty (if d.sampled then d.rate else 0.0)

theorem startedOn_of_origin {d : SamplingDecision} {traceId : TraceId} {spanId : SpanId} {t : Transaction}
    (htc : t.traceContext = (Origin.root traceId spanId d).traceContext)
    (hrate : t.sampleRate = (Origin.root traceId spanId d).sampleRate) : StartedOn d t where
  isSampled := by
    rw [Transaction.isSampled, htc]
    exact (TraceContext.isSampled_make _ _ _ _).trans (TraceFlags.isSampled_ofSampled _)
  sampleRate := hrate
  state := by
    rw [htc]
    simp only [Origin.root, TraceContext.make]

/-- The root was started on what was decided about it: with the rate of its own and one of the tracer's numbers, or else
by the sampler, in answer to a question of its log. -/
def DecidedBy (state : TracerState P) (rate : Option Float) (name : String) (root : Transaction) : Prop :=
  match rate with
  | some r => ∃ k, StartedOn ((Sampling.ofRate r).decide (state.draws k)) root
  | none => ∃ k, state.asked[k]? = some (root.traceContext.traceId, name) ∧
      StartedOn (state.sampler.decide k root.traceContext.traceId name) root

/-- Questions that are asked later change nothing about it. -/
theorem DecidedBy.mono {state state' : TracerState P} {rate : Option Float} {root : Transaction}
    (h : DecidedBy state rate name root) (sampler : state'.sampler = state.sampler) (draws : state'.draws = state.draws)
    (asked : state.asked <+: state'.asked) : DecidedBy state' rate name root := by
  unfold DecidedBy at h ⊢
  cases rate with
  | some r =>
    rw [draws]
    exact h
  | none =>
    obtain ⟨k, hk, hstarted⟩ := h
    obtain ⟨later, hlater⟩ := asked
    have hlt : k < state.asked.length := (List.getElem?_eq_some_iff.mp hk).1
    exact ⟨k, by rw [← hlater, List.getElem?_append_left hlt, hk], sampler ▸ hstarted⟩

/-- What is the case after a start of a transaction. -/
structure Started (a : Agent P) (tracer : Tracer) (name : String) (parent : Option TraceContext) (rate : Option Float)
    (t : Transaction) (b : Agent P) : Prop where
  slot : t.slot = a.transactions.size
  tracer_eq : t.tracer = tracer
  follows : Follows parent t
  valid : a.NamesNext → t.traceContext.isValid = true
  tracers : b.tracers.size = a.tracers.size
  transactions : b.transactions.size = a.transactions.size + 1
  samplers : ∀ u, (b.tracer u).sampler = (a.tracer u).sampler ∧ (b.tracer u).draws = (a.tracer u).draws
  asked : ∀ u, (b.tracer u).asked = (a.tracer u).asked ++ if tracer = u then question t rate name else []
  decided : t.parentId = none → DecidedBy (b.tracer tracer) rate name t

/-- Each tracer of the first agent is one of the second, with the same sampler, which may have been asked more. -/
structure AsksOn (a b : Agent P) : Prop where
  tracers : a.tracers.size ≤ b.tracers.size
  samplers : ∀ u : Tracer, u.slot < a.tracers.size →
    (b.tracer u).sampler = (a.tracer u).sampler ∧ (b.tracer u).draws = (a.tracer u).draws
  asked : ∀ u : Tracer, u.slot < a.tracers.size → (a.tracer u).asked <+: (b.tracer u).asked

theorem Frame.asksOn {b : Agent P} (h : Frame a b) : AsksOn a b where
  tracers := Nat.le_of_eq h.tracers.symm
  samplers u _ := ⟨(h.samples u).sampler, (h.samples u).draws⟩
  asked u _ := ⟨[], (List.append_nil _).trans (h.samples u).asked.symm⟩

theorem Started.asksOn {b : Agent P} {parent : Option TraceContext} {rate : Option Float} {root : Transaction}
    (h : Started a t name parent rate root b) : AsksOn a b where
  tracers := Nat.le_of_eq h.tracers.symm
  samplers u _ := h.samplers u
  asked u _ := by
    rw [h.asked u]
    exact List.prefix_append _ _

theorem asksOn_addTracer (a : Agent P) (state : TracerState P) : AsksOn a (a.addTracer state).2 := by
  have htracer : ∀ u : Tracer, u.slot < a.tracers.size → (a.addTracer state).2.tracer u = a.tracer u := by
    intro u hu
    exact (getD_push _ _ _ _).trans (if_neg (Nat.ne_of_lt hu))
  exact {
    tracers := Nat.le_of_lt (Nat.lt_of_lt_of_eq (Nat.lt_succ_self _) (Array.size_push _).symm)
    samplers := fun u hu => by
      rw [htracer u hu]
      exact ⟨rfl, rfl⟩
    asked := fun u hu => ⟨[], by rw [htracer u hu, List.append_nil]⟩ }

/-- A decision asks the sampler of its tracer unless it has a rate of its own. -/
theorem decide_frame {a : Agent P} {t : Tracer} (ht : t.slot < a.tracers.size) (rate : Option Float)
    (traceId : TraceId) (name : String) :
    (a.decide t rate traceId name).2.tracers.size = a.tracers.size ∧
      (a.decide t rate traceId name).2.transactions = a.transactions ∧
      ∀ u, ((a.decide t rate traceId name).2.tracer u).sampler = (a.tracer u).sampler ∧
        ((a.decide t rate traceId name).2.tracer u).draws = (a.tracer u).draws ∧
        ((a.decide t rate traceId name).2.tracer u).asked =
          (a.tracer u).asked ++ if t = u ∧ rate = none then [(traceId, name)] else [] := by
  cases rate with
  | some r =>
    have hframe : Frame a (a.decide t (some r) traceId name).2 := frame_setTracer a ⟨rfl, rfl, rfl⟩
    refine ⟨hframe.tracers, rfl, fun u => ⟨(hframe.samples u).sampler, (hframe.samples u).draws, ?_⟩⟩
    rw [(hframe.samples u).asked]
    simp
  | none =>
    refine ⟨Array.size_setIfInBounds, rfl, fun u => ?_⟩
    simp only [decide, tracer_setTracer]
    by_cases htu : u = t
    · subst htu
      simp [ht]
    · simp [htu, Ne.symm htu]

theorem tracer_addTransaction (a : Agent P) (data : TransactionData) (u : Tracer) :
    (a.addTransaction data).2.tracer u = a.tracer u := rfl

theorem startTransaction_of_parent {p : TraceContext}
    (h : options.parent.filter TraceContext.isValid = some p) :
    a.startTransaction t name type options now =
      let id := (a.drawSpanId t).1
      let b := ((a.drawSpanId t).2.addTransaction { name, type }).2
      ({ slot := a.transactions.size, tracer := t, traceContext := p.withSpanId id, parentId := some p.spanId,
         sampleRate := (Origin.continuing p id).sampleRate, start := options.start.getD now,
         maxSpans := (b.tracer t).settings.maxSpans }, b) := by
  simp only [startTransaction, h]
  rfl

theorem startTransaction_of_root (h : options.parent.filter TraceContext.isValid = none) :
    a.startTransaction t name type options now =
      let id := (a.drawSpanId t).1
      let traceId := ((a.drawSpanId t).2.drawTraceId t).1
      let (d, b) := ((a.drawSpanId t).2.drawTraceId t).2.decide t options.rate traceId name
      let origin := Origin.root traceId id d
      ({ slot := b.transactions.size, tracer := t, traceContext := origin.traceContext, parentId := none,
         sampleRate := origin.sampleRate, start := options.start.getD now,
         maxSpans := ((b.addTransaction { name, type }).2.tracer t).settings.maxSpans },
        (b.addTransaction { name, type }).2) := by
  simp only [startTransaction, h]
  rfl

/-- The decision about a root does not depend on the identifiers drawn before. -/
theorem decide_drawn (rate : Option Float) (traceId : TraceId) (name : String) :
    (((a.drawSpanId t).2.drawTraceId t).2.decide t rate traceId name).1 = (a.decide t rate traceId name).1 := by
  cases rate <;> rfl

theorem startedOn_of_root (h : options.parent.filter TraceContext.isValid = none) :
    let root := (a.startTransaction t name type options now).1
    StartedOn (a.decide t options.rate root.traceContext.traceId name).1 root := by
  rw [startTransaction_of_root h]
  dsimp only
  show StartedOn (a.decide t options.rate ((a.drawSpanId t).2.drawTraceId t).1 name).1 _
  rw [← decide_drawn]
  exact startedOn_of_origin rfl rfl

/-- A start of a root asks its question, and leaves samplers alone otherwise. -/
theorem samples_of_root (ht : t.slot < a.tracers.size) (h : options.parent.filter TraceContext.isValid = none)
    (u : Tracer) :
    ((a.startTransaction t name type options now).2.tracer u).sampler = (a.tracer u).sampler ∧
      ((a.startTransaction t name type options now).2.tracer u).draws = (a.tracer u).draws ∧
      ((a.startTransaction t name type options now).2.tracer u).asked = (a.tracer u).asked ++
        if t = u then question (a.startTransaction t name type options now).1 options.rate name else [] := by
  have hdraws : Frame a ((a.drawSpanId t).2.drawTraceId t).2 := (frame_draw a t _).trans (frame_draw _ t _)
  obtain ⟨-, -, hsamples⟩ := decide_frame (hdraws.tracers.symm ▸ ht) options.rate
    ((a.drawSpanId t).2.drawTraceId t).1 name
  obtain ⟨hsampler, hnumbers, hasked⟩ := hsamples u
  rw [startTransaction_of_root h]
  refine ⟨hsampler.trans (hdraws.samples u).sampler, hnumbers.trans (hdraws.samples u).draws, ?_⟩
  rw [tracer_addTransaction, hasked, (hdraws.samples u).asked]
  by_cases htu : t = u <;> simp [question, htu, Origin.root, TraceContext.make]

/-- The decision about a root is the answer to the question that its start adds to the log. -/
theorem decidedBy_of_root (ht : t.slot < a.tracers.size) (h : options.parent.filter TraceContext.isValid = none) :
    DecidedBy ((a.startTransaction t name type options now).2.tracer t) options.rate name
      (a.startTransaction t name type options now).1 := by
  have hstarted : let root := (a.startTransaction t name type options now).1
      StartedOn (a.decide t options.rate root.traceContext.traceId name).1 root := startedOn_of_root h
  have hparent : (a.startTransaction t name type options now).1.parentId = none := by
    rw [startTransaction_of_root h]
  obtain ⟨hsampler, hnumbers, hasked⟩ := samples_of_root ht h t
  unfold DecidedBy
  cases hrate : options.rate with
  | some r =>
    rw [hrate] at hstarted
    rw [hnumbers]
    exact ⟨(a.tracer t).drawn, hstarted⟩
  | none =>
    rw [hrate] at hstarted hasked
    rw [hsampler, hasked]
    refine ⟨(a.tracer t).asked.length, ?_, hstarted⟩
    simp [question, hparent]

theorem startTransaction_started {a : Agent P} {t : Tracer} (ht : t.slot < a.tracers.size) (name type : String)
    (options : TransactionOptions) (now : Instant) :
    Started a t name options.parent options.rate (a.startTransaction t name type options now).1
      (a.startTransaction t name type options now).2 := by
  have hdraw : Frame a (a.drawSpanId t).2 := frame_draw a t _
  cases h : options.parent.filter TraceContext.isValid with
  | some p =>
    have hp : p.isValid = true := (Option.filter_eq_some_iff.mp h).2
    rw [startTransaction_of_parent h]
    exact {
      slot := rfl
      tracer_eq := rfl
      follows := by
        unfold Follows
        rw [h]
        exact ⟨TraceContext.SameTrace.withSpanId p _, rfl⟩
      valid := fun named => TraceContext.isValid_withSpanId hp (named t).1
      tracers := rfl
      transactions := Array.size_push _
      samplers := fun u => ⟨(hdraw.samples u).sampler, (hdraw.samples u).draws⟩
      asked := fun u => by
        rw [tracer_addTransaction, (hdraw.samples u).asked]
        simp [question]
      decided := nofun }
  | none =>
    have hdraws : Frame a ((a.drawSpanId t).2.drawTraceId t).2 := hdraw.trans (frame_draw _ t _)
    obtain ⟨htracers, htransactions, -⟩ := decide_frame (hdraws.tracers.symm ▸ ht) options.rate
      ((a.drawSpanId t).2.drawTraceId t).1 name
    have hsize := (congrArg Array.size htransactions).trans hdraws.transactions
    have hsamples := @samples_of_root P a t name type options now ht h
    have hdecided := @decidedBy_of_root P a t name type options now ht h
    rw [startTransaction_of_root h] at hsamples hdecided ⊢
    exact {
      slot := hsize
      tracer_eq := rfl
      follows := by
        unfold Follows
        rw [h]
      valid := fun named => Bool.and_eq_true_iff.mpr ⟨(named t).2, (named t).1⟩
      tracers := htracers.trans hdraws.tracers
      transactions := (Array.size_push _).trans (congrArg (· + 1) hsize)
      samplers := fun u => ⟨(hsamples u).1, (hsamples u).2.1⟩
      asked := fun u => (hsamples u).2.2
      decided := fun _ => hdecided }

/-! ### Spans -/

/-- What a span of the transaction has as its parent. -/
def parentContext (t : Transaction) (options : SpanOptions) : TraceContext :=
  ((options.parent.filter fun s => s.belongsTo t).map Span.traceContext).getD t.traceContext

/-- What is the case after a start of a span in a transaction. -/
structure StartedSpan (a : Agent P) (t : Transaction) (parent : TraceContext) (s : Span) (b : Agent P) : Prop where
  transaction : s.transaction = some t
  sameTrace : s.traceContext.SameTrace parent
  valid : a.NamesNext → parent.isValid = true → s.traceContext.isValid = true
  frame : Frame a b

theorem startSpan_started (a : Agent P) (t : Transaction) (name type : String) (options : SpanOptions) (now : Instant) :
    StartedSpan a t (parentContext t options) (a.startSpan t name type options now).1
      (a.startSpan t name type options now).2 := by
  unfold startSpan
  dsimp only
  split
  · exact ⟨rfl, TraceContext.SameTrace.refl _, fun _ h => h, Frame.refl a⟩
  · split
    · exact ⟨rfl, TraceContext.SameTrace.refl _, fun _ h => h, frame_countDropped a t⟩
    · have hcounted := (frame_countStarted a t).trans (frame_draw (a.countStarted t) t.tracer IdGenerator.nextSpan)
      exact {
        transaction := rfl
        sameTrace := TraceContext.SameTrace.withSpanId _ _
        valid := fun named h => TraceContext.isValid_withSpanId h (named t.tracer).1
        frame := hcounted.trans (frame_addSpan _ _) }

theorem parentContext_self {s : Span} {u : Transaction} (h : s.transaction = some u) :
    parentContext u { parent := some s } = s.traceContext := by
  have howned : s.belongsTo u = true := by simp [Span.belongsTo, h, Transaction.same]
  simp [parentContext, Option.filter, howned]

/-- A child of a span belongs to the transaction of its parent. -/
theorem startChild_started {s : Span} {u : Transaction} (h : s.transaction = some u) (a : Agent P)
    (name type : String) (now : Instant) :
    StartedSpan a u s.traceContext (a.startChild s name type now).1 (a.startChild s name type now).2 := by
  have hstarted := startSpan_started a u name type { parent := some s } now
  rw [parentContext_self h] at hstarted
  unfold startChild
  rw [h]
  exact hstarted

theorem startChild_of_none {s : Span} (h : s.transaction = none) (a : Agent P) (name type : String) (now : Instant) :
    a.startChild s name type now = (.dropped s.traceContext none, a) := by
  unfold startChild
  rw [h]

theorem startSpanIn_of_span {cx : Context} {s : Span} (h : cx.span = some s) (a : Agent P) (name type : String)
    (now : Instant) : ∃ cx', a.startSpanIn cx name type now =
      ((a.startChild s name type now).1, cx', (a.startChild s name type now).2) := by
  unfold startSpanIn
  rw [h]
  exact ⟨_, rfl⟩

theorem startSpanIn_of_transaction {cx : Context} {u : Transaction} (hspan : cx.span = none)
    (h : cx.transaction = some u) (a : Agent P) (name type : String) (now : Instant) :
    ∃ cx', a.startSpanIn cx name type now =
      ((a.startSpan u name type {} now).1, cx', (a.startSpan u name type {} now).2) := by
  unfold startSpanIn
  rw [hspan, h]
  exact ⟨_, rfl⟩

theorem startSpanIn_of_none {cx : Context} (hspan : cx.span = none) (h : cx.transaction = none) (a : Agent P)
    (name type : String) (now : Instant) : a.startSpanIn cx name type now = (.dropped .none none, cx, a) := by
  unfold startSpanIn
  rw [hspan, h]

end Agent
end Tracing
