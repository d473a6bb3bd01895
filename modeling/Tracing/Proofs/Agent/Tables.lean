import Tracing.Proofs.Agent.Starting

/-! # The tables of an agent

A write to one slot of a table leaves the others alone. A start adds a row with the first attributes, if it gives a
transaction or a live span, and touches no other attributes; of a tracer it leaves the settings, the processors and
whether it is shut down as they were. -/

namespace Tracing
namespace Agent

variable {P : Type} {a b c : Agent P}

theorem transaction_setTransaction {t u : Transaction} {state : TransactionState} :
    (a.setTransaction t state).transaction u =
      if u.slot = t.slot ∧ t.slot < a.transactions.size then state else a.transaction u :=
  getD_setIfInBounds _ _ _ _ _

theorem transaction_of_push {row : TransactionState} (h : b.transactions = a.transactions.push row) (t : Transaction) :
    b.transaction t = if t.slot = a.transactions.size then row else a.transaction t := by
  unfold transaction
  rw [h, getD_push]

theorem span_setSpan {s r : LiveSpan} {data : Option SpanData} :
    (a.setSpan s data).span r = if r.slot = s.slot ∧ s.slot < a.spans.size then data else a.span r :=
  getD_setIfInBounds _ _ _ _ _

theorem setTransaction_transaction (a : Agent P) (t : Transaction) : a.setTransaction t (a.transaction t) = a := by
  unfold setTransaction transaction
  rw [setIfInBounds_getD]

theorem setSpan_span (a : Agent P) (s : LiveSpan) : a.setSpan s (a.span s) = a := by
  unfold setSpan span
  rw [setIfInBounds_getD]

/-! ### Tracers -/

/-- The tracer has the same settings and processors as before, and is shut down if it was. -/
structure SameTracer (tracer : Tracer) (a b : Agent P) : Prop where
  tracers : b.tracers.size = a.tracers.size
  settings : (b.tracer tracer).settings = (a.tracer tracer).settings
  processors : (b.tracer tracer).processors = (a.tracer tracer).processors
  isShutdown : (b.tracer tracer).isShutdown = (a.tracer tracer).isShutdown

namespace SameTracer
variable {tracer : Tracer}

theorem of_tracers (h : b.tracers = a.tracers) : SameTracer tracer a b := by
  have htracer : b.tracer tracer = a.tracer tracer := congrArg (fun rows => Array.getD rows tracer.slot default) h
  exact ⟨congrArg Array.size h, congrArg _ htracer, congrArg _ htracer, congrArg _ htracer⟩

theorem trans (h : SameTracer tracer a b) (h' : SameTracer tracer b c) : SameTracer tracer a c where
  tracers := h'.tracers.trans h.tracers
  settings := h'.settings.trans h.settings
  processors := h'.processors.trans h.processors
  isShutdown := h'.isShutdown.trans h.isShutdown

/-- A decision about a root asks the sampler or draws a number, and nothing else. -/
theorem decide (a : Agent P) (t : Tracer) (rate : Option Float) (traceId : TraceId) (name : String) :
    SameTracer tracer a (a.decide t rate traceId name).2 := by
  have hset : ∀ {state : TracerState P}, state.settings = (a.tracer t).settings →
      state.processors = (a.tracer t).processors → state.isShutdown = (a.tracer t).isShutdown →
        SameTracer tracer a (a.setTracer t state) := by
    intro state hsettings hprocessors hshutdown
    refine ⟨Array.size_setIfInBounds, ?_, ?_, ?_⟩ <;> rw [tracer_setTracer] <;> split
    · rename_i h
      rw [hsettings, h.1]
    · rfl
    · rename_i h
      rw [hprocessors, h.1]
    · rfl
    · rename_i h
      rw [hshutdown, h.1]
    · rfl
  cases rate with
  | some r => exact hset rfl rfl rfl
  | none => exact hset rfl rfl rfl

end SameTracer
end Agent

/-! ### Starts -/

/-- The name that something is started with. -/
def Start.name : Start → String
  | transaction _ name _ _ | transactionFrom _ name _ _ | span _ name _ _ | child _ name _ | spanIn _ name _ => name

/-- The type that something is started with. -/
def Start.type : Start → String
  | transaction _ _ type _ | transactionFrom _ _ type _ | span _ _ type _ | child _ _ type | spanIn _ _ type => type

namespace Agent

variable {P : Type}

/-- No attributes of a transaction have changed. -/
structure SameAttributes (a b : Agent P) : Prop where
  size : b.transactions.size = a.transactions.size
  data : ∀ t, (b.transaction t).data = (a.transaction t).data

/-- What a start adds to the tables. -/
inductive Adds (name type : String) (a : Agent P) : Handle → Agent P → Prop where
  | transaction {t : Transaction} {b : Agent P} (slot : t.slot = a.transactions.size)
      (transactions : b.transactions = a.transactions.push { data := some { name, type } })
      (spans : b.spans = a.spans) : Adds name type a (.transaction t) b
  | live {s : LiveSpan} {b : Agent P} (slot : s.slot = a.spans.size) (transactions : SameAttributes a b)
      (spans : b.spans = a.spans.push (some (.ofType name type))) : Adds name type a (.span (.live s)) b
  | dropped {tc : TraceContext} {t : Option Transaction} {b : Agent P} (transactions : SameAttributes a b)
      (spans : b.spans = a.spans) : Adds name type a (.span (.dropped tc t)) b

theorem sameAttributes_setTransaction (a : Agent P) {t : Transaction} {state : TransactionState}
    (h : state.data = (a.transaction t).data) : SameAttributes a (a.setTransaction t state) where
  size := Array.size_setIfInBounds
  data u := by
    rw [transaction_setTransaction]
    split
    · rename_i hslot
      rw [h]
      unfold Agent.transaction
      rw [hslot.1]
    · rfl

section
variable {a : Agent P} {name type : String} {now : Instant}

theorem startTransaction_adds (t : Tracer) (options : TransactionOptions) :
    Adds name type a (.transaction (a.startTransaction t name type options now).1)
      (a.startTransaction t name type options now).2 ∧
    ∀ tracer, SameTracer tracer a (a.startTransaction t name type options now).2 := by
  cases h : options.parent.filter TraceContext.isValid with
  | some p =>
    rw [startTransaction_of_parent h]
    exact ⟨.transaction rfl rfl rfl, fun tracer => .of_tracers rfl⟩
  | none =>
    rw [startTransaction_of_root h]
    have htables : (((a.drawSpanId t).2.drawTraceId t).2.decide t options.rate
        ((a.drawSpanId t).2.drawTraceId t).1 name).2.transactions = a.transactions ∧
      (((a.drawSpanId t).2.drawTraceId t).2.decide t options.rate
        ((a.drawSpanId t).2.drawTraceId t).1 name).2.spans = a.spans := by
      cases options.rate <;> exact ⟨rfl, rfl⟩
    refine ⟨.transaction (congrArg Array.size htables.1) (congrArg (Array.push · _) htables.1) htables.2,
      fun tracer => ?_⟩
    have hdraws : SameTracer tracer a ((a.drawSpanId t).2.drawTraceId t).2 := .of_tracers rfl
    exact (hdraws.trans (.decide _ t _ _ _)).trans (.of_tracers rfl)

theorem startSpan_adds (t : Transaction) (options : SpanOptions) :
    Adds name type a (.span (a.startSpan t name type options now).1) (a.startSpan t name type options now).2 ∧
    ∀ tracer, SameTracer tracer a (a.startSpan t name type options now).2 := by
  unfold startSpan
  dsimp only
  split
  · exact ⟨.dropped ⟨rfl, fun _ => rfl⟩ rfl, fun tracer => .of_tracers rfl⟩
  · split
    · exact ⟨.dropped (sameAttributes_setTransaction a rfl) rfl, fun tracer => .of_tracers rfl⟩
    · have hcounted : SameAttributes a (a.countStarted t) := sameAttributes_setTransaction a rfl
      exact ⟨.live rfl ⟨hcounted.size, hcounted.data⟩ rfl, fun tracer => .of_tracers rfl⟩

theorem startChild_adds (s : Span) :
    Adds name type a (.span (a.startChild s name type now).1) (a.startChild s name type now).2 ∧
    ∀ tracer, SameTracer tracer a (a.startChild s name type now).2 := by
  unfold startChild
  split
  · exact startSpan_adds _ _
  · exact ⟨.dropped ⟨rfl, fun _ => rfl⟩ rfl, fun tracer => .of_tracers rfl⟩

end
end Agent

/-- A start gives something new with its first attributes, and leaves all else as it was. -/
theorem Start.run_adds {P : Type} (a : Agent P) (now : Instant) (s : Start) :
    Agent.Adds s.name s.type a (s.run a now).1 (s.run a now).2 ∧
      ∀ tracer, Agent.SameTracer tracer a (s.run a now).2 := by
  cases s with
  | transaction tracer name type options => exact Agent.startTransaction_adds tracer options
  | transactionFrom tracer name type cx => exact Agent.startTransaction_adds tracer _
  | span t name type options => exact Agent.startSpan_adds t options
  | child parent name type => exact Agent.startChild_adds parent
  | spanIn cx name type =>
    cases hspan : cx.span with
    | some parent =>
      obtain ⟨cx', h⟩ := Agent.startSpanIn_of_span hspan a name type now
      unfold Start.run
      dsimp only
      rw [h]
      exact Agent.startChild_adds parent
    | none =>
      cases ht : cx.transaction with
      | some t =>
        obtain ⟨cx', h⟩ := Agent.startSpanIn_of_transaction hspan ht a name type now
        unfold Start.run
        dsimp only
        rw [h]
        exact Agent.startSpan_adds t _
      | none =>
        unfold Start.run
        dsimp only
        rw [Agent.startSpanIn_of_none hspan ht]
        exact ⟨.dropped ⟨rfl, fun _ => rfl⟩ rfl, fun tracer => .of_tracers rfl⟩

end Tracing
