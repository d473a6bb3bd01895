import Tracing.Proofs.Agent.Tables
import Tracing.Proofs.Processor.Feeding

/-! # Handing records to processors

A record goes to the processors of its own tracer, and to all of them. Whatever is done to another tracer leaves this
one as it is (`Agent.Aside`). -/

namespace Tracing
namespace Agent
variable {P : Type}

/-- The transactions, the spans and the tracer are as before. -/
structure Aside (T : Tracer) (a b : Agent P) : Prop where
  size : a.tracers.size ≤ b.tracers.size
  tracer : b.tracer T = a.tracer T
  transactions : b.transactions = a.transactions
  spans : b.spans = a.spans

theorem Aside.refl (T : Tracer) (a : Agent P) : Aside T a a := ⟨Nat.le_refl _, rfl, rfl, rfl⟩

theorem Aside.trans {T : Tracer} {a b c : Agent P} (h : Aside T a b) (h' : Aside T b c) : Aside T a c where
  size := Nat.le_trans h.size h'.size
  tracer := h'.tracer.trans h.tracer
  transactions := h'.transactions.trans h.transactions
  spans := h'.spans.trans h.spans

theorem aside_setTracer {T u : Tracer} {a : Agent P} (hne : u ≠ T) (state : TracerState P) :
    Aside T a (a.setTracer u state) where
  size := Nat.le_of_eq Array.size_setIfInBounds.symm
  tracer := by
    rw [tracer_setTracer, if_neg]
    exact fun h => hne h.1.symm
  transactions := rfl
  spans := rfl

theorem onProcessors_run {α : Type} {a : Agent P} {u : Tracer} {x : Act (List P) α} {result : Except Panic α}
    {ps : List P} {events : List Event} (h : x (a.tracer u).processors = (result, ps, events)) :
    onProcessors u x a = (result, a.setTracer u { a.tracer u with processors := ps }, events) := by
  unfold onProcessors Act.onPart
  rw [h]

theorem aside_onProcessors {α : Type} {T u : Tracer} {a : Agent P} (hne : u ≠ T) (x : Act (List P) α) :
    Aside T a (onProcessors u x a).2.1 := aside_setTracer hne _

variable [Processor P]

/-! ### Open and shut down -/

section
variable {a : Agent P} {u : Tracer}

theorem emit_of_open (h : (a.tracer u).isShutdown = false) (r : Record) :
    emit u r a = onProcessors u (Processor.onEndAll r) a := by
  simp [emit, Act.bind_run, Act.get, h]

theorem emit_of_shutdown (h : (a.tracer u).isShutdown = true) (r : Record) : emit u r a = (.ok (), a, []) := by
  simp [emit, Act.bind_run, Act.get, h]

theorem forceFlush_of_open (h : (a.tracer u).isShutdown = false) :
    forceFlush u a = onProcessors u Processor.forceFlushAll a := by
  simp [forceFlush, Act.bind_run, Act.get, h]

theorem forceFlush_of_shutdown (h : (a.tracer u).isShutdown = true) :
    forceFlush u a = (.ok (.error .alreadyShutdown), a, []) := by
  simp [forceFlush, Act.bind_run, Act.get, h]

theorem shutdown_of_open (h : (a.tracer u).isShutdown = false) :
    shutdown u a = onProcessors u Processor.shutdownAll (a.setTracer u { a.tracer u with isShutdown := true }) := by
  simp [shutdown, Act.bind_run, Act.get, Act.modify, h]

theorem shutdown_of_shutdown (h : (a.tracer u).isShutdown = true) :
    shutdown u a = (.ok (.error .alreadyShutdown), a, []) := by
  simp [shutdown, Act.bind_run, Act.get, h]

end

/-- The tracer is there, lenient and not shut down, and none of its processors panics. -/
structure Serving (own : (P → P) → Prop) (T : Tracer) (a : Agent P) : Prop where
  slot : T.slot < a.tracers.size
  lenient : (a.tracer T).settings.strict = false
  isOpen : (a.tracer T).isShutdown = false
  sturdy : ∀ p ∈ (a.tracer T).processors, Sturdy own p

/-- The processors of the tracer took a record, if there is one, and all else is as before. -/
structure Takes (T : Tracer) (r : Option Record) (a b : Agent P) : Prop where
  tracer : b.tracer T = { a.tracer T with
    processors := (a.tracer T).processors.map fun p => r.elim p fun r => (Processor.onEnd r p).2.1 }
  size : a.tracers.size ≤ b.tracers.size
  transactions : b.transactions = a.transactions
  spans : b.spans = a.spans

section
variable {own : (P → P) → Prop} {T u : Tracer} {r : Option Record} {a b : Agent P}

theorem Aside.takes (h : Aside T a b) : Takes T none a b where
  tracer := by
    rw [h.tracer]
    simp
  size := h.size
  transactions := h.transactions
  spans := h.spans

theorem Takes.serving (h : Takes T r a b) (ha : a.Serving own T) : b.Serving own T where
  slot := Nat.lt_of_lt_of_le ha.slot h.size
  lenient := by
    rw [h.tracer]
    exact ha.lenient
  isOpen := by
    rw [h.tracer]
    exact ha.isOpen
  sturdy p hp := by
    rw [h.tracer] at hp
    obtain ⟨q, hq, rfl⟩ := List.mem_map.mp hp
    cases r with
    | none => exact ha.sturdy q hq
    | some r => exact ((ha.sturdy q hq).onEnd r).2

theorem Serving.of_same (h : a.Serving own T) (hb : SameTracer T a b) : b.Serving own T := by
  obtain ⟨hsize, hsettings, hprocessors, hshutdown⟩ := hb
  constructor
  case slot => exact hsize ▸ h.slot
  case lenient => exact hsettings ▸ h.lenient
  case isOpen => exact hshutdown ▸ h.isOpen
  case sturdy => exact hprocessors ▸ h.sturdy

/-- A tracer that serves takes a record without a panic. -/
theorem Serving.emit_run (h : a.Serving own T) (r : Record) :
    ∃ events, emit T r a = (.ok (), a.setTracer T { a.tracer T with
      processors := (a.tracer T).processors.map fun p => (Processor.onEnd r p).2.1 }, events) := by
  have hrun := Processor.onEndAll_run fun p hp => ((h.sturdy p hp).onEnd r).1
  exact ⟨_, (emit_of_open h.isOpen r).trans (onProcessors_run hrun)⟩

theorem aside_emit (hne : u ≠ T) (r : Record) : Aside T a (emit u r a).2.1 := by
  cases h : (a.tracer u).isShutdown with
  | true =>
    rw [emit_of_shutdown h]
    exact .refl T a
  | false =>
    rw [emit_of_open h]
    exact aside_onProcessors hne _

/-- A record goes to the processors of its own tracer only. -/
theorem Serving.emit_takes (h : a.Serving own T) (u : Tracer) (r : Record) :
    Takes T (if u = T then some r else none) a (emit u r a).2.1 := by
  by_cases hu : u = T
  · subst hu
    obtain ⟨events, hrun⟩ := h.emit_run r
    rw [if_pos rfl, hrun]
    refine ⟨?_, Nat.le_of_eq Array.size_setIfInBounds.symm, rfl, rfl⟩
    show (a.setTracer u _).tracer u = _
    rw [tracer_setTracer, if_pos ⟨rfl, h.slot⟩]
    rfl
  · rw [if_neg hu]
    exact (aside_emit hu r).takes

/-! ### Ends -/

theorem endTransaction_of_none {t : Transaction} (h : (a.transaction t).data = none) (ending : Ending) (now : Instant) :
    endTransaction t ending now a = misuse t.tracer (.alreadyEnded .transaction t.id) a := by
  simp [endTransaction, Act.bind_run, Act.get, h]

omit [Processor P] in
theorem editTransaction_of_none {t : Transaction} (h : (a.transaction t).data = none) (e : TransactionEdit) :
    a.editTransaction t e = a := by
  have hsame : { a.transaction t with data := (a.transaction t).data.map e.apply } = a.transaction t := by
    rcases hstate : a.transaction t with ⟨data, count⟩
    rw [hstate] at h
    obtain rfl := h
    rfl
  unfold editTransaction
  dsimp only
  rw [hsame, setTransaction_transaction]

omit [Processor P] in
theorem editSpan_of_none {s : LiveSpan} (h : a.span s = none) (e : SpanEdit) : a.editSpan (.live s) e = a := by
  have hsame := setSpan_span a s
  rw [h] at hsame
  unfold editSpan
  dsimp only
  rw [h]
  exact hsame

theorem endTransaction_of_some {t : Transaction} {d : TransactionData} (h : (a.transaction t).data = some d)
    (ending : Ending) (now : Instant) : endTransaction t ending now a = emit t.tracer
      (.transaction (transactionRecord t d (a.spanCount t) (ending.duration t.start now)))
      (a.setTransaction t { a.transaction t with data := none }) := by
  simp [endTransaction, Act.bind_run, Act.get, Act.modify, h, spanCount]

theorem endSpan_of_none {s : LiveSpan} (h : a.span s = none) (ending : Ending) (now : Instant) :
    endSpan (.live s) ending now a = misuse s.transaction.tracer (.alreadyEnded .span s.traceContext.spanId) a := by
  simp [endSpan, Act.bind_run, Act.get, h]

theorem endSpan_of_some {s : LiveSpan} {d : SpanData} (h : a.span s = some d) (ending : Ending) (now : Instant) :
    endSpan (.live s) ending now a = emit s.transaction.tracer (.span (spanRecord s d (ending.duration s.start now)))
      (a.setSpan s none) := by
  simp [endSpan, Act.bind_run, Act.get, Act.modify, h]

omit [Processor P] in
theorem misuse_run (u : Tracer) (e : UsageError) (a : Agent P) : misuse u e a =
    (if (a.tracer u).settings.strict then .error ⟨some e.message⟩ else .ok (), a, [.misuse e]) := by
  cases h : (a.tracer u).settings.strict <;>
    simp [misuse, Act.misuse, Act.bind_run, Act.get, Act.emit, Act.panic, h]

omit [Processor P] in
theorem misuse_state (u : Tracer) (e : UsageError) : (misuse u e a).2.1 = a := by
  rw [misuse_run]

omit [Processor P] in
theorem misuse_of_lenient (h : (a.tracer u).settings.strict = false) (e : UsageError) :
    misuse u e a = (.ok (), a, [.misuse e]) := by
  rw [misuse_run, h]
  rfl

/-! ### Captures, flushes and work of processors -/

/-- The record of an error that a tracer captures. -/
def captured (a : Agent P) (t : Tracer) (cx : Context) (message : String) (causes : List String) : ErrorRecord :=
  (a.drawTraceId t).2.errorRecord (a.drawTraceId t).1 cx message causes

theorem captureError_eq (t : Tracer) (cx : Context) (message : String) (causes : List String) (a : Agent P) :
    captureError t cx message causes a = (do
      emit t (.error (a.captured t cx message causes))
      return a.captured t cx message causes) (a.drawTraceId t).2 := rfl

/-- A capture draws an identifier and hands the error on; it returns the error unless a processor panics over it. -/
theorem captureError_run (u : Tracer) (a : Agent P) (cx : Context) (message : String) (causes : List String) :
    ∃ mid r, mid.tracers = a.tracers ∧ mid.transactions = a.transactions ∧ mid.spans = a.spans ∧
      (captureError u cx message causes a).2.1 = (emit u (.error r) mid).2.1 ∧
      (captureError u cx message causes a).1 = (emit u (.error r) mid).1.map fun _ => r := by
  refine ⟨(a.drawTraceId u).2, a.captured u cx message causes, rfl, rfl, rfl, ?_⟩
  rw [captureError_eq, Act.bind_run]
  rcases emit u (.error _) (a.drawTraceId u).2 with ⟨result, b, events⟩
  cases result with
  | error p => exact ⟨rfl, rfl⟩
  | ok => exact ⟨rfl, rfl⟩

theorem Serving.forceFlush_run (h : a.Serving own T) : ∃ r events, forceFlush T a =
    (.ok r, a.setTracer T { a.tracer T with
      processors := (a.tracer T).processors.map fun p => (Processor.forceFlush p).2.1 }, events) := by
  obtain ⟨rs, -, hrun⟩ := Processor.forceFlushAll_run fun p hp => (h.sturdy p hp).forceFlush.1
  exact ⟨_, _, (forceFlush_of_open h.isOpen).trans (onProcessors_run hrun)⟩

omit [Processor P] in
/-- One processor works, if it is there. -/
theorem onProcessor_modify (place : Nat) (f : P → P) : (onProcessor T place (Act.modify f) a).2.1 =
    a.setTracer T { a.tracer T with processors := (a.tracer T).processors.modify place f } := by
  have hnth : (Act.nth place (Act.modify f) (a.tracer T).processors).2.1 = (a.tracer T).processors.modify place f := by
    rw [List.modify_eq_set_getElem?]
    unfold Act.nth
    cases (a.tracer T).processors[place]? with
    | none => rfl
    | some p => rfl
  unfold onProcessor onProcessors Act.onPart
  dsimp only
  rw [hnth]

end
end Agent
end Tracing
