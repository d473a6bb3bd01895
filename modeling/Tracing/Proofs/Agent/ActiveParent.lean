import Tracing.Proofs.Agent.SpanStarts

/-! # The active parent

Three uses of a context look for the parent in it, each in its own way: what is handed on to other processes, a captured
error, and a start of a span. While a transaction is active, the first two always find the same one
(`Context.parent`): the active span if that belongs to a transaction, or else the transaction. A start finds it too,
unless a span that was started outside of any transaction is active. What is started under such a span is outside
again, even if the transaction would take one more span. -/

namespace Tracing

namespace Context

/-- The parent in a context: the active span if it belongs to a transaction, or else the active transaction. -/
def parent (cx : Context) : Option TraceContext :=
  (cx.span.filter fun s => s.transaction.isSome).map Span.traceContext <|> cx.transaction.map Transaction.traceContext

/-- The active span belongs to no transaction. -/
def IsOutside (cx : Context) : Prop := ∃ p, cx.span = some p ∧ p.transaction = none

variable {cx : Context} {t : Transaction} {s : Span}

theorem parent_of_span (hspan : cx.span = some s) (hs : s.transaction = some t) : cx.parent = some s.traceContext := by
  simp [parent, hspan, hs, Option.filter]

theorem parent_of_outside (hspan : cx.span = some s) (hs : s.transaction = none) (active : cx.transaction = some t) :
    cx.parent = some t.traceContext := by
  simp [parent, hspan, hs, active, Option.filter]

theorem parent_of_transaction (hspan : cx.span = none) (active : cx.transaction = some t) :
    cx.parent = some t.traceContext := by
  simp [parent, hspan, active]

/-- What is active names a trace, and an active span belongs to the active transaction, or to none and stands for
nothing. -/
structure Coherent (cx : Context) : Prop where
  transaction : ∀ t, cx.transaction = some t → t.traceContext.isValid = true
  span : ∀ s, cx.span = some s → ∃ t, cx.transaction = some t ∧
    (s.transaction = some t ∧ s.traceContext.isValid = true ∨ s.transaction = none ∧ s.traceContext = .none)

/-- With a transaction active, what is handed on is the parent. -/
theorem Coherent.traceContext_eq_parent (h : cx.Coherent) (active : cx.transaction = some t) :
    ∃ tc, cx.traceContext = some tc ∧ cx.parent = some tc := by
  have hvalid := h.transaction t active
  cases hspan : cx.span with
  | none =>
    refine ⟨_, ?_, parent_of_transaction hspan active⟩
    simp [traceContext, hspan, active, hvalid]
  | some p =>
    obtain ⟨u, hu, ⟨hown, hpvalid⟩ | ⟨outside, hnone⟩⟩ := h.span p hspan
    · refine ⟨_, ?_, parent_of_span hspan hown⟩
      simp [traceContext, hspan, hpvalid]
    · refine ⟨_, ?_, parent_of_outside hspan outside active⟩
      have hskipped : (cx.span.map Span.traceContext).filter TraceContext.isValid = none := by
        rw [hspan, Option.map_some, hnone]
        rfl
      simp [traceContext, hskipped, active, hvalid]

theorem withSpan_of_transaction (cx : Context) (hs : s.transaction = some t) :
    cx.withSpan s = { cx with active := some ⟨t, some s⟩ } := by
  simp [withSpan, hs]

/-- An active span outside of any transaction leaves its context as it is. -/
theorem withSpan_self_of_outside (hspan : cx.span = some s) (hs : s.transaction = none) : cx.withSpan s = cx := by
  obtain ⟨active, remote, values⟩ := cx
  cases active with
  | none => cases hspan
  | some a =>
    have ha : a = ⟨a.transaction, some s⟩ := congrArg (ActiveTrace.mk a.transaction) hspan
    rw [ha]
    simp [withSpan, hs, transaction]

end Context

namespace Agent

variable {P : Type} {t : Transaction} {cx : Context}

/-- An error is linked to the parent in its context. -/
theorem errorRecord_parent (a : Agent P) (id : TraceId) (cx : Context) (message : String) (causes : List String) :
    (a.errorRecord id cx message causes).traceId = cx.parent.map TraceContext.traceId ∧
      (a.errorRecord id cx message causes).parentId = cx.parent.map TraceContext.spanId :=
  ⟨rfl, rfl⟩

/-- Through a context a span is started in the transaction that owns it, under the active span. -/
theorem startSpanIn_of_owner (howner : cx.spanOwner = some t) (a : Agent P) (name type : String) (now : Instant) :
    a.startSpanIn cx name type now =
      let (s, b) := a.startSpan t name type { parent := cx.span } now
      (s, cx.withSpan s, b) := by
  unfold Context.spanOwner at howner
  unfold startSpanIn
  cases hspan : cx.span with
  | some p =>
    rw [hspan] at howner
    simp only [startChild, show p.transaction = some t from howner]
  | none =>
    rw [hspan] at howner
    simp only [show cx.transaction = some t from howner]

/-- A transaction that has not ended and is below its limit starts a live span. -/
theorem startSpan_of_free {a : Agent P} (isOpen : a.hasEnded t = false)
    (free : (a.spanCount t).started < t.spanLimit) (name type : String) (options : SpanOptions) (now : Instant) :
    ∃ s b, a.startSpan t name type options now = (.live s, b) ∧ s.transaction = t ∧
      s.parentId = (parentContext t options).spanId := by
  have houtcome := startSpan_outcome a t name type options now
  cases hstart : a.startSpan t name type options now with
  | mk s b =>
    rw [hstart] at houtcome
    cases houtcome with
    | ended h => exact absurd h (Bool.eq_false_iff.mp isOpen)
    | refused _ full => exact absurd full (Nat.not_le_of_lt free)
    | live => exact ⟨_, _, rfl, rfl, rfl⟩

end Agent

namespace Process

variable {P : Type} {w : Process P} {cx : Context} {t : Transaction}

namespace Sound

/-- A span outside of any transaction stands for nothing. -/
theorem eq_dropped_of_outside (hw : w.Sound) {p : Span} (hp : w.Holds (.span p)) (outside : p.transaction = none) :
    p = .dropped .none none := by
  rcases hw.owned p hp with ⟨t, hown, -⟩ | ⟨-, hnone⟩
  · cases outside.symm.trans hown
  · cases p with
    | live s => cases outside
    | dropped tc u =>
      obtain rfl : tc = .none := hnone
      obtain rfl : u = none := outside
      rfl

theorem coherent (hw : w.Sound) (derived : w.Derived cx) : cx.Coherent := by
  have hactive := derived.activeHeld hw.owner
  refine ⟨fun t ht => hw.valid t (hactive.transaction t ht), fun s hs => ?_⟩
  obtain ⟨held, t, ht, hown⟩ := hactive.span s hs
  refine ⟨t, ht, hown.imp (fun hown => ?_) fun outside => ?_⟩
  · obtain ⟨-, -, hvalid⟩ := hw.sameTrace_of_transaction held hown
    exact ⟨hown, hvalid⟩
  · rw [hw.eq_dropped_of_outside held outside]
    exact ⟨rfl, rfl⟩

/-- Unless the active span is outside, a start takes the parent for that of its span. -/
theorem owner_of_inside (hw : w.Sound) (derived : w.Derived cx) (active : cx.transaction = some t)
    (inside : ¬cx.IsOutside) :
    cx.spanOwner = some t ∧ cx.parent = some (Agent.parentContext t { parent := cx.span }) := by
  unfold Context.spanOwner
  cases hspan : cx.span with
  | none => exact ⟨active, Context.parent_of_transaction hspan active⟩
  | some p =>
    obtain ⟨-, u, hu, hown⟩ := (derived.activeHeld hw.owner).span p hspan
    obtain rfl : t = u := Option.some.inj (active.symm.trans hu)
    have hown : p.transaction = some t := hown.resolve_right fun hnone => inside ⟨p, hspan, hnone⟩
    exact ⟨hown, (Context.parent_of_span hspan hown).trans (congrArg some (Agent.parentContext_self hown).symm)⟩

end Sound

/-- In a context with an active transaction that is sampled, has not ended and is below its limit, what is handed on is
the parent, and an error is linked to it. A span that is started through the context is live, is a child of the parent
in the transaction, and becomes the active one, unless the active span was started outside of any transaction. Under
such a span, nothing is started and the context stays as it is. -/
theorem spans_start_under_parent [Processor P] (h : Reachable w) (derived : w.Derived cx)
    (active : cx.transaction = some t) (sampled : t.isSampled = true) (isOpen : w.agent.hasEnded t = false)
    (free : (w.agent.spanCount t).started < t.maxSpans) (name type : String) (now : Instant) :
    ∃ tc, cx.traceContext = some tc ∧
      (∀ id message causes, (w.agent.errorRecord id cx message causes).traceId = some tc.traceId ∧
        (w.agent.errorRecord id cx message causes).parentId = some tc.spanId) ∧
      (¬cx.IsOutside → ∃ s a, s.transaction = t ∧ s.parentId = tc.spanId ∧
        w.agent.startSpanIn cx name type now = (.live s, { cx with active := some ⟨t, some (.live s)⟩ }, a)) ∧
      (cx.IsOutside → w.agent.startSpanIn cx name type now = (.dropped .none none, cx, w.agent)) := by
  have hw := h.sound
  obtain ⟨tc, htc, hparent⟩ := (hw.coherent derived).traceContext_eq_parent active
  refine ⟨tc, htc, fun id message causes => ?_, fun inside => ?_, fun outside => ?_⟩
  · obtain ⟨htrace, hspan⟩ := w.agent.errorRecord_parent id cx message causes
    rw [htrace, hspan, hparent]
    exact ⟨rfl, rfl⟩
  · obtain ⟨howner, hinside⟩ := hw.owner_of_inside derived active inside
    have hlimit : (w.agent.spanCount t).started < t.spanLimit := by
      rwa [Transaction.spanLimit, if_pos sampled]
    obtain ⟨s, a, hstart, hs, hid⟩ := Agent.startSpan_of_free isOpen hlimit name type { parent := cx.span } now
    refine ⟨s, a, hs, ?_, ?_⟩
    · rw [hid, Option.some.inj (hparent.symm.trans hinside)]
    · rw [Agent.startSpanIn_of_owner howner, hstart]
      simp only [cx.withSpan_of_transaction (s := .live s) (congrArg some hs)]
  · obtain ⟨p, hspan, hp⟩ := outside
    have heq := hw.eq_dropped_of_outside ((derived.activeHeld hw.owner).span p hspan).1 hp
    have hcx := Context.withSpan_self_of_outside hspan hp
    rw [heq] at hspan hcx
    unfold Agent.startSpanIn
    rw [hspan]
    simp only [Agent.startChild, Span.transaction, Span.traceContext, hcx]

/-! A process that starts a span before its transaction, and makes it active after that. -/

def sampleSource : IdGenerator := .ofWords (fun _ => 7) fun spans => if spans = 0 then 1 else 2

def sampleEarly : Process (DirectProcessor MemoryStore) where
  agent := ((Agent.empty.addGenerator sampleSource).2.addTracer
    { sampler := ⟨fun _ _ _ => ⟨true, 1.0⟩⟩, generator := 0 }).2

def sampleRequest : Transaction := (sampleEarly.agent.startTransaction ⟨0⟩ "GET /" "request" {} ⟨1⟩).1

def sampleServing : Process (DirectProcessor MemoryStore) :=
  (sampleEarly.start (.spanIn .empty "setup" "app") ⟨0⟩).start (.transaction ⟨0⟩ "GET /" "request" {}) ⟨1⟩

def sampleInside : Context := Context.empty.withTransaction sampleRequest

def sampleOutside : Context := sampleInside.withSpan (.dropped .none none)

theorem sampleSource_neverZero : sampleSource.NeverZero := by
  refine fun traces spans => ⟨show (TraceId.ofNat 7).isValid = true by decide, ?_⟩
  show (SpanId.ofNat (if spans = 0 then 1 else 2)).isValid = true
  split <;> decide

/-- Nothing is drawn for a span outside of any transaction. -/
theorem sampleServing_reachable : Reachable sampleServing := by
  have hnamed : ∀ a : Agent (DirectProcessor MemoryStore), a.generators = #[sampleSource] → a.NamesNext :=
    fun _ ha => Agent.namesNext_of_source ha sampleSource_neverZero
  have hearly : Reachable sampleEarly := (Reachable.init.next (.addGenerator _ _)).next (.addTracer _ _ rfl)
  have hsetup := hearly.next (.start _ (.spanIn .empty "setup" "app") ⟨0⟩ .empty (hnamed _ rfl))
  exact hsetup.next (.start _ (.transaction ⟨0⟩ "GET /" "request" {}) ⟨1⟩ (show 0 < 1 by decide) (hnamed _ rfl))

theorem sampleInside_derived : sampleServing.Derived sampleInside :=
  Derived.empty.withTransaction ⟨_, List.mem_cons_of_mem _ List.mem_cons_self, rfl⟩

theorem sampleOutside_derived : sampleServing.Derived sampleOutside :=
  sampleInside_derived.withSpan ⟨_, List.mem_cons_self, rfl⟩

/-- The request itself is the parent of a span, the first identifier being that of the request. -/
theorem spans_start_under_parent_in_sampleInside :
    sampleRequest.isSampled = true ∧ sampleServing.agent.hasEnded sampleRequest = false ∧
      (sampleServing.agent.spanCount sampleRequest).started < sampleRequest.maxSpans ∧ ¬sampleInside.IsOutside ∧
      ∃ s a, sampleServing.agent.startSpanIn sampleInside "query" "db" ⟨2⟩ =
        (.live s, { sampleInside with active := some ⟨sampleRequest, some (.live s)⟩ }, a) ∧ s.parentId = .ofNat 1 := by
  have free : (sampleServing.agent.spanCount sampleRequest).started < sampleRequest.maxSpans :=
    show 0 < 500 by decide
  have inside : ¬sampleInside.IsOutside := nofun
  obtain ⟨tc, htc, -, hlive, -⟩ := spans_start_under_parent sampleServing_reachable sampleInside_derived rfl rfl rfl
    free "query" "db" ⟨2⟩
  obtain ⟨s, a, -, hid, hstart⟩ := hlive inside
  have hfirst : sampleInside.traceContext.map TraceContext.spanId = some (.ofNat 1) := rfl
  rw [htc] at hfirst
  exact ⟨rfl, rfl, free, inside, s, a, hstart, hid.trans (Option.some.inj hfirst)⟩

/-- In an active trace that would take the span, what is started under the span from before is dropped. -/
theorem span_dropped_in_sampleOutside :
    Reachable sampleServing ∧ sampleServing.Derived sampleOutside ∧ sampleOutside.transaction = some sampleRequest ∧
      sampleRequest.isSampled = true ∧ sampleServing.agent.hasEnded sampleRequest = false ∧
      (sampleServing.agent.spanCount sampleRequest).started < sampleRequest.maxSpans ∧
      (sampleServing.agent.startSpanIn sampleOutside "query" "db" ⟨2⟩).1.isDropped = true :=
  ⟨sampleServing_reachable, sampleOutside_derived, rfl, rfl, rfl, show 0 < 500 by decide, rfl⟩

end Process
end Tracing
