import Tracing.Proofs.Agent.Starting
import Tracing.Proofs.Propagator.Handover
import Tracing.Processor.Direct

/-! # What descends from a root

The sampling decision is made once, for the root of a trace, and everything that descends from the root has its
trace and its decision: spans, children of spans live or dropped, what is started through a context, and transactions
that continue the trace from a trace context, a context or the headers of a message. Nothing but a root without a
rate of its own asks a sampler, and the answer is the flag and the rate of the root (`Reachable.decided`).

The invariant (`Process.Sound`) says that a span is in the trace of its transaction, or else names no trace, that no
two transactions share a slot, that every birth was lawful (a transaction follows on what it was started from, and a
span belongs to the transaction of what it was started on), and that every root was started on what was decided. -/

namespace Tracing

open Agent

/-- What a birth asked of the sampler of a tracer. -/
def Birth.question (tracer : Tracer) : Birth → List (TraceId × String)
  | ⟨.transaction u name _ options, .transaction t⟩ => if u = tracer then Agent.question t options.rate name else []
  | ⟨.transactionFrom u name _ _, .transaction t⟩ => if u = tracer then Agent.question t none name else []
  | _ => []

/-- The transaction in which a span is started through a context. -/
def Context.spanOwner (cx : Context) : Option Transaction :=
  match cx.span with
  | some s => s.transaction
  | none => cx.transaction

/-- Without anything active, the caller is what is handed on. -/
theorem Context.traceContext_of_remote {cx : Context} (h : cx.hasActiveTrace = false) {r : TraceContext}
    (hr : cx.remote = some r) (hvalid : r.isValid = true) : cx.traceContext = some r := by
  have hactive : cx.active = none := by simpa [Context.hasActiveTrace, Context.transaction] using h
  unfold Context.traceContext Context.span Context.transaction
  rw [hactive, hr]
  simp [hvalid]

/-- The transaction or span is active in the context. -/
def Context.HasActive (cx : Context) : Handle → Prop
  | .transaction t => cx.transaction = some t
  | .span s => cx.span = some s

namespace Process

variable {P : Type}

/-- What was born stands where its start put it. -/
def Lawful (w : Process P) : Birth → Prop
  | ⟨.transaction _ _ _ options, .transaction t⟩ => Follows options.parent t
  | ⟨.transactionFrom _ _ _ cx, .transaction t⟩ => w.Derived cx ∧ Follows cx.traceContext t
  | ⟨.span t _ _ _, .span s⟩ => s.transaction = some t
  | ⟨.child parent _ _, .span s⟩ => s.transaction = parent.transaction
  | ⟨.spanIn cx _ _, .span s⟩ => s.transaction = cx.spanOwner
  | _ => False

/-- A root was started on what was decided about it, by a tracer that the agent still has. -/
def DecidedAt (w : Process P) (tracer : Tracer) (rate : Option Float) (name : String) (t : Transaction) : Prop :=
  tracer.slot < w.agent.tracers.size ∧ (t.parentId = none → DecidedBy (w.agent.tracer tracer) rate name t)

/-- The same of a birth. -/
def Decided (w : Process P) : Birth → Prop
  | ⟨.transaction tracer name _ options, .transaction t⟩ => w.DecidedAt tracer options.rate name t
  | ⟨.transactionFrom tracer name _ _, .transaction t⟩ => w.DecidedAt tracer none name t
  | _ => True

/-- The span is in the trace of its transaction, or belongs to none and names no trace. -/
def Owned (w : Process P) (s : Span) : Prop :=
  (∃ t, s.transaction = some t ∧ w.Holds (.transaction t) ∧ s.traceContext.SameTrace t.traceContext ∧
      s.traceContext.isValid = true) ∨
    (s.transaction = none ∧ s.traceContext = .none)

/-- What holds of a process at every moment. -/
structure Sound (w : Process P) : Prop where
  slot : ∀ t, w.Holds (.transaction t) → t.slot < w.agent.transactions.size
  unique : ∀ t u, w.Holds (.transaction t) → w.Holds (.transaction u) → t.slot = u.slot → t = u
  valid : ∀ t, w.Holds (.transaction t) → t.traceContext.isValid = true
  owned : ∀ s, w.Holds (.span s) → w.Owned s
  lawful : ∀ b ∈ w.births, w.Lawful b
  asked : ∀ tracer, (w.agent.tracer tracer).asked = w.births.flatMap (Birth.question tracer)
  decided : ∀ b ∈ w.births, w.Decided b

/-! ### Contexts -/

/-- What is active in the context is held by the process, and an active span belongs to the active transaction or to
none. -/
structure ActiveHeld (w : Process P) (cx : Context) : Prop where
  transaction : ∀ t, cx.transaction = some t → w.Holds (.transaction t)
  span : ∀ s, cx.span = some s → w.Holds (.span s) ∧
    ∃ t, cx.transaction = some t ∧ (s.transaction = some t ∨ s.transaction = none)

theorem activeHeld_span {w : Process P} {cx : Context} {t : Transaction} {s : Span} (ht : w.Holds (.transaction t))
    (hs : w.Holds (.span s)) (hown : s.transaction = some t ∨ s.transaction = none) :
    w.ActiveHeld { cx with active := some ⟨t, some s⟩ } where
  transaction u hu := by
    obtain rfl := Option.some.inj hu
    exact ht
  span s' hs' := by
    obtain rfl := Option.some.inj hs'
    exact ⟨hs, t, rfl, hown⟩

theorem Derived.activeHeld {w : Process P}
    (hw : ∀ s t, w.Holds (.span s) → s.transaction = some t → w.Holds (.transaction t)) {cx : Context}
    (h : w.Derived cx) : w.ActiveHeld cx := by
  induction h with
  | empty => exact ⟨fun t ht => (by cases ht), fun s hs => (by cases hs)⟩
  | withValue _ _ _ ih => exact ⟨ih.transaction, ih.span⟩
  | withTransaction _ held _ =>
    refine ⟨fun t ht => ?_, fun s hs => (by cases hs)⟩
    obtain rfl := Option.some.inj ht
    exact held
  | @withSpan cx _ s held ih =>
    unfold Context.withSpan
    cases hs : s.transaction with
    | some t => exact activeHeld_span (hw s t held hs) held (.inl hs)
    | none =>
      cases hcx : cx.transaction with
      | none => exact ih
      | some t => exact activeHeld_span (ih.transaction t hcx) held (.inr hs)
  | withRemote _ _ ih => exact ⟨ih.transaction, ih.span⟩
  | @extract cx _ p c ih =>
    obtain ⟨r, hr⟩ := Propagator.extract_eq p cx c
    rw [hr]
    exact ⟨ih.transaction, ih.span⟩

theorem Derived.mono {w w' : Process P} (hheld : ∀ x, w.Holds x → w'.Holds x) {cx : Context} (h : w.Derived cx) :
    w'.Derived cx := by
  induction h with
  | empty => exact .empty
  | withValue _ key value ih => exact ih.withValue key value
  | withTransaction _ held ih => exact ih.withTransaction (hheld _ held)
  | withSpan _ held ih => exact ih.withSpan (hheld _ held)
  | withRemote _ tc ih => exact ih.withRemote tc
  | extract _ p c ih => exact ih.extract p c

theorem Sound.owner {w : Process P} (hw : w.Sound) (s : Span) (t : Transaction) (held : w.Holds (.span s))
    (hs : s.transaction = some t) : w.Holds (.transaction t) := by
  rcases hw.owned s held with ⟨u, hu, holds, -, -⟩ | ⟨hnone, -⟩
  · exact Option.some.inj (hs.symm.trans hu) ▸ holds
  · cases hs.symm.trans hnone

/-- What is handed on from a context in which something is active names its trace. -/
theorem Sound.traceContext_of_active {w : Process P} (hw : w.Sound) {cx : Context} (h : w.Derived cx) {x : Handle}
    (hx : cx.HasActive x) (hvalid : x.traceContext.isValid = true) :
    ∃ tc, cx.traceContext = some tc ∧ tc.SameTrace x.traceContext := by
  have hactive := h.activeHeld hw.owner
  have hwithout : ∀ t, cx.transaction = some t →
      (cx.span.map Span.traceContext).filter TraceContext.isValid = none → cx.traceContext = some t.traceContext := by
    intro t ht hspan
    unfold Context.traceContext
    rw [hspan, ht]
    simp [hw.valid t (hactive.transaction t ht)]
  have hwith : ∀ s, cx.span = some s → s.traceContext.isValid = true → cx.traceContext = some s.traceContext := by
    intro s hs hv
    unfold Context.traceContext
    rw [hs]
    simp [hv]
  cases x with
  | span s => exact ⟨_, hwith s hx hvalid, TraceContext.SameTrace.refl _⟩
  | transaction t =>
    cases hspan : cx.span with
    | none => exact ⟨_, hwithout t hx (by rw [hspan]; rfl), TraceContext.SameTrace.refl _⟩
    | some s =>
      obtain ⟨hs, u, hu, hown⟩ := hactive.span s hspan
      obtain rfl : t = u := Option.some.inj (hx.symm.trans hu)
      rcases hw.owned s hs with ⟨u, hsu, -, hsame, hv⟩ | ⟨-, hnone⟩
      · rcases hown with hown | hown
        · obtain rfl : t = u := Option.some.inj (hown.symm.trans hsu)
          exact ⟨_, hwith s hspan hv, hsame⟩
        · rw [hown] at hsu
          cases hsu
      · refine ⟨_, hwithout t hx ?_, TraceContext.SameTrace.refl _⟩
        rw [hspan, Option.map_some, hnone]
        rfl

/-! ### Steps -/

theorem Lawful.mono {w w' : Process P} (hheld : ∀ x, w.Holds x → w'.Holds x) {b : Birth} (h : w.Lawful b) :
    w'.Lawful b := by
  unfold Lawful at h ⊢
  split at h
  · exact h
  · exact ⟨h.1.mono hheld, h.2⟩
  · exact h
  · exact h
  · exact h
  · exact h.elim

theorem DecidedAt.mono {w w' : Process P} (h : AsksOn w.agent w'.agent) {tracer : Tracer} {rate : Option Float}
    {name : String} {t : Transaction} (ht : w.DecidedAt tracer rate name t) : w'.DecidedAt tracer rate name t := by
  obtain ⟨hslot, hdecided⟩ := ht
  obtain ⟨hsampler, hdraws⟩ := h.samplers tracer hslot
  exact ⟨Nat.lt_of_lt_of_le hslot h.tracers, fun hroot => (hdecided hroot).mono hsampler hdraws (h.asked tracer hslot)⟩

theorem Decided.mono {w w' : Process P} (h : AsksOn w.agent w'.agent) {b : Birth} (hb : w.Decided b) :
    w'.Decided b := by
  unfold Decided at hb ⊢
  split at hb
  · exact DecidedAt.mono h hb
  · exact DecidedAt.mono h hb
  · trivial

theorem Owned.mono {w w' : Process P} (hheld : ∀ x, w.Holds x → w'.Holds x) {s : Span} (h : w.Owned s) :
    w'.Owned s :=
  h.imp_left fun ⟨t, hs, ht, hsame⟩ => ⟨t, hs, hheld _ ht, hsame⟩

/-- A span is not decided about. -/
theorem decided_span (w : Process P) (s : Start) (sp : Span) : w.Decided ⟨s, .span sp⟩ := by
  cases s <;> trivial

/-- The process with one birth more. -/
def born (w : Process P) (b : Birth) (a : Agent P) : Process P := ⟨a, w.births ++ [b]⟩

theorem mem_born {w : Process P} {b b' : Birth} {a : Agent P} :
    b' ∈ (w.born b a).births ↔ b' ∈ w.births ∨ b' = b :=
  List.mem_append.trans (or_congr_right List.mem_singleton)

theorem holds_born {w : Process P} {b : Birth} {a : Agent P} {x : Handle} :
    (w.born b a).Holds x ↔ w.Holds x ∨ b.handle = x := by
  constructor
  · rintro ⟨b', hb', rfl⟩
    rcases mem_born.mp hb' with hb' | rfl
    · exact .inl ⟨b', hb', rfl⟩
    · exact .inr rfl
  · rintro (⟨b', hb', rfl⟩ | rfl)
    · exact ⟨b', mem_born.mpr (.inl hb'), rfl⟩
    · exact ⟨b, mem_born.mpr (.inr rfl), rfl⟩

/-- Each transaction has a slot of its own. -/
structure Slots (w : Process P) : Prop where
  slot : ∀ t, w.Holds (.transaction t) → t.slot < w.agent.transactions.size
  unique : ∀ t u, w.Holds (.transaction t) → w.Holds (.transaction u) → t.slot = u.slot → t = u

namespace Slots
variable {w : Process P}

/-- The same transactions, in a table of the same size. -/
theorem same (hw : w.Slots) {w' : Process P}
    (hheld : ∀ t, w'.Holds (.transaction t) → w.Holds (.transaction t))
    (hsize : w'.agent.transactions.size = w.agent.transactions.size) : w'.Slots where
  slot t ht := hsize ▸ hw.slot t (hheld t ht)
  unique t u ht hu := hw.unique t u (hheld t ht) (hheld u hu)

/-- A transaction that was started takes a slot of its own. -/
theorem bornTransaction (hw : w.Slots) {s : Start} {t : Transaction} {a : Agent P}
    (hslot : t.slot = w.agent.transactions.size) (hsize : a.transactions.size = w.agent.transactions.size + 1) :
    (w.born ⟨s, .transaction t⟩ a).Slots := by
  have hcases : ∀ u, (w.born ⟨s, .transaction t⟩ a).Holds (.transaction u) → w.Holds (.transaction u) ∨ t = u := by
    intro u hu
    exact (holds_born.mp hu).imp_right fun h => Handle.transaction.inj h
  have hfresh : ∀ u, w.Holds (.transaction u) → u.slot ≠ t.slot := fun u hu => by
    rw [hslot]
    exact Nat.ne_of_lt (hw.slot u hu)
  refine ⟨fun u hu => ?_, fun u v hu hv huv => ?_⟩
  · show u.slot < a.transactions.size
    rw [hsize]
    rcases hcases u hu with hu | rfl
    · exact Nat.lt_succ_of_lt (hw.slot u hu)
    · rw [hslot]
      exact Nat.lt_succ_self _
  · rcases hcases u hu with hu | rfl <;> rcases hcases v hv with hv | rfl
    · exact hw.unique u v hu hv huv
    · exact absurd huv (hfresh u hu)
    · exact absurd huv.symm (hfresh v hv)
    · rfl

end Slots

/-- A span that was born adds no transaction. -/
theorem holds_bornSpan {w : Process P} {s : Start} {sp : Span} {a : Agent P} {t : Transaction}
    (h : (w.born ⟨s, .span sp⟩ a).Holds (.transaction t)) : w.Holds (.transaction t) :=
  (holds_born.mp h).resolve_right nofun

namespace Sound
variable {w : Process P}

theorem init : Sound ({} : Process P) where
  slot := by rintro t ⟨b, hb, -⟩; cases hb
  unique := by rintro t u ⟨b, hb, -⟩; cases hb
  valid := by rintro t ⟨b, hb, -⟩; cases hb
  owned := by rintro s ⟨b, hb, -⟩; cases hb
  lawful := fun b hb => by cases hb
  asked _ := rfl
  decided := fun b hb => by cases hb

theorem frame (hw : w.Sound) {a : Agent P} (h : Frame w.agent a) : Sound { w with agent := a } where
  slot t ht := by
    rw [h.transactions]
    exact hw.slot t ht
  unique := hw.unique
  valid := hw.valid
  owned := hw.owned
  lawful b hb := by
    have hheld : ∀ x, w.Holds x → Holds { w with agent := a } x := fun _ hx => hx
    exact (hw.lawful b hb).mono hheld
  asked tracer := (h.samples tracer).asked.trans (hw.asked tracer)
  decided b hb := Decided.mono h.asksOn (hw.decided b hb)

theorem addTracer (hw : w.Sound) {state : TracerState P} (unasked : state.asked = []) :
    Sound { w with agent := (w.agent.addTracer state).2 } where
  slot := hw.slot
  unique := hw.unique
  valid := hw.valid
  owned := hw.owned
  lawful b hb := by
    have hheld : ∀ x, w.Holds x → Holds { w with agent := (w.agent.addTracer state).2 } x := fun _ hx => hx
    exact (hw.lawful b hb).mono hheld
  asked tracer := by
    rw [← hw.asked tracer]
    unfold Agent.addTracer Agent.tracer
    simp only [Array.getD_eq_getD_getElem?, Array.getElem?_push]
    split
    · rename_i hslot
      rw [hslot, Array.getElem?_size]
      exact unasked
    · rfl
  decided b hb := Decided.mono (asksOn_addTracer w.agent state) (hw.decided b hb)

theorem bornTransaction (hw : w.Sound) (named : w.agent.NamesNext) {tracer : Tracer} {name : String}
    {parent : Option TraceContext} {rate : Option Float} {t : Transaction} {a : Agent P} {s : Start}
    (h : Started w.agent tracer name parent rate t a) (lawful : w.Lawful ⟨s, .transaction t⟩)
    (question : ∀ u, Birth.question u ⟨s, .transaction t⟩ = if tracer = u then Agent.question t rate name else [])
    (decided : (w.born ⟨s, .transaction t⟩ a).Decided ⟨s, .transaction t⟩) :
    Sound (w.born ⟨s, .transaction t⟩ a) := by
  have hheld : ∀ x, w.Holds x → (w.born ⟨s, .transaction t⟩ a).Holds x := fun x hx => holds_born.mpr (.inl hx)
  have hcases : ∀ u, (w.born ⟨s, .transaction t⟩ a).Holds (.transaction u) → w.Holds (.transaction u) ∨ t = u := by
    intro u hu
    exact (holds_born.mp hu).imp_right fun h => Handle.transaction.inj h
  have hslots : (w.born ⟨s, .transaction t⟩ a).Slots :=
    Slots.bornTransaction ⟨hw.slot, hw.unique⟩ h.slot h.transactions
  refine ⟨hslots.slot, hslots.unique, fun u hu => ?_, fun s' hs' => ?_, fun b hb => ?_, fun u => ?_, fun b hb => ?_⟩
  · rcases hcases u hu with hu | rfl
    · exact hw.valid u hu
    · exact h.valid named
  · rcases holds_born.mp hs' with hs' | hs'
    · exact (hw.owned s' hs').mono hheld
    · cases hs'
  · rcases mem_born.mp hb with hb | rfl
    · exact (hw.lawful b hb).mono hheld
    · exact lawful.mono hheld
  · show (a.tracer u).asked = (w.births ++ [_]).flatMap _
    rw [h.asked u, hw.asked u, List.flatMap_append, List.flatMap_singleton, question]
  · rcases mem_born.mp hb with hb | rfl
    · exact Decided.mono h.asksOn (hw.decided b hb)
    · exact decided

theorem bornSpan (hw : w.Sound) {s : Start} {sp : Span} {a : Agent P} (h : Frame w.agent a) (owned : w.Owned sp)
    (lawful : w.Lawful ⟨s, .span sp⟩) (question : ∀ u, Birth.question u ⟨s, .span sp⟩ = []) :
    Sound (w.born ⟨s, .span sp⟩ a) := by
  have hheld : ∀ x, w.Holds x → (w.born ⟨s, .span sp⟩ a).Holds x := fun x hx => holds_born.mpr (.inl hx)
  have hslots : (w.born ⟨s, .span sp⟩ a).Slots :=
    Slots.same ⟨hw.slot, hw.unique⟩ (fun _ => holds_bornSpan) h.transactions
  refine ⟨hslots.slot, hslots.unique, fun u hu => hw.valid u (holds_bornSpan hu), fun s' hs' => ?_, fun b hb => ?_,
    fun u => ?_, fun b hb => ?_⟩
  · rcases holds_born.mp hs' with hs' | hs'
    · exact (hw.owned s' hs').mono hheld
    · obtain rfl := Handle.span.inj hs'
      exact owned.mono hheld
  · rcases mem_born.mp hb with hb | rfl
    · exact (hw.lawful b hb).mono hheld
    · exact lawful.mono hheld
  · show (a.tracer u).asked = (w.births ++ [_]).flatMap _
    rw [(h.samples u).asked, hw.asked u, List.flatMap_append, List.flatMap_singleton, question, List.append_nil]
  · rcases mem_born.mp hb with hb | rfl
    · exact Decided.mono h.asksOn (hw.decided b hb)
    · exact decided_span _ s sp

/-- A span that belongs to a transaction is in its trace. -/
theorem sameTrace_of_belongsTo (hw : w.Sound) {t : Transaction} (ht : w.Holds (.transaction t)) {s : Span}
    (hs : w.Holds (.span s)) (h : s.belongsTo t = true) :
    s.traceContext.SameTrace t.traceContext ∧ s.traceContext.isValid = true := by
  unfold Span.belongsTo at h
  rcases hw.owned s hs with ⟨u, hown, hu, hsame, hvalid⟩ | ⟨hown, -⟩
  · rw [hown] at h
    obtain rfl : u = t := hw.unique u t hu ht (by simpa [Transaction.same] using h)
    exact ⟨hsame, hvalid⟩
  · rw [hown] at h
    cases h

theorem startChild (hw : w.Sound) (named : w.agent.NamesNext) {parent : Span} (held : w.Holds (.span parent))
    (name type : String) (now : Instant) :
    Frame w.agent (w.agent.startChild parent name type now).2 ∧
      w.Owned (w.agent.startChild parent name type now).1 ∧
      (w.agent.startChild parent name type now).1.transaction = parent.transaction := by
  rcases hw.owned parent held with ⟨t, hown, ht, hsame, hvalid⟩ | ⟨hown, hnone⟩
  · have h := startChild_started hown w.agent name type now
    exact ⟨h.frame, .inl ⟨t, h.transaction, ht, h.sameTrace.trans hsame, h.valid named hvalid⟩,
      h.transaction.trans hown.symm⟩
  · rw [startChild_of_none hown, hnone]
    exact ⟨Frame.refl _, .inr ⟨rfl, rfl⟩, hown.symm⟩

/-- A span that is started in a transaction is in its trace, also if its parent is a span. -/
theorem startSpan (hw : w.Sound) (named : w.agent.NamesNext) {t : Transaction} (held : w.Holds (.transaction t))
    {options : SpanOptions} (hparent : ∀ s, options.parent = some s → w.Holds (.span s)) (name type : String)
    (now : Instant) :
    Frame w.agent (w.agent.startSpan t name type options now).2 ∧
      w.Owned (w.agent.startSpan t name type options now).1 ∧
      (w.agent.startSpan t name type options now).1.transaction = some t := by
  have h := startSpan_started w.agent t name type options now
  obtain ⟨hsame, hvalid⟩ : (parentContext t options).SameTrace t.traceContext ∧
      (parentContext t options).isValid = true := by
    unfold parentContext
    cases hp : options.parent.filter fun s => s.belongsTo t with
    | none => exact ⟨TraceContext.SameTrace.refl _, hw.valid t held⟩
    | some s =>
      obtain ⟨hs, hbelongs⟩ := Option.filter_eq_some_iff.mp hp
      exact hw.sameTrace_of_belongsTo held (hparent s hs) hbelongs
  exact ⟨h.frame, .inl ⟨t, h.transaction, held, h.sameTrace.trans hsame, h.valid named hvalid⟩, h.transaction⟩

theorem startSpanIn (hw : w.Sound) (named : w.agent.NamesNext) {cx : Context} (h : w.Derived cx)
    (name type : String) (now : Instant) :
    Frame w.agent (w.agent.startSpanIn cx name type now).2.2 ∧
      w.Owned (w.agent.startSpanIn cx name type now).1 ∧
      (w.agent.startSpanIn cx name type now).1.transaction = cx.spanOwner := by
  have hactive := h.activeHeld hw.owner
  unfold Context.spanOwner
  cases hspan : cx.span with
  | some s =>
    obtain ⟨cx', hstart⟩ := startSpanIn_of_span hspan w.agent name type now
    rw [hstart]
    exact hw.startChild named (hactive.span s hspan).1 name type now
  | none =>
    cases hcx : cx.transaction with
    | some t =>
      obtain ⟨cx', hstart⟩ := startSpanIn_of_transaction hspan hcx w.agent name type now
      rw [hstart]
      exact hw.startSpan named (hactive.transaction t hcx) (fun s hs => by cases hs) name type now
    | none =>
      rw [startSpanIn_of_none hspan hcx]
      exact ⟨Frame.refl _, .inr ⟨rfl, rfl⟩, rfl⟩

theorem start (hw : w.Sound) (s : Start) (now : Instant) (permitted : w.Permits s) (named : w.agent.NamesNext) :
    Sound (w.start s now) := by
  cases s with
  | transaction tracer name type options =>
    have h := startTransaction_started permitted name type options now
    exact hw.bornTransaction named h h.follows (fun u => rfl) ⟨h.tracers.symm ▸ permitted, h.decided⟩
  | transactionFrom tracer name type cx =>
    have h := startTransaction_started permitted.1 name type { parent := cx.traceContext } now
    exact hw.bornTransaction named h ⟨permitted.2, h.follows⟩ (fun u => rfl) ⟨h.tracers.symm ▸ permitted.1, h.decided⟩
  | span t name type options =>
    obtain ⟨hframe, howned, hlawful⟩ := hw.startSpan named permitted.1 permitted.2 name type now
    exact hw.bornSpan hframe howned hlawful fun u => rfl
  | child parent name type =>
    obtain ⟨hframe, howned, hlawful⟩ := hw.startChild named permitted name type now
    exact hw.bornSpan hframe howned hlawful fun u => rfl
  | spanIn cx name type =>
    obtain ⟨hframe, howned, hlawful⟩ := hw.startSpanIn named permitted name type now
    exact hw.bornSpan hframe howned hlawful fun u => rfl

end Sound

theorem Reachable.sound [Processor P] {w : Process P} (h : Reachable w) : Sound w := by
  induction h with
  | init => exact Sound.init
  | next _ step ih =>
    cases step with
    | addGenerator g => exact ih.frame (.of_tracers rfl rfl)
    | addTracer state unasked => exact ih.addTracer unasked
    | start s now permitted named => exact ih.start s now permitted named
    | call c => exact ih.frame (c.frame _)

/-! ### Descent -/

/-- The second context was read from the headers that were written for the first one into a carrier without any, by a
propagator that reads a parent header that was written, and nothing is active in it. -/
def HandedOver (cx cx' : Context) : Prop :=
  ∃ (p q : Propagator) (base : Context) (c : Carrier) (name : String),
    c.headers = [] ∧ name ∈ Propagator.parentHeaders ∧ ((p.inject cx c).get? name).isSome ∧ name ∈ q.fields ∧
      cx' = (q.extract base (p.inject cx c)).1 ∧ cx'.hasActiveTrace = false

/-- What descends from a root. -/
inductive Descends (w : Process P) (root : Transaction) : Handle → Prop where
  | root : Descends w root (.transaction root)
  /-- A span started on a transaction. -/
  | span {t : Transaction} (h : Descends w root (.transaction t)) {name type : String} {options : SpanOptions}
      {s : Span} (born : ⟨.span t name type options, .span s⟩ ∈ w.births) : Descends w root (.span s)
  /-- A span started in a transaction under one of its spans. -/
  | under {parent : Span} (h : Descends w root (.span parent)) {t : Transaction} {name type : String}
      {options : SpanOptions} (given : options.parent = some parent) (own : parent.belongsTo t = true) {s : Span}
      (born : ⟨.span t name type options, .span s⟩ ∈ w.births) : Descends w root (.span s)
  /-- A span started on a span, live or dropped. -/
  | child {parent : Span} (h : Descends w root (.span parent)) {name type : String} {s : Span}
      (born : ⟨.child parent name type, .span s⟩ ∈ w.births) : Descends w root (.span s)
  /-- A span started through a context in which a span is active. -/
  | inSpan {parent : Span} (h : Descends w root (.span parent)) {cx : Context} (active : cx.span = some parent)
      {name type : String} {s : Span} (born : ⟨.spanIn cx name type, .span s⟩ ∈ w.births) : Descends w root (.span s)
  /-- A span started through a context in which a transaction is active and no span. -/
  | inTransaction {t : Transaction} (h : Descends w root (.transaction t)) {cx : Context}
      (active : cx.transaction = some t) (alone : cx.span = none) {name type : String} {s : Span}
      (born : ⟨.spanIn cx name type, .span s⟩ ∈ w.births) : Descends w root (.span s)
  /-- A transaction started with a trace context. -/
  | continued {x : Handle} (h : Descends w root x) {tracer : Tracer} {name type : String}
      {options : TransactionOptions} (given : options.parent = some x.traceContext) {t : Transaction}
      (born : ⟨.transaction tracer name type options, .transaction t⟩ ∈ w.births) : Descends w root (.transaction t)
  /-- A transaction started from a context in which something is active. -/
  | inContext {x : Handle} (h : Descends w root x) {cx : Context} (active : cx.HasActive x) {tracer : Tracer}
      {name type : String} {t : Transaction}
      (born : ⟨.transactionFrom tracer name type cx, .transaction t⟩ ∈ w.births) : Descends w root (.transaction t)
  /-- A transaction started from a context that was handed over in the headers of a message. -/
  | handedOver {x : Handle} (h : Descends w root x) {cx cx' : Context} (derived : w.Derived cx)
      (active : cx.HasActive x) (handed : HandedOver cx cx') {tracer : Tracer} {name type : String} {t : Transaction}
      (born : ⟨.transactionFrom tracer name type cx', .transaction t⟩ ∈ w.births) : Descends w root (.transaction t)

theorem follows_sameTrace {p : TraceContext} (hp : p.isValid = true) {t : Transaction} (h : Follows (some p) t) :
    t.traceContext.SameTrace p := by
  unfold Follows at h
  rw [Option.filter_some, if_pos hp] at h
  exact h.1

/-- The caller of a context that was handed over is in the trace of the sender. -/
theorem HandedOver.traceContext {cx cx' : Context} (h : HandedOver cx cx') {tc : TraceContext}
    (htc : cx.traceContext = some tc) : ∃ r, cx'.traceContext = some r ∧ r.isValid = true ∧ r.SameTrace tc := by
  obtain ⟨p, q, base, c, name, hempty, hname, hwritten, hread, rfl, hactive⟩ := h
  have hvalid : tc.isValid = true := (Option.filter_eq_some_iff.mp htc).2
  obtain ⟨r, hr, htrace, hspan, hsampled⟩ := Propagator.extract_inject p q htc base hempty hname hwritten hread
  have hrvalid : r.isValid = true := by
    unfold TraceContext.isValid at hvalid ⊢
    rw [htrace, hspan]
    exact hvalid
  exact ⟨r, Context.traceContext_of_remote hactive hr hrvalid, hrvalid, htrace, hsampled⟩

/-- A span that the process holds is in the trace of its transaction. -/
theorem Sound.sameTrace_of_transaction {w : Process P} (hw : w.Sound) {s : Span} (hs : w.Holds (.span s))
    {t : Transaction} (h : s.transaction = some t) :
    w.Holds (.transaction t) ∧ s.traceContext.SameTrace t.traceContext ∧ s.traceContext.isValid = true := by
  rcases hw.owned s hs with ⟨u, hown, hu, hsame, hvalid⟩ | ⟨hown, -⟩
  · obtain rfl : t = u := Option.some.inj (h.symm.trans hown)
    exact ⟨hu, hsame, hvalid⟩
  · rw [h] at hown
    cases hown

/-- A span that names a trace belongs to a transaction. -/
theorem Sound.exists_transaction {w : Process P} (hw : w.Sound) {s : Span} (hs : w.Holds (.span s))
    (hvalid : s.traceContext.isValid = true) : ∃ t, s.transaction = some t := by
  rcases hw.owned s hs with ⟨t, hown, -⟩ | ⟨-, hnone⟩
  · exact ⟨t, hown⟩
  · rw [hnone] at hvalid
    cases hvalid

/-- What descends from a root names the trace of the root. -/
theorem Sound.descends {w : Process P} (hw : w.Sound) {root : Transaction} (hroot : w.Holds (.transaction root))
    {x : Handle} (h : w.Descends root x) :
    w.Holds x ∧ x.traceContext.SameTrace root.traceContext ∧ x.traceContext.isValid = true := by
  -- A span is in the trace of its parent if both belong to one transaction.
  have hchild : ∀ {parent s : Span}, w.Holds (.span parent) → parent.traceContext.SameTrace root.traceContext →
      parent.traceContext.isValid = true → w.Holds (.span s) → s.transaction = parent.transaction →
      w.Holds (.span s) ∧ s.traceContext.SameTrace root.traceContext ∧ s.traceContext.isValid = true := by
    intro parent s hparent hsame hvalid hs hown
    obtain ⟨t, ht⟩ := hw.exists_transaction hparent hvalid
    obtain ⟨-, hparentTrace, -⟩ := hw.sameTrace_of_transaction hparent ht
    obtain ⟨-, hspanTrace, hspanValid⟩ := hw.sameTrace_of_transaction hs (hown.trans ht)
    exact ⟨hs, (hspanTrace.trans hparentTrace.symm).trans hsame, hspanValid⟩
  induction h with
  | root => exact ⟨hroot, TraceContext.SameTrace.refl _, hw.valid root hroot⟩
  | span _ born ih =>
    have hs := w.holds_of_mem born
    obtain ⟨-, hsame, hvalid⟩ := hw.sameTrace_of_transaction hs (hw.lawful _ born)
    exact ⟨hs, hsame.trans ih.2.1, hvalid⟩
  | @under parent _ t _ _ _ _ own s born ih =>
    have hs := w.holds_of_mem born
    have hown : s.transaction = some t := hw.lawful _ born
    obtain ⟨ht, hsame, hvalid⟩ := hw.sameTrace_of_transaction hs hown
    obtain ⟨hparent, -⟩ := hw.sameTrace_of_belongsTo ht ih.1 own
    exact ⟨hs, (hsame.trans hparent.symm).trans ih.2.1, hvalid⟩
  | child _ born ih => exact hchild ih.1 ih.2.1 ih.2.2 (w.holds_of_mem born) (hw.lawful _ born)
  | @inSpan parent _ cx active _ _ s born ih =>
    have hown : s.transaction = cx.spanOwner := hw.lawful _ born
    rw [Context.spanOwner, active] at hown
    exact hchild ih.1 ih.2.1 ih.2.2 (w.holds_of_mem born) hown
  | @inTransaction t _ cx active alone _ _ s born ih =>
    have hs := w.holds_of_mem born
    have hown : s.transaction = cx.spanOwner := hw.lawful _ born
    rw [Context.spanOwner, alone, active] at hown
    obtain ⟨-, hsame, hvalid⟩ := hw.sameTrace_of_transaction hs hown
    exact ⟨hs, hsame.trans ih.2.1, hvalid⟩
  | @continued x _ _ _ _ options given t born ih =>
    have ht := w.holds_of_mem born
    have hfollows : Follows options.parent t := hw.lawful _ born
    rw [given] at hfollows
    exact ⟨ht, (follows_sameTrace ih.2.2 hfollows).trans ih.2.1, hw.valid t ht⟩
  | @inContext x _ cx active _ _ _ t born ih =>
    have ht := w.holds_of_mem born
    obtain ⟨hderived, hfollows⟩ : w.Derived cx ∧ Follows cx.traceContext t := hw.lawful _ born
    obtain ⟨tc, htc, hsame⟩ := hw.traceContext_of_active hderived active ih.2.2
    rw [htc] at hfollows
    have hvalid : tc.isValid = true := (Option.filter_eq_some_iff.mp htc).2
    exact ⟨ht, ((follows_sameTrace hvalid hfollows).trans hsame).trans ih.2.1, hw.valid t ht⟩
  | @handedOver x _ cx cx' derived active handed _ _ _ t born ih =>
    have ht := w.holds_of_mem born
    obtain ⟨-, hfollows⟩ : w.Derived cx' ∧ Follows cx'.traceContext t := hw.lawful _ born
    obtain ⟨tc, htc, hsame⟩ := hw.traceContext_of_active derived active ih.2.2
    obtain ⟨r, hr, hvalid, hover⟩ := handed.traceContext htc
    rw [hr] at hfollows
    exact ⟨ht, (((follows_sameTrace hvalid hfollows).trans hover).trans hsame).trans ih.2.1, hw.valid t ht⟩

/-- A root has the flag and the rate that the sampler of its tracer gave in answer to a question of the log, which is
about this root, or those of the sampler of its own rate if it was started with one. -/
theorem Reachable.decided [Processor P] {w : Process P} (h : Reachable w) {tracer : Tracer} {name type : String}
    {root : Transaction} (hroot : root.parentId = none) :
    (∀ options, ⟨.transaction tracer name type options, .transaction root⟩ ∈ w.births →
        DecidedBy (w.agent.tracer tracer) options.rate name root) ∧
      ∀ cx, ⟨.transactionFrom tracer name type cx, .transaction root⟩ ∈ w.births →
        DecidedBy (w.agent.tracer tracer) none name root := by
  have decidedAt : ∀ {rate : Option Float}, w.DecidedAt tracer rate name root →
      DecidedBy (w.agent.tracer tracer) rate name root := fun hat => hat.2 hroot
  exact ⟨fun _ born => decidedAt (h.sound.decided _ born), fun _ born => decidedAt (h.sound.decided _ born)⟩

/-- Whatever descends from a transaction, a root or another, has its trace and its sampling decision. The sampler of a
tracer was asked about just those roots of the tracer that were started without a rate of their own, about each once
and in the order in which they started. -/
theorem descendants_inherit [Processor P] {w : Process P} (h : Reachable w) :
    (∀ (root : Transaction) (x : Handle), w.Holds (.transaction root) → w.Descends root x →
        x.traceContext.traceId = root.traceContext.traceId ∧ x.traceContext.isSampled = root.isSampled) ∧
      ∀ tracer, (w.agent.tracer tracer).asked = w.births.flatMap (Birth.question tracer) := by
  refine ⟨fun root x hroot hx => ?_, h.sound.asked⟩
  obtain ⟨-, htrace, -⟩ := h.sound.descends hroot hx
  exact htrace

/-! A process with one tracer, a root and a span of it. -/

/-- The tracer samples every root, and its source hands out the number one. -/
def sampleTracer : Process (DirectProcessor MemoryStore) where
  agent := ((Agent.empty.addGenerator (.ofWords (fun _ => 1) fun _ => 1)).2.addTracer
    { sampler := ⟨fun _ _ _ => ⟨true, 1.0⟩⟩, generator := 0 }).2

def sampleRoot : Transaction := (sampleTracer.agent.startTransaction ⟨0⟩ "GET /" "request" {} ⟨0⟩).1

def sampleTrace : Process (DirectProcessor MemoryStore) :=
  (sampleTracer.start (.transaction ⟨0⟩ "GET /" "request" {}) ⟨0⟩).start (.span sampleRoot "query" "db" {}) ⟨1⟩

theorem sampleTrace_reachable : Reachable sampleTrace := by
  have hnamed : ∀ (a : Agent (DirectProcessor MemoryStore)) (g : IdGenerator), a.generators = #[g] →
      g.traceAt = (fun _ _ => .ofNat 1) → g.spanAt = (fun _ _ => .ofNat 1) → a.NamesNext := by
    intro a g hg htrace hspan
    refine Agent.namesNext_of_source hg fun traces spans => ?_
    rw [htrace, hspan]
    show (TraceId.ofNat 1).isValid = true ∧ (SpanId.ofNat 1).isValid = true
    decide
  have htracer : Reachable sampleTracer := (Reachable.init.next (.addGenerator _ _)).next (.addTracer _ _ rfl)
  have hroot := htracer.next (.start _ (.transaction ⟨0⟩ "GET /" "request" {}) ⟨0⟩ (show 0 < 1 by decide)
    (hnamed _ _ rfl rfl rfl))
  refine hroot.next (.start _ (.span sampleRoot "query" "db" {}) ⟨1⟩ ⟨?_, fun s hs => by cases hs⟩
    (hnamed _ _ rfl rfl rfl))
  exact ⟨⟨_, .transaction sampleRoot⟩, List.mem_singleton_self _, rfl⟩

theorem sampleRoot_born : ⟨.transaction ⟨0⟩ "GET /" "request" {}, .transaction sampleRoot⟩ ∈ sampleTrace.births :=
  List.mem_cons_self

/-- The root is sampled, as its sampler decided. -/
theorem startedOn_sampleRoot : StartedOn ⟨true, 1.0⟩ sampleRoot := by
  have hdecided := (sampleTrace_reachable.decided rfl).1 _ sampleRoot_born
  obtain ⟨k, -, hstarted⟩ := hdecided
  exact hstarted

theorem descendants_inherit_in_sampleTrace :
    Reachable sampleTrace ∧ sampleRoot.isSampled = true ∧
      (∃ s, sampleTrace.Descends sampleRoot (.span s) ∧
        s.traceContext.traceId = sampleRoot.traceContext.traceId ∧ s.traceContext.isSampled = true) ∧
      (sampleTrace.agent.tracer ⟨0⟩).asked = [(sampleRoot.traceContext.traceId, "GET /")] := by
  obtain ⟨hinherit, hasked⟩ := descendants_inherit sampleTrace_reachable
  have hspan : sampleTrace.Descends sampleRoot (.span _) :=
    .span .root (List.mem_cons_of_mem _ (List.mem_singleton_self _))
  obtain ⟨htrace, hsampled⟩ := hinherit sampleRoot _ (sampleTrace.holds_of_mem sampleRoot_born) hspan
  have hroot : sampleRoot.isSampled = true := startedOn_sampleRoot.isSampled
  exact ⟨sampleTrace_reachable, hroot, ⟨_, hspan, htrace, hsampled.trans hroot⟩, hasked ⟨0⟩⟩

end Process
end Tracing
