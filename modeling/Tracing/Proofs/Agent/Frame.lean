import Tracing.Agent.Lifecycle
import Tracing.Agent.Start
import Tracing.Proofs.Act
import Tracing.Proofs.Lists

/-! # What the calls of an agent leave alone

Only a start adds a transaction and asks a sampler. Every other call, and all work of processors, leaves the set of
tracers and transactions, the samplers and the record of what they were asked as they were (`Agent.Frame`), also when a
panic cuts it short. -/

namespace Tracing

/-- Both states of a tracer have the same sampler, which was asked the same, and the same numbers to draw. -/
structure TracerState.SamplesAs {P : Type} (s u : TracerState P) : Prop where
  sampler : s.sampler = u.sampler
  draws : s.draws = u.draws
  asked : s.asked = u.asked

namespace TracerState.SamplesAs
variable {P : Type} {s u v : TracerState P}

theorem refl (s : TracerState P) : s.SamplesAs s := ⟨rfl, rfl, rfl⟩

theorem trans (h : s.SamplesAs u) (h' : u.SamplesAs v) : s.SamplesAs v :=
  ⟨h.sampler.trans h'.sampler, h.draws.trans h'.draws, h.asked.trans h'.asked⟩

end TracerState.SamplesAs

namespace Agent

variable {P : Type}

/-- The agent has the same tracers and transactions as before, and its samplers were asked nothing more. -/
structure Frame (a b : Agent P) : Prop where
  tracers : b.tracers.size = a.tracers.size
  transactions : b.transactions.size = a.transactions.size
  samples : ∀ t, (b.tracer t).SamplesAs (a.tracer t)

namespace Frame
variable {a b c : Agent P}

/-- The tables of tracers are the same. -/
theorem of_tracers (htracers : b.tracers = a.tracers) (htransactions : b.transactions.size = a.transactions.size) :
    Frame a b where
  tracers := congrArg Array.size htracers
  transactions := htransactions
  samples t := by
    unfold tracer
    rw [htracers]
    exact .refl _

theorem refl (a : Agent P) : Frame a a := of_tracers rfl rfl

theorem trans (h : Frame a b) (h' : Frame b c) : Frame a c where
  tracers := h'.tracers.trans h.tracers
  transactions := h'.transactions.trans h.transactions
  samples t := (h'.samples t).trans (h.samples t)

end Frame

theorem tracer_setTracer {a : Agent P} {t u : Tracer} {state : TracerState P} :
    (a.setTracer t state).tracer u = if u = t ∧ t.slot < a.tracers.size then state else a.tracer u := by
  have hslot : u.slot = t.slot ↔ u = t := ⟨congrArg Tracer.mk, congrArg Tracer.slot⟩
  unfold tracer setTracer
  simp only [getD_setIfInBounds, hslot]

theorem frame_setTracer (a : Agent P) {t : Tracer} {state : TracerState P} (h : state.SamplesAs (a.tracer t)) :
    Frame a (a.setTracer t state) where
  tracers := Array.size_setIfInBounds
  transactions := rfl
  samples u := by
    rw [tracer_setTracer]
    split
    · rename_i hut
      rw [hut.1]
      exact h
    · exact .refl _

theorem frame_setTransaction (a : Agent P) (t : Transaction) (state : TransactionState) :
    Frame a (a.setTransaction t state) := .of_tracers rfl Array.size_setIfInBounds

theorem frame_setSpan (a : Agent P) (s : LiveSpan) (data : Option SpanData) : Frame a (a.setSpan s data) :=
  .of_tracers rfl rfl

theorem frame_draw {α : Type} (a : Agent P) (t : Tracer) (next : IdGenerator → α × IdGenerator) :
    Frame a (a.draw t next).2 := .of_tracers rfl rfl

theorem frame_addSpan (a : Agent P) (data : SpanData) : Frame a (a.addSpan data).2 := .of_tracers rfl rfl

theorem frame_countDropped (a : Agent P) (t : Transaction) : Frame a (a.countDropped t) :=
  frame_setTransaction a t _

theorem frame_countStarted (a : Agent P) (t : Transaction) : Frame a (a.countStarted t) :=
  frame_setTransaction a t _

/-! ### Calls -/

/-- The property says nothing about the processors of tracers and about spans. -/
structure Stable (Q : Agent P → Prop) : Prop where
  setTracer : ∀ {b : Agent P} {t : Tracer} {state : TracerState P}, state.SamplesAs (b.tracer t) → Q b →
    Q (b.setTracer t state)
  setSpan : ∀ {b : Agent P} {s : LiveSpan} {data : Option SpanData}, Q b → Q (b.setSpan s data)

theorem stable_frame (a : Agent P) : Stable (Frame a) where
  setTracer h hb := hb.trans (frame_setTracer _ h)
  setSpan hb := hb.trans (frame_setSpan _ _ _)

theorem stable_transactions (rows : Array TransactionState) : Stable fun b : Agent P => b.transactions = rows where
  setTracer _ hb := hb
  setSpan hb := hb

theorem stable_generators (sources : Array IdGenerator) : Stable fun b : Agent P => b.generators = sources where
  setTracer _ hb := hb
  setSpan hb := hb

theorem Stable.keeps_onProcessors {Q : Agent P → Prop} (hQ : Stable Q) {α : Type} (t : Tracer) (x : Act (List P) α) :
    Act.Keeps Q (onProcessors t x) :=
  Act.Keeps.onPart fun _ _ hs => hQ.setTracer ⟨rfl, rfl, rfl⟩ hs

/-- The property survives what goes to the processors of tracers, and says nothing about spans. -/
structure Steady [Processor P] (Q : Agent P → Prop) : Prop where
  emit : ∀ t r, Act.Keeps Q (emit t r)
  forceFlush : ∀ t, Act.Keeps Q (forceFlush t)
  shutdown : ∀ t, Act.Keeps Q (shutdown t)
  setSpan : ∀ {b : Agent P} {s : LiveSpan} {data : Option SpanData}, Q b → Q (b.setSpan s data)

theorem Stable.steady [Processor P] {Q : Agent P → Prop} (hQ : Stable Q) : Steady Q where
  emit t r := by
    refine Act.Keeps.bind Act.Keeps.get fun s => ?_
    split
    · exact hQ.keeps_onProcessors t _
    · exact Act.Keeps.pure _
  forceFlush t := by
    refine Act.Keeps.bind Act.Keeps.get fun b => ?_
    split
    · exact Act.Keeps.pure _
    · exact hQ.keeps_onProcessors t _
  shutdown t := by
    refine Act.Keeps.bind Act.Keeps.get fun b => ?_
    split
    · exact Act.Keeps.pure _
    · exact Act.Keeps.bind (Act.Keeps.modify fun b hb => hQ.setTracer ⟨rfl, rfl, rfl⟩ hb) fun _ =>
        hQ.keeps_onProcessors t _
  setSpan := hQ.setSpan

theorem keeps_misuse {Q : Agent P → Prop} (t : Tracer) (e : UsageError) : Act.Keeps Q (misuse (P := P) t e) :=
  Act.Keeps.bind Act.Keeps.get fun _ => Act.Keeps.misuse _ _

section Calls
variable [Processor P] {Q : Agent P → Prop} (hQ : Steady Q)
include hQ

theorem keeps_endTransaction (hset : ∀ {b : Agent P} {t : Transaction} {state : TransactionState}, Q b →
    Q (b.setTransaction t state)) (t : Transaction) (ending : Ending) (now : Instant) :
    Act.Keeps Q (endTransaction (P := P) t ending now) := by
  refine Act.Keeps.bind Act.Keeps.get fun s => ?_
  dsimp only
  split
  · exact keeps_misuse _ _
  · exact Act.Keeps.bind (Act.Keeps.modify fun b hb => hset hb) fun _ => hQ.emit _ _

theorem keeps_endSpan (s : Span) (ending : Ending) (now : Instant) :
    Act.Keeps Q (endSpan (P := P) s ending now) := by
  cases s with
  | dropped tc t => exact Act.Keeps.pure _
  | live s =>
    refine Act.Keeps.bind Act.Keeps.get fun b => ?_
    split
    · exact keeps_misuse _ _
    · exact Act.Keeps.bind (Act.Keeps.modify fun b hb => hQ.setSpan hb) fun _ => hQ.emit _ _

theorem keeps_captureError (hdraw : ∀ {b : Agent P} {t : Tracer}, Q b → Q (b.drawTraceId t).2) (t : Tracer)
    (cx : Context) (message : String) (causes : List String) :
    Act.Keeps Q (captureError (P := P) t cx message causes) := by
  refine Act.Keeps.bind (Act.Keeps.update fun b hb => hdraw hb) fun id => ?_
  refine Act.Keeps.bind Act.Keeps.get fun b => ?_
  exact Act.Keeps.bind (hQ.emit _ _) fun _ => Act.Keeps.pure _

theorem keeps_releaseAll (held : List Tracer) : ∀ ts : List Tracer, Act.Keeps Q (releaseAll (P := P) held ts)
  | [] => Act.Keeps.pure _
  | t :: ts => by
    refine Act.Keeps.bind ?_ fun _ => keeps_releaseAll held ts
    unfold releaseUnheld
    split
    · exact Act.Keeps.bind (hQ.shutdown t) fun _ => Act.Keeps.pure _
    · exact Act.Keeps.pure _

theorem keeps_release (holders : List Holder) : Act.Keeps Q (release (P := P) holders) :=
  Act.Keeps.bind Act.Keeps.get fun _ => keeps_releaseAll hQ _ _

end Calls

end Agent
end Tracing
