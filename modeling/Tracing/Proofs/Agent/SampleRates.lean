import Tracing.Proofs.Agent.Inheritance
import Tracing.Proofs.Propagator.Reuse
import Tracing.Proofs.Sampling.Recorded

/-! # The sample rate along a trace

A root reports the rate of its sampler as it is and records it rounded in its state, which is the only thing that
travels. So what continues the trace reports the rounded rate, over any number of messages that have the standard
headers. That is the rate of the root if the sampler gives rounded rates, as those do that settings can name. A message
that has the older header alone loses the state, and the rate of a sampled trace with it. -/

namespace Tracing

open Propagator

/-! ### Samplers -/

/-- Whatever the sampler decides, it gives a rounded rate. -/
def Sampler.Rounds (s : Sampler) : Prop :=
  ∀ asked traceId name, SampleRate.round (s.decide asked traceId name).rate = (s.decide asked traceId name).rate

theorem Sampling.round_rate (s : Sampling) : SampleRate.round s.rate = s.rate := by
  cases s with
  | alwaysOn => decide +kernel
  | alwaysOff => decide +kernel
  | ratio p => exact SampleRate.round_round p

/-- The samplers that settings can name give rounded rates. -/
theorem Sampling.rounds_sampler (s : Sampling) (draws : Nat → Float) : (s.sampler draws).Rounds :=
  fun _ _ _ => s.round_rate

/-! ### Continuing a trace -/

/-- The second trace context continues the first one. The flag tells whether the standard headers were written at every
hop between them. -/
inductive TraceContext.Continues (root : TraceContext) : Bool → TraceContext → Prop where
  | root : Continues root true root
  /-- What is started from it, a transaction or a span, has a span of its own. -/
  | started {told : Bool} {tc : TraceContext} (h : Continues root told tc) (id : SpanId) :
      Continues root told (tc.withSpanId id)
  /-- It is written into a carrier without headers and read again, by a propagator that reads a parent header that was
  written, into a context in which nothing is active. -/
  | handedOver {told : Bool} {tc : TraceContext} (h : Continues root told tc) {cx : Context}
      (sender : cx.traceContext = some tc) {p q : Propagator} {c : Carrier} (fresh : c.headers = []) {name : String}
      (written : name ∈ p.writes) (read : name ∈ q.leaves) {base : Context} (inactive : base.hasActiveTrace = false)
      {tc' : TraceContext} (receiver : (q.extract base (p.inject cx c)).1.traceContext = some tc') :
      Continues root (told && p.writes.contains Traceparent.standardHeader) tc'

/-- What arrives in a context in which nothing is active is the sender, with the state that is read. -/
theorem receiver_eq {cx : Context} {tc : TraceContext} (sender : cx.traceContext = some tc) {p q : Propagator}
    {c : Carrier} (fresh : c.headers = []) {name : String} (written : name ∈ p.writes) (read : name ∈ q.leaves)
    {base : Context} (inactive : base.hasActiveTrace = false) :
    (q.extract base (p.inject cx c)).1.traceContext =
      some (.make tc.traceId tc.spanId tc.flags (stateIn (p.inject cx c))) := by
  have hvalid : tc.isValid = true := (Option.filter_eq_some_iff.mp sender).2
  rw [extract_inject_of_empty sender base fresh written read]
  have hinactive : ∀ r, (base.withRemote r).hasActiveTrace = false := fun _ => inactive
  exact Context.traceContext_of_remote (hinactive _) rfl (TraceContext.isValid_make hvalid _)

/-- What continues a trace has its sampling decision, and its state as long as that is written. -/
theorem TraceContext.Continues.sameTrace_and_state {root : TraceContext} (hroot : root.state.FitsHeader) {told : Bool}
    {tc : TraceContext} (h : root.Continues told tc) :
    tc.SameTrace root ∧ tc.state = if told then root.state else .empty := by
  induction h with
  | root => exact ⟨.refl _, rfl⟩
  | started _ id ih => exact ⟨(SameTrace.withSpanId _ id).trans ih.1, ih.2⟩
  | @handedOver told tc _ cx sender p q c fresh _ written read base inactive tc' receiver ih =>
    obtain ⟨hsame, hstate⟩ := ih
    have hfits : tc.state.FitsHeader := by
      rw [hstate]
      split
      · exact hroot
      · exact .empty
    rw [receiver_eq sender fresh written read inactive] at receiver
    obtain rfl := Option.some.inj receiver
    refine ⟨⟨hsame.1, (isSampled_make _ _ _ _).trans hsame.2⟩, ?_⟩
    show stateIn (p.inject cx c) = _
    rw [stateIn_inject_of_empty p sender fresh hfits, hstate]
    by_cases hwritten : Traceparent.standardHeader ∈ p.writes <;> simp [hwritten]

namespace Agent

variable {P : Type} {a : Agent P} {t : Tracer} {name type : String} {options : TransactionOptions} {now : Instant}

/-! ### Rates of transactions -/

/-- A root with a rate of its own gets it rounded, as the sampler of that rate would. -/
theorem decide_rounds {rate : Option Float} (h : rate.isSome ∨ (a.tracer t).sampler.Rounds) (traceId : TraceId)
    (name : String) :
    SampleRate.round (a.decide t rate traceId name).1.rate = (a.decide t rate traceId name).1.rate := by
  cases rate with
  | some r => exact (Sampling.ofRate r).rounds_sampler (a.tracer t).draws (a.tracer t).drawn traceId name
  | none =>
    have hrounds : (a.tracer t).sampler.Rounds := h.resolve_left Bool.false_ne_true
    exact hrounds _ traceId name

/-- A transaction that continues a trace has a span of its own and reports the rate that the state tells. -/
theorem startTransaction_continuing {p : TraceContext} (hvalid : p.isValid = true) :
    ∃ id, (a.startTransaction t name type { options with parent := some p } now).1.traceContext = p.withSpanId id ∧
      (a.startTransaction t name type { options with parent := some p } now).1.sampleRate =
        if p.isSampled then SampleRate.ofState p.state else some 0.0 := by
  have hparent : (some p).filter TraceContext.isValid = some p := by rw [Option.filter_some, if_pos hvalid]
  rw [startTransaction_of_parent hparent]
  exact ⟨_, rfl, rfl⟩

/-- A transaction that continues the trace of a root reports the rate of the root, rounded, and no rate if the root is
sampled and the standard headers were not written at some hop. -/
theorem StartedOn.continued {d : SamplingDecision} {root : Transaction} (hroot : StartedOn d root) {told : Bool}
    {tc : TraceContext} (hvalid : tc.isValid = true) (h : root.traceContext.Continues told tc) :
    let next := (a.startTransaction t name type { options with parent := some tc } now).1
    root.traceContext.Continues told next.traceContext ∧
      next.sampleRate = if told || !root.isSampled then root.sampleRate.map SampleRate.round else none := by
  intro next
  obtain ⟨id, htc, hrate⟩ : ∃ id, next.traceContext = tc.withSpanId id ∧ next.sampleRate = _ :=
    startTransaction_continuing hvalid
  refine ⟨htc ▸ h.started id, ?_⟩
  have hfits : root.traceContext.state.FitsHeader := hroot.state ▸ SampleRate.fitsHeader_record _
  obtain ⟨⟨-, hsame⟩, hstate⟩ := h.sameTrace_and_state hfits
  have hsampled : tc.isSampled = d.sampled := hsame.trans hroot.isSampled
  rw [hrate, hsampled, hroot.isSampled, hroot.sampleRate]
  cases hd : d.sampled with
  | false =>
    have hzero : SampleRate.round 0.0 = 0.0 := by decide +kernel
    simp [hzero]
  | true =>
    rw [hstate, hroot.state, hd]
    cases told with
    | true => simp [SampleRate.ofState_record]
    | false => rfl

/-- A sampled root reports the rate of its decision as it is, and any other root reports zero. What continues its trace
reports that rate rounded, unless the root is sampled and the standard headers were not written at some hop: then no
rate is known. The two rates are the same if the root has a rate of its own or its sampler gives rounded rates. -/
theorem continued_rate_is_rounded (hroot : options.parent.filter TraceContext.isValid = none) :
    let root := (a.startTransaction t name type options now).1
    root.sampleRate = some (if root.isSampled then (a.decide t options.rate root.traceContext.traceId name).1.rate
        else 0.0) ∧
      (∀ (told : Bool) (tc : TraceContext), tc.isValid = true → root.traceContext.Continues told tc →
        ∀ {Q : Type} (b : Agent Q) (u : Tracer) (name type : String) (options : TransactionOptions) (now : Instant),
          let next := (b.startTransaction u name type { options with parent := some tc } now).1
          root.traceContext.Continues told next.traceContext ∧
            next.sampleRate = if told || !root.isSampled then root.sampleRate.map SampleRate.round else none) ∧
      ((options.rate.isSome ∨ (a.tracer t).sampler.Rounds) →
        root.sampleRate.map SampleRate.round = root.sampleRate) := by
  intro root
  have hstarted : StartedOn _ root := startedOn_of_root hroot
  refine ⟨?_, fun told tc hvalid h Q b u name type options now => hstarted.continued hvalid h, fun h => ?_⟩
  · rw [hstarted.sampleRate, hstarted.isSampled]
  · have hrounds := decide_rounds h root.traceContext.traceId name
    rw [hstarted.sampleRate, Option.map_some]
    split
    · rw [hrounds]
    · decide +kernel

/-! A sampler that gives a rate with five places. -/

def sampleFine : Agent (DirectProcessor MemoryStore) :=
  ((Agent.empty.addGenerator (.ofWords (fun _ => 2) fun _ => 1)).2.addTracer
    { sampler := .ofDecisions ⟨true, 0.12345⟩ [], generator := 0 }).2

def sampleFineRoot : Transaction := (sampleFine.startTransaction ⟨0⟩ "GET /" "request" {} ⟨0⟩).1

/-- The context in which its trace goes on, read from a map. -/
def sampleFineContext : Context :=
  (Propagator.standard.extract .empty
    ((Propagator.agent true).inject (Context.empty.withTransaction sampleFineRoot) (.map {}))).1

def sampleFineNext : Transaction := (sampleFine.startTransactionFrom ⟨0⟩ "work" "job" sampleFineContext ⟨1⟩).1

theorem sampleFineContext_traceContext : sampleFineContext.traceContext = some sampleFineRoot.traceContext := by
  decide +kernel

theorem continued_rate_is_rounded_in_sampleFine :
    (none : Option TraceContext).filter TraceContext.isValid = none ∧ sampleFineRoot.traceContext.isValid = true ∧
      sampleFineRoot.traceContext.Continues true sampleFineRoot.traceContext ∧
      sampleFineRoot.sampleRate = some 0.12345 ∧ sampleFineNext.sampleRate = some (SampleRate.round 0.12345) := by
  obtain ⟨hrate, hcontinued, -⟩ := @continued_rate_is_rounded _ sampleFine ⟨0⟩ "GET /" "request" {} ⟨0⟩ rfl
  have hvalid : sampleFineRoot.traceContext.isValid = true := by decide +kernel
  have hsender : (Context.empty.withTransaction sampleFineRoot).traceContext = some sampleFineRoot.traceContext := by
    simp [Context.traceContext, Context.withTransaction, Context.span, Context.transaction, hvalid]
  have hwritten : Traceparent.standardHeader ∈ (Propagator.agent true).writes := by simp [writes]
  have hread : Traceparent.standardHeader ∈ Propagator.standard.leaves := by simp [leaves]
  have hhop : sampleFineRoot.traceContext.Continues true sampleFineRoot.traceContext :=
    .handedOver .root hsender rfl hwritten hread rfl sampleFineContext_traceContext
  obtain ⟨-, hnext⟩ := hcontinued true _ hvalid hhop sampleFine ⟨0⟩ "work" "job" {} ⟨1⟩
  refine ⟨rfl, hvalid, hhop, hrate, ?_⟩
  unfold sampleFineNext startTransactionFrom
  rw [sampleFineContext_traceContext]
  exact hnext.trans (congrArg (Option.map SampleRate.round) hrate)

/-- A root that reports five places, while what continues its trace reports four. -/
theorem fine_rate_is_not_continued :
    sampleFineRoot.isSampled = true ∧ sampleFineContext.traceContext = some sampleFineRoot.traceContext ∧
      sampleFineRoot.sampleRate = some 0.12345 ∧ sampleFineNext.sampleRate = some 0.1235 ∧
      sampleFineNext.sampleRate ≠ sampleFineRoot.sampleRate := by
  decide +kernel

end Agent
end Tracing
