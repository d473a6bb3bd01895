import Tracing.Propagator
import Tracing.Proofs.Agent.Frame

/-! # Processes that use the agent

A process adds tracers, starts transactions and spans, and calls the agent with the handles that it was given. It
derives contexts from the empty one and from these handles. Its history is the list of everything that was started,
each with what it was started on (`Birth`).

What holds of traces is proved of the processes that come about by steps (`Process.Reachable`), which ask something of
the sources of identifiers, and what holds of counters and trees of spans is proved of runs (`Process.Run`), which list
the moves. The two are lists of the same moves with conditions that differ (`Process.reachable_iff`,
`Process.run_iff`). -/

namespace Tracing

/-- A transaction or a span. -/
inductive Handle where
  | transaction (t : Transaction)
  | span (s : Span)

/-- The trace context of a transaction or a span. -/
def Handle.traceContext : Handle → TraceContext
  | transaction t => t.traceContext
  | span s => s.traceContext

/-- How something is started. -/
inductive Start where
  | transaction (tracer : Tracer) (name type : String) (options : TransactionOptions)
  | transactionFrom (tracer : Tracer) (name type : String) (cx : Context)
  | span (t : Transaction) (name type : String) (options : SpanOptions)
  | child (parent : Span) (name type : String)
  | spanIn (cx : Context) (name type : String)

/-- What was started, and how. -/
structure Birth where
  start : Start
  handle : Handle

/-- Starts a transaction or a span. -/
def Start.run {P : Type} (a : Agent P) (now : Instant) : Start → Handle × Agent P
  | transaction tracer name type options =>
    let (t, a) := a.startTransaction tracer name type options now
    (.transaction t, a)
  | transactionFrom tracer name type cx =>
    let (t, a) := a.startTransactionFrom tracer name type cx now
    (.transaction t, a)
  | span t name type options =>
    let (s, a) := a.startSpan t name type options now
    (.span s, a)
  | child parent name type =>
    let (s, a) := a.startChild parent name type now
    (.span s, a)
  | spanIn cx name type =>
    let (s, _, a) := a.startSpanIn cx name type now
    (.span s, a)

/-- A call that starts nothing, or work of a processor. -/
inductive Call (P : Type) where
  | editTransaction (t : Transaction) (e : TransactionEdit)
  | editSpan (s : Span) (e : SpanEdit)
  | endTransaction (t : Transaction) (ending : Ending) (now : Instant)
  | endSpan (s : Span) (ending : Ending) (now : Instant)
  | captureError (t : Tracer) (cx : Context) (message : String) (causes : List String)
  | forceFlush (t : Tracer)
  | shutdown (t : Tracer)
  | release (holders : List Holder)
  | work (t : Tracer) (place : Nat) (x : Act P Unit)

/-- The agent after a call, whether it returned or panicked. -/
def Call.run {P : Type} [Processor P] (a : Agent P) : Call P → Agent P
  | editTransaction t e => a.editTransaction t e
  | editSpan s e => a.editSpan s e
  | endTransaction t ending now => (Agent.endTransaction t ending now a).2.1
  | endSpan s ending now => (Agent.endSpan s ending now a).2.1
  | captureError t cx message causes => (Agent.captureError t cx message causes a).2.1
  | forceFlush t => (Agent.forceFlush t a).2.1
  | shutdown t => (Agent.shutdown t a).2.1
  | release holders => (Agent.release holders a).2.1
  | work t place x => (Agent.onProcessor t place x a).2.1

/-- A steady property that says nothing about transactions and sources of identifiers either survives every call. -/
theorem Call.keeps {P : Type} [Processor P] {Q : Agent P → Prop} (hQ : Agent.Steady Q)
    (hset : ∀ {b : Agent P} {t : Transaction} {state : TransactionState}, Q b → Q (b.setTransaction t state))
    (hdraw : ∀ {b : Agent P} {t : Tracer}, Q b → Q (b.drawTraceId t).2) {a : Agent P} (ha : Q a) (c : Call P)
    (hwork : ∀ t place x, c = .work t place x → Q (Agent.onProcessor t place x a).2.1) : Q (c.run a) := by
  cases c with
  | editTransaction t e => exact hset ha
  | editSpan s e =>
    cases s with
    | live s => exact hQ.setSpan ha
    | dropped => exact ha
  | endTransaction t ending now => exact Agent.keeps_endTransaction hQ hset t ending now a ha
  | endSpan s ending now => exact Agent.keeps_endSpan hQ s ending now a ha
  | captureError t cx message causes => exact Agent.keeps_captureError hQ hdraw t cx message causes a ha
  | forceFlush t => exact hQ.forceFlush t a ha
  | shutdown t => exact hQ.shutdown t a ha
  | release holders => exact Agent.keeps_release hQ holders a ha
  | work t place x => exact hwork t place x rfl

theorem Call.frame {P : Type} [Processor P] (a : Agent P) (c : Call P) : Agent.Frame a (c.run a) := by
  have hstable := Agent.stable_frame a
  exact c.keeps hstable.steady (fun hb => hb.trans (Agent.frame_setTransaction _ _ _))
    (fun hb => hb.trans (Agent.frame_draw _ _ _)) (.refl a)
    fun t place x _ => hstable.keeps_onProcessors t _ a (.refl a)

/-- One move of a process. -/
inductive Move (P : Type) where
  | addGenerator (g : IdGenerator)
  | addTracer (state : TracerState P)
  | start (s : Start) (now : Instant)
  | call (c : Call P)

/-- A process: the agent, and what was started so far, oldest first. -/
structure Process (P : Type) where
  agent : Agent P := .empty
  births : List Birth := []

/-- The sources of an agent name something with what they hand out next, whichever tracer draws. -/
def Agent.NamesNext {P : Type} (a : Agent P) : Prop :=
  ∀ t, (a.drawSpanId t).1.isValid = true ∧ ((a.drawSpanId t).2.drawTraceId t).1.isValid = true

/-- Whatever the source hands out names something. -/
def IdGenerator.NeverZero (g : IdGenerator) : Prop :=
  ∀ traces spans, (g.traceAt traces spans).isValid = true ∧ (g.spanAt traces spans).isValid = true

/-- Sources that never hand out a zero name what they hand out next. -/
theorem Agent.namesNext_of_neverZero {P : Type} {a : Agent P} (h : ∀ g ∈ a.generators, g.NeverZero) :
    a.NamesNext := by
  intro t
  have hspan : (a.drawSpanId t).1 = (a.generators.getD (a.tracer t).generator default).nextSpan.1 := rfl
  have htrace : ((a.drawSpanId t).2.drawTraceId t).1 = ((a.generators.setIfInBounds (a.tracer t).generator
      (a.generators.getD (a.tracer t).generator default).nextSpan.2).getD (a.tracer t).generator default).nextTrace.1 :=
    rfl
  rw [hspan, htrace]
  by_cases hslot : (a.tracer t).generator < a.generators.size
  · have hg := h _ (Array.getElem_mem hslot)
    simp only [Array.getD, hslot, Array.size_setIfInBounds, dif_pos, Array.getInternal_eq_getElem,
      Array.getElem_setIfInBounds_self]
    exact ⟨(hg _ _).2, (hg _ _).1⟩
  · -- A tracer without a source of its own draws from one that counts.
    simp only [Array.getD, hslot, Array.size_setIfInBounds, dif_neg, not_false_eq_true]
    decide

/-- The same of an agent with one source. -/
theorem Agent.namesNext_of_source {P : Type} {a : Agent P} {g : IdGenerator} (ha : a.generators = #[g])
    (hg : g.NeverZero) : a.NamesNext := by
  refine Agent.namesNext_of_neverZero fun g' hg' => ?_
  rw [ha, Array.mem_singleton] at hg'
  rw [hg']
  exact hg

namespace Process

variable {P : Type}

/-- The process holds the handle. -/
def Holds (w : Process P) (x : Handle) : Prop := ∃ b ∈ w.births, b.handle = x

theorem holds_of_mem (w : Process P) {s : Start} {x : Handle} (h : ⟨s, x⟩ ∈ w.births) : w.Holds x := ⟨_, h, rfl⟩

/-- The contexts that a process can have derived. -/
inductive Derived (w : Process P) : Context → Prop where
  | empty : Derived w .empty
  | withValue {cx : Context} (h : Derived w cx) (key : String) (value : Value) : Derived w (cx.withValue key value)
  | withTransaction {cx : Context} (h : Derived w cx) {t : Transaction} (held : w.Holds (.transaction t)) :
      Derived w (cx.withTransaction t)
  | withSpan {cx : Context} (h : Derived w cx) {s : Span} (held : w.Holds (.span s)) : Derived w (cx.withSpan s)
  | withRemote {cx : Context} (h : Derived w cx) (tc : TraceContext) : Derived w (cx.withRemote tc)
  | extract {cx : Context} (h : Derived w cx) (p : Propagator) (c : Carrier) : Derived w (p.extract cx c).1

/-- A start uses only what the process has. -/
def Permits (w : Process P) : Start → Prop
  | .transaction tracer _ _ _ => tracer.slot < w.agent.tracers.size
  | .transactionFrom tracer _ _ cx => tracer.slot < w.agent.tracers.size ∧ w.Derived cx
  | .span t _ _ options => w.Holds (.transaction t) ∧ ∀ s, options.parent = some s → w.Holds (.span s)
  | .child parent _ _ => w.Holds (.span parent)
  | .spanIn cx _ _ => w.Derived cx

/-- The process after a start. -/
def start (w : Process P) (s : Start) (now : Instant) : Process P :=
  let (x, a) := s.run w.agent now
  { agent := a, births := w.births ++ [⟨s, x⟩] }

/-- One step of a process. -/
inductive Step [Processor P] : Process P → Process P → Prop where
  | addGenerator (w : Process P) (g : IdGenerator) : Step w { w with agent := (w.agent.addGenerator g).2 }
  | addTracer (w : Process P) (state : TracerState P) (unasked : state.asked = []) :
      Step w { w with agent := (w.agent.addTracer state).2 }
  | start (w : Process P) (s : Start) (now : Instant) (permitted : w.Permits s) (named : w.agent.NamesNext) :
      Step w (w.start s now)
  | call (w : Process P) (c : Call P) : Step w { w with agent := c.run w.agent }

/-- The processes that come about. -/
inductive Reachable [Processor P] : Process P → Prop where
  | init : Reachable {}
  | next {w w' : Process P} (h : Reachable w) (step : Step w w') : Reachable w'

/-! ### Runs -/

/-- A call uses only handles that the process has. -/
def PermitsCall (w : Process P) : Call P → Prop
  | .editTransaction t _ | .endTransaction t _ _ => w.Holds (.transaction t)
  | .editSpan s _ | .endSpan s _ _ => w.Holds (.span s)
  | _ => True

/-- A move uses only what the process has. -/
def Allows (w : Process P) : Move P → Prop
  | .addGenerator _ | .addTracer _ => True
  | .start s _ => w.Permits s
  | .call c => w.PermitsCall c

/-- The process after a move. -/
def move [Processor P] (w : Process P) : Move P → Process P
  | .addGenerator g => { w with agent := (w.agent.addGenerator g).2 }
  | .addTracer state => { w with agent := (w.agent.addTracer state).2 }
  | .start s now => w.start s now
  | .call c => { w with agent := c.run w.agent }

/-- The process after moves. -/
def after [Processor P] (w : Process P) (moves : List (Move P)) : Process P := moves.foldl move w

/-- The moves lead to the process. -/
inductive Run [Processor P] : List (Move P) → Process P → Prop where
  | init : Run [] {}
  | next {moves : List (Move P)} {w : Process P} (run : Run moves w) (m : Move P) (allowed : w.Allows m) :
      Run (moves ++ [m]) (w.move m)

/-! ### How runs and reachable processes are related

Both are made of the same moves and start only with what the process has. A run asks besides that its calls use handles
that the process has, and a step that tracers are added before they were asked anything and that the sources of
identifiers name what they hand out. -/

/-- A step can be the move. -/
def Takes (w : Process P) : Move P → Prop
  | .addGenerator _ | .call _ => True
  | .addTracer state => state.asked = []
  | .start s _ => w.Permits s ∧ w.agent.NamesNext

section
variable [Processor P] {w w' : Process P} {moves : List (Move P)} {m : Move P}
  {ok : Process P → Move P → Prop}

theorem step_iff : Step w w' ↔ ∃ m, w.Takes m ∧ w' = w.move m := by
  constructor
  · intro step
    cases step with
    | addGenerator g => exact ⟨.addGenerator g, trivial, rfl⟩
    | addTracer state unasked => exact ⟨.addTracer state, unasked, rfl⟩
    | start s now permitted named => exact ⟨.start s now, ⟨permitted, named⟩, rfl⟩
    | call c => exact ⟨.call c, trivial, rfl⟩
  · rintro ⟨m, takes, rfl⟩
    cases m with
    | addGenerator g => exact .addGenerator w g
    | addTracer state => exact .addTracer w state takes
    | start s now => exact .start w s now takes.1 takes.2
    | call c => exact .call w c

theorem after_concat (w : Process P) (moves : List (Move P)) (m : Move P) :
    w.after (moves ++ [m]) = (w.after moves).move m := List.foldl_append

/-- Each move of a process that has nothing at first is in order when it is made. -/
def Throughout (ok : Process P → Move P → Prop) (moves : List (Move P)) : Prop :=
  ∀ before m, before ++ [m] <+: moves → ok (({} : Process P).after before) m

theorem throughout_nil : Throughout ok [] := fun before m h => by simp at h

theorem throughout_concat :
    Throughout ok (moves ++ [m]) ↔ Throughout ok moves ∧ ok (({} : Process P).after moves) m := by
  constructor
  · intro h
    exact ⟨fun before m' hbefore => h before m' (hbefore.trans (List.prefix_append _ _)), h moves m List.prefix_rfl⟩
  · rintro ⟨h, hm⟩ before m' hbefore
    rcases List.prefix_concat_iff.mp hbefore with heq | hbefore
    · obtain ⟨rfl, hlast⟩ := List.append_inj' heq rfl
      obtain rfl := List.singleton_inj.mp hlast
      exact hm
    · exact h before m' hbefore

theorem run_iff : Run moves w ↔ Throughout Allows moves ∧ w = ({} : Process P).after moves := by
  constructor
  · intro run
    induction run with
    | init => exact ⟨throughout_nil, rfl⟩
    | next _ m allowed ih =>
      obtain ⟨hbefore, rfl⟩ := ih
      exact ⟨throughout_concat.mpr ⟨hbefore, allowed⟩, (after_concat _ _ m).symm⟩
  · rintro ⟨h, rfl⟩
    induction moves using List.reverseRecOn with
    | nil => exact .init
    | append_singleton moves m ih =>
      obtain ⟨hbefore, allowed⟩ := throughout_concat.mp h
      rw [after_concat]
      exact (ih hbefore).next m allowed

theorem reachable_iff :
    Reachable w ↔ ∃ moves, Throughout Takes moves ∧ w = ({} : Process P).after moves := by
  constructor
  · intro h
    induction h with
    | init => exact ⟨[], throughout_nil, rfl⟩
    | next _ step ih =>
      obtain ⟨moves, hbefore, rfl⟩ := ih
      obtain ⟨m, takes, rfl⟩ := step_iff.mp step
      exact ⟨moves ++ [m], throughout_concat.mpr ⟨hbefore, takes⟩, (after_concat _ _ m).symm⟩
  · rintro ⟨moves, h, rfl⟩
    induction moves using List.reverseRecOn with
    | nil => exact .init
    | append_singleton moves m ih =>
      obtain ⟨hbefore, takes⟩ := throughout_concat.mp h
      rw [after_concat]
      exact (ih hbefore).next (step_iff.mpr ⟨m, takes, rfl⟩)

/-- A run leads to a reachable process if its tracers are added before they were asked anything and the sources name
what they hand out whenever something is started. -/
theorem Run.reachable (run : Run moves w) (unasked : ∀ state, .addTracer state ∈ moves → state.asked = [])
    (named : Throughout (fun w m => ∀ s now, m = .start s now → w.agent.NamesNext) moves) : Reachable w := by
  obtain ⟨hallowed, rfl⟩ := run_iff.mp run
  refine reachable_iff.mpr ⟨moves, fun before m hbefore => ?_, rfl⟩
  have hmem : m ∈ moves := hbefore.subset (List.mem_append_right _ (List.mem_singleton_self m))
  have allowed := hallowed before m hbefore
  cases m with
  | addGenerator | call => trivial
  | addTracer state => exact unasked state hmem
  | start s now => exact ⟨allowed, named before _ hbefore s now rfl⟩

/-- The way to a reachable process is a run if its calls use handles that the process has. -/
theorem Run.of_takes (h : Throughout Takes moves)
    (held : Throughout (fun w m => ∀ c, m = .call c → w.PermitsCall c) moves) :
    Run moves (({} : Process P).after moves) := by
  refine run_iff.mpr ⟨fun before m hbefore => ?_, rfl⟩
  have takes := h before m hbefore
  cases m with
  | addGenerator | addTracer => trivial
  | start s now => exact takes.1
  | call c => exact held before _ hbefore c rfl

end

end Process
end Tracing
