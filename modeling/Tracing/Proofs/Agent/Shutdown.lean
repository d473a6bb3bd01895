import Tracing.Proofs.Agent.Runs
import Tracing.Proofs.Processor.Observed

/-! # Flush and shutdown over a run

A tracer is shut down once, by a call or when its last handle goes, and from then on its processors hear nothing more.
What the moves of a process can do to a tracer is little: a record, a flush and a shutdown go to all its processors
while it is open, and these work on their own (`TracerState.Lasting`). A property of the state of a tracer that
survives this holds after every run. -/

namespace Tracing

/-! ### What lasts -/

section
variable {P : Type} [Processor P]

/-- The property of the state of a tracer survives what its processors do: their own work and, while the tracer is
open, what they are called for. -/
structure TracerState.Lasting (own : (P → P) → Prop) (S : TracerState P → Prop) : Prop where
  same : ∀ {s s' : TracerState P}, s'.processors = s.processors → s'.isShutdown = s.isShutdown → S s → S s'
  work : ∀ {s : TracerState P} {f : P → P} {place : Nat}, own f → S s →
    S { s with processors := s.processors.modify place f }
  onEnd : ∀ {s : TracerState P} {r : Record}, s.isShutdown = false → S s →
    S { s with processors := (Processor.onEndAll r s.processors).2.1 }
  forceFlush : ∀ {s : TracerState P}, s.isShutdown = false → S s →
    S { s with processors := (Processor.forceFlushAll s.processors).2.1 }
  shutdown : ∀ {s : TracerState P}, s.isShutdown = false → S s →
    S { s with isShutdown := true, processors := (Processor.shutdownAll s.processors).2.1 }

/-- A tracer that is shut down calls its processors for nothing. -/
theorem TracerState.Lasting.of_shut {own : (P → P) → Prop} {S : TracerState P → Prop}
    (hshut : ∀ {s : TracerState P}, S s → s.isShutdown = true)
    (same : ∀ {s s' : TracerState P}, s'.processors = s.processors → s'.isShutdown = s.isShutdown → S s → S s')
    (work : ∀ {s : TracerState P} {f : P → P} {place : Nat}, own f → S s →
      S { s with processors := s.processors.modify place f }) : Lasting own S where
  same := same
  work := work
  onEnd hopen h := absurd (hopen.symm.trans (hshut h)) Bool.false_ne_true
  forceFlush hopen h := absurd (hopen.symm.trans (hshut h)) Bool.false_ne_true
  shutdown hopen h := absurd (hopen.symm.trans (hshut h)) Bool.false_ne_true

/-- If processors of the tracer work, it is work of their own. -/
def Move.Respects (own : (P → P) → Prop) (T : Tracer) : Move P → Prop
  | .call (.work t _ x) => t = T → ∃ f, own f ∧ x = Act.modify f
  | _ => True

namespace Agent
variable {S : TracerState P → Prop} {T u : Tracer} {a b : Agent P}

/-- The tracer is there, and its state has the property. -/
structure HasTracer (T : Tracer) (S : TracerState P → Prop) (a : Agent P) : Prop where
  slot : T.slot < a.tracers.size
  state : S (a.tracer T)

omit [Processor P] in
theorem HasTracer.setTracer (h : a.HasTracer T S) {state : TracerState P} (hstate : u = T → S state) :
    (a.setTracer u state).HasTracer T S where
  slot := Nat.lt_of_lt_of_eq h.slot Array.size_setIfInBounds.symm
  state := by
    rw [tracer_setTracer]
    split
    case isTrue hu => exact hstate hu.1.symm
    case isFalse => exact h.state

omit [Processor P] in
theorem hasTracer_setTracer (hslot : T.slot < a.tracers.size) {state : TracerState P} (h : S state) :
    (a.setTracer T state).HasTracer T S where
  slot := Nat.lt_of_lt_of_eq hslot Array.size_setIfInBounds.symm
  state := by
    rw [tracer_setTracer, if_pos ⟨rfl, hslot⟩]
    exact h

omit [Processor P] in
theorem setTracer_setTracer (a : Agent P) (T : Tracer) (s s' : TracerState P) :
    (a.setTracer T s).setTracer T s' = a.setTracer T s' := by
  simp [Agent.setTracer]

theorem shutdown_run (hslot : T.slot < a.tracers.size) (hopen : (a.tracer T).isShutdown = false)
    {result : Except Panic ExportResult} {ps : List P} {events : List Event}
    (h : Processor.shutdownAll (a.tracer T).processors = (result, ps, events)) :
    shutdown T a = (result, a.setTracer T { a.tracer T with isShutdown := true, processors := ps }, events) := by
  have htracer : (a.setTracer T { a.tracer T with isShutdown := true }).tracer T =
      { a.tracer T with isShutdown := true } := by
    rw [tracer_setTracer, if_pos ⟨rfl, hslot⟩]
  have hrun : Processor.shutdownAll ((a.setTracer T { a.tracer T with isShutdown := true }).tracer T).processors =
      (result, ps, events) := by
    rw [htracer]
    exact h
  rw [shutdown_of_open hopen, onProcessors_run hrun, htracer, setTracer_setTracer]

theorem aside_shutdown (hne : u ≠ T) : Aside T a (shutdown u a).2.1 := by
  cases h : (a.tracer u).isShutdown with
  | true =>
    rw [shutdown_of_shutdown h]
    exact .refl T a
  | false =>
    rw [shutdown_of_open h]
    exact (aside_setTracer hne _).trans (aside_onProcessors hne _)

omit [Processor P] in
theorem HasTracer.of_aside (h : a.HasTracer T S) (hb : Aside T a b) : b.HasTracer T S :=
  ⟨Nat.lt_of_lt_of_le h.slot hb.size, hb.tracer ▸ h.state⟩

variable {own : (P → P) → Prop} (hS : TracerState.Lasting own S)
include hS

theorem steady_hasTracer (T : Tracer) : Steady (HasTracer (P := P) T S) where
  emit u r a h := by
    cases hshutdown : (a.tracer u).isShutdown with
    | true =>
      rw [emit_of_shutdown hshutdown]
      exact h
    | false =>
      rw [emit_of_open hshutdown]
      refine h.setTracer fun hu => ?_
      subst hu
      exact hS.onEnd hshutdown h.state
  forceFlush u a h := by
    cases hshutdown : (a.tracer u).isShutdown with
    | true =>
      rw [forceFlush_of_shutdown hshutdown]
      exact h
    | false =>
      rw [forceFlush_of_open hshutdown]
      refine h.setTracer fun hu => ?_
      subst hu
      exact hS.forceFlush hshutdown h.state
  shutdown u a h := by
    -- Marked as shut down before its processors are asked, the tracer need not have the property in between.
    by_cases hu : u = T
    · subst hu
      cases hshutdown : (a.tracer u).isShutdown with
      | true =>
        rw [shutdown_of_shutdown hshutdown]
        exact h
      | false =>
        rw [shutdown_run h.slot hshutdown rfl]
        exact h.setTracer fun _ => hS.shutdown hshutdown h.state
    · exact h.of_aside (aside_shutdown hu)
  setSpan h := ⟨h.slot, h.state⟩

theorem HasTracer.work (h : a.HasTracer T S) {t : Tracer} {place : Nat} {x : Act P Unit}
    (hx : t = T → ∃ f, own f ∧ x = Act.modify f) : (onProcessor t place x a).2.1.HasTracer T S := by
  by_cases ht : t = T
  · obtain ⟨f, hf, rfl⟩ := hx ht
    rw [onProcessor_modify]
    refine h.setTracer fun _ => ?_
    rw [ht]
    exact hS.work hf h.state
  · exact h.of_aside (aside_onProcessors ht _)

end Agent

namespace Process
variable {S : TracerState P → Prop} {T : Tracer} {own : (P → P) → Prop} (hS : TracerState.Lasting own S)
include hS

theorem hasTracer_move {w : Process P} (h : w.agent.HasTracer T S) {m : Move P} (hm : m.Respects own T) :
    (w.move m).agent.HasTracer T S := by
  cases m with
  | addGenerator g => exact ⟨h.slot, h.state⟩
  | addTracer state =>
    have htracer : (w.agent.addTracer state).2.tracer T = w.agent.tracer T :=
      (getD_push _ _ _ _).trans (if_neg (Nat.ne_of_lt h.slot))
    exact ⟨Nat.lt_of_lt_of_eq (Nat.lt_succ_of_lt h.slot) (Array.size_push _).symm, htracer ▸ h.state⟩
  | start s now =>
    have hsame := (s.run_adds w.agent now).2 T
    exact ⟨hsame.tracers ▸ h.slot, hS.same hsame.processors hsame.isShutdown h.state⟩
  | call c =>
    refine c.keeps (Agent.steady_hasTracer hS T) (fun hb => ⟨hb.slot, hb.state⟩) (fun hb => ⟨hb.slot, hb.state⟩) h ?_
    rintro t place x rfl
    exact h.work hS hm

theorem hasTracer_after {moves : List (Move P)} (hmoves : ∀ m ∈ moves, m.Respects own T) {w : Process P}
    (h : w.agent.HasTracer T S) : (w.after moves).agent.HasTracer T S := by
  induction moves generalizing w with
  | nil => exact h
  | cons m rest ih =>
    have hmove := hasTracer_move hS h (hmoves m List.mem_cons_self)
    exact ih (fun m hm => hmoves m (List.mem_cons_of_mem _ hm)) hmove

end Process
end

/-! ### The calls that processors have received -/

section
variable {P : Type} [Processor P] {own : (P → P) → Prop}

/-- The processors of the tracer never panic, and all were called for the same: to shut down if the tracer is shut
down, once and after all else, and not before. -/
structure TracerState.Orderly (own : (P → P) → Prop) (s : TracerState (Observed P)) : Prop where
  calm : ∀ p ∈ s.processors, p.Calm own
  alike : ∃ before, .shutdown ∉ before ∧
    ∀ p ∈ s.processors, p.calls = before ++ if s.isShutdown then [.shutdown] else []

namespace TracerState.Orderly
variable {s : TracerState (Observed P)}

theorem called (h : s.Orderly own) (hopen : s.isShutdown = false) {c : ProcessorCall} {next : Observed P → Observed P}
    (hcalm : ∀ p ∈ s.processors, (next p).Calm own) (hcalls : ∀ p, (next p).calls = p.calls ++ [c]) {closes : Bool}
    (hc : c = .shutdown ↔ closes = true) :
    Orderly own { s with isShutdown := closes, processors := s.processors.map next } where
  calm := by
    intro p hp
    obtain ⟨q, hq, rfl⟩ := List.mem_map.mp hp
    exact hcalm q hq
  alike := by
    obtain ⟨before, hbefore, hcalled⟩ := h.alike
    have hnext : ∀ p ∈ s.processors.map next, p.calls = before ++ [c] := by
      intro p hp
      obtain ⟨q, hq, rfl⟩ := List.mem_map.mp hp
      rw [hcalls, hcalled q hq, hopen]
      simp
    -- The request to shut down is kept apart from what came before; any other call joins it.
    cases closes with
    | true => exact ⟨before, hbefore, hc.mpr rfl ▸ hnext⟩
    | false =>
      refine ⟨before ++ [c], fun hmem => ?_, fun p hp => (hnext p hp).trans (List.append_nil _).symm⟩
      rcases List.mem_append.mp hmem with hmem | hmem
      · exact hbefore hmem
      · exact Bool.noConfusion (hc.mp (List.mem_singleton.mp hmem).symm)

theorem lasting : Lasting (Observed.Work own) (Orderly (P := P) own) where
  same hprocessors hshutdown h := by
    obtain ⟨hcalm, halike⟩ := h
    exact ⟨hprocessors ▸ hcalm, hshutdown ▸ hprocessors ▸ halike⟩
  work := by
    rintro s f place ⟨g, hg, rfl⟩ ⟨hcalm, before, hbefore, hcalls⟩
    refine ⟨fun p hp => ?_, before, hbefore, fun p hp => ?_⟩ <;> obtain ⟨q, hq, rfl | rfl⟩ := mem_modify hp
    · exact hcalm _ hq
    · exact (hcalm q hq).work hg
    · exact hcalls _ hq
    · exact hcalls q hq
  onEnd {s r} hopen h := by
    rw [Processor.onEndAll_run fun p hp => ((h.calm p hp).onEnd r).1]
    have hother : ProcessorCall.onEnd r = .shutdown ↔ false = true := by simp
    have hcalled := h.called hopen (fun p hp => ((h.calm p hp).onEnd r).2) (fun _ => rfl) hother
    exact hopen ▸ hcalled
  forceFlush {s} hopen h := by
    obtain ⟨results, -, hrun⟩ := Processor.forceFlushAll_run fun p hp => (h.calm p hp).forceFlush.1
    rw [hrun]
    have hother : ProcessorCall.forceFlush = .shutdown ↔ false = true := by simp
    have hcalled := h.called hopen (fun p hp => (h.calm p hp).forceFlush.2) (fun _ => rfl) hother
    exact hopen ▸ hcalled
  shutdown {s} hopen h := by
    obtain ⟨results, -, hrun⟩ := Processor.shutdownAll_run fun p hp => (h.calm p hp).shutdownReported.1
    rw [hrun]
    exact h.called hopen (fun p hp => (h.calm p hp).shutdownReported.2) Observed.shutdownReported_calls (by simp)

end TracerState.Orderly

/-- The tracer is shut down, and these are the calls that its processors have received. -/
def TracerState.Closed (calls : List (List ProcessorCall)) (s : TracerState (Observed P)) : Prop :=
  s.isShutdown = true ∧ s.processors.map Observed.calls = calls

omit [Processor P] in
theorem Observed.map_calls_modify (ps : List (Observed P)) (place : Nat) (f : P → P) :
    (ps.modify place (work f)).map calls = ps.map calls := by
  refine List.ext_getElem? fun k => ?_
  rw [List.getElem?_map, List.getElem?_map, List.getElem?_modify]
  cases ps[k]? with
  | none => rfl
  | some p =>
    by_cases hk : place = k <;> simp [hk, work]

theorem TracerState.Closed.lasting (calls : List (List ProcessorCall)) :
    Lasting (Observed.Work own) (Closed (P := P) calls) := by
  refine .of_shut (fun h => h.1) (fun hprocessors hshutdown h => ⟨hshutdown.trans h.1, hprocessors ▸ h.2⟩) ?_
  rintro s f place ⟨g, -, rfl⟩ ⟨hshutdown, hcalls⟩
  exact ⟨hshutdown, (Observed.map_calls_modify _ _ _).trans hcalls⟩

end

/-! ### The last handle -/

namespace Agent

section
variable {P : Type} [Processor P] {T u : Tracer} {held : List Tracer} {a : Agent P}

theorem releaseUnheld_of_held (h : u ∈ held) : releaseUnheld held u a = (.ok (), a, []) := by
  simp [releaseUnheld, h]

theorem releaseUnheld_of_unheld (h : u ∉ held) :
    releaseUnheld held u a = (shutdown u a).map (·.map fun _ => ()) id := by
  simp [releaseUnheld, h, Act.bind_run]
  rcases shutdown u a with ⟨_ | r, b, events⟩ <;> simp [Except.map]

theorem lasting_shut (ps : List P) :
    TracerState.Lasting (fun _ => False) fun s : TracerState P => s.isShutdown = true ∧ s.processors = ps :=
  .of_shut (fun h => h.1) (fun hprocessors hshutdown h => ⟨hshutdown.trans h.1, hprocessors.trans h.2⟩)
    fun hf _ => hf.elim

theorem aside_releaseUnheld (hne : u ≠ T) : Aside T a (releaseUnheld held u a).2.1 := by
  by_cases hu : u ∈ held
  · rw [releaseUnheld_of_held hu]
    exact .refl T a
  · rw [releaseUnheld_of_unheld hu]
    exact aside_shutdown hne

/-- When everything goes that nothing holds, an open tracer among it is shut down, unless a panic of another one comes
in between. -/
theorem releaseAll_shuts (hunheld : T ∉ held) {ps ps' : List P} {result : ExportResult} {events : List Event}
    (hrun : Processor.shutdownAll ps = (.ok result, ps', events)) {ts : List Tracer} (hmem : T ∈ ts) {a : Agent P}
    (h : a.HasTracer T fun s => s.isShutdown = false ∧ s.processors = ps)
    (hok : (releaseAll held ts a).1 = .ok ()) :
    (releaseAll held ts a).2.1.HasTracer T fun s => s.isShutdown = true ∧ s.processors = ps' := by
  induction ts generalizing a with
  | nil => cases hmem
  | cons t rest ih =>
    -- Until its turn comes the tracer is left aside, and from then on it stays shut down.
    have hnext : (releaseUnheld held t a).2.1.HasTracer T fun s =>
        if t = T then s.isShutdown = true ∧ s.processors = ps' else s.isShutdown = false ∧ s.processors = ps := by
      by_cases ht : t = T
      · simp only [if_pos ht]
        subst ht
        rw [releaseUnheld_of_unheld hunheld, shutdown_run h.slot h.state.1 (h.state.2 ▸ hrun)]
        exact hasTracer_setTracer h.slot ⟨rfl, rfl⟩
      · simp only [if_neg ht]
        exact h.of_aside (aside_releaseUnheld ht)
    unfold releaseAll at hok ⊢
    rw [Act.bind_run] at hok ⊢
    rcases hreleased : releaseUnheld held t a with ⟨_ | _, b, more⟩
    · rw [hreleased] at hok
      cases hok
    · rw [hreleased] at hok hnext
      by_cases ht : t = T
      · simp only [if_pos ht] at hnext
        exact keeps_releaseAll (steady_hasTracer (lasting_shut ps') T) held rest b hnext
      · simp only [if_neg ht] at hnext
        exact ih ((List.mem_cons.mp hmem).resolve_left (Ne.symm ht)) hnext hok

theorem release_shuts {holders : List Holder} (hunheld : T ∉ holders.flatMap Holder.tracers) {ps ps' : List P}
    {result : ExportResult} {events : List Event} (hrun : Processor.shutdownAll ps = (.ok result, ps', events))
    (h : a.HasTracer T fun s => s.isShutdown = false ∧ s.processors = ps) (hok : (release holders a).1 = .ok ()) :
    (release holders a).2.1.HasTracer T fun s => s.isShutdown = true ∧ s.processors = ps' :=
  releaseAll_shuts hunheld hrun (List.mem_map.mpr ⟨T.slot, List.mem_range.mpr h.slot, rfl⟩) h hok

end
end Agent

/-! ### Once -/

section
variable {P : Type} [Processor P] {own : (P → P) → Prop} {T : Tracer}

/-- The tracer is new: open, with processors that have received no call and never panic. -/
structure TracerState.Fresh (own : (P → P) → Prop) (s : TracerState (Observed P)) : Prop where
  isOpen : s.isShutdown = false
  calm : ∀ p ∈ s.processors, p.Calm own
  uncalled : ∀ p ∈ s.processors, p.calls = []

theorem TracerState.Fresh.orderly {s : TracerState (Observed P)} (h : s.Fresh own) : s.Orderly own where
  calm := h.calm
  alike := by
    refine ⟨[], by simp, fun p hp => ?_⟩
    rw [h.uncalled p hp, h.isOpen]
    simp

/-- What an open tracer does on a flush and on its shutdown, by a call or by the loss of its last handle. -/
structure Agent.Open (T : Tracer) (a : Agent (Observed P)) : Prop where
  isOpen : (a.tracer T).isShutdown = false
  unasked : ∀ p ∈ (a.tracer T).processors, .shutdown ∉ p.calls
  /-- A flush goes to each processor once, in order, and the first failure counts. -/
  flush : ∃ results ps events,
    CalledOnce .forceFlush Processor.forceFlush (a.tracer T).processors results ps events ∧
      forceFlush T a = (.ok (firstFailure results), a.setTracer T { a.tracer T with processors := ps }, events)
  /-- A shutdown goes to each processor once, in order, also after a failure, and succeeds if all of them do. The loss
  of the last handle does the same. -/
  shutdown : ∃ results ps events r, (r = .ok () ↔ ∀ r ∈ results, r = .ok ()) ∧
    CalledOnce .shutdown Processor.shutdownReported (a.tracer T).processors results ps events ∧
      Agent.shutdown T a = (.ok r, a.setTracer T { a.tracer T with isShutdown := true, processors := ps }, events) ∧
      (∀ held, T ∉ held → releaseUnheld held T a =
        (.ok (), a.setTracer T { a.tracer T with isShutdown := true, processors := ps }, events)) ∧
      ∀ holders, T ∉ holders.flatMap Holder.tracers → (release holders a).1 = .ok () →
        ((release holders a).2.1.tracer T).isShutdown = true ∧ ((release holders a).2.1.tracer T).processors = ps

/-- What is the case once a tracer is shut down. -/
structure Process.ShutDown (own : (P → P) → Prop) (T : Tracer) (v : Process (Observed P)) : Prop where
  isShutdown : (v.agent.tracer T).isShutdown = true
  /-- Each processor was asked to shut down once, as the last of its calls. -/
  once : ∃ before, .shutdown ∉ before ∧ ∀ p ∈ (v.agent.tracer T).processors, p.calls = before ++ [.shutdown]
  flush : Agent.forceFlush T v.agent = (.ok (.error .alreadyShutdown), v.agent, [])
  shutdown : Agent.shutdown T v.agent = (.ok (.error .alreadyShutdown), v.agent, [])
  emit : ∀ r, Agent.emit T r v.agent = (.ok (), v.agent, [])
  drop : ∀ held, Agent.releaseUnheld held T v.agent = (.ok (), v.agent, [])
  /-- Whatever comes after, the processors receive no call any more. -/
  quiet : ∀ more : List (Move (Observed P)), (∀ m ∈ more, m.Respects (Observed.Work own) T) →
    ((v.after more).agent.tracer T).isShutdown = true ∧
      ((v.after more).agent.tracer T).processors.map Observed.calls =
        (v.agent.tracer T).processors.map Observed.calls

theorem Agent.HasTracer.open {a : Agent (Observed P)} (h : a.HasTracer T (TracerState.Orderly own))
    (hopen : (a.tracer T).isShutdown = false) : a.Open T where
  isOpen := hopen
  unasked p hp := by
    obtain ⟨before, hbefore, hcalls⟩ := h.state.alike
    rw [hcalls p hp, hopen]
    simpa using hbefore
  flush := by
    obtain ⟨results, ps, events, hcalled, hrun⟩ := CalledOnce.forceFlush h.state.calm
    exact ⟨results, ps, events, hcalled, (forceFlush_of_open hopen).trans (onProcessors_run hrun)⟩
  shutdown := by
    obtain ⟨results, ps, events, hcalled, hrun⟩ := CalledOnce.shutdown h.state.calm
    have hshutdown := shutdown_run h.slot hopen hrun
    refine ⟨results, ps, events, _, lastFailure_eq_ok_iff, hcalled, hshutdown, fun held hheld => ?_,
      fun holders hheld hok => (release_shuts hheld hrun ⟨h.slot, hopen, rfl⟩ hok).state⟩
    rw [releaseUnheld_of_unheld hheld, hshutdown]
    rfl

theorem Process.shutDown_of_orderly {v : Process (Observed P)} (h : v.agent.HasTracer T (TracerState.Orderly own))
    (hshutdown : (v.agent.tracer T).isShutdown = true) : v.ShutDown own T where
  isShutdown := hshutdown
  once := by
    obtain ⟨before, hbefore, hcalls⟩ := h.state.alike
    rw [hshutdown] at hcalls
    exact ⟨before, hbefore, hcalls⟩
  flush := Agent.forceFlush_of_shutdown hshutdown
  shutdown := Agent.shutdown_of_shutdown hshutdown
  emit := Agent.emit_of_shutdown hshutdown
  drop held := by
    by_cases hheld : T ∈ held
    · exact Agent.releaseUnheld_of_held hheld
    · rw [Agent.releaseUnheld_of_unheld hheld, Agent.shutdown_of_shutdown hshutdown]
      rfl
  quiet more hmore := (hasTracer_after (TracerState.Closed.lasting _) hmore ⟨h.slot, hshutdown, rfl⟩).state

/-- Over every run of a process a tracer is shut down once: while it is open, a flush and the shutdown go to each of
its processors once, in order, whatever fails, and the shutdown closes it; from then on flushes and shutdowns are
refused, no record reaches a processor, and no processor is called again. -/
theorem Process.tracer_shut_down_once {w : Process (Observed P)} (fresh : w.agent.HasTracer T (TracerState.Fresh own))
    {moves : List (Move (Observed P))} (hmoves : ∀ m ∈ moves, m.Respects (Observed.Work own) T) :
    (w.after moves).agent.Open T ∨ (w.after moves).ShutDown own T := by
  have hw : w.agent.HasTracer T (TracerState.Orderly own) := ⟨fresh.slot, fresh.state.orderly⟩
  have hafter := hasTracer_after TracerState.Orderly.lasting hmoves hw
  cases hshutdown : ((w.after moves).agent.tracer T).isShutdown with
  | false => exact .inl (hafter.open hshutdown)
  | true => exact .inr (shutDown_of_orderly hafter hshutdown)

/-! A tracer with two processors, of which the first fails to close its exporter: an error is captured, the tracer is
flushed and shut down, another error is captured, and the last handle goes. -/

namespace Process

def samplePair : Process (Observed (DirectProcessor RehearsedExporter)) where
  agent := ((Agent.empty.addGenerator .increment).2.addTracer
    { sampler := ⟨fun _ _ _ => ⟨true, 1.0⟩⟩, generator := 0,
      processors := [⟨{ exporter := { closeFailure := some "connection reset" } }, []⟩, ⟨{ exporter := {} }, []⟩] }).2

def sampleCalls : List (Move (Observed (DirectProcessor RehearsedExporter))) :=
  [.call (.captureError ⟨0⟩ .empty "timed out" []), .call (.forceFlush ⟨0⟩), .call (.shutdown ⟨0⟩),
    .call (.captureError ⟨0⟩ .empty "timed out" []), .call (.release [])]

theorem samplePair_fresh : samplePair.agent.HasTracer ⟨0⟩ (TracerState.Fresh fun _ => False) where
  slot := by decide
  state := {
    isOpen := rfl
    calm := by
      intro p hp
      rcases List.mem_cons.mp hp with rfl | hp
      · exact DirectProcessor.neverPanics (RehearsedExporter.neverPanics rfl)
      · rw [List.mem_singleton.mp hp]
        exact DirectProcessor.neverPanics (RehearsedExporter.neverPanics rfl)
    uncalled := by
      intro p hp
      rcases List.mem_cons.mp hp with rfl | hp
      · rfl
      · rw [List.mem_singleton.mp hp] }

theorem tracer_shut_down_once_in_sampleCalls :
    samplePair.agent.HasTracer ⟨0⟩ (TracerState.Fresh fun _ => False) ∧
      (∀ m ∈ sampleCalls, m.Respects (Observed.Work fun _ => False) ⟨0⟩) ∧
      (samplePair.after (sampleCalls.take 2)).agent.Open ⟨0⟩ ∧
      (samplePair.after sampleCalls).ShutDown (fun _ => False) ⟨0⟩ := by
  have hrespects : ∀ m ∈ sampleCalls, m.Respects (Observed.Work fun _ => False) ⟨0⟩ := by
    simp [sampleCalls, Move.Respects]
  have hopen : ((samplePair.after (sampleCalls.take 2)).agent.tracer ⟨0⟩).isShutdown = false := by decide +kernel
  have hshut : ((samplePair.after sampleCalls).agent.tracer ⟨0⟩).isShutdown = true := by decide +kernel
  refine ⟨samplePair_fresh, hrespects, ?_, ?_⟩
  · refine (tracer_shut_down_once samplePair_fresh fun m hm => hrespects m (List.mem_of_mem_take hm)).resolve_right
      fun h => ?_
    exact Bool.false_ne_true (hopen.symm.trans h.isShutdown)
  · refine (tracer_shut_down_once samplePair_fresh hrespects).resolve_left fun h => ?_
    exact Bool.false_ne_true (h.isOpen.symm.trans hshut)

/-- Each of the two is called for the first error, the flush and the shutdown. -/
example : ((samplePair.after sampleCalls).agent.tracer ⟨0⟩).processors.map (·.calls.length) = [3, 3] := by
  decide +kernel

end Process
end

end Tracing
