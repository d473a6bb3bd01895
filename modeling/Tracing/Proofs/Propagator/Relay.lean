import Tracing.Proofs.Propagator.Handover
import Tracing.Proofs.TraceState.RoundTrip
import Tracing.Proofs.Traceparent.RoundTrip

/-! # Relaying a trace from process to process

A process that writes the standard headers into an empty carrier tells the next one its trace, its span, its sampling
decision and as much of its state as a header may hold. The next process knows just that, so what it writes in turn
says the same, and so does every process after it. -/

namespace Tracing

open Traceparent Text

theorem TraceContext.isValid_make {tc : TraceContext} (h : tc.isValid = true) (state : TraceState) :
    (TraceContext.make tc.traceId tc.spanId tc.flags state).isValid = true := h

namespace Propagator

/-- The propagators that write and read the standard headers, alone or beside the older one. -/
inductive IsStandard : Propagator → Prop where
  | standard : IsStandard .standard
  | agent (writeLegacy : Bool) : IsStandard (.agent writeLegacy)

theorem IsStandard.leaves {p : Propagator} (h : p.IsStandard) : ∃ before, p.leaves = before ++ [standardHeader] := by
  cases h with
  | standard => exact ⟨[], by rw [Propagator.leaves]; rfl⟩
  | agent writeLegacy => exact ⟨[legacyHeader], by rw [Propagator.leaves]; rfl⟩

/-! ### Writing -/

/-- The carrier holds what the standard headers say about a trace context, and no other state. -/
structure Tells (c : Carrier) (tc : TraceContext) : Prop where
  parent : c.get? standardHeader = some (format tc)
  state : c.getAll? stateHeader = if tc.state.header.isEmpty then none else some [tc.state.header]

variable {cx : Context} {tc : TraceContext} {c : Carrier}

/-- The standard header names what is handed on, whatever the carrier held before. -/
theorem get?_injectStandard (htc : cx.traceContext = some tc) (c : Carrier) :
    (injectStandard cx c).get? standardHeader = some (format tc) := by
  have hascii : IsAsciiName standardHeader := isAsciiName_of_mem_parentHeaders (by simp [parentHeaders])
  have hself : sameName standardHeader standardHeader = true := sameName_iff.mpr rfl
  have hother : sameName stateHeader standardHeader = false := sameName_stateHeader (by simp [parentHeaders])
  have hparent : (c.set standardHeader (format tc)).get? standardHeader = some (format tc) := by
    rw [Carrier.get?_set c _ hascii hascii, hself]
    rfl
  unfold injectStandard
  rw [htc]
  dsimp only
  split
  · exact hparent
  · rw [Carrier.get?_set _ _ isAsciiName_stateHeader hascii, hother]
    exact hparent

theorem tells_injectStandard (htc : cx.traceContext = some tc) (h : c.headers = []) :
    Tells (injectStandard cx c) tc := by
  have hascii : IsAsciiName standardHeader := isAsciiName_of_mem_parentHeaders (by simp [parentHeaders])
  have hstate : sameName standardHeader stateHeader = false := by decide
  have hself : sameName stateHeader stateHeader = true := sameName_iff.mpr rfl
  refine ⟨get?_injectStandard htc c, ?_⟩
  unfold injectStandard
  rw [htc]
  dsimp only
  split
  · rw [Carrier.getAll?_set c _ hascii isAsciiName_stateHeader, hstate]
    exact Carrier.getAll?_eq_none_of_empty h stateHeader
  · rw [Carrier.getAll?_set _ _ isAsciiName_stateHeader isAsciiName_stateHeader, hself]
    rfl

theorem Tells.injectLegacy (h : Tells c tc) (cx : Context) : Tells (injectLegacy cx c) tc := by
  have hascii : ∀ name ∈ parentHeaders, IsAsciiName name := fun name => isAsciiName_of_mem_parentHeaders
  have hparent : sameName legacyHeader standardHeader = false := by decide
  have hstate : sameName legacyHeader stateHeader = false := by decide
  unfold Propagator.injectLegacy
  split
  · exact h
  · refine ⟨?_, ?_⟩
    · rw [Carrier.get?_set c _ (hascii _ (by simp [parentHeaders])) (hascii _ (by simp [parentHeaders])), hparent]
      exact h.parent
    · rw [Carrier.getAll?_set c _ (hascii _ (by simp [parentHeaders])) isAsciiName_stateHeader, hstate]
      exact h.state

theorem tells_inject {p : Propagator} (hp : p.IsStandard) (htc : cx.traceContext = some tc) (h : c.headers = []) :
    Tells (inject p cx c) tc := by
  cases hp with
  | standard =>
    rw [inject]
    exact tells_injectStandard htc h
  | agent writeLegacy =>
    rw [inject]
    split
    · exact (tells_injectStandard htc h).injectLegacy cx
    · exact tells_injectStandard htc h

/-! ### Reading -/

/-- The header of a state says which members fit, also by not being there. -/
theorem Tells.stateIn (h : Tells c tc) (hstate : TraceState.WellFormed tc.state.members) {kept : List Member}
    (hkept : TraceState.LongestFit TraceState.maxHeaderLength tc.state.members kept) : stateIn c = ⟨kept⟩ := by
  unfold Propagator.stateIn
  rw [h.state]
  split
  · rename_i hempty
    rw [hkept.eq_nil (String.isEmpty_iff.mp hempty)]
    rfl
  · exact congrArg Prod.fst (TraceState.parse_headerWithin hstate hkept)

/-- What a standard propagator reads is what the headers tell, whatever the older header says. -/
theorem Tells.extract (h : Tells c tc) (hvalid : tc.isValid = true) {q : Propagator} (hq : q.IsStandard)
    (base : Context) :
    (extract q base c).1 = base.withRemote (.make tc.traceId tc.spanId tc.flags (Propagator.stateIn c)) := by
  have hcaller : callerIn c standardHeader = some (.make tc.traceId tc.spanId tc.flags (Propagator.stateIn c)) := by
    unfold callerIn
    rw [h.parent, Option.bind_some, parse_format standardHeader hvalid]
    rfl
  obtain ⟨before, hleaves⟩ := hq.leaves
  rw [extract_lastCaller, hleaves, lastCaller_append, lastCaller_singleton, hcaller]
  rfl

end Propagator

/-! ### Hops -/

/-- One process writes its trace context into an empty carrier, and the next reads it into an empty context. -/
structure Hop where
  writer : Propagator
  writes : writer.IsStandard
  reader : Propagator
  reads : reader.IsStandard
  carrier : Carrier
  fresh : carrier.headers = []

/-- The context in which the next process begins. -/
def Hop.pass (cx : Context) (hop : Hop) : Context :=
  (hop.reader.extract .empty (hop.writer.inject cx hop.carrier)).1

/-- What arrives of a trace context, when these members of its state do. -/
def TraceContext.arriving (tc : TraceContext) (kept : List Member) : TraceContext :=
  .make tc.traceId tc.spanId tc.flags ⟨kept⟩

theorem Hop.pass_eq (hop : Hop) {cx : Context} {tc : TraceContext} (htc : cx.traceContext = some tc)
    (hstate : TraceState.WellFormed tc.state.members) {kept : List Member}
    (hkept : TraceState.LongestFit TraceState.maxHeaderLength tc.state.members kept) :
    hop.pass cx = Context.empty.withRemote (tc.arriving kept) := by
  have htells := Propagator.tells_inject hop.writes htc hop.fresh
  have hvalid : tc.isValid = true := (Option.filter_eq_some_iff.mp htc).2
  unfold Hop.pass TraceContext.arriving
  rw [htells.extract hvalid hop.reads, htells.stateIn hstate hkept]

/-- What has arrived goes on unchanged. -/
theorem Hop.pass_arrived (hop : Hop) {tc : TraceContext} (hvalid : tc.isValid = true)
    (hstate : TraceState.WellFormed tc.state.members) {kept : List Member}
    (hkept : TraceState.LongestFit TraceState.maxHeaderLength tc.state.members kept) :
    hop.pass (Context.empty.withRemote (tc.arriving kept)) = Context.empty.withRemote (tc.arriving kept) := by
  have htc : (Context.empty.withRemote (tc.arriving kept)).traceContext = some (tc.arriving kept) := by
    have harriving : (tc.arriving kept).isValid = true := TraceContext.isValid_make hvalid _
    simp [Context.traceContext, Context.withRemote, Context.empty, Context.span, Context.transaction, harriving]
  have hsub : TraceState.WellFormed kept := hstate.sublist hkept.leads.sublist
  rw [hop.pass_eq htc hsub (TraceState.LongestFit.of_fits hkept.fits)]
  unfold TraceContext.arriving TraceContext.make
  rw [TraceFlags.inter_sampled]

/-- A trace context arrives with its trace, its span, its sampling decision and as many leading members of its state as
a header may hold, and is the same after any number of further hops. -/
theorem hops_preserve_trace {cx : Context} {tc : TraceContext} (htc : cx.traceContext = some tc)
    (hstate : TraceState.Reachable tc.state) :
    ∃ caller, caller.traceId = tc.traceId ∧ caller.spanId = tc.spanId ∧ caller.isSampled = tc.isSampled ∧
      TraceState.LongestFit TraceState.maxHeaderLength tc.state.members caller.state.members ∧
      ∀ (first : Hop) (later : List Hop), later.foldl Hop.pass (first.pass cx) = { remote := some caller } := by
  obtain ⟨kept, hkept, -⟩ := tc.state.headerWithin_eq TraceState.maxHeaderLength
  have hvalid : tc.isValid = true := (Option.filter_eq_some_iff.mp htc).2
  refine ⟨tc.arriving kept, rfl, rfl, TraceContext.isSampled_make _ _ _ _, hkept, fun first later => ?_⟩
  rw [first.pass_eq htc hstate.wellFormed hkept]
  induction later with
  | nil => rfl
  | cons hop later ih => rw [List.foldl_cons, hop.pass_arrived hvalid hstate.wellFormed hkept, ih]

/-- A caller with a state of two members. -/
def sampleCaller : TraceContext := .make (.ofNat 1) (.ofNat 2) .sampled TraceState.sampleState

/-- From a map, without the older header, to a list with it. -/
def sampleHops : List Hop :=
  [⟨.standard, .standard, .agent true, .agent true, .map {}, rfl⟩,
    ⟨.agent true, .agent true, .standard, .standard, .list {}, rfl⟩]

theorem hops_preserve_trace_of_sampleCaller :
    (Context.empty.withRemote sampleCaller).traceContext = some sampleCaller ∧
      TraceState.Reachable sampleCaller.state ∧
      ∃ caller, caller.traceId = .ofNat 1 ∧ caller.spanId = .ofNat 2 ∧ caller.isSampled = true ∧
        caller.state = TraceState.sampleState ∧
        sampleHops.foldl Hop.pass (Context.empty.withRemote sampleCaller) = { remote := some caller } := by
  have htc : (Context.empty.withRemote sampleCaller).traceContext = some sampleCaller := by decide
  have hstate : TraceState.Reachable sampleCaller.state := TraceState.reachable_sampleState
  have hfits : byteLength (TraceState.encode sampleCaller.state.members) ≤ TraceState.maxHeaderLength := by
    decide +kernel
  obtain ⟨caller, htrace, hspan, hsampled, hkept, hhops⟩ := hops_preserve_trace htc hstate
  have hmembers : caller.state.members = sampleCaller.state.members := hkept.eq (.of_fits hfits)
  exact ⟨htc, hstate, caller, htrace, hspan, hsampled, congrArg TraceState.mk hmembers, hhops _ _⟩

end Tracing
