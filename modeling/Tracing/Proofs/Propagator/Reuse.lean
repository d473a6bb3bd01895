import Tracing.Proofs.Propagator.Fields
import Tracing.Proofs.Propagator.Relay

/-! # Writing into a carrier that holds headers

A carrier may hold headers of an earlier message when a trace context is written into it. Parent headers are written
over, and so is the state if there is one to write. A propagator reads last a parent header that it writes, so it finds
the sender again in any carrier; but where the sender has no state, the state of the earlier message stays and is
read as that of the sender. -/

namespace Tracing
namespace Propagator

open Traceparent

mutual

/-- The parent headers that a propagator writes, one for each writer in order. -/
def writes : Propagator → List String
  | standard => [standardHeader]
  | legacy => [legacyHeader]
  | agent writeLegacy => if writeLegacy then [standardHeader, legacyHeader] else [standardHeader]
  | composite parts => writesAll parts

def writesAll : List Propagator → List String
  | [] => []
  | p :: rest => writes p ++ writesAll rest

end

/-- Writes one parent header, and the state along with the standard one. -/
def writeParent (cx : Context) (c : Carrier) (header : String) : Carrier :=
  if header = standardHeader then injectStandard cx c else injectLegacy cx c

mutual

/-- A tree writes what its writers write in order. -/
theorem inject_eq_foldl : ∀ (p : Propagator) (cx : Context) (c : Carrier),
    inject p cx c = p.writes.foldl (writeParent cx) c
  | .standard, cx, c => by simp [inject, writes, writeParent]
  | .legacy, cx, c => by
    have hother : legacyHeader ≠ standardHeader := by decide
    simp [inject, writes, writeParent, hother]
  | .agent writeLegacy, cx, c => by
    have hother : legacyHeader ≠ standardHeader := by decide
    cases writeLegacy <;> simp [inject, writes, writeParent, hother]
  | .composite parts, cx, c => by
    rw [inject, writes]
    exact injectAll_eq_foldl parts cx c

theorem injectAll_eq_foldl : ∀ (parts : List Propagator) (cx : Context) (c : Carrier),
    injectAll parts cx c = (writesAll parts).foldl (writeParent cx) c
  | [], cx, c => by rw [injectAll, writesAll, List.foldl_nil]
  | p :: rest, cx, c => by
    rw [injectAll, writesAll, List.foldl_append, inject_eq_foldl p, injectAll_eq_foldl rest]

end

mutual

/-- Every header that is written is read, and one of them last. -/
theorem leaves_of_writes : ∀ p : Propagator,
    (∀ name ∈ p.writes, name ∈ p.leaves) ∧
      (p.leaves ≠ [] → ∃ before name, p.leaves = before ++ [name] ∧ name ∈ p.writes)
  | .standard => by
    refine ⟨fun name h => by simpa [writes, leaves] using h, fun _ => ⟨[], standardHeader, ?_, ?_⟩⟩ <;>
      simp [writes, leaves]
  | .legacy => by
    refine ⟨fun name h => by simpa [writes, leaves] using h, fun _ => ⟨[], legacyHeader, ?_, ?_⟩⟩ <;>
      simp [writes, leaves]
  | .agent writeLegacy => by
    refine ⟨fun name h => ?_, fun _ => ⟨[legacyHeader], standardHeader, by simp [leaves], ?_⟩⟩
    · cases writeLegacy
      · simp [writes] at h
        simp [leaves, h]
      · simp [writes] at h
        simp [leaves, h.symm]
    · cases writeLegacy <;> simp [writes]
  | .composite parts => by
    rw [writes, leaves]
    exact leavesAll_of_writesAll parts

theorem leavesAll_of_writesAll : ∀ parts : List Propagator,
    (∀ name ∈ writesAll parts, name ∈ leavesAll parts) ∧
      (leavesAll parts ≠ [] → ∃ before name, leavesAll parts = before ++ [name] ∧ name ∈ writesAll parts)
  | [] => by simp [writesAll, leavesAll]
  | p :: rest => by
    obtain ⟨hfirst, hlast⟩ := leaves_of_writes p
    obtain ⟨hrest, hlasts⟩ := leavesAll_of_writesAll rest
    rw [writesAll, leavesAll]
    refine ⟨fun name h => ?_, fun hne => ?_⟩
    · rcases List.mem_append.mp h with h | h
      · exact List.mem_append_left _ (hfirst name h)
      · exact List.mem_append_right _ (hrest name h)
    · by_cases hnil : leavesAll rest = []
      · rw [hnil, List.append_nil] at hne ⊢
        obtain ⟨before, name, hleaves, hname⟩ := hlast hne
        exact ⟨before, name, hleaves, List.mem_append_left _ hname⟩
      · obtain ⟨before, name, hleaves, hname⟩ := hlasts hnil
        exact ⟨p.leaves ++ before, name, by rw [hleaves, List.append_assoc], List.mem_append_right _ hname⟩

end

/-! ### One header after another -/

theorem sameName_parentHeaders {name key : String} (hname : name ∈ parentHeaders) (hkey : key ∈ parentHeaders) :
    sameName name key = true ↔ name = key := by
  have hall : parentHeaders.all (fun name => parentHeaders.all fun key =>
      sameName name key == decide (name = key)) = true := by decide
  have hsame := List.all_eq_true.mp (List.all_eq_true.mp hall name hname) key hkey
  simpa using congrArg (· = true) (beq_iff_eq.mp hsame)

variable {cx : Context} {tc : TraceContext}

/-- A parent header holds what was written, or else what it held before. -/
theorem get?_writeParent (htc : cx.traceContext = some tc) (c : Carrier) {name key : String}
    (hname : name ∈ parentHeaders) (hkey : key ∈ parentHeaders) :
    (writeParent cx c name).get? key = if name = key then some (format tc) else c.get? key := by
  have hset : ∀ c : Carrier,
      (c.set name (format tc)).get? key = if name = key then some (format tc) else c.get? key := by
    intro c
    rw [Carrier.get?_set c _ (isAsciiName_of_mem_parentHeaders hname) (isAsciiName_of_mem_parentHeaders hkey)]
    simp only [sameName_parentHeaders hname hkey]
  unfold writeParent
  split
  · rename_i hstandard
    subst hstandard
    unfold injectStandard
    rw [htc]
    dsimp only
    split
    · exact hset c
    · rw [Carrier.get?_set _ _ isAsciiName_stateHeader (isAsciiName_of_mem_parentHeaders hkey),
        sameName_stateHeader hkey]
      exact hset c
  · rename_i hstandard
    have hlegacy : name = legacyHeader := by
      simp only [parentHeaders, List.mem_cons, List.not_mem_nil, or_false] at hname
      exact hname.resolve_left hstandard
    subst hlegacy
    unfold injectLegacy
    rw [htc]
    exact hset c

theorem getAll?_writeParent (htc : cx.traceContext = some tc) (c : Carrier) {name : String}
    (hname : name ∈ parentHeaders) : (writeParent cx c name).getAll? stateHeader =
      if name = standardHeader ∧ tc.state.header ≠ "" then some [tc.state.header] else c.getAll? stateHeader := by
  have hset : ∀ (c : Carrier) (value : String), (c.set name value).getAll? stateHeader = c.getAll? stateHeader := by
    intro c value
    rw [Carrier.getAll?_set c _ (isAsciiName_of_mem_parentHeaders hname) isAsciiName_stateHeader, sameName_comm,
      sameName_stateHeader hname]
    rfl
  unfold writeParent
  split
  · rename_i hstandard
    subst hstandard
    unfold injectStandard
    rw [htc]
    dsimp only
    split
    · rename_i hempty
      rw [String.isEmpty_iff] at hempty
      simp [hset, hempty]
    · rename_i hheader
      rw [String.isEmpty_iff] at hheader
      rw [Carrier.getAll?_set _ _ isAsciiName_stateHeader isAsciiName_stateHeader, sameName_iff.mpr rfl]
      simp [hheader]
  · rename_i hstandard
    have hlegacy : name = legacyHeader := by
      simp only [parentHeaders, List.mem_cons, List.not_mem_nil, or_false] at hname
      exact hname.resolve_left hstandard
    subst hlegacy
    unfold injectLegacy
    rw [htc]
    simp [hset, hstandard]

theorem get?_foldl_writeParent (htc : cx.traceContext = some tc) {names : List String}
    (hnames : ∀ name ∈ names, name ∈ parentHeaders) {key : String} (hkey : key ∈ parentHeaders) (c : Carrier) :
    (names.foldl (writeParent cx) c).get? key = if key ∈ names then some (format tc) else c.get? key := by
  induction names generalizing c with
  | nil => simp
  | cons name names ih =>
    rw [List.foldl_cons, ih fun name hmem => hnames name (List.mem_cons_of_mem _ hmem),
      get?_writeParent htc c (hnames name List.mem_cons_self) hkey]
    by_cases hlater : key ∈ names
    · simp [hlater]
    · simp [hlater, eq_comm]

theorem getAll?_foldl_writeParent (htc : cx.traceContext = some tc) {names : List String}
    (hnames : ∀ name ∈ names, name ∈ parentHeaders) (c : Carrier) :
    (names.foldl (writeParent cx) c).getAll? stateHeader =
      if standardHeader ∈ names ∧ tc.state.header ≠ "" then some [tc.state.header] else c.getAll? stateHeader := by
  induction names generalizing c with
  | nil => simp
  | cons name names ih =>
    rw [List.foldl_cons, ih fun name hmem => hnames name (List.mem_cons_of_mem _ hmem),
      getAll?_writeParent htc c (hnames name List.mem_cons_self)]
    by_cases hheader : tc.state.header = ""
    · simp [hheader]
    · by_cases hlater : standardHeader ∈ names
      · simp [hlater, hheader]
      · simp [hlater, hheader, eq_comm]

/-! ### The whole tree -/

section
variable {p : Propagator}

theorem mem_parentHeaders_of_mem_writes {name : String} (h : name ∈ p.writes) : name ∈ parentHeaders :=
  mem_parentHeaders_of_mem_leaves p ((leaves_of_writes p).1 name h)

theorem get?_inject (htc : cx.traceContext = some tc) (c : Carrier) {name : String} (h : name ∈ p.writes) :
    (inject p cx c).get? name = some (format tc) := by
  rw [inject_eq_foldl, get?_foldl_writeParent htc (fun _ => mem_parentHeaders_of_mem_writes)
    (mem_parentHeaders_of_mem_writes h), if_pos h]

/-- The state is written over, if there is one to write. -/
theorem stateIn_inject (htc : cx.traceContext = some tc) (c : Carrier) (h : standardHeader ∈ p.writes) :
    stateIn (inject p cx c) = if tc.state.header = "" then stateIn c else (TraceState.parse [tc.state.header]).1 := by
  unfold stateIn
  rw [inject_eq_foldl, getAll?_foldl_writeParent htc fun _ => mem_parentHeaders_of_mem_writes]
  by_cases hheader : tc.state.header = "" <;> simp [h, hheader]

theorem callerIn_inject (htc : cx.traceContext = some tc) (c : Carrier) {name : String} (h : name ∈ p.writes) :
    callerIn (inject p cx c) name = some (.make tc.traceId tc.spanId tc.flags (stateIn (inject p cx c))) := by
  have hvalid : tc.isValid = true := (Option.filter_eq_some_iff.mp htc).2
  unfold callerIn
  rw [get?_inject htc c h, Option.bind_some, parse_format name hvalid]
  rfl

/-- Reading its own headers a propagator finds the sender, with the state that the carrier tells. -/
theorem extract_inject_self (htc : cx.traceContext = some tc) (h : p.writes ≠ []) (base : Context) (c : Carrier) :
    (extract p base (inject p cx c)).1 =
      base.withRemote (.make tc.traceId tc.spanId tc.flags (stateIn (inject p cx c))) := by
  obtain ⟨hreads, hlast⟩ := leaves_of_writes p
  obtain ⟨written, hwritten⟩ := List.exists_mem_of_ne_nil _ h
  obtain ⟨before, name, hleaves, hname⟩ := hlast (List.ne_nil_of_mem (hreads written hwritten))
  rw [extract_lastCaller, hleaves, lastCaller_append, lastCaller_singleton, callerIn_inject htc c hname]
  rfl

end

theorem stateIn_of_empty {c : Carrier} (h : c.headers = []) : stateIn c = .empty := by
  unfold stateIn
  rw [Carrier.getAll?_eq_none_of_empty h]
  rfl

/-- From a carrier that held no headers a state is read as it was written, unless the standard headers were not. -/
theorem stateIn_inject_of_empty (p : Propagator) {cx : Context} {tc : TraceContext} (htc : cx.traceContext = some tc)
    {c : Carrier} (h : c.headers = []) (hstate : tc.state.FitsHeader) :
    stateIn (inject p cx c) = if standardHeader ∈ p.writes then tc.state else .empty := by
  by_cases hwritten : standardHeader ∈ p.writes
  · rw [if_pos hwritten, stateIn_inject htc c hwritten]
    split
    · rename_i hempty
      rw [stateIn_of_empty h]
      exact congrArg TraceState.mk (hstate.longestFit.eq_nil hempty).symm
    · exact congrArg Prod.fst (TraceState.parse_headerWithin hstate.wellFormed hstate.longestFit)
  · have hnone : (inject p cx c).getAll? stateHeader = none := by
      rw [inject_eq_foldl, getAll?_foldl_writeParent htc fun _ => mem_parentHeaders_of_mem_writes,
        if_neg fun hboth => hwritten hboth.1, Carrier.getAll?_eq_none_of_empty h]
    rw [if_neg hwritten, stateIn, hnone]
    rfl

/-- From a carrier that held no headers the sender is read by whatever reads a header that was written. -/
theorem extract_inject_of_empty {p q : Propagator} {cx : Context} {tc : TraceContext} (htc : cx.traceContext = some tc)
    (base : Context) {c : Carrier} (h : c.headers = []) {name : String} (hwritten : name ∈ p.writes)
    (hread : name ∈ q.leaves) : (extract q base (inject p cx c)).1 =
      base.withRemote (.make tc.traceId tc.spanId tc.flags (stateIn (inject p cx c))) := by
  have hvalid : tc.isValid = true := (Option.filter_eq_some_iff.mp htc).2
  rw [extract_lastCaller]
  rcases lastCaller_cases (inject p cx c) q.leaves with
    ⟨-, hnone⟩ | ⟨before, header, after, caller, hleaves, hlast, hcaller, -⟩
  · have hsome := callerIn_inject htc c hwritten
    rw [hnone name hread] at hsome
    cases hsome
  · have hheader : header ∈ q.leaves := by
      rw [hleaves]
      exact List.mem_append_right _ List.mem_cons_self
    rw [hlast]
    unfold callerIn at hcaller
    rcases names_inject p htc h header (mem_parentHeaders_of_mem_leaves q hheader) with hget | hget
    · rw [hget] at hcaller
      cases hcaller
    · rw [hget, Option.bind_some, parse_format header hvalid] at hcaller
      obtain rfl := Option.some.inj hcaller
      rfl

/-- A propagator that writes the standard headers reads back the trace, the span and the sampling decision of the
sender from any carrier. It reads the same caller as from a carrier without earlier headers, the state included, just
when the sender has a state to write or the earlier headers tell none. -/
theorem own_headers_read_back_iff {p : Propagator} (hp : standardHeader ∈ p.writes) {cx : Context} {tc : TraceContext}
    (htc : cx.traceContext = some tc) (base : Context) (c : Carrier) {fresh : Carrier} (hfresh : fresh.headers = []) :
    CalledBy tc (extract p base (inject p cx c)).1 ∧
      ((extract p base (inject p cx c)).1.remote = (extract p base (inject p cx fresh)).1.remote ↔
        tc.state.header ≠ "" ∨ stateIn c = .empty) := by
  have hwrites : p.writes ≠ [] := List.ne_nil_of_mem hp
  have hremote : ∀ c, (extract p base (inject p cx c)).1.remote =
      some (.make tc.traceId tc.spanId tc.flags (stateIn (inject p cx c))) := fun c => by
    rw [extract_inject_self htc hwrites base c]
    rfl
  refine ⟨⟨_, hremote c, rfl, rfl, TraceContext.isSampled_make _ _ _ _⟩, ?_⟩
  have hsame : (extract p base (inject p cx c)).1.remote = (extract p base (inject p cx fresh)).1.remote ↔
      stateIn (inject p cx c) = stateIn (inject p cx fresh) := by
    rw [hremote, hremote, Option.some_inj]
    exact ⟨fun h => congrArg TraceContext.state h, fun h => by rw [h]⟩
  rw [hsame, stateIn_inject htc c hp, stateIn_inject htc fresh hp, stateIn_of_empty hfresh]
  by_cases hheader : tc.state.header = "" <;> simp [hheader]

/-! A carrier with a state of an earlier message, and a sender without a state. -/

def sampleUsed : Carrier :=
  .list ⟨[("TraceState", "a=1"), ("traceparent", "00-00000000000000000000000000000007-0000000000000007-00")]⟩

def sampleStateless : Context := Context.empty.withRemote (.make (.ofNat 1) (.ofNat 2) .sampled .empty)

theorem own_headers_read_back_iff_in_sampleUsed :
    standardHeader ∈ (Propagator.composite [.agent false, .legacy]).writes ∧
      (Context.empty.withRemote sampleCaller).traceContext = some sampleCaller ∧
      (extract (.composite [.agent false, .legacy]) .empty (inject (.composite [.agent false, .legacy])
          (Context.empty.withRemote sampleCaller) sampleUsed)).1.remote =
        (extract (.composite [.agent false, .legacy]) .empty (inject (.composite [.agent false, .legacy])
          (Context.empty.withRemote sampleCaller) (.list {}))).1.remote := by
  have hp : standardHeader ∈ (Propagator.composite [.agent false, .legacy]).writes := by simp [writes, writesAll]
  have htc : (Context.empty.withRemote sampleCaller).traceContext = some sampleCaller := by decide
  have hheader : sampleCaller.state.header ≠ "" := by decide +kernel
  exact ⟨hp, htc, (own_headers_read_back_iff hp htc .empty sampleUsed rfl).2.mpr (.inl hheader)⟩

/-- A sender without a state is read with the state of the earlier message. -/
theorem earlier_state_read_as_own :
    standardHeader ∈ Propagator.standard.writes ∧ sampleStateless.traceContext.isSome ∧
      (extract .standard .empty (inject .standard sampleStateless sampleUsed)).1.remote =
        some (.make (.ofNat 1) (.ofNat 2) .sampled ⟨[⟨"a", "1"⟩]⟩) ∧
      (extract .standard .empty (inject .standard sampleStateless (.list {}))).1.remote =
        some (.make (.ofNat 1) (.ofNat 2) .sampled .empty) := by
  refine ⟨by simp [writes], by decide, by decide +kernel, by decide +kernel⟩

end Propagator
end Tracing
