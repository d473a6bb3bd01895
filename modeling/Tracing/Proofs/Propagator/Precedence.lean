import Tracing.Propagator

/-! # Which header names the caller

Propagators used as one form a tree, whose leaves each read one parent header. Reading folds the context through the
leaves in order, and a leaf that cannot read its header passes it on as it came. So the caller is named by the last
leaf that can read its header, and by nothing else; a malformed header takes no part. -/

namespace Tracing

namespace Traceparent

theorem ofFields_ok {version trace span flags : List Char} {tc : TraceContext}
    (h : ofFields version trace span flags = .ok tc) : tc.isValid = true ∧ tc.state = .empty := by
  unfold ofFields at h
  split at h
  · cases h
  split at h
  · cases h
  split at h
  · cases h
  · cases h
  split at h
  · cases h
  split at h
  · cases h
  rename_i htrace
  split at h
  · cases h
  rename_i hspan
  obtain rfl := Except.ok.inj h
  exact ⟨Bool.and_eq_true_iff.mpr ⟨by simpa [TraceContext.make] using htrace, by simpa [TraceContext.make] using hspan⟩,
    rfl⟩

/-- A text that can be read names a trace and a span, and says nothing of the state. -/
theorem parse_ok {header value : String} {tc : TraceContext} (h : parse header value = .ok tc) :
    tc.isValid = true ∧ tc.state = .empty := by
  unfold parse at h
  cases hdecode : decode value.toList with
  | error e =>
    rw [hdecode] at h
    cases h
  | ok tc' =>
    rw [hdecode] at h
    obtain rfl := Except.ok.inj h
    unfold decode at hdecode
    split at hdecode
    · exact ofFields_ok hdecode
    · cases hdecode

end Traceparent

namespace Propagator

open Traceparent

mutual

/-- The parent headers that a propagator reads, one for each leaf in order. -/
def leaves : Propagator → List String
  | standard => [standardHeader]
  | legacy => [legacyHeader]
  | agent _ => [legacyHeader, standardHeader]
  | composite parts => leavesAll parts

def leavesAll : List Propagator → List String
  | [] => []
  | p :: rest => leaves p ++ leavesAll rest

end

/-- The state that the headers of a carrier tell, as far as they can be read. -/
def stateIn (c : Carrier) : TraceState := (TraceState.parse ((c.getAll? stateHeader).getD [])).1

/-- The caller that a parent header of the carrier names, with the state that the carrier tells. -/
def callerIn (c : Carrier) (header : String) : Option TraceContext :=
  (c.get? header).bind fun value => (parse header value).toOption.map fun tc => tc.withState (stateIn c)

theorem readState_eq {tc : TraceContext} (h : tc.state = .empty) (c : Carrier) :
    (readState tc c).1 = tc.withState (stateIn c) := by
  unfold readState stateIn
  cases c.getAll? stateHeader with
  | none =>
    obtain ⟨traceId, spanId, flags, state⟩ := tc
    exact congrArg (TraceContext.mk traceId spanId flags) h
  | some values => rfl

theorem isValid_of_callerIn {c : Carrier} {header : String} {tc : TraceContext} (h : callerIn c header = some tc) :
    tc.isValid = true := by
  unfold callerIn at h
  obtain ⟨value, -, h⟩ := Option.bind_eq_some_iff.mp h
  obtain ⟨read, hread, rfl⟩ := Option.map_eq_some_iff.mp h
  cases hparse : parse header value with
  | error e =>
    rw [hparse] at hread
    cases hread
  | ok tc =>
    rw [hparse] at hread
    obtain rfl := Option.some.inj hread
    exact (parse_ok hparse).1

/-- A leaf puts in the caller that its header names, or nothing. -/
theorem extractParent_callerIn (header : String) (complain : HeaderError → Event) (cx : Context) (c : Carrier) :
    (extractParent header complain cx c).1 = ((callerIn c header).map cx.withRemote).getD cx := by
  unfold extractParent callerIn
  cases c.get? header with
  | none => rfl
  | some value =>
    cases hparse : parse header value with
    | error e => simp [hparse, Except.toOption]
    | ok tc => simp [hparse, Except.toOption, readState_eq (parse_ok hparse).2]

/-- The caller that the last of some leaves names which can read its header. -/
def lastCaller (c : Carrier) (headers : List String) : Option TraceContext := headers.reverse.findSome? (callerIn c)

theorem lastCaller_append (c : Carrier) (first rest : List String) :
    lastCaller c (first ++ rest) = (lastCaller c rest).or (lastCaller c first) := by
  unfold lastCaller
  rw [List.reverse_append, List.findSome?_append]

theorem lastCaller_singleton (c : Carrier) (header : String) : lastCaller c [header] = callerIn c header := by
  simp [lastCaller]

/-- Reading on from a context that was read before. -/
theorem withRemote_getD (cx : Context) (first rest : Option TraceContext) :
    (rest.map ((first.map cx.withRemote).getD cx).withRemote).getD ((first.map cx.withRemote).getD cx) =
      ((rest.or first).map cx.withRemote).getD cx := by
  cases rest with
  | none => rfl
  | some tc => cases first <;> rfl

mutual

/-- A tree reads what its leaves read in order. -/
theorem extract_lastCaller : ∀ (p : Propagator) (cx : Context) (c : Carrier),
    (extract p cx c).1 = ((lastCaller c p.leaves).map cx.withRemote).getD cx
  | .standard, cx, c => by
    rw [extract, leaves, lastCaller_singleton]
    exact extractParent_callerIn _ _ cx c
  | .legacy, cx, c => by
    rw [extract, leaves, lastCaller_singleton]
    exact extractParent_callerIn _ _ cx c
  | .agent writeLegacy, cx, c => by
    rw [extract, leaves, show [legacyHeader, standardHeader] = [legacyHeader] ++ [standardHeader] from rfl,
      lastCaller_append, lastCaller_singleton, lastCaller_singleton, ← withRemote_getD]
    show (extractStandard (extractLegacy cx c).1 c).1 = _
    unfold extractStandard extractLegacy
    rw [extractParent_callerIn, extractParent_callerIn]
  | .composite parts, cx, c => by
    rw [extract, leaves]
    exact extractAll_lastCaller parts cx c

theorem extractAll_lastCaller : ∀ (parts : List Propagator) (cx : Context) (c : Carrier),
    (extractAll parts cx c).1 = ((lastCaller c (leavesAll parts)).map cx.withRemote).getD cx
  | [], cx, c => by
    rw [extractAll, leavesAll]
    rfl
  | p :: rest, cx, c => by
    rw [extractAll, leavesAll, lastCaller_append, ← withRemote_getD]
    show (extractAll rest (extract p cx c).1 c).1 = _
    rw [extractAll_lastCaller rest, extract_lastCaller p]

end

/-- Either no leaf can read its header, or one can and none after it. -/
theorem lastCaller_cases (c : Carrier) (headers : List String) :
    (lastCaller c headers = none ∧ ∀ header ∈ headers, callerIn c header = none) ∨
      ∃ before header after tc, headers = before ++ header :: after ∧ lastCaller c headers = some tc ∧
        callerIn c header = some tc ∧ ∀ later ∈ after, callerIn c later = none := by
  cases h : lastCaller c headers with
  | none =>
    refine .inl ⟨rfl, fun header hmem => ?_⟩
    exact List.findSome?_eq_none_iff.mp h header (List.mem_reverse.mpr hmem)
  | some tc =>
    obtain ⟨after, header, before, hsplit, hheader, hafter⟩ := List.findSome?_eq_some_iff.mp h
    refine .inr ⟨before.reverse, header, after.reverse, tc, ?_, rfl, hheader, fun later hlater => ?_⟩
    · rw [← List.reverse_reverse headers, hsplit]
      simp
    · exact hafter later (List.mem_reverse.mp hlater)

/-- Reading puts in the caller that the last leaf names whose header is there and well-formed, together with the state
as far as that can be read, and keeps everything else; if there is no such leaf, the context stays as it is. What
tracers use reads the standard header whenever that is well-formed, and the older one just when it is not. -/
theorem last_readable_leaf_names_caller (p : Propagator) (base : Context) (c : Carrier) :
    (((∀ header ∈ p.leaves, callerIn c header = none) ∧ (extract p base c).1 = base) ∨
        ∃ before header after caller, p.leaves = before ++ header :: after ∧ callerIn c header = some caller ∧
          (∀ later ∈ after, callerIn c later = none) ∧ caller.traceId ≠ .zero ∧ caller.spanId ≠ .zero ∧
          (extract p base c).1 = { base with remote := some caller }) ∧
      ∀ writeLegacy, (extract (.agent writeLegacy) base c).1 =
        match callerIn c standardHeader, callerIn c legacyHeader with
        | some caller, _ => { base with remote := some caller }
        | none, some caller => { base with remote := some caller }
        | none, none => base := by
  refine ⟨?_, fun writeLegacy => ?_⟩
  · rw [extract_lastCaller]
    rcases lastCaller_cases c p.leaves with
      ⟨hnone, hall⟩ | ⟨before, header, after, caller, hsplit, hlast, hheader, hlater⟩
    · rw [hnone]
      exact .inl ⟨hall, rfl⟩
    · have hvalid := isValid_of_callerIn hheader
      simp only [TraceContext.isValid, TraceId.isValid, SpanId.isValid, Bool.and_eq_true, bne_iff_ne] at hvalid
      rw [hlast]
      exact .inr ⟨before, header, after, caller, hsplit, hheader, hlater, hvalid.1, hvalid.2, rfl⟩
  · rw [extract_lastCaller, leaves, show [legacyHeader, standardHeader] = [legacyHeader] ++ [standardHeader] from rfl,
      lastCaller_append, lastCaller_singleton, lastCaller_singleton]
    cases callerIn c standardHeader with
    | some caller => rfl
    | none => cases callerIn c legacyHeader <;> rfl

/-- A malformed standard header, last of a nesting, leaves standing what the older one named. -/
example : ((extract (.composite [.legacy, .composite [.standard]]) .empty (.list ⟨[("TraceParent", "00-0-0-01"),
    ("elastic-apm-traceparent", "00-00000000000000000000000000000002-0000000000000001-01"),
    ("tracestate", "a=1")]⟩)).1.remote
      == some ⟨.ofNat 2, .ofNat 1, .sampled, ⟨[⟨"a", "1"⟩]⟩⟩) = true := by decide +kernel

end Propagator
end Tracing
