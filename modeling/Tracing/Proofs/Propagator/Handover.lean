import Tracing.Proofs.Carrier.Lookup
import Tracing.Proofs.Propagator.Precedence
import Tracing.Proofs.Traceparent.RoundTrip

/-! # Handing a trace over in the headers of a message

A propagator writes the trace context of the sender into parent headers, always the same text. Whatever reads one
of them has the sender as its caller: the trace, the span and the sampling decision come through, and only the
state depends on the other headers. -/

namespace Tracing
namespace Propagator

open Traceparent Text

/-- The headers that can name the caller. -/
def parentHeaders : List String := [standardHeader, legacyHeader]

theorem isAsciiName_of_mem_parentHeaders {name : String} (h : name ∈ parentHeaders) : IsAsciiName name := by
  have hall : parentHeaders.all (fun name => name.toList.all isAscii) = true := rfl
  exact List.all_eq_true.mp (List.all_eq_true.mp hall name h)

theorem isAsciiName_stateHeader : IsAsciiName stateHeader := by
  have hall : stateHeader.toList.all isAscii = true := rfl
  exact List.all_eq_true.mp hall

theorem sameName_stateHeader {name : String} (h : name ∈ parentHeaders) : sameName stateHeader name = false := by
  have hall : parentHeaders.all (fun name => !sameName stateHeader name) = true := rfl
  simpa using List.all_eq_true.mp hall name h

theorem eq_of_mem_standard {name : String} (h : name ∈ parentHeaders)
    (hfield : name ∈ [standardHeader, stateHeader]) : name = standardHeader := by
  rcases List.mem_cons.mp hfield with hname | hname
  · exact hname
  · have hsame := sameName_stateHeader h
    rw [List.mem_singleton.mp hname, sameName_iff.mpr rfl] at hsame
    cases hsame

/-! ### Writing -/

/-- What each of the headers keeps that a propagator writes for the context. -/
structure KeptByHeaders (cx : Context) (P : Carrier → Prop) : Prop where
  parent : ∀ {tc}, cx.traceContext = some tc → ∀ name ∈ parentHeaders, ∀ {c}, P c → P (c.set name (format tc))
  state : ∀ value {c}, P c → P (c.set stateHeader value)

section Writing
variable {cx : Context} {P : Carrier → Prop}

theorem KeptByHeaders.injectLegacy (hP : KeptByHeaders cx P) {c : Carrier} (h : P c) : P (injectLegacy cx c) := by
  unfold Propagator.injectLegacy
  cases htc : cx.traceContext with
  | none => exact h
  | some tc => exact hP.parent htc _ (by simp [parentHeaders]) h

theorem KeptByHeaders.injectStandard (hP : KeptByHeaders cx P) {c : Carrier} (h : P c) : P (injectStandard cx c) := by
  unfold Propagator.injectStandard
  cases htc : cx.traceContext with
  | none => exact h
  | some tc =>
    have hparent : P (c.set standardHeader (format tc)) := hP.parent htc _ (by simp [parentHeaders]) h
    dsimp only
    split
    · exact hparent
    · exact hP.state _ hparent

mutual

/-- What each header keeps, writing keeps. -/
theorem KeptByHeaders.inject (hP : KeptByHeaders cx P) : ∀ (p : Propagator) {c : Carrier}, P c → P (inject p cx c)
  | .standard, _, h => by
    rw [Propagator.inject]
    exact hP.injectStandard h
  | .legacy, _, h => by
    rw [Propagator.inject]
    exact hP.injectLegacy h
  | .agent writeLegacy, _, h => by
    rw [Propagator.inject]
    split
    · exact hP.injectLegacy (hP.injectStandard h)
    · exact hP.injectStandard h
  | .composite parts, _, h => by
    rw [Propagator.inject]
    exact hP.injectAll parts h

theorem KeptByHeaders.injectAll (hP : KeptByHeaders cx P) :
    ∀ (parts : List Propagator) {c : Carrier}, P c → P (injectAll parts cx c)
  | [], _, h => by
    rw [Propagator.injectAll]
    exact h
  | p :: rest, _, h => by
    rw [Propagator.injectAll]
    exact hP.injectAll rest (hP.inject p h)

end

end Writing

/-- Every parent header of the carrier names the given caller. -/
def Names (tc : TraceContext) (c : Carrier) : Prop :=
  ∀ name ∈ parentHeaders, c.get? name = none ∨ c.get? name = some (format tc)

/-- Whatever is written into a carrier without headers names the sender. -/
theorem names_inject (p : Propagator) {cx : Context} {tc : TraceContext} (htc : cx.traceContext = some tc)
    {c : Carrier} (h : c.headers = []) : Names tc (inject p cx c) := by
  have hkept : KeptByHeaders cx (Names tc) := by
    constructor
    · intro tc' htc' name hname c hc key hkey
      obtain rfl : tc = tc' := Option.some.inj (htc.symm.trans htc')
      rw [Carrier.get?_set c _ (isAsciiName_of_mem_parentHeaders hname) (isAsciiName_of_mem_parentHeaders hkey)]
      split
      · exact .inr rfl
      · exact hc key hkey
    · intro value c hc key hkey
      rw [Carrier.get?_set c _ isAsciiName_stateHeader (isAsciiName_of_mem_parentHeaders hkey),
        sameName_stateHeader hkey]
      exact hc key hkey
  exact hkept.inject p fun name _ => .inl (Carrier.get?_eq_none_of_empty h name)

/-! ### Reading -/

theorem mem_distinct {name : String} {names : List String} : name ∈ distinct names ↔ name ∈ names := by
  have hfold : ∀ (names seen : List String),
      name ∈ names.foldl (fun seen n => if seen.contains n then seen else seen ++ [n]) seen ↔
        name ∈ seen ∨ name ∈ names := by
    intro names
    induction names with
    | nil => simp
    | cons n names ih =>
      intro seen
      rw [List.foldl_cons, ih]
      split
      · rename_i hseen
        have hn : n ∈ seen := by simpa using hseen
        constructor
        · rintro (h | h)
          · exact .inl h
          · exact .inr (List.mem_cons_of_mem _ h)
        · rintro (h | h)
          · exact .inl h
          · rcases List.mem_cons.mp h with rfl | h
            · exact .inl hn
            · exact .inr h
      · simp [or_assoc]
  simpa [distinct] using hfold names []

/-- Reading changes nothing but the caller. -/
theorem extract_eq (p : Propagator) (cx : Context) (c : Carrier) :
    ∃ r, (extract p cx c).1 = { cx with remote := r } := by
  rw [extract_lastCaller]
  cases lastCaller c p.leaves with
  | none => exact ⟨cx.remote, rfl⟩
  | some caller => exact ⟨some caller, rfl⟩

/-- The caller is the given one, whatever its state. -/
def CalledBy (tc : TraceContext) (cx : Context) : Prop :=
  ∃ r, cx.remote = some r ∧ r.traceId = tc.traceId ∧ r.spanId = tc.spanId ∧ r.isSampled = tc.isSampled

section Reading
variable {tc : TraceContext} {c : Carrier}

theorem extractParent_calledBy (valid : tc.isValid = true) (names : Names tc c) {header : String}
    (hheader : header ∈ parentHeaders) (complain : HeaderError → Event) {cx : Context}
    (h : CalledBy tc cx ∨ (c.get? header).isSome) : CalledBy tc (extractParent header complain cx c).1 := by
  unfold extractParent
  rcases names header hheader with hget | hget
  · rw [hget] at h ⊢
    exact h.resolve_right (by simp)
  · rw [hget]
    simp only [parse_format header valid]
    refine ⟨_, rfl, ?_⟩
    unfold readState
    split <;> exact ⟨rfl, rfl, TraceContext.isSampled_make _ _ _ _⟩

mutual

/-- A context that is called by the sender stays so, and becomes so if a header that was written is read. -/
theorem extract_calledBy (valid : tc.isValid = true) (names : Names tc c) :
    ∀ (p : Propagator) {cx : Context},
      (CalledBy tc cx ∨ ∃ name ∈ parentHeaders, name ∈ p.fields ∧ (c.get? name).isSome) →
        CalledBy tc (extract p cx c).1
  | .standard, _, h => by
    rw [extract]
    refine extractParent_calledBy valid names (by simp [parentHeaders]) _ (h.imp_right ?_)
    rintro ⟨name, hname, hfield, hget⟩
    rw [fields] at hfield
    exact eq_of_mem_standard hname hfield ▸ hget
  | .legacy, _, h => by
    rw [extract]
    refine extractParent_calledBy valid names (by simp [parentHeaders]) _ (h.imp_right ?_)
    rintro ⟨name, hname, hfield, hget⟩
    rw [fields, List.mem_singleton] at hfield
    exact hfield ▸ hget
  | .agent _, cx, h => by
    rw [extract]
    refine extractParent_calledBy valid names (by simp [parentHeaders]) _ ?_
    rcases h with h | ⟨name, hname, hfield, hget⟩
    · exact .inl (extractParent_calledBy valid names (by simp [parentHeaders]) _ (.inl h))
    · rw [fields, mem_distinct] at hfield
      rcases List.mem_append.mp hfield with hfield | hfield
      · rw [List.mem_singleton.mp hfield] at hget
        exact .inl (extractParent_calledBy valid names (by simp [parentHeaders]) _ (.inr hget))
      · exact .inr (eq_of_mem_standard hname hfield ▸ hget)
  | .composite parts, _, h => by
    rw [extract]
    refine extractAll_calledBy valid names parts (h.imp_right ?_)
    rintro ⟨name, hname, hfield, hget⟩
    rw [fields, mem_distinct] at hfield
    exact ⟨name, hname, hfield, hget⟩

theorem extractAll_calledBy (valid : tc.isValid = true) (names : Names tc c) :
    ∀ (parts : List Propagator) {cx : Context},
      (CalledBy tc cx ∨ ∃ name ∈ parentHeaders, name ∈ fieldsAll parts ∧ (c.get? name).isSome) →
        CalledBy tc (extractAll parts cx c).1
  | [], _, h => by
    rw [extractAll]
    refine h.resolve_right ?_
    rintro ⟨name, -, hfield, -⟩
    rw [fieldsAll] at hfield
    cases hfield
  | p :: rest, _, h => by
    rw [extractAll]
    refine extractAll_calledBy valid names rest ?_
    rcases h with h | ⟨name, hname, hfield, hget⟩
    · exact .inl (extract_calledBy valid names p (.inl h))
    · rw [fieldsAll] at hfield
      rcases List.mem_append.mp hfield with hfield | hfield
      · exact .inl (extract_calledBy valid names p (.inr ⟨name, hname, hfield, hget⟩))
      · exact .inr ⟨name, hname, hfield, hget⟩

end

end Reading

/-- Headers written into a carrier without any make the sender the caller of what reads one of them. -/
theorem extract_inject (p q : Propagator) {cx : Context} {tc : TraceContext} (htc : cx.traceContext = some tc)
    (base : Context) {c : Carrier} (hempty : c.headers = []) {name : String} (hname : name ∈ parentHeaders)
    (hwritten : ((inject p cx c).get? name).isSome) (hread : name ∈ q.fields) :
    CalledBy tc (extract q base (inject p cx c)).1 :=
  extract_calledBy (Option.mem_filter_iff.mp htc).2 (names_inject p htc hempty) q
    (.inr ⟨name, hname, hread, hwritten⟩)

end Propagator
end Tracing
