import Mathlib.Data.List.Nodup
import Tracing.Proofs.Carrier.Overwriting
import Tracing.Proofs.Propagator.Reuse

/-! # What writing a trace context touches

A tree of propagators writes headers one after the other, all of them announced, and each name always with the same
value. So all other headers stay, each written name ends up with one header, and writing once more changes nothing. -/

namespace Tracing
namespace Propagator

open Traceparent

/-! ### The headers that are written -/

/-- A parent header, and the state along with the standard one. -/
def headersOf (tc : TraceContext) (name : String) : List Header :=
  (name, format tc) ::
    if name = standardHeader ∧ tc.state.header ≠ "" then [(stateHeader, tc.state.header)] else []

/-- The headers that are written for a context, in order. -/
def written (p : Propagator) (cx : Context) : List Header :=
  match cx.traceContext with
  | none => []
  | some tc => p.writes.flatMap (headersOf tc)

variable {p : Propagator} {cx : Context} {tc : TraceContext} {e e' : Header}

theorem writeParent_eq_write (htc : cx.traceContext = some tc) {name : String} (hname : name ∈ parentHeaders)
    (c : Carrier) : writeParent cx c name = c.write (headersOf tc name) := by
  unfold writeParent headersOf
  by_cases hstandard : name = standardHeader
  · subst hstandard
    by_cases hempty : tc.state.header = "" <;> simp [injectStandard, htc, hempty, Carrier.write]
  · have hlegacy : name = legacyHeader := by
      simp only [parentHeaders, List.mem_cons, List.not_mem_nil, or_false] at hname
      exact hname.resolve_left hstandard
    subst hlegacy
    simp [injectLegacy, htc, hstandard, Carrier.write]

theorem writeParent_of_none (htc : cx.traceContext = none) (c : Carrier) (name : String) :
    writeParent cx c name = c := by
  unfold writeParent injectStandard injectLegacy
  rw [htc]
  split <;> rfl

theorem foldl_writeParent (htc : cx.traceContext = some tc) {names : List String}
    (hnames : ∀ name ∈ names, name ∈ parentHeaders) (c : Carrier) :
    names.foldl (writeParent cx) c = c.write (names.flatMap (headersOf tc)) := by
  induction names generalizing c with
  | nil => rfl
  | cons name names ih =>
    obtain ⟨hname, hnames⟩ := List.forall_mem_cons.mp hnames
    rw [List.foldl_cons, ih hnames, writeParent_eq_write htc hname, List.flatMap_cons, Carrier.write_append]

theorem foldl_writeParent_of_none (htc : cx.traceContext = none) (names : List String) (c : Carrier) :
    names.foldl (writeParent cx) c = c := by
  induction names generalizing c with
  | nil => rfl
  | cons name names ih => rw [List.foldl_cons, ih, writeParent_of_none htc]

theorem inject_eq_write (p : Propagator) (cx : Context) (c : Carrier) : inject p cx c = c.write (p.written cx) := by
  rw [inject_eq_foldl]
  unfold written
  cases htc : cx.traceContext with
  | none => exact foldl_writeParent_of_none htc _ c
  | some tc => exact foldl_writeParent htc (fun _ => mem_parentHeaders_of_mem_writes) c

theorem mem_written_iff (htc : cx.traceContext = some tc) : e ∈ p.written cx ↔
    (e.1 ∈ p.writes ∧ e.2 = format tc) ∨
      (e = (stateHeader, tc.state.header) ∧ standardHeader ∈ p.writes ∧ tc.state.header ≠ "") := by
  obtain ⟨name, value⟩ := e
  unfold written headersOf
  rw [htc]
  dsimp only
  rw [List.mem_flatMap]
  constructor
  · rintro ⟨parent, hparent, hmem⟩
    rcases List.mem_cons.mp hmem with heq | hmem
    · obtain ⟨rfl, rfl⟩ := Prod.mk.inj heq
      exact .inl ⟨hparent, rfl⟩
    · split at hmem
      · rename_i hstate
        exact .inr ⟨List.mem_singleton.mp hmem, hstate.1 ▸ hparent, hstate.2⟩
      · cases hmem
  · rintro (⟨hparent, rfl⟩ | ⟨heq, hstandard, hstate⟩)
    · exact ⟨name, hparent, List.mem_cons_self⟩
    · exact ⟨standardHeader, hstandard, List.mem_cons_of_mem _ (by simp [hstate, heq])⟩

/-- The headers that carry a trace. -/
def traceHeaders : List String := stateHeader :: parentHeaders

section
variable {name key : String}

theorem isAsciiName_of_mem_traceHeaders (h : name ∈ traceHeaders) : IsAsciiName name := by
  rcases List.mem_cons.mp h with rfl | h
  · exact isAsciiName_stateHeader
  · exact isAsciiName_of_mem_parentHeaders h

theorem lowerName_of_mem_traceHeaders (h : name ∈ traceHeaders) : lowerName name = name := by
  have hfold : traceHeaders.all (fun name => Text.foldAscii name.toList == name.toList) = true := rfl
  rw [← String.toList_inj, toList_lowerName (isAsciiName_of_mem_traceHeaders h)]
  exact beq_iff_eq.mp (List.all_eq_true.mp hfold name h)

theorem eq_of_sameName_traceHeaders (hname : name ∈ traceHeaders) (hkey : key ∈ traceHeaders)
    (h : sameName name key = true) : name = key := by
  rw [← lowerName_of_mem_traceHeaders hname, ← lowerName_of_mem_traceHeaders hkey]
  exact (lowerName_eq_iff (isAsciiName_of_mem_traceHeaders hname) (isAsciiName_of_mem_traceHeaders hkey)).mpr h

end

theorem exists_traceContext_of_mem_written (h : e ∈ p.written cx) : ∃ tc, cx.traceContext = some tc := by
  unfold written at h
  cases htc : cx.traceContext with
  | none =>
    rw [htc] at h
    cases h
  | some tc => exact ⟨tc, rfl⟩

/-- What is written is announced. -/
theorem mem_fields_of_mem_written (h : e ∈ p.written cx) : e.1 ∈ p.fields := by
  obtain ⟨tc, htc⟩ := exists_traceContext_of_mem_written h
  rcases (mem_written_iff htc).mp h with ⟨hparent, -⟩ | ⟨rfl, hstandard, -⟩
  · exact (mem_fields_iff p _).mpr (.inl ((leaves_of_writes p).1 _ hparent))
  · exact (stateHeader_mem_fields_iff p).mpr ((leaves_of_writes p).1 _ hstandard)

theorem mem_traceHeaders_of_mem_written (h : e ∈ p.written cx) : e.1 ∈ traceHeaders := by
  obtain ⟨tc, htc⟩ := exists_traceContext_of_mem_written h
  rcases (mem_written_iff htc).mp h with ⟨hparent, -⟩ | ⟨rfl, -, -⟩
  · exact List.mem_cons_of_mem _ (mem_parentHeaders_of_mem_writes hparent)
  · exact List.mem_cons_self

theorem isAsciiName_of_mem_written (h : e ∈ p.written cx) : IsAsciiName e.1 :=
  isAsciiName_of_mem_traceHeaders (mem_traceHeaders_of_mem_written h)

/-- A name is always written with the same value. -/
theorem eq_of_mem_written (h : e ∈ p.written cx) (h' : e' ∈ p.written cx) (hsame : sameName e'.1 e.1 = true) :
    e' = e := by
  have hname : e'.1 = e.1 :=
    eq_of_sameName_traceHeaders (mem_traceHeaders_of_mem_written h') (mem_traceHeaders_of_mem_written h) hsame
  obtain ⟨tc, htc⟩ := exists_traceContext_of_mem_written h
  have hnot : ∀ {e : Header}, e.1 ∈ p.writes → e.1 ≠ stateHeader := fun hparent heq =>
    stateHeader_not_mem_parentHeaders (heq ▸ mem_parentHeaders_of_mem_writes hparent)
  rcases (mem_written_iff htc).mp h with ⟨hparent, hvalue⟩ | ⟨rfl, -, -⟩
  · rcases (mem_written_iff htc).mp h' with ⟨-, hvalue'⟩ | ⟨rfl, -, -⟩
    · exact Prod.ext hname (hvalue'.trans hvalue.symm)
    · exact absurd hname.symm (hnot hparent)
  · rcases (mem_written_iff htc).mp h' with ⟨hparent', -⟩ | ⟨rfl, -, -⟩
    · exact absurd hname (hnot hparent')
    · rfl

/-! ### The headers that are announced -/

theorem nodup_foldl_distinct {seen : List String} (hseen : seen.Nodup) (names : List String) :
    (names.foldl (fun seen n => if seen.contains n then seen else seen ++ [n]) seen).Nodup := by
  induction names generalizing seen with
  | nil => exact hseen
  | cons n names ih =>
    refine ih ?_
    dsimp only
    split
    · exact hseen
    · rename_i hnew
      have hnotMem : n ∉ seen := fun hmem => hnew (List.contains_iff_mem.mpr hmem)
      rw [← List.concat_eq_append]
      exact List.Nodup.concat hnotMem hseen

theorem nodup_distinct (names : List String) : (distinct names).Nodup :=
  nodup_foldl_distinct List.nodup_nil names

theorem nodup_fields (p : Propagator) : p.fields.Nodup := by
  cases p with
  | standard => decide
  | legacy => decide
  | agent writeLegacy =>
    rw [fields]
    exact nodup_distinct _
  | composite parts =>
    rw [fields]
    exact nodup_distinct _

theorem mem_fieldsAll {parts : List Propagator} {name : String} :
    name ∈ fieldsAll parts ↔ ∃ q ∈ parts, name ∈ q.fields := by
  induction parts with
  | nil => simp [fieldsAll]
  | cons q parts ih => simp [fieldsAll, ih]

/-! ### What is touched -/

/-- Writing a context touches announced headers only: all others stay, in order, and without a trace to tell so does the
whole carrier. In a list each header that is written is the only one of its name, in whatever case. Writing the
context again changes nothing. A composite announces just what its parts announce, and nobody announces a header
twice. -/
theorem inject_touches_announced_headers (p : Propagator) (cx : Context) :
    (∀ c, inject p cx c = c.write (p.written cx) ∧ (inject p cx c).others p.fields = c.others p.fields ∧
        inject p cx (inject p cx c) = inject p cx c) ∧
      (cx.traceContext = none → ∀ c, inject p cx c = c) ∧
      (∀ l : HeaderList, ∀ e ∈ p.written cx, ∃ l', inject p cx (.list l) = .list l' ∧ l'.named e.1 = [e]) ∧
      p.fields.Nodup ∧ ∀ parts name, name ∈ (composite parts).fields ↔ ∃ q ∈ parts, name ∈ q.fields := by
  have hascii : ∀ e ∈ p.written cx, IsAsciiName e.1 := fun _ => isAsciiName_of_mem_written
  refine ⟨fun c => ⟨inject_eq_write p cx c, ?_, ?_⟩, fun htc c => ?_, fun l e he => ?_, nodup_fields p,
    fun parts name => ?_⟩
  · rw [inject_eq_write]
    refine Carrier.others_write hascii (fun e he => ?_) c
    rw [lowerName_of_mem_traceHeaders (mem_traceHeaders_of_mem_written he)]
    exact mem_fields_of_mem_written he
  · rw [inject_eq_write, inject_eq_write, Carrier.write_idem hascii]
  · rw [inject_eq_foldl, foldl_writeParent_of_none htc]
  · rw [inject_eq_write]
    exact Carrier.write_list_named hascii (lowerName_of_mem_traceHeaders (mem_traceHeaders_of_mem_written he))
      (fun e' he' => eq_of_mem_written he he') l (.inl he)
  · rw [fields, mem_distinct, mem_fieldsAll]

/-! Propagators that write the same headers several times, and a message that holds them already, among others. -/

def sampleTree : Propagator := .composite [.agent true, .composite [.legacy, .standard], .legacy]

def sampleSender : Context := Context.empty.withRemote (.make (.ofNat 1) (.ofNat 2) .sampled ⟨[⟨"a", "1"⟩]⟩)

def sampleMessage : HeaderList :=
  ⟨[("X-Id", "7"), ("TraceParent", "old"), ("accept", "*"), ("ELASTIC-APM-TRACEPARENT", "old"), ("tracestate", "b=2")]⟩

theorem inject_touches_announced_headers_of_sampleTree :
    (stateHeader, "a=1") ∈ sampleTree.written sampleSender ∧
      (∃ l', inject sampleTree sampleSender (.list sampleMessage) = .list l' ∧
        l'.named stateHeader = [(stateHeader, "a=1")] ∧
        (Carrier.list l').others sampleTree.fields = [("X-Id", "7"), ("accept", "*")] ∧
        inject sampleTree sampleSender (.list l') = .list l') ∧
      Context.empty.traceContext = none ∧ inject sampleTree .empty (.list sampleMessage) = .list sampleMessage := by
  have htc : sampleSender.traceContext = some (.make (.ofNat 1) (.ofNat 2) .sampled ⟨[⟨"a", "1"⟩]⟩) := by decide
  have hheader : TraceState.header ⟨[⟨"a", "1"⟩]⟩ = "a=1" := by decide +kernel
  have hwritten : (stateHeader, "a=1") ∈ sampleTree.written sampleSender := by
    rw [mem_written_iff htc]
    refine .inr ⟨?_, ?_, ?_⟩
    · exact congrArg (stateHeader, ·) hheader.symm
    · simp [sampleTree, writes, writesAll]
    · exact ne_of_eq_of_ne hheader (by decide)
  have hothers : (Carrier.list sampleMessage).others sampleTree.fields = [("X-Id", "7"), ("accept", "*")] := by
    decide +kernel
  have hnone : Context.empty.traceContext = none := rfl
  obtain ⟨hcarriers, -, honce, -, -⟩ := inject_touches_announced_headers sampleTree sampleSender
  obtain ⟨-, hkept, hagain⟩ := hcarriers (.list sampleMessage)
  obtain ⟨l', hl', hnamed⟩ := honce sampleMessage _ hwritten
  obtain ⟨-, huntouched, -, -, -⟩ := inject_touches_announced_headers sampleTree .empty
  rw [hl'] at hkept hagain
  exact ⟨hwritten, ⟨l', hl', hnamed, hkept.trans hothers, hagain⟩, hnone, huntouched hnone _⟩

end Propagator
end Tracing
