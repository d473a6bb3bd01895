import Tracing.Proofs.Propagator.Handover

/-! # What the announced headers tell

A propagator announces the headers that it deals with. It announces each parent header that it reads, and the header of
the state along with the standard one; but the state is read along with the older parent header as well. So carriers
that answer alike for all announced headers are read alike just when whoever announces the older header announces
the header of the state, too. -/

namespace Tracing

/-- The carriers have the same form. -/
def Carrier.SameForm : Carrier → Carrier → Prop
  | map _, map _ => True
  | list _, list _ => True
  | _, _ => False

/-- The carriers answer alike for a name. -/
def Carrier.Alike (c c' : Carrier) (name : String) : Prop :=
  c.get? name = c'.get? name ∧ c.getAll? name = c'.getAll? name

namespace Propagator

open Traceparent

/-! ### Leaves and fields -/

mutual

theorem mem_parentHeaders_of_mem_leaves : ∀ (p : Propagator) {name : String}, name ∈ p.leaves → name ∈ parentHeaders
  | .standard, name, h => by
    rw [leaves, List.mem_singleton] at h
    simp [parentHeaders, h]
  | .legacy, name, h => by
    rw [leaves, List.mem_singleton] at h
    simp [parentHeaders, h]
  | .agent _, name, h => by
    simp only [leaves, List.mem_cons, List.not_mem_nil, or_false] at h
    simp [parentHeaders, h.symm]
  | .composite parts, name, h => by
    rw [leaves] at h
    exact mem_parentHeaders_of_mem_leavesAll parts h

theorem mem_parentHeaders_of_mem_leavesAll :
    ∀ (parts : List Propagator) {name : String}, name ∈ leavesAll parts → name ∈ parentHeaders
  | [], name, h => by
    rw [leavesAll] at h
    cases h
  | p :: rest, name, h => by
    rw [leavesAll, List.mem_append] at h
    rcases h with h | h
    · exact mem_parentHeaders_of_mem_leaves p h
    · exact mem_parentHeaders_of_mem_leavesAll rest h

end

mutual

/-- Of the leaves only those of the standard header announce the state. -/
theorem mem_fields_iff : ∀ (p : Propagator) (name : String),
    name ∈ p.fields ↔ name ∈ p.leaves ∨ (name = stateHeader ∧ standardHeader ∈ p.leaves)
  | .standard, name => by simp [fields, leaves]
  | .legacy, name => by
    have hother : standardHeader ≠ legacyHeader := by decide
    simp [fields, leaves, hother]
  | .agent _, name => by
    rw [fields, mem_distinct]
    simp [leaves, or_assoc]
  | .composite parts, name => by
    rw [fields, mem_distinct, leaves]
    exact mem_fieldsAll_iff parts name

theorem mem_fieldsAll_iff : ∀ (parts : List Propagator) (name : String),
    name ∈ fieldsAll parts ↔ name ∈ leavesAll parts ∨ (name = stateHeader ∧ standardHeader ∈ leavesAll parts)
  | [], name => by simp [fieldsAll, leavesAll]
  | p :: rest, name => by
    rw [fieldsAll, leavesAll, List.mem_append, List.mem_append, List.mem_append, mem_fields_iff p,
      mem_fieldsAll_iff rest]
    grind

end

theorem stateHeader_not_mem_parentHeaders : stateHeader ∉ parentHeaders := fun h => by
  have hsame := sameName_stateHeader h
  rw [sameName_iff.mpr rfl] at hsame
  cases hsame

theorem stateHeader_mem_fields_iff (p : Propagator) : stateHeader ∈ p.fields ↔ standardHeader ∈ p.leaves := by
  rw [mem_fields_iff]
  constructor
  · rintro (h | ⟨-, h⟩)
    · exact absurd (mem_parentHeaders_of_mem_leaves p h) stateHeader_not_mem_parentHeaders
    · exact h
  · exact fun h => .inr ⟨rfl, h⟩

theorem legacyHeader_mem_fields_iff (p : Propagator) : legacyHeader ∈ p.fields ↔ legacyHeader ∈ p.leaves := by
  have hother : legacyHeader ≠ stateHeader := by decide
  rw [mem_fields_iff]
  simp [hother]

/-! ### Two runs -/

section
variable {c c' : Carrier}

theorem callerIn_congr {header : String} (hparent : c.Alike c' header) (hstate : c.Alike c' stateHeader) :
    callerIn c header = callerIn c' header := by
  unfold callerIn stateIn
  rw [hparent.1, hstate.2]

theorem lastCaller_congr {headers : List String} (h : ∀ header ∈ headers, callerIn c header = callerIn c' header) :
    lastCaller c headers = lastCaller c' headers := by
  induction headers with
  | nil => rfl
  | cons header headers ih =>
    rw [← List.singleton_append, lastCaller_append, lastCaller_append, lastCaller_singleton, lastCaller_singleton,
      h header List.mem_cons_self, ih fun header hmem => h header (List.mem_cons_of_mem _ hmem)]

/-- A carrier is read as its answers for the parent headers of the leaves and for the state tell. -/
theorem extract_congr {p : Propagator} (hparents : ∀ header ∈ p.leaves, c.Alike c' header)
    (hstate : p.leaves ≠ [] → c.Alike c' stateHeader) (base : Context) :
    (extract p base c).1 = (extract p base c').1 := by
  rw [extract_lastCaller, extract_lastCaller, lastCaller_congr]
  intro header hmem
  exact callerIn_congr (hparents header hmem) (hstate (List.ne_nil_of_mem hmem))

/-- The answers for what the propagator announces suffice, with that for the state if it announces the older parent
header. -/
theorem extract_congr_of_fields {p : Propagator} (hfields : ∀ name ∈ p.fields, c.Alike c' name)
    (hstate : legacyHeader ∈ p.fields → c.Alike c' stateHeader) (base : Context) :
    (extract p base c).1 = (extract p base c').1 := by
  have hparents : ∀ header ∈ p.leaves, c.Alike c' header := fun header hmem =>
    hfields header ((mem_fields_iff p header).mpr (.inl hmem))
  refine extract_congr hparents (fun hleaves => ?_) base
  obtain ⟨header, hmem⟩ := List.exists_mem_of_ne_nil _ hleaves
  have hheader := mem_parentHeaders_of_mem_leaves p hmem
  simp only [parentHeaders, List.mem_cons, List.not_mem_nil, or_false] at hheader
  rcases hheader with rfl | rfl
  · exact hfields stateHeader ((stateHeader_mem_fields_iff p).mpr hmem)
  · exact hstate ((legacyHeader_mem_fields_iff p).mpr hmem)

end

/-- Carriers of the same form that answer alike for all announced headers give the same caller. -/
def FieldsSuffice (p : Propagator) : Prop :=
  ∀ (base : Context) (c c' : Carrier), c.SameForm c' → (∀ name ∈ p.fields, c.Alike c' name) →
    (extract p base c).1.remote = (extract p base c').1.remote

/-! A carrier with the older parent header alone, and one with a state besides. -/

def sampleOlder : Carrier :=
  .list ⟨[(legacyHeader, "00-00000000000000000000000000000002-0000000000000001-01")]⟩

def sampleOlderWithState : Carrier := sampleOlder.set stateHeader "a=1"

theorem alike_sampleOlder {name : String} (h : name ∈ parentHeaders) : sampleOlder.Alike sampleOlderWithState name := by
  have hascii := isAsciiName_of_mem_parentHeaders h
  have hother := sameName_stateHeader h
  unfold Carrier.Alike sampleOlderWithState
  rw [Carrier.get?_set _ _ isAsciiName_stateHeader hascii, Carrier.getAll?_set _ _ isAsciiName_stateHeader hascii,
    hother]
  exact ⟨rfl, rfl⟩

theorem callerIn_sampleOlder : callerIn sampleOlder legacyHeader ≠ callerIn sampleOlderWithState legacyHeader ∧
    (callerIn sampleOlder legacyHeader).isSome ∧ (callerIn sampleOlderWithState legacyHeader).isSome := by
  decide +kernel

/-- Leaves that read one header only. -/
theorem lastCaller_of_forall_eq {c : Carrier} {header : String} {headers : List String}
    (h : ∀ other ∈ headers, other = header) (hne : headers ≠ []) : lastCaller c headers = callerIn c header := by
  induction headers with
  | nil => exact absurd rfl hne
  | cons first headers ih =>
    obtain rfl := h first List.mem_cons_self
    rw [← List.singleton_append, lastCaller_append, lastCaller_singleton]
    by_cases hrest : headers = []
    · rw [hrest]
      rfl
    · rw [ih (fun other hmem => h other (List.mem_cons_of_mem _ hmem)) hrest, Option.or_self]

/-- What a propagator reads follows from the headers that it announces and the state. The announced headers alone
suffice just when it does not announce the older parent header without announcing the state. -/
theorem announced_headers_decide_reading (p : Propagator) :
    (∀ (base : Context) (c c' : Carrier), (∀ name ∈ p.fields, c.Alike c' name) → c.Alike c' stateHeader →
        (extract p base c).1 = (extract p base c').1) ∧
      (p.FieldsSuffice ↔ (legacyHeader ∈ p.fields → stateHeader ∈ p.fields)) := by
  refine ⟨fun base c c' hfields hstate => extract_congr_of_fields hfields (fun _ => hstate) base, fun h hlegacy => ?_,
    fun h base c c' _ hfields => ?_⟩
  · refine Decidable.byContradiction fun hstate => ?_
    have honly : ∀ header ∈ p.leaves, header = legacyHeader := by
      intro header hmem
      have hheader := mem_parentHeaders_of_mem_leaves p hmem
      simp only [parentHeaders, List.mem_cons, List.not_mem_nil, or_false] at hheader
      rcases hheader with rfl | rfl
      · exact absurd ((stateHeader_mem_fields_iff p).mpr hmem) hstate
      · rfl
    have hleaves : p.leaves ≠ [] := List.ne_nil_of_mem ((legacyHeader_mem_fields_iff p).mp hlegacy)
    have hsame := h .empty sampleOlder sampleOlderWithState trivial fun name hname => by
      rcases (mem_fields_iff p name).mp hname with hname | ⟨-, hname⟩
      · exact alike_sampleOlder (mem_parentHeaders_of_mem_leaves p hname)
      · exact absurd ((stateHeader_mem_fields_iff p).mpr hname) hstate
    obtain ⟨hne, hsome, hsome'⟩ := callerIn_sampleOlder
    obtain ⟨caller, hcaller⟩ := Option.isSome_iff_exists.mp hsome
    obtain ⟨caller', hcaller'⟩ := Option.isSome_iff_exists.mp hsome'
    rw [extract_lastCaller, extract_lastCaller, lastCaller_of_forall_eq honly hleaves,
      lastCaller_of_forall_eq honly hleaves, hcaller, hcaller'] at hsame
    exact hne (hcaller.trans (hsame.trans hcaller'.symm))
  · rw [extract_congr_of_fields hfields (fun hlegacy => hfields stateHeader (h hlegacy)) base]

/-- The propagator of the older header reads a state that it does not announce. -/
theorem older_header_hides_state :
    (extract .legacy .empty sampleOlder).1.remote = some (.make (.ofNat 2) (.ofNat 1) .sampled .empty) ∧
      (extract .legacy .empty sampleOlderWithState).1.remote =
        some (.make (.ofNat 2) (.ofNat 1) .sampled ⟨[⟨"a", "1"⟩]⟩) ∧
      ¬ Propagator.legacy.FieldsSuffice := by
  have hwithout : (extract .legacy .empty sampleOlder).1.remote =
      some (.make (.ofNat 2) (.ofNat 1) .sampled .empty) := by decide +kernel
  have hwith : (extract .legacy .empty sampleOlderWithState).1.remote =
      some (.make (.ofNat 2) (.ofNat 1) .sampled ⟨[⟨"a", "1"⟩]⟩) := by decide +kernel
  refine ⟨hwithout, hwith, fun h => ?_⟩
  have hsame := h .empty sampleOlder sampleOlderWithState trivial fun name hname => by
    rw [fields, List.mem_singleton] at hname
    exact alike_sampleOlder (by simp [parentHeaders, hname])
  rw [hwithout, hwith] at hsame
  exact absurd hsame (by decide)

end Propagator
end Tracing
