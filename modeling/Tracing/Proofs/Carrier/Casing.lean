import Tracing.Proofs.Lists
import Tracing.Proofs.Propagator.Fields

/-! # The case of header names

The headers of an inbound message may come with their names in any case. A list compares names without regard to the
case of the seven-bit code, so it is read alike however they come. A map looks a name up in lower case, and finds a
header only if its name came in lower case; so it is read alike just as far as the same headers did. -/

namespace Tracing

open Propagator Text Traceparent

/-- A header with its name in no particular case. -/
def caseless (e : Header) : List Char × String := (foldAscii e.1.toList, e.2)

namespace Carrier

/-- The carriers differ in the case of names only. The names of a map are distinct in whatever case, and their case
decides where they stand. -/
inductive Recased : Carrier → Carrier → Prop where
  | list {l l' : HeaderList} (same : l.headers.map caseless = l'.headers.map caseless) : Recased (list l) (list l')
  | map {m m' : HeaderMap} (same : (m.headers.map caseless).Perm (m'.headers.map caseless))
      (distinct : ((m.headers.map caseless).map Prod.fst).Nodup) : Recased (map m) (map m')

/-- Of two maps, both hold the name or neither does. -/
def HoldAlike (name : String) : Carrier → Carrier → Prop
  | map m, map m' => name ∈ (map m).keys ↔ name ∈ (map m').keys
  | _, _ => True

end Carrier

/-! ### Looking up -/

theorem HeaderList.values_eq_caseless (l : HeaderList) (name : String) :
    l.values name = ((l.headers.map caseless).filter fun e => e.1 == foldAscii name.toList).map Prod.snd := by
  unfold values
  rw [List.filter_map, List.map_map]
  rfl

namespace HeaderMap
variable {m m' : HeaderMap}

/-- A map finds a header just if its name came in lower case. -/
theorem get?_isSome_iff (m : HeaderMap) (name : String) :
    (m.get? name).isSome = true ↔ lowerName name ∈ (Carrier.map m).keys := by
  unfold get?
  exact lookup_isSome_iff_mem

/-- What a map finds it would find in whatever case. -/
theorem lookup_caseless (distinct : ((m.headers.map caseless).map Prod.fst).Nodup) {name value : String}
    (h : m.get? name = some value) :
    (m.headers.map caseless).lookup (foldAscii (lowerName name).toList) = some value := by
  obtain ⟨before, rest, hheaders, -⟩ := List.lookup_eq_some_iff.mp h
  have hmem : (lowerName name, value) ∈ m.headers := by
    rw [hheaders]
    exact List.mem_append_right _ List.mem_cons_self
  exact (lookup_eq_some_iff_mem distinct).mpr (List.mem_map.mpr ⟨(lowerName name, value), hmem, rfl⟩)

theorem get?_recased (same : (m.headers.map caseless).Perm (m'.headers.map caseless))
    (distinct : ((m.headers.map caseless).map Prod.fst).Nodup) (name : String) :
    m.get? name = m'.get? name ↔ Carrier.HoldAlike (lowerName name) (.map m) (.map m') := by
  have distinct' : ((m'.headers.map caseless).map Prod.fst).Nodup := (same.map Prod.fst).nodup_iff.mp distinct
  show _ ↔ (lowerName name ∈ (Carrier.map m).keys ↔ lowerName name ∈ (Carrier.map m').keys)
  rw [← get?_isSome_iff, ← get?_isSome_iff]
  constructor
  · intro h
    rw [h]
  · intro h
    cases hfound : m.get? name with
    | none =>
      cases hfound' : m'.get? name with
      | none => rfl
      | some value => simp [hfound, hfound'] at h
    | some value =>
      cases hfound' : m'.get? name with
      | none => simp [hfound, hfound'] at h
      | some value' =>
        rw [← lookup_caseless distinct hfound, ← lookup_caseless distinct' hfound', lookup_perm distinct same]

end HeaderMap

namespace Carrier
variable {c c' : Carrier}

/-- Carriers that differ in the case of names only answer alike just for the names that both hold or neither does. -/
theorem Recased.alike_iff (h : c.Recased c') (name : String) : c.Alike c' name ↔ HoldAlike (lowerName name) c c' := by
  cases h with
  | @list l l' same =>
    have hvalues : l.values name = l'.values name := by
      rw [l.values_eq_caseless, l'.values_eq_caseless, same]
    refine ⟨fun _ => trivial, fun _ => ⟨?_, ?_⟩⟩
    · exact congrArg List.head? hvalues
    · unfold getAll?
      dsimp only
      rw [hvalues]
  | @map m m' same distinct =>
    rw [← HeaderMap.get?_recased same distinct]
    exact ⟨fun h => h.1, fun h => ⟨h, congrArg (Option.map fun v => [v]) h⟩⟩

theorem lowerName_readHeaders {name : String} (h : name ∈ stateHeader :: parentHeaders) : lowerName name = name := by
  have hall : (stateHeader :: parentHeaders).all (fun name => lowerName name == name) = true := by decide +kernel
  exact beq_iff_eq.mp (List.all_eq_true.mp hall name h)

/-- Carriers that differ in the case of names only answer alike for a name just if both hold it in lower case or neither
does, where they are maps; lists always do. If this is so for the headers that a propagator reads, it reads the same
context from both. -/
theorem recased_headers_read_alike (h : c.Recased c') :
    (∀ name, c.Alike c' name ↔ HoldAlike (lowerName name) c c') ∧
      ∀ (p : Propagator) (base : Context), (∀ name ∈ stateHeader :: p.leaves, HoldAlike name c c') →
        (extract p base c).1 = (extract p base c').1 := by
  refine ⟨h.alike_iff, fun p base hread => ?_⟩
  have halike : ∀ name ∈ stateHeader :: p.leaves, c.Alike c' name := by
    intro name hname
    have hmem : name ∈ stateHeader :: parentHeaders :=
      List.mem_cons.mpr ((List.mem_cons.mp hname).imp id (mem_parentHeaders_of_mem_leaves p))
    rw [h.alike_iff, lowerName_readHeaders hmem]
    exact hread name hname
  exact extract_congr (fun header hmem => halike header (List.mem_cons_of_mem _ hmem))
    (fun _ => halike stateHeader List.mem_cons_self) base

/-! A parent header with capital letters, and the same in lower case. -/

def sampleCapital : List Header := [("Traceparent", "00-00000000000000000000000000000002-0000000000000001-01")]

def sampleLower : List Header := [("traceparent", "00-00000000000000000000000000000002-0000000000000001-01")]

/-- In a list the capital letter makes no difference, nor does one in a map in a name that nobody reads. -/
theorem recased_headers_read_alike_in_sampleCapital :
    (list ⟨sampleCapital⟩).Recased (list ⟨sampleLower⟩) ∧
      (extract .standard .empty (list ⟨sampleCapital⟩)).1 = (extract .standard .empty (list ⟨sampleLower⟩)).1 ∧
      (map ⟨("Accept", "*/*") :: sampleLower⟩).Recased (map ⟨("accept", "*/*") :: sampleLower⟩) ∧
      (∀ name ∈ stateHeader :: (Propagator.agent true).leaves,
        HoldAlike name (map ⟨("Accept", "*/*") :: sampleLower⟩) (map ⟨("accept", "*/*") :: sampleLower⟩)) ∧
      (extract (.agent true) .empty (map ⟨("Accept", "*/*") :: sampleLower⟩)).1 =
        (extract (.agent true) .empty (map ⟨("accept", "*/*") :: sampleLower⟩)).1 := by
  have hlist : (list ⟨sampleCapital⟩).Recased (list ⟨sampleLower⟩) := .list (by decide)
  have hmap : (map ⟨("Accept", "*/*") :: sampleLower⟩).Recased (map ⟨("accept", "*/*") :: sampleLower⟩) :=
    .map (by decide) (by decide)
  have hread : ∀ name ∈ stateHeader :: (Propagator.agent true).leaves,
      HoldAlike name (map ⟨("Accept", "*/*") :: sampleLower⟩) (map ⟨("accept", "*/*") :: sampleLower⟩) := by
    intro name hname
    have hnames : ∀ name ∈ [stateHeader, legacyHeader, standardHeader],
        name ∈ ["Accept", "traceparent"] ↔ name ∈ ["accept", "traceparent"] := by decide
    exact hnames name (by simpa [leaves] using hname)
  exact ⟨hlist, (recased_headers_read_alike hlist).2 .standard .empty fun _ _ => trivial, hmap, hread,
    (recased_headers_read_alike hmap).2 (.agent true) .empty hread⟩

/-- A map hides the caller if the name of the header came with a capital letter. -/
theorem capital_letter_hides_caller :
    (map ⟨sampleCapital⟩).Recased (map ⟨sampleLower⟩) ∧
      (extract .standard .empty (map ⟨sampleCapital⟩)).1.remote = none ∧
      (extract .standard .empty (map ⟨sampleLower⟩)).1.remote = some (.make (.ofNat 2) (.ofNat 1) .sampled .empty) := by
  refine ⟨.map (by decide) (by decide), ?_, ?_⟩ <;> decide +kernel

end Carrier
end Tracing
