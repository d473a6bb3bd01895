import Mathlib.Data.List.TakeWhile
import Tracing.Proofs.TraceState.Verdicts
import Tracing.TraceState.Stored
import Tracing.Traceparent

/-! # Repeated headers

A sender may split a trace state over several headers, and whoever passes a message on may join headers with a comma,
or add blank ones. All that a reader looks at is the texts between the commas: a comma between two values cuts where
the values were cut, and a blank value has no texts. So headers that differ in this way only are read alike. -/

namespace Tracing

open Text

namespace TraceState

/-- Headers of which every reader makes the same state, with the same errors. -/
structure ReadAlike (values values' : List String) : Prop where
  state : parse values = parse values'
  held : Stored.parse values = Stored.parse values'
  headers : parseHeaders values = parseHeaders values'

/-- Readers look at the texts of the members only. -/
theorem ReadAlike.of_texts {values values' : List String} (h : textsOf values = textsOf values') :
    ReadAlike values values' := by
  have hstate : parse values = parse values' := by
    unfold textsOf at h
    rw [parse, parse, h]
  refine ⟨hstate, ?_, ?_⟩
  · unfold textsOf at h
    rw [Stored.parse, Stored.parse, h]
  · rw [parseHeaders, parseHeaders, hstate]

/-! ### Joined headers -/

theorem memberTexts_append (cs ds : List Char) :
    memberTexts (cs ++ ',' :: ds) = memberTexts cs ++ memberTexts ds := by
  unfold memberTexts
  rw [split_append, List.map_append, List.filter_append]

/-- The texts of values that are joined with commas are those of the values. -/
theorem memberTexts_intercalate (values : List String) :
    memberTexts (",".intercalate values).toList = textsOf values := by
  induction values with
  | nil => rfl
  | cons value values ih =>
    cases values with
    | nil => simp [textsOf]
    | cons next values =>
      have hjoined : (",".intercalate (value :: next :: values)).toList =
          value.toList ++ ',' :: (",".intercalate (next :: values)).toList := by
        rw [String.intercalate_cons_of_ne_nil (List.cons_ne_nil _ _), String.toList_append, String.toList_append,
          List.append_assoc]
        rfl
      rw [hjoined, memberTexts_append, ih]
      rfl

/-! ### Blank headers -/

/-- Nothing but padding and commas. -/
def isBlank (value : String) : Bool := value.toList.all fun c => isPadding c || c == ','

/-- A text of padding has nothing between its ends. -/
theorem trimBy_eq_nil {p : Char → Bool} {cs : List Char} (h : ∀ c ∈ cs, p c = true) : trimBy p cs = [] := by
  have hdropped : cs.dropWhile p = [] := List.dropWhile_eq_nil_iff.mpr h
  rw [trimBy, hdropped]
  rfl

theorem memberTexts_of_isBlank {value : String} (h : isBlank value = true) : memberTexts value.toList = [] := by
  refine List.filter_eq_nil_iff.mpr fun text htext => ?_
  obtain ⟨piece, hpiece, rfl⟩ := List.mem_map.mp htext
  have hpadding : ∀ c ∈ piece, isPadding c = true := by
    intro c hc
    rcases Bool.or_eq_true_iff.mp (List.all_eq_true.mp h c (mem_of_mem_split hpiece hc)) with hc' | hc'
    · exact hc'
    · exact absurd (beq_iff_eq.mp hc' ▸ hc) (not_mem_of_mem_split hpiece)
  simp [trimBy_eq_nil hpadding]

theorem textsOf_filter_isBlank (values : List String) :
    textsOf (values.filter fun value => !isBlank value) = textsOf values := by
  induction values with
  | nil => rfl
  | cons value values ih =>
    unfold textsOf at ih ⊢
    by_cases hblank : isBlank value = true
    · rw [List.filter_cons_of_neg (by simp [hblank]), ih, List.flatMap_cons, memberTexts_of_isBlank hblank,
        List.nil_append]
    · rw [List.filter_cons_of_pos (by simp [hblank]), List.flatMap_cons, List.flatMap_cons, ih]

/-! ### However a trace state is split -/

/-- Repeated headers are read as the one header that joins them with commas. So it does not matter how many headers
carry the values: any groups of neighbours may be joined. Nor does it matter where headers stand that hold nothing but
padding and commas. -/
theorem repeated_headers_are_one_list :
    (∀ values, ReadAlike values [",".intercalate values]) ∧
      (∀ groups : List (List String), ReadAlike (groups.map (",".intercalate ·)) groups.flatten) ∧
      ∀ values, ReadAlike (values.filter fun value => !isBlank value) values := by
  refine ⟨fun values => .of_texts ?_, fun groups => .of_texts ?_,
    fun values => .of_texts (textsOf_filter_isBlank values)⟩
  · have hone : textsOf [",".intercalate values] = memberTexts (",".intercalate values).toList :=
      List.flatMap_singleton _ _
    rw [hone, memberTexts_intercalate]
  · induction groups with
    | nil => rfl
    | cons group groups ih =>
      have hcons : textsOf (",".intercalate group :: groups.map (",".intercalate ·)) =
          memberTexts (",".intercalate group).toList ++ textsOf (groups.map (",".intercalate ·)) := List.flatMap_cons
      have hflatten : textsOf (group ++ groups.flatten) = textsOf group ++ textsOf groups.flatten := List.flatMap_append
      rw [List.map_cons, List.flatten_cons, hcons, hflatten, memberTexts_intercalate, ih]

end TraceState
end Tracing
