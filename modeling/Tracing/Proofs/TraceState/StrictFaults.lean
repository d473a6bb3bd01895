import Tracing.Proofs.TraceState.Strict
import Tracing.Proofs.TraceState.Verdicts

/-! # The fault that strict reading gives

A strict reader looks for signs in all texts before it checks any key or value, so the first text without a sign is its
fault, whatever is wrong with the texts before it. If all texts have signs, it takes them one by one as a lenient
reader does, and its fault is the first that the lenient one reports. -/

namespace Tracing.TraceState

open Text

section
variable {held ms : List Member} {text : List Char} {texts before rest : List (List Char)} {e : TraceStateError}

theorem exists_ofChars (h : '=' ∈ text) : ∃ m, Member.ofChars text = some m := by
  cases hm : Member.ofChars text with
  | none => exact absurd h (Member.ofChars_eq_none_iff.mp hm)
  | some m => exact ⟨m, rfl⟩

/-! ### Strict reading -/

theorem membersOfTexts_of_signed (h : ∀ text ∈ texts, '=' ∈ text) : ∃ ms, membersOfTexts texts = .ok ms := by
  induction texts with
  | nil => exact ⟨[], rfl⟩
  | cons text texts ih =>
    obtain ⟨hfirst, hrest⟩ := List.forall_mem_cons.mp h
    obtain ⟨m, hm⟩ := exists_ofChars hfirst
    obtain ⟨ms, hms⟩ := ih hrest
    exact ⟨m :: ms, by simp [membersOfTexts, hm, hms, Except.map]⟩

theorem membersOfTexts_of_unsigned (hbefore : ∀ text ∈ before, '=' ∈ text) (h : '=' ∉ text) :
    membersOfTexts (before ++ text :: rest) = .error (.member (String.ofList text)) := by
  induction before with
  | nil => simp [membersOfTexts, Member.ofChars_eq_none_iff.mpr h]
  | cons first before ih =>
    obtain ⟨hfirst, hbefore⟩ := List.forall_mem_cons.mp hbefore
    obtain ⟨m, hm⟩ := exists_ofChars hfirst
    simp [membersOfTexts, hm, ih hbefore, Except.map]

theorem acceptTexts_cons_of_signed (h : ∀ other ∈ text :: texts, '=' ∈ other) :
    acceptTexts held (text :: texts) = (acceptText held text >>= fun m => acceptTexts (held ++ [m]) texts) := by
  obtain ⟨hfirst, hrest⟩ := List.forall_mem_cons.mp h
  obtain ⟨m, hm⟩ := exists_ofChars hfirst
  -- Cutting the other texts comes first, but it has no fault to give.
  obtain ⟨ms, hms⟩ := membersOfTexts_of_signed hrest
  rw [acceptText_of_some hm]
  simp only [acceptTexts, membersOfTexts, hm, hms]
  rfl

/-! ### Lenient reading -/

theorem parseTexts_of_error (h : acceptText held text = .error e) :
    (parseTexts held (text :: texts)).2.head? = some e := by
  rw [parseTexts, h]
  cases e <;> rfl

theorem parseTexts_of_ok {m : Member} (h : acceptText held text = .ok m) :
    parseTexts held (text :: texts) = parseTexts (held ++ [m]) texts := by
  rw [parseTexts, h]

/-- What comes later does not change the first fault. -/
theorem head?_parseTexts_append (h : (parseTexts held before).2.head? = some e) :
    (parseTexts held (before ++ rest)).2.head? = some e := by
  induction before generalizing held with
  | nil => cases h
  | cons first before ih =>
    rw [List.cons_append]
    cases hfirst : acceptText held first with
    | error e' =>
      rw [parseTexts_of_error hfirst] at h ⊢
      exact h
    | ok m =>
      rw [parseTexts_of_ok hfirst] at h ⊢
      exact ih h

/-- Texts without a fault are all kept. -/
theorem parseTexts_append (h : parseTexts held before = (ms, [])) :
    parseTexts held (before ++ rest) = parseTexts ms rest := by
  induction before generalizing held with
  | nil =>
    obtain rfl : held = ms := congrArg Prod.fst h
    rfl
  | cons first before ih =>
    obtain ⟨m, hm, hbefore⟩ := parseTexts_cons_eq_faultless_iff.mp h
    rw [List.cons_append, parseTexts_of_ok hm, ih hbefore]

/-- Of texts with signs none is refused for want of one. -/
theorem head?_parseTexts_ne_member (h : ∀ text ∈ texts, '=' ∈ text) (unsigned : String) :
    (parseTexts held texts).2.head? ≠ some (.member unsigned) := by
  induction texts generalizing held with
  | nil => exact nofun
  | cons text texts ih =>
    obtain ⟨hfirst, hrest⟩ := List.forall_mem_cons.mp h
    cases htext : acceptText held text with
    | ok m =>
      rw [parseTexts_of_ok htext]
      exact ih hrest
    | error e =>
      rw [parseTexts_of_error htext]
      rintro ⟨⟩
      rcases firstFault_or_passes held text with ⟨e, hfault⟩ | ⟨m, hpass⟩
      · rw [hfault.acceptText] at htext
        cases htext
        cases hfault with
        | member unsigned => exact unsigned hfirst
      · rw [hpass.acceptText] at htext
        split at htext <;> cases htext

/-! ### The first fault -/

theorem acceptTexts_eq_error_iff (h : ∀ text ∈ texts, '=' ∈ text) :
    acceptTexts held texts = .error e ↔ (parseTexts held texts).2.head? = some e := by
  induction texts generalizing held with
  | nil => exact ⟨nofun, nofun⟩
  | cons text texts ih =>
    obtain ⟨hfirst, hrest⟩ := List.forall_mem_cons.mp h
    rw [acceptTexts_cons_of_signed h]
    cases htext : acceptText held text with
    | error e' =>
      rw [parseTexts_of_error htext]
      exact ⟨fun h => congrArg some (Except.error.inj h), fun h => congrArg Except.error (Option.some.inj h)⟩
    | ok m =>
      rw [parseTexts_of_ok htext]
      exact ih hrest

/-- A text without a sign is the first fault of a lenient reader just if those before it have none. -/
theorem head?_parseTexts_eq_member_iff (hbefore : ∀ text ∈ before, '=' ∈ text) (h : '=' ∉ text) :
    (parseTexts held (before ++ text :: rest)).2.head? = some (.member (String.ofList text)) ↔
      (parseTexts held before).2 = [] := by
  constructor
  · intro hhead
    cases hfaults : (parseTexts held before).2 with
    | nil => rfl
    | cons e faults =>
      have hfirst : (parseTexts held before).2.head? = some e := by rw [hfaults, List.head?_cons]
      rw [head?_parseTexts_append hfirst] at hhead
      exact absurd (hfirst.trans hhead) (head?_parseTexts_ne_member hbefore _)
  · intro hfaults
    rw [parseTexts_append (Prod.ext rfl hfaults)]
    exact parseTexts_of_error (acceptText_of_none (Member.ofChars_eq_none_iff.mpr h))

end

theorem ofHeader_eq_error_iff {text : String} {e : TraceStateError} :
    ofHeader text = .error e ↔ acceptTexts [] (memberTexts text.toList) = .error e := by
  rw [ofHeader_eq]
  cases acceptTexts [] (memberTexts text.toList) <;> simp [Except.map]

theorem parse_singleton_errors (text : String) : (parse [text]).2 = (parseTexts [] (memberTexts text.toList)).2 := by
  unfold parse
  rw [List.flatMap_singleton]

/-- Strict reading gives the first text without a sign as its fault. This is the first fault that lenient reading
reports just if that finds none in the texts before it. If every text has a sign, strict reading gives the first fault
that lenient reading reports. What is held of a state is read with the same faults. -/
theorem strict_fault_is_first_unsigned (text : String) :
    (∀ before unsigned rest, memberTexts text.toList = before ++ unsigned :: rest → (∀ signed ∈ before, '=' ∈ signed) →
        '=' ∉ unsigned → ofHeader text = .error (.member (String.ofList unsigned)) ∧
          ((parse [text]).2.head? = some (.member (String.ofList unsigned)) ↔ (parseTexts [] before).2 = [])) ∧
      ((∀ signed ∈ memberTexts text.toList, '=' ∈ signed) →
        ∀ e, ofHeader text = .error e ↔ (parse [text]).2.head? = some e) ∧
      ∀ e, Stored.ofHeader text = .error e ↔ ofHeader text = .error e := by
  refine ⟨fun before unsigned rest htexts hbefore hunsigned => ⟨?_, ?_⟩, fun hsigned e => ?_, fun e => ?_⟩
  · rw [ofHeader_eq_error_iff, htexts, acceptTexts, membersOfTexts_of_unsigned hbefore hunsigned]
    rfl
  · rw [parse_singleton_errors, htexts]
    exact head?_parseTexts_eq_member_iff hbefore hunsigned
  · rw [ofHeader_eq_error_iff, parse_singleton_errors]
    exact acceptTexts_eq_error_iff hsigned
  · rw [← Stored.state_ofHeader]
    cases Stored.ofHeader text <;> simp [Except.map]

/-! A text with an invalid key before a text without a sign, and one in which all texts have signs. -/

def sampleFaulty : String := "A=1,b"

def sampleSigned : String := "a=1,A=1,c="

theorem strict_fault_is_first_unsigned_in_sampleFaulty :
    memberTexts sampleFaulty.toList = [['A', '=', '1'], ['b']] ∧ ofHeader sampleFaulty = .error (.member "b") ∧
      (parse [sampleFaulty]).2.head? ≠ some (.member "b") ∧
      (∀ signed ∈ memberTexts sampleSigned.toList, '=' ∈ signed) ∧ ofHeader sampleSigned = .error (.key "A") := by
  have htexts : memberTexts sampleFaulty.toList = [['A', '=', '1']] ++ ['b'] :: [] := by decide
  have hfaults : (parseTexts [] [['A', '=', '1']]).2 ≠ [] := by decide
  have hsigned : ∀ signed ∈ memberTexts sampleSigned.toList, '=' ∈ signed := by decide
  have hlenient : (parse [sampleSigned]).2.head? = some (.key "A") := by decide
  obtain ⟨hunsigned, -, -⟩ := strict_fault_is_first_unsigned sampleFaulty
  obtain ⟨hstrict, hsame⟩ := hunsigned _ _ _ htexts (by decide) (by decide)
  obtain ⟨-, hfirst, -⟩ := strict_fault_is_first_unsigned sampleSigned
  exact ⟨htexts, hstrict, fun h => hfaults (hsame.mp h), hsigned, (hfirst hsigned (.key "A")).mpr hlenient⟩

/-- Strict reading does not always give the first fault. -/
theorem unsigned_text_hides_earlier_fault :
    ofHeader sampleFaulty = .error (.member "b") ∧ (parse [sampleFaulty]).2 = [.key "A", .member "b"] ∧
      ¬ ∀ text e, ofHeader text = .error e → (parse [text]).2.head? = some e := by
  have hstrict : ofHeader sampleFaulty = .error (.member "b") := rfl
  have hlenient : (parse [sampleFaulty]).2 = [.key "A", .member "b"] := by decide
  refine ⟨hstrict, hlenient, fun h => ?_⟩
  have hfirst := h _ _ hstrict
  rw [hlenient] at hfirst
  cases hfirst

end Tracing.TraceState
