import Tracing.Proofs.TraceState.RoundTrip

/-! # What lenient reading makes of each text

A text that is read as a list member is held against four rules in order: it has a sign, its key is valid, its value
is valid, and no member that was kept before has its key. The first rule that it breaks is its error. A text that breaks
none is kept, unchanged, as long as there is room; the first such text without room ends the reading. So nothing
valid is lost before that, and nothing else is left out in silence. -/

namespace Tracing

open Text

theorem Member.ofChars_eq_none_iff {cs : List Char} : ofChars cs = none ↔ '=' ∉ cs := by
  rw [ofChars, Option.map_eq_none_iff, splitOnce_eq_none_iff]

/-- The key of a text is what stands before its first sign. -/
theorem Member.ofChars_cut {key : List Char} (hkey : '=' ∉ key) (value : List Char) :
    ofChars (key ++ '=' :: value) = some ⟨String.ofList key, String.ofList value⟩ := by
  rw [ofChars, splitOnce_eq_some_iff.mpr ⟨rfl, hkey⟩]
  rfl

namespace TraceState

/-- The first rule that a text breaks as the next member after the ones held. -/
inductive FirstFault (held : List Member) : List Char → TraceStateError → Prop where
  | member {text : List Char} (unsigned : '=' ∉ text) : FirstFault held text (.member (String.ofList text))
  | key {key value : List Char} (first : '=' ∉ key) (invalid : isKey key = false) :
      FirstFault held (key ++ '=' :: value) (.key (String.ofList key))
  | value {key value : List Char} (valid : isKey key = true) (invalid : isValue value = false) :
      FirstFault held (key ++ '=' :: value) (.value (String.ofList value))
  | duplicate {key value : List Char} (valid : isKey key = true) (valued : isValue value = true)
      (repeated : ∃ m ∈ held, m.key = String.ofList key) :
      FirstFault held (key ++ '=' :: value) (.duplicateKey (String.ofList key))

/-- The text writes a member that breaks no rule after the ones held. -/
structure Passes (held : List Member) (text : List Char) (m : Member) : Prop where
  text_eq : text = m.chars
  key : isKey m.key.toList = true
  value : isValue m.value.toList = true
  fresh : ∀ h ∈ held, h.key ≠ m.key

theorem sign_not_mem_key {key : List Char} (h : isKey key = true) : '=' ∉ key := not_mem_key h (by decide) (by decide)

section Text
variable {held : List Member} {text : List Char} {m : Member} {e : TraceStateError}

/-! ### One text -/

theorem Passes.acceptText (h : Passes held text m) : acceptText held text =
    if held.length = maxMembers then .error (.tooManyMembers maxMembers) else .ok m := by
  have hheld : held.any (fun h => h.key == m.key) = false := by simpa using h.fresh
  rw [h.text_eq, TraceState.acceptText, Member.ofChars_chars h.key]
  simp [accept, h.key, h.value, hheld]

theorem FirstFault.acceptText (h : FirstFault held text e) : acceptText held text = .error e := by
  unfold TraceState.acceptText
  cases h with
  | member unsigned => rw [Member.ofChars_eq_none_iff.mpr unsigned]
  | key first invalid =>
    rw [Member.ofChars_cut first]
    simp [accept, invalid]
  | value valid invalid =>
    rw [Member.ofChars_cut (sign_not_mem_key valid)]
    simp [accept, valid, invalid]
  | @duplicate key value valid valued repeated =>
    have hheld : held.any (fun h => h.key == String.ofList key) = true := by simpa using repeated
    rw [Member.ofChars_cut (sign_not_mem_key valid)]
    simp [accept, valid, valued, hheld]

/-- A text that breaks no rule passes. -/
theorem firstFault_or_passes (held : List Member) (text : List Char) :
    (∃ e, FirstFault held text e) ∨ ∃ m, Passes held text m := by
  cases hsplit : splitOnce '=' text with
  | none => exact .inl ⟨_, .member (splitOnce_eq_none_iff.mp hsplit)⟩
  | some parts =>
    obtain ⟨key, value⟩ := parts
    obtain ⟨rfl, hfirst⟩ := splitOnce_eq_some_iff.mp hsplit
    cases hkey : isKey key with
    | false => exact .inl ⟨_, .key hfirst hkey⟩
    | true =>
      cases hvalue : isValue value with
      | false => exact .inl ⟨_, .value hkey hvalue⟩
      | true =>
        by_cases hheld : ∃ m ∈ held, m.key = String.ofList key
        · exact .inl ⟨_, .duplicate hkey hvalue hheld⟩
        · refine .inr ⟨⟨String.ofList key, String.ofList value⟩, ?_, ?_, ?_, fun m hm heq => hheld ⟨m, hm, heq⟩⟩
          · simp [Member.chars]
          · simpa using hkey
          · simpa using hvalue

/-- Having too many members is no rule that a text could break. -/
theorem FirstFault.ne_tooManyMembers (h : FirstFault held text e) (n : Nat) : e ≠ .tooManyMembers n := by
  cases h <;> simp

theorem FirstFault.unique {e' : TraceStateError} (h : FirstFault held text e) (h' : FirstFault held text e') :
    e = e' := Except.error.inj (h.acceptText.symm.trans h'.acceptText)

theorem Passes.unique {m' : Member} (h : Passes held text m) (h' : Passes held text m') : m = m' := by
  have hsigned : Member.ofChars text = some m := h.text_eq ▸ Member.ofChars_chars h.key
  have hsigned' : Member.ofChars text = some m' := h'.text_eq ▸ Member.ofChars_chars h'.key
  exact Option.some.inj (hsigned.symm.trans hsigned')

/-- A text that breaks a rule does not pass. -/
theorem FirstFault.not_passes (h : FirstFault held text e) : ¬ Passes held text m := by
  intro hpass
  have hboth := hpass.acceptText
  rw [h.acceptText] at hboth
  split at hboth
  · exact h.ne_tooManyMembers _ (Except.error.inj hboth)
  · cases hboth

end Text

/-! ### A list of texts -/

/-- What becomes of a text. -/
inductive Verdict where
  | kept (m : Member)
  | refused (e : TraceStateError)

/-- The members that were kept, in order. -/
def keptOf (verdicts : List Verdict) : List Member :=
  verdicts.filterMap fun
    | .kept m => some m
    | .refused _ => none

/-- The errors that were reported, in order. -/
def refusalsOf (verdicts : List Verdict) : List TraceStateError :=
  verdicts.filterMap fun
    | .kept _ => none
    | .refused e => some e

/-- The verdicts on the texts that follow the members held, one for each text up to the end of the reading. -/
structure Judged (held : List Member) (texts : List (List Char)) (verdicts : List Verdict) : Prop where
  /-- A text is kept just if it passes after what was kept before it, and there is room. -/
  kept : ∀ n (h : n < verdicts.length) text, texts[n]? = some text → ∀ m, verdicts[n] = .kept m ↔
    Passes (held ++ keptOf (verdicts.take n)) text m ∧ (held ++ keptOf (verdicts.take n)).length < maxMembers
  /-- A text is refused just if it breaks a rule, with the first rule that it breaks. -/
  refused : ∀ n (h : n < verdicts.length) text, texts[n]? = some text → ∀ e, verdicts[n] = .refused e ↔
    FirstFault (held ++ keptOf (verdicts.take n)) text e
  length_le : verdicts.length ≤ texts.length
  /-- The reading ends early only at a text that passes, and only for want of room. -/
  last : ∀ text, texts[verdicts.length]? = some text →
    (∃ m, Passes (held ++ keptOf verdicts) text m) ∧ (held ++ keptOf verdicts).length = maxMembers

/-- What the end of the reading reports. -/
def overflowOf (texts : List (List Char)) (verdicts : List Verdict) : List TraceStateError :=
  if verdicts.length < texts.length then [.tooManyMembers maxMembers] else []

namespace Judged
variable {held : List Member} {text : List Char} {texts : List (List Char)} {verdicts : List Verdict}

/-- The end of the list ends the reading. -/
theorem nil (held : List Member) : Judged held [] [] where
  kept n h := absurd h (Nat.not_lt_zero n)
  refused n h := absurd h (Nat.not_lt_zero n)
  length_le := Nat.le_refl _
  last text h := by cases h

/-- A text that passes without room ends the reading. -/
theorem full {m : Member} (hpass : Passes held text m) (hfull : held.length = maxMembers)
    (texts : List (List Char)) : Judged held (text :: texts) [] where
  kept n h := absurd h (Nat.not_lt_zero n)
  refused n h := absurd h (Nat.not_lt_zero n)
  length_le := Nat.zero_le _
  last text' h := by
    obtain rfl : text = text' := Option.some.inj h
    have hheld : held ++ keptOf [] = held := List.append_nil held
    rw [hheld]
    exact ⟨⟨m, hpass⟩, hfull⟩

/-- The verdicts on the texts that follow go on from what the first verdict leaves. -/
theorem cons {verdict : Verdict} (hkept : ∀ m, verdict = .kept m ↔ Passes held text m ∧ held.length < maxMembers)
    (hrefused : ∀ e, verdict = .refused e ↔ FirstFault held text e)
    (hrest : Judged (held ++ keptOf [verdict]) texts verdicts) : Judged held (text :: texts) (verdict :: verdicts) := by
  have hheld : ∀ vs, held ++ keptOf (verdict :: vs) = held ++ keptOf [verdict] ++ keptOf vs := fun vs => by
    have hcons : keptOf (verdict :: vs) = keptOf [verdict] ++ keptOf vs := List.filterMap_append (l := [verdict])
    rw [hcons, List.append_assoc]
  have hnil : held ++ keptOf [] = held := List.append_nil held
  refine ⟨fun n h text' htext => ?_, fun n h text' htext => ?_, Nat.succ_le_succ hrest.length_le, fun text' htext => ?_⟩
  · cases n with
    | zero =>
      obtain rfl : text = text' := Option.some.inj htext
      simpa only [List.take_zero, hnil, List.getElem_cons_zero] using hkept
    | succ n =>
      rw [List.take_succ_cons, hheld]
      exact hrest.kept n (Nat.lt_of_succ_lt_succ h) text' htext
  · cases n with
    | zero =>
      obtain rfl : text = text' := Option.some.inj htext
      simpa only [List.take_zero, hnil, List.getElem_cons_zero] using hrefused
    | succ n =>
      rw [List.take_succ_cons, hheld]
      exact hrest.refused n (Nat.lt_of_succ_lt_succ h) text' htext
  · rw [hheld]
    exact hrest.last text' htext

/-- A text that breaks a rule leaves what is held. -/
theorem refuse {e : TraceStateError} (hfault : FirstFault held text e) (hrest : Judged held texts verdicts) :
    Judged held (text :: texts) (.refused e :: verdicts) := by
  have hheld : held ++ keptOf [.refused e] = held := List.append_nil held
  refine .cons (fun m => ?_) (fun e' => ?_) (hheld.symm ▸ hrest)
  · simp [hfault.not_passes]
  · constructor
    · intro h
      exact Verdict.refused.inj h ▸ hfault
    · intro h
      rw [hfault.unique h]

/-- A text that passes with room left is held from then on. -/
theorem keep {m : Member} (hpass : Passes held text m) (hroom : held.length < maxMembers)
    (hrest : Judged (held ++ [m]) texts verdicts) : Judged held (text :: texts) (.kept m :: verdicts) := by
  refine .cons (fun m' => ?_) (fun e => ?_) hrest
  · constructor
    · intro h
      exact Verdict.kept.inj h ▸ ⟨hpass, hroom⟩
    · intro h
      rw [hpass.unique h.1]
  · constructor
    · intro h
      cases h
    · intro h
      exact absurd hpass h.not_passes

end Judged

/-- Reading comes to a verdict on each text, by what was kept before it. -/
theorem parseTexts_judged (texts : List (List Char)) (held : List Member) (hroom : held.length ≤ maxMembers) :
    ∃ verdicts, Judged held texts verdicts ∧
      parseTexts held texts = (held ++ keptOf verdicts, refusalsOf verdicts ++ overflowOf texts verdicts) := by
  induction texts generalizing held with
  | nil => exact ⟨[], .nil held, by simp [parseTexts, keptOf, refusalsOf, overflowOf]⟩
  | cons text texts ih =>
    have hoverflow : ∀ verdict verdicts,
        overflowOf (text :: texts) (verdict :: verdicts) = overflowOf texts verdicts := by
      intro verdict verdicts
      simp [overflowOf]
    rcases firstFault_or_passes held text with ⟨e, hfault⟩ | ⟨m, hpass⟩
    · obtain ⟨verdicts, hjudged, hparse⟩ := ih held hroom
      refine ⟨.refused e :: verdicts, .refuse hfault hjudged, ?_⟩
      rw [parseTexts, hfault.acceptText, hoverflow]
      cases e with
      | tooManyMembers n => exact absurd rfl (hfault.ne_tooManyMembers n)
      | _ => simp [hparse, keptOf, refusalsOf]
    · by_cases hfull : held.length = maxMembers
      · refine ⟨[], .full hpass hfull texts, ?_⟩
        rw [parseTexts, hpass.acceptText, if_pos hfull]
        simp [keptOf, refusalsOf, overflowOf]
      · have hlt : held.length < maxMembers := Nat.lt_of_le_of_ne hroom hfull
        have hlength : (held ++ [m]).length ≤ maxMembers := by
          rw [List.length_append]
          exact hlt
        obtain ⟨verdicts, hjudged, hparse⟩ := ih (held ++ [m]) hlength
        refine ⟨.kept m :: verdicts, Judged.keep hpass hlt hjudged, ?_⟩
        rw [parseTexts, hpass.acceptText, if_neg hfull, hoverflow]
        simp [hparse, keptOf, refusalsOf]

/-- The texts of the members in repeated headers, in order. -/
def textsOf (values : List String) : List (List Char) := values.flatMap fun v => memberTexts v.toList

/-- Whatever headers are read, the state holds just the texts that are kept, in order and unchanged, and the errors are
one for each text that is refused, in order, and one more, the last, if the reading ends for want of room. A text is
kept just if it has a sign, a valid key before the first sign and a valid value after it, if its key is that of no
member kept before it, and if fewer than 32 were kept. It is refused, with the first of these rules that it breaks,
just if it breaks one of the first four. -/
theorem parse_judges_each_text (values : List String) :
    ∃ verdicts, Judged [] (textsOf values) verdicts ∧
      parse values = (⟨keptOf verdicts⟩, refusalsOf verdicts ++ overflowOf (textsOf values) verdicts) := by
  obtain ⟨verdicts, hjudged, hparse⟩ := parseTexts_judged (textsOf values) [] (Nat.zero_le _)
  refine ⟨verdicts, hjudged, ?_⟩
  rw [List.nil_append] at hparse
  unfold parse
  unfold textsOf at hparse ⊢
  rw [hparse]

end TraceState
end Tracing
