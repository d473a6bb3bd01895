import Tracing.Proofs.Carrier.Overwriting

/-! # Names beyond the seven-bit code

A list writes a header under its name in the lower case of the whole repertoire, but compares names by the letters of
the seven-bit code only. If a name holds a letter beyond that code with another lower case, the name that is written
does not count as the same: the header is not found under the name that it was written under, and writing it again puts
another header beside it. Under every other name a header that was written is found, and stands alone. -/

namespace Tracing

open Text

/-! ### Lower case beyond the seven-bit code -/

namespace Text
variable {c : Char} {cs : List Char}

/-- No character beyond the seven-bit code has a lower case other than itself. -/
def KeepsForeign (cs : List Char) : Prop := ∀ c ∈ cs, isAscii c = true ∨ lowerCaseChar c = [c]

instance (cs : List Char) : Decidable (KeepsForeign cs) :=
  inferInstanceAs (Decidable (∀ c ∈ cs, isAscii c = true ∨ lowerCaseChar c = [c]))

theorem foldAsciiChar_of_not_ascii (h : isAscii c = false) : foldAsciiChar c = c := by
  have hcode : 128 ≤ c.toNat := by simpa [isAscii] using h
  refine if_neg fun hletter => ?_
  have hlast : c.toNat ≤ 'Z'.toNat := hletter.2
  exact absurd (hcode.trans hlast) (by decide)

theorem isAscii_foldAsciiChar_eq (c : Char) : isAscii (foldAsciiChar c) = isAscii c := by
  cases h : isAscii c with
  | true => exact isAscii_foldAsciiChar h
  | false => rw [foldAsciiChar_of_not_ascii h, h]

/-- The lower case of a character at its place in a text. -/
def lowerCaseAt (before : List Char) (c : Char) (cs : List Char) : List Char :=
  if c = 'Σ' then [if meetsCased before && !meetsCased cs then 'ς' else 'σ'] else lowerCaseChar c

theorem lowerCaseAfter_cons (before : List Char) (c : Char) (cs : List Char) :
    lowerCaseAfter before (c :: cs) = lowerCaseAt before c cs ++ lowerCaseAfter (c :: before) cs := rfl

theorem lowerCaseAt_ne_nil (before : List Char) (c : Char) (cs : List Char) : lowerCaseAt before c cs ≠ [] := by
  unfold lowerCaseAt lowerCaseChar
  split
  · exact List.cons_ne_nil _ _
  · split
    · exact List.cons_ne_nil _ _
    · split
      · exact List.cons_ne_nil _ _
      · split <;> exact List.cons_ne_nil _ _

theorem length_le_lowerCaseAfter (before cs : List Char) : cs.length ≤ (lowerCaseAfter before cs).length := by
  induction cs generalizing before with
  | nil => exact Nat.le_refl _
  | cons c cs ih =>
    have hfirst := List.length_pos_iff.mpr (lowerCaseAt_ne_nil before c cs)
    have hrest := ih (c :: before)
    rw [lowerCaseAfter_cons, List.length_append, List.length_cons]
    omega

theorem foldAscii_append (cs ds : List Char) : foldAscii (cs ++ ds) = foldAscii cs ++ foldAscii ds := List.map_append

theorem length_foldAscii (cs : List Char) : (foldAscii cs).length = cs.length := List.length_map _

/-- A character beyond the seven-bit code stays the same up to the case of that code just if it is its own lower
case. -/
theorem foldAscii_eq_singleton_iff (h : isAscii c = false) : foldAscii cs = [foldAsciiChar c] ↔ cs = [c] := by
  rw [foldAsciiChar_of_not_ascii h]
  constructor
  · intro heq
    obtain ⟨d, rfl, hd⟩ := List.map_eq_singleton_iff.mp heq
    have hforeign : isAscii d = false := by rw [← isAscii_foldAsciiChar_eq, hd, h]
    rw [← hd, foldAsciiChar_of_not_ascii hforeign]
  · rintro rfl
    exact congrArg (fun d => [d]) (foldAsciiChar_of_not_ascii h)

theorem foldAscii_lowerCaseAt_iff (before : List Char) (c : Char) (cs : List Char) :
    foldAscii (lowerCaseAt before c cs) = [foldAsciiChar c] ↔ isAscii c = true ∨ lowerCaseChar c = [c] := by
  cases h : isAscii c with
  | true =>
    have hcode : c.toNat < 128 := of_decide_eq_true h
    have hsigma : c ≠ 'Σ' := by
      rintro rfl
      exact absurd hcode (by decide)
    have hlower : lowerCaseAt before c cs = [foldAsciiChar c] := by
      rw [lowerCaseAt, if_neg hsigma, lowerCaseChar, if_pos hcode]
    rw [hlower]
    exact iff_of_true (congrArg (fun d => [d]) (foldAsciiChar_idem c)) (.inl rfl)
  | false =>
    rw [foldAscii_eq_singleton_iff h, or_iff_right Bool.false_ne_true]
    by_cases hsigma : c = 'Σ'
    · subst hsigma
      rw [lowerCaseAt, if_pos rfl]
      -- Neither form of the small letter is the capital one.
      refine iff_of_false ?_ (by decide)
      split <;> decide
    · rw [lowerCaseAt, if_neg hsigma]

/-- A text and its lower case differ in the case of the seven-bit code only, just if all characters beyond it are
kept. -/
theorem foldAscii_lowerCaseAfter_iff (before cs : List Char) :
    foldAscii (lowerCaseAfter before cs) = foldAscii cs ↔ KeepsForeign cs := by
  induction cs generalizing before with
  | nil => exact iff_of_true rfl nofun
  | cons c cs ih =>
    have hcons : foldAscii (c :: cs) = [foldAsciiChar c] ++ foldAscii cs := rfl
    unfold KeepsForeign at ih ⊢
    rw [List.forall_mem_cons, ← foldAscii_lowerCaseAt_iff before c cs, ← ih (c :: before), lowerCaseAfter_cons,
      foldAscii_append, hcons]
    constructor
    · intro heq
      -- No character gets shorter, so each of them is matched by its own lower case.
      have hlength := congrArg List.length heq
      have hfirst := List.length_pos_iff.mpr (lowerCaseAt_ne_nil before c cs)
      have hrest := length_le_lowerCaseAfter (c :: before) cs
      simp only [List.length_append, length_foldAscii, List.length_singleton] at hlength
      exact List.append_inj heq (by rw [length_foldAscii, List.length_singleton]; omega)
    · rintro ⟨hfirst, hrest⟩
      rw [hfirst, hrest]

end Text

theorem sameName_lowerName_self_iff {name : String} :
    sameName (lowerName name) name = true ↔ KeepsForeign name.toList := by
  rw [sameName_iff, lowerName, String.toList_ofList]
  exact foldAscii_lowerCaseAfter_iff [] name.toList

/-! ### Lists -/

namespace HeaderList
variable {key : String}

/-- The headers of other names, in order. -/
def without (l : HeaderList) (key : String) : List Header := l.headers.filter fun e => !sameName e.1 key

/-- Writes values under one name, one after the other. -/
def setAll (l : HeaderList) (key : String) (values : List String) : HeaderList :=
  values.foldl (fun l value => l.set key value) l

theorem setAll_concat (l : HeaderList) (key : String) (values : List String) (value : String) :
    l.setAll key (values ++ [value]) = (l.setAll key values).set key value := by
  simp [setAll, List.foldl_append]

/-- The headers of other names are those from before; of the headers written before, those that do not count as of the
name stay too. -/
theorem without_set (l : HeaderList) (key value : String) :
    (l.set key value).without key =
      l.without key ++ if sameName (lowerName key) key then [] else [(lowerName key, value)] := by
  unfold without set
  rw [List.filter_append, List.filter_filter]
  cases h : sameName (lowerName key) key <;> simp [h]

theorem without_setAll (l : HeaderList) (key : String) (values : List String) :
    (l.setAll key values).without key =
      l.without key ++ if sameName (lowerName key) key then [] else values.map fun value => (lowerName key, value) := by
  induction values using List.reverseRecOn with
  | nil => simp [setAll]
  | append_singleton values value ih =>
    rw [setAll_concat, without_set, ih]
    split <;> simp

theorem headers_setAll (l : HeaderList) (key : String) (values : List String) (value : String) :
    (l.setAll key (values ++ [value])).headers = (l.setAll key values).without key ++ [(lowerName key, value)] := by
  rw [setAll_concat]
  rfl

theorem values_set_self (l : HeaderList) (key value : String) :
    (l.set key value).values key = if sameName (lowerName key) key then [value] else [] := by
  have hothers : ((l.without key).filter fun e => sameName e.1 key) = [] := by
    refine List.filter_eq_nil_iff.mpr fun e he => ?_
    simpa using (List.mem_filter.mp he).2
  have hvalues : (l.set key value).values key =
      ((l.without key ++ [(lowerName key, value)]).filter fun e => sameName e.1 key).map Prod.snd := rfl
  rw [hvalues, List.filter_append, hothers]
  cases h : sameName (lowerName key) key <;> simp [h]

end HeaderList

namespace Carrier

/-- After values have been written under a name that keeps its letters beyond the seven-bit code, the name answers with
the last of them only, and just one header of the name is left. Under any other name nothing is found, and a header is
left for each value. The headers of other names stay in order. -/
theorem written_header_is_found_iff (l : HeaderList) (key : String) (earlier : List String) (value : String) :
    let written := l.setAll key (earlier ++ [value])
    if KeepsForeign key.toList then
      (list written).get? key = some value ∧ (list written).getAll? key = some [value] ∧
        written.headers = l.without key ++ [(lowerName key, value)]
    else
      (list written).get? key = none ∧ (list written).getAll? key = none ∧
        written.headers = l.without key ++ (earlier ++ [value]).map fun value => (lowerName key, value) := by
  intro written
  have hvalues : written.values key = if sameName (lowerName key) key then [value] else [] := by
    rw [← HeaderList.values_set_self (l.setAll key earlier), ← HeaderList.setAll_concat]
  have hheaders : written.headers = _ := HeaderList.headers_setAll l key earlier value
  rw [HeaderList.without_setAll] at hheaders
  have hget : (list written).get? key = (written.values key).head? := rfl
  have hgetAll : (list written).getAll? key = if written.values key = [] then none else some (written.values key) := rfl
  rw [hget, hgetAll, hvalues, hheaders]
  cases hsame : sameName (lowerName key) key with
  | true =>
    have hkeeps := sameName_lowerName_self_iff.mp hsame
    rw [if_pos hkeeps, if_pos rfl, if_pos rfl, if_neg (List.cons_ne_nil _ _), List.append_nil]
    exact ⟨rfl, rfl, rfl⟩
  | false =>
    have hchanges : ¬KeepsForeign key.toList := fun hkeeps =>
      Bool.false_ne_true (hsame.symm.trans (sameName_lowerName_self_iff.mpr hkeeps))
    rw [if_neg hchanges, if_neg Bool.false_ne_true, if_neg Bool.false_ne_true, if_pos rfl, List.map_append,
      List.append_assoc]
    exact ⟨rfl, rfl, rfl⟩

/-- A list does not find a header under a name with a capital letter beyond the seven-bit code, and keeps it when the
name is written again. -/
theorem capital_accent_hides_header :
    (list ((⟨[]⟩ : HeaderList).set "É" "v")).get? "É" = none ∧
      (list ((⟨[]⟩ : HeaderList).set "É" "v")).getAll? "É" = none ∧
      (((⟨[]⟩ : HeaderList).set "É" "v").set "É" "w").headers = [("é", "v"), ("é", "w")] ∧
      ¬ ∀ (l : HeaderList) (key value : String), (list (l.set key value)).get? key = some value := by
  have hlost : (list ((⟨[]⟩ : HeaderList).set "É" "v")).get? "É" = none := by decide +kernel
  refine ⟨hlost, by decide +kernel, by decide +kernel, fun h => ?_⟩
  have hfound := h ⟨[]⟩ "É" "v"
  rw [hlost] at hfound
  cases hfound

end Carrier
end Tracing
