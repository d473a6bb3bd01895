import Tracing.Proofs.Number.Digits
import Tracing.Proofs.Sampling.Rounding
import Tracing.Proofs.TraceState.RoundTrip

/-! # Sample rates in trace states

The text of a rounded rate has at most four digits after the point, which write the number of steps. What is read from
it is near enough to the rate to be rounded to it. So a trace state tells the rounded rate that was recorded in it. -/

namespace Tracing.SampleRate

open Number Text

/-! ### Texts of rates -/

theorem trimEndBy_append (p : Char → Bool) (cs : List Char) :
    ∃ dropped, cs = trimEndBy p cs ++ dropped ∧ ∀ c ∈ dropped, p c = true := by
  refine ⟨(cs.reverse.takeWhile p).reverse, ?_, fun c hc => ?_⟩
  · rw [trimEndBy, ← List.reverse_append, List.takeWhile_append_dropWhile, List.reverse_reverse]
  · exact List.mem_takeWhile_imp (List.mem_reverse.mp hc)

/-- The digits after the point write the number of steps, but for zeros at the end. -/
theorem fractionDigits_eq {n : ℕ} (hlt : n < 10000) : AreDigits (fractionDigits n) ∧
    ∃ zeros, (fractionDigits n).length + zeros = 4 ∧ Nat.ofDigitChars 10 (fractionDigits n) 0 * 10 ^ zeros = n := by
  have hlength : (Nat.toDigits 10 n).length ≤ 4 := (Nat.length_toDigits_le_iff (by norm_num) (by norm_num)).mpr hlt
  obtain ⟨dropped, hpadded, hdropped⟩ := trimEndBy_append (· == '0')
    (List.replicate (4 - (Nat.toDigits 10 n).length) '0' ++ Nat.toDigits 10 n)
  change _ = fractionDigits n ++ dropped at hpadded
  have hzeros : dropped = List.replicate dropped.length '0' :=
    List.eq_replicate_of_mem fun c hc => beq_iff_eq.mp (hdropped c hc)
  refine ⟨fun c hc => ?_, dropped.length, ?_, ?_⟩
  · have hmem : c ∈ List.replicate (4 - (Nat.toDigits 10 n).length) '0' ++ Nat.toDigits 10 n :=
      hpadded ▸ List.mem_append_left _ hc
    rcases List.mem_append.mp hmem with hmem | hmem
    · rw [List.eq_of_mem_replicate hmem]
      rfl
    · exact Nat.isDigit_of_mem_toDigits (by norm_num) (by norm_num) hmem
  · have hsize := congrArg List.length hpadded
    rw [List.length_append, List.length_replicate, List.length_append] at hsize
    omega
  · have hvalue := congrArg (fun cs => Nat.ofDigitChars 10 cs 0) hpadded
    rw [Nat.ofDigitChars_append, Nat.ofDigitChars_replicate_zero, Nat.mul_zero, Nat.ofDigitChars_ten_toDigits,
      Nat.ofDigitChars_append, hzeros, Nat.ofDigitChars_replicate_zero] at hvalue
    rw [Nat.mul_comm]
    exact hvalue.symm

/-- The steps that are counted for the text. -/
theorem toUInt64_nearest_mul_steps {k : ℕ} (hpos : 0 < k) (hle : k ≤ 10000) :
    (nearest (ofSteps k * steps)).toUInt64.toNat = k := by
  rw [nearest_of_approximates hpos hle (approximates_ofSteps hpos hle),
    (hasValue_ofNat hpos (by omega)).toUInt64 (by exact_mod_cast (by omega : k < 2 ^ 53)), Nat.floor_natCast]
  exact UInt64.toNat_ofNat_of_lt' (lt_of_le_of_lt hle (by decide))

theorem text_ofSteps {k : ℕ} (hpos : 0 < k) (hlt : k < 10000) (hne : fractionDigits k ≠ []) :
    (text (ofSteps k)).toList = '0' :: '.' :: fractionDigits k := by
  obtain ⟨g, hg, -⟩ := approximates_ofSteps hpos hlt.le
  have hwhole : k / 10000 = 0 := Nat.div_eq_of_lt hlt
  have hrest : k % 10000 = k := Nat.mod_eq_of_lt hlt
  unfold text
  dsimp only
  rw [toUInt64_nearest_mul_steps hpos hlt.le, if_neg hg.toBits_ne, hwhole, hrest, if_neg hne]
  simp

/-- The text of a rate: a few digits, perhaps with a point and a sign, from which a probability is read that is rounded
to the rate. -/
structure Tells (cs : List Char) (rate : Float) : Prop where
  chars : ∀ c ∈ cs, c.isDigit = true ∨ c = '.' ∨ c = '-'
  length : cs.length ≤ 6
  read : ∃ y, readFloat cs = some y ∧ (0.0 ≤ y && y ≤ 1.0) = true ∧ round y = rate

theorem tells_ofSteps {k : ℕ} (hpos : 0 < k) (hlt : k < 10000) : Tells (text (ofSteps k)).toList (ofSteps k) := by
  obtain ⟨hdigits, zeros, hlength, hvalue⟩ := fractionDigits_eq hlt
  have hne : fractionDigits k ≠ [] := by
    intro hnil
    rw [hnil, Nat.ofDigitChars_nil] at hvalue
    omega
  rw [text_ofSteps hpos hlt hne]
  generalize fractionDigits k = ds at hdigits hlength hvalue hne
  refine ⟨fun c hc => ?_, ?_, _, readFloat_fraction hdigits, ?_⟩
  · simp only [List.mem_cons] at hc
    rcases hc with rfl | rfl | hc
    · exact .inl rfl
    · exact .inr (.inl rfl)
    · exact .inl (hdigits c hc)
  · simp only [List.length_cons]
    omega
  · have hlong : 0 < ds.length := List.length_pos_iff.mpr hne
    generalize Nat.ofDigitChars 10 ds 0 = d at hvalue
    have hd : 0 < d := Nat.pos_of_ne_zero fun hzero => by simp [hzero] at hvalue; omega
    have hdk : d ≤ k := hvalue ▸ Nat.le_mul_of_pos_right d (Nat.pow_pos (by norm_num))
    have happrox := approximates_toFloat (e := ds.length) hd (by omega) hlong (by omega)
    have hsame : (d : ℚ) / 10 ^ ds.length = k / 10000 := by
      have hscale : (10000 : ℚ) = 10 ^ ds.length * 10 ^ zeros := by
        rw [← pow_add, hlength]
        norm_num
      rw [hscale, ← hvalue]
      push_cast
      field_simp
    rw [hsame] at happrox
    obtain ⟨v, hv, hv1, -⟩ := exists_value_of_approximates hpos hlt.le happrox
    have hle := (hv.le_iff hasValue_one).mpr hv1
    exact ⟨by simp [hv.zero_le, hle], round_of_approximates hpos hlt.le happrox⟩

/-- The text of a rounded rate tells that rate. -/
theorem tells_round (r : Float) : Tells (text (round r)).toList (round r) := by
  rcases round_cases r with ⟨k, hle, hr⟩ | hr
  · rw [hr]
    rcases Nat.eq_zero_or_pos k with rfl | hpos
    · have htext : (text (ofSteps 0)).toList = ['0'] := by decide +kernel
      rw [htext]
      exact ⟨by simp, by decide, 0.0, by decide +kernel, by decide +kernel, by decide +kernel⟩
    · rcases Nat.eq_or_lt_of_le hle with rfl | hlt
      · have htext : (text (ofSteps 10000)).toList = ['1'] := by decide +kernel
        rw [htext]
        exact ⟨by simp, by decide, 1.0, by decide +kernel, by decide +kernel, by decide +kernel⟩
      · exact tells_ofSteps hpos hlt
  · have htext : (text (-0.0)).toList = ['-', '0'] := by decide +kernel
    rw [hr, htext]
    exact ⟨by simp, by decide, -0.0, by decide +kernel, by decide +kernel, by decide +kernel⟩

/-! ### The recorded rate -/

theorem plain_of_isDigit {c : Char} (h : c.isDigit = true) :
    isAscii c = true ∧ TraceState.isValueChar c = true ∧ c ≠ ' ' := by
  have hne : ∀ d : Char, d.isDigit = false → c ≠ d := fun d hd hcd => by
    rw [hcd, hd] at h
    cases h
  have hrange : 48 ≤ c.toNat ∧ c.toNat ≤ 57 := by
    simp only [Char.isDigit, Bool.and_eq_true, decide_eq_true_eq, ge_iff_le, UInt32.le_iff_toNat_le] at h
    exact h
  refine ⟨?_, ?_, hne ' ' rfl⟩
  · simp only [isAscii, decide_eq_true_eq]
    omega
  · have hlow : ' ' ≤ c := Char.le_def.mpr (UInt32.le_iff_toNat_le.mpr (Nat.le_trans (by decide) hrange.1))
    have hhigh : c ≤ '~' := Char.le_def.mpr (UInt32.le_iff_toNat_le.mpr (Nat.le_trans hrange.2 (by decide)))
    simp [TraceState.isValueChar, hlow, hhigh, hne ',' rfl, hne '=' rfl]

section Member
variable {cs : List Char} {rate : Float} (h : Tells cs rate)
include h

theorem Tells.not_mem_semicolon : ';' ∉ cs := by
  intro hc
  rcases h.chars _ hc with hc | hc | hc
  · cases hc
  · cases hc
  · cases hc

theorem Tells.plain {c : Char} (hc : c ∈ 's' :: ':' :: cs) :
    isAscii c = true ∧ TraceState.isValueChar c = true ∧ c ≠ ' ' := by
  simp only [List.mem_cons] at hc
  rcases hc with rfl | rfl | hc
  · decide
  · decide
  · rcases h.chars c hc with hdigit | rfl | rfl
    · exact plain_of_isDigit hdigit
    · decide
    · decide

theorem Tells.isValue : TraceState.isValue ('s' :: ':' :: cs) = true := by
  have hlength := h.length
  refine TraceState.isValue_iff.mpr ⟨List.cons_ne_nil _ _, ?_, fun c hc => (h.plain hc).2.1, fun hlast => ?_⟩
  · rw [byteLength_of_ascii fun c hc => (h.plain hc).1]
    simp only [List.length_cons, TraceState.maxTextLength]
    omega
  · exact (h.plain (List.mem_of_getLast? hlast)).2.2 rfl

/-- The rate is read from the member that was written for it. -/
theorem Tells.ofValue : SampleRate.ofValue ('s' :: ':' :: cs) = some rate := by
  obtain ⟨y, hread, hrange, hround⟩ := h.read
  have hpieces : split ';' ('s' :: ':' :: cs) = ['s' :: ':' :: cs] := by
    refine split_of_not_mem ?_
    simp [h.not_mem_semicolon]
  have hpair : splitOnce ':' ('s' :: ':' :: cs) = some (['s'], cs) := splitOnce_eq_some_iff.mpr ⟨rfl, by decide⟩
  have hattributes : attributes ('s' :: ':' :: cs) = [(['s'], cs)] := by
    rw [attributes, hpieces, List.filterMap_cons_some hpair, List.filterMap_nil]
  unfold SampleRate.ofValue
  rw [hattributes]
  simp only [rateAttribute, List.find?_cons, beq_self_eq_true, Option.bind_eq_bind, Option.bind_some, hread, hrange,
    if_true, hround]

end Member

/-- The member that records a rate. -/
def recordOf (rate : Float) : Member := ⟨vendorKey, "s:" ++ text (round rate)⟩

theorem toList_value (rate : Float) : (recordOf rate).value.toList = 's' :: ':' :: (text (round rate)).toList := by
  show ("s:" ++ text (round rate)).toList = _
  rw [String.toList_append]
  rfl

theorem isValue_recordOf (rate : Float) : TraceState.isValue (recordOf rate).value.toList = true := by
  rw [toList_value]
  exact (tells_round rate).isValue

/-- The member that records the rate stands in front. -/
theorem record_eq (s : TraceState) (rate : Float) : record s rate = ⟨recordOf rate ::
    if (s.remove vendorKey).members.length = TraceState.maxMembers then (s.remove vendorKey).members.dropLast
    else (s.remove vendorKey).members⟩ := by
  have hkey : TraceState.isKey vendorKey.toList = true := by decide
  have hvalue : TraceState.isValue ("s:" ++ text (round rate)).toList = true := isValue_recordOf rate
  unfold record TraceState.insert
  rw [hkey, hvalue]
  rfl

theorem wellFormed_recordOf (rate : Float) : TraceState.WellFormed [recordOf rate] where
  key m hm := by
    rw [List.mem_singleton.mp hm]
    show TraceState.isKey vendorKey.toList = true
    decide
  value m hm := List.mem_singleton.mp hm ▸ isValue_recordOf rate
  distinct := List.nodup_singleton _
  size := by simp [TraceState.maxMembers]

theorem byteLength_recordOf (rate : Float) : byteLength (TraceState.encode [recordOf rate]) ≤ 259 := by
  have hvalue : byteLength (recordOf rate).value.toList ≤ 256 := (TraceState.isValue_iff.mp (isValue_recordOf rate)).2.1
  have hkey : byteLength vendorKey.toList = 2 := by decide
  have hsign : '='.utf8Size = 1 := rfl
  show byteLength (vendorKey.toList ++ '=' :: (recordOf rate).value.toList) ≤ _
  rw [byteLength_append, byteLength_cons, hkey, hsign]
  omega

/-- A rate that is recorded alone goes into a header. -/
theorem fitsHeader_record (rate : Float) : (record .empty rate).FitsHeader := by
  rw [record_eq]
  exact ⟨wellFormed_recordOf rate, Nat.le_trans (byteLength_recordOf rate) (by decide)⟩

/-- The state tells the rate that was recorded in it last, rounded. -/
theorem ofState_record (s : TraceState) (rate : Float) : ofState (record s rate) = some (round rate) := by
  have hget : ∀ kept, TraceState.get? ⟨recordOf rate :: kept⟩ vendorKey = some (recordOf rate).value := by
    intro kept
    rw [TraceState.get?, List.find?_cons_of_pos]
    · rfl
    · exact beq_self_eq_true vendorKey
  rw [record_eq, ofState, hget, Option.bind_eq_bind, Option.bind_some, toList_value]
  exact (tells_round rate).ofValue

end Tracing.SampleRate
