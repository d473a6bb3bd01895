import Tracing.Number.Decimal
import Tracing.Proofs.Number.Double

/-! # Reading decimal fractions

A decimal fraction with a zero before the point and a few digits after it is read as the number of double precision
that its value rounds to. -/

namespace Tracing.Number

/-- The text consists of decimal digits. -/
def AreDigits (cs : List Char) : Prop := ∀ c ∈ cs, c.isDigit = true

theorem digitValue_of_isDigit {c : Char} (h : c.isDigit = true) : digitValue c = some (c.toNat - 48) := by
  have hrange : '0' ≤ c ∧ c ≤ '9' := by simpa [Char.isDigit, Char.le_def] using h
  rw [digitValue, if_pos hrange]

theorem isDigit_of_isDigit {c : Char} (h : c.isDigit = true) : isDigit c = true := by
  rw [isDigit, digitValue_of_isDigit h]
  rfl

/-- The number that digits write. -/
theorem natValue_eq {cs : List Char} (h : AreDigits cs) : natValue cs = Nat.ofDigitChars 10 cs 0 := by
  have happend : ∀ n, appendDigits n cs = Nat.ofDigitChars 10 cs n := by
    induction cs with
    | nil =>
      intro n
      rfl
    | cons c cs ih =>
      intro n
      have hrest := ih (fun d hd => h d (List.mem_cons_of_mem _ hd)) (n * 10 + (c.toNat - 48))
      rw [Nat.ofDigitChars_cons, Nat.mul_comm]
      simp only [appendDigits, List.foldl_cons, digitValue_of_isDigit (h c List.mem_cons_self)]
      exact hrest
  exact happend 0

section Fraction
variable {ds : List Char} (hdigits : AreDigits ds)
include hdigits

theorem readDecimal_fraction :
    readDecimal ('0' :: '.' :: ds) = some { digits := Nat.ofDigitChars 10 ds 0, exponent := -ds.length } := by
  have hall : ∀ c ∈ ds, isDigit c = true := fun c hc => isDigit_of_isDigit (hdigits c hc)
  have hzero : isDigit '0' = true := rfl
  have hpoint : isDigit '.' = false := rfl
  have hvalue : natValue (['0'] ++ ds) = Nat.ofDigitChars 10 ds 0 := by
    rw [natValue_eq (fun c hc => ?_)]
    · rfl
    · rcases List.mem_cons.mp hc with rfl | hc
      · rfl
      · exact hdigits c hc
  have hwhole : ('0' :: '.' :: ds).takeWhile isDigit = ['0'] := by simp [hzero, hpoint]
  have hrest : ('0' :: '.' :: ds).dropWhile isDigit = '.' :: ds := by simp [hzero, hpoint]
  unfold readDecimal
  rw [hwhole, hrest]
  show (if ['0'] = [] ∧ ds.takeWhile isDigit = [] then none
    else (readExponent (ds.dropWhile isDigit)).map fun exponent => ({
      digits := natValue (['0'] ++ ds.takeWhile isDigit),
      exponent := exponent - (ds.takeWhile isDigit).length } : Decimal)) = _
  rw [List.takeWhile_eq_self_iff.mpr hall, List.dropWhile_eq_nil_iff.mpr hall, if_neg (by simp), hvalue]
  simp [readExponent]

theorem readFloat_fraction : readFloat ('0' :: '.' :: ds) =
    some (Decimal.toFloat { digits := Nat.ofDigitChars 10 ds 0, exponent := -ds.length }) := by
  have hword : ∀ c cs, c ≠ '0' → foldWord ('0' :: '.' :: ds) ≠ c :: cs := by
    intro c cs hc h
    exact hc (List.cons.inj h).1.symm
  have hinfinite : ¬ (foldWord ('0' :: '.' :: ds) = "inf".toList ∨ foldWord ('0' :: '.' :: ds) = "infinity".toList) :=
    not_or.mpr ⟨hword 'i' _ (by decide), hword 'i' _ (by decide)⟩
  have hnan : foldWord ('0' :: '.' :: ds) ≠ "nan".toList := hword 'n' _ (by decide)
  show readMagnitude ('0' :: '.' :: ds) = _
  unfold readMagnitude
  dsimp only
  rw [if_neg hinfinite, if_neg hnan, readDecimal_fraction hdigits]
  rfl

end Fraction

theorem hasValue_powerOfTen {e : ℕ} (he : e ≤ 4) (hsize : e < Float.exactlyRepresentablePowersOfTen.size) :
    HasValue Float.exactlyRepresentablePowersOfTen[e] (10 ^ e) := by
  have hpower : Float.exactlyRepresentablePowersOfTen[e]? = some (UInt64.ofNat (10 ^ e)).toFloat := by
    clear hsize
    interval_cases e <;> decide +kernel
  have hlt : 10 ^ e < 2 ^ 53 := lt_of_le_of_lt (Nat.pow_le_pow_right (by norm_num) he) (by norm_num)
  obtain ⟨_, heq⟩ := Array.getElem?_eq_some_iff.mp hpower
  rw [heq]
  exact_mod_cast hasValue_ofNat (Nat.pow_pos (by norm_num)) hlt

/-- A decimal fraction of a few digits is read as the number that it rounds to. -/
theorem approximates_toFloat {d e : ℕ} (hpos : 0 < d) (hlt : d < 2 ^ 53) (he : 0 < e) (he' : e ≤ 4) :
    Approximates (Decimal.toFloat { digits := d, exponent := -e }) (d / 10 ^ e) := by
  have hleading : ¬ ((-e : ℤ) + (Nat.toDigits 10 d).length > 400) ∧
      ¬ ((-e : ℤ) + (Nat.toDigits 10 d).length < -400) := by
    have hlength : (Nat.toDigits 10 d).length ≤ 16 :=
      (Nat.length_toDigits_le_iff (by norm_num) (by norm_num)).mpr (by omega)
    omega
  have hscientific : Decimal.toFloat { digits := d, exponent := -e } = Float.ofScientific d true e := by
    unfold Decimal.toFloat
    dsimp only
    rw [if_neg hpos.ne', if_neg hleading.1, if_neg hleading.2, if_pos (by omega), Int.natAbs_neg, Int.natAbs_natCast]
  have hd : (1 : ℚ) ≤ d := by exact_mod_cast hpos
  have hd' : (d : ℚ) < 2 ^ 53 := by exact_mod_cast hlt
  have hpow : (10 : ℚ) ^ e ≤ 10 ^ 4 := pow_le_pow_right₀ (by norm_num) he'
  have hone : (1 : ℚ) ≤ 10 ^ e := one_le_pow₀ (by norm_num)
  rw [hscientific, Float.ofScientific, dif_pos ⟨hlt, by omega⟩]
  refine (hasValue_ofNat hpos hlt).div (hasValue_powerOfTen he' _) (least_le_of_one_le (n := 14) (by norm_num) ?_) ?_
  · rw [div_mul_eq_mul_div, le_div_iff₀ (by positivity)]
    linarith
  · exact lt_of_le_of_lt (div_le_self (by positivity) hone) hd'

end Tracing.Number
