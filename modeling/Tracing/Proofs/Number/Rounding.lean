import Mathlib

/-! # Rounding to double precision

A number of double precision is a mantissa of at most 53 bits times a power of two. An operation on such numbers comes
to an exact value and drops the bits of it for which there is no room; of the dropped bits two are kept, which say on
which side of one half the dropped part is. What is left lies between the same multiples of every power of two that
is fine enough to be written. -/

namespace Tracing.Number

open Float.Model Float.Model.UnpackedFloat

/-! ### Dropping bits -/

theorem roundedMantissa_bounds (em : ExtendedMantissa) :
    em.mantissa ≤ em.roundedMantissa ∧ em.roundedMantissa ≤ em.mantissa + 1 := by
  unfold ExtendedMantissa.roundedMantissa Accuracy.roundToNearestEven
  split <;> omega

theorem roundedMantissa_of_whole {em : ExtendedMantissa} (h : (em.roundBit || em.stickyBit) = false) :
    em.roundedMantissa = em.mantissa := by
  obtain ⟨m, roundBit, stickyBit⟩ := em
  obtain ⟨rfl, rfl⟩ : roundBit = false ∧ stickyBit = false := Bool.or_eq_false_iff.mp h
  rfl

/-- The kept bits are the whole part of the number, and the two further bits tell where the rest lies. -/
structure Represents (em : ExtendedMantissa) (w : ℚ) : Prop where
  le : (em.mantissa : ℚ) ≤ w
  lt : w < em.mantissa + 1
  half : em.roundBit = true ↔ em.mantissa + 1 / 2 ≤ w
  exact : em.stickyBit = false ↔ w = em.mantissa ∨ w = em.mantissa + 1 / 2

namespace Represents
variable {em : ExtendedMantissa} {w : ℚ}

theorem nonneg (h : Represents em w) : 0 ≤ w := le_trans (Nat.cast_nonneg _) h.le

theorem natCast (m : ℕ) : Represents (.ofMantissaAndAccuracy m .exact) (m : ℚ) := by
  constructor <;> simp [ExtendedMantissa.ofMantissaAndAccuracy]

/-- Neither bit is set if nothing was dropped. -/
theorem whole_iff (h : Represents em w) : (em.roundBit || em.stickyBit) = false ↔ w = em.mantissa := by
  rw [Bool.or_eq_false_iff, h.exact, Bool.eq_false_iff, ne_eq, h.half]
  constructor
  · rintro ⟨hlow, hw | hw⟩
    · exact hw
    · exact absurd hw.ge hlow
  · intro hw
    exact ⟨by linarith, .inl hw⟩

/-- The last bit becomes the first that is dropped. -/
theorem shiftRightOne (h : Represents em w) : Represents em.shiftRightOne (w / 2) := by
  have hwhole := h.whole_iff
  obtain ⟨m, roundBit, stickyBit⟩ := em
  obtain ⟨hle, hlt, -, -⟩ := h
  dsimp only at hle hlt hwhole
  obtain ⟨q, rfl | rfl⟩ := Nat.even_or_odd' m
  · have hq : 2 * q / 2 = q := by omega
    have hbit : (2 * q % 2 != 0) = false := by simp
    push_cast at hle hlt hwhole
    constructor <;> simp only [ExtendedMantissa.shiftRightOne, hq, hbit, hwhole, Bool.false_eq_true, false_iff]
    · linarith
    · linarith
    · linarith
    · constructor
      · exact fun hw => .inl (by linarith)
      · rintro (hw | hw) <;> linarith
  · have hq : (2 * q + 1) / 2 = q := by omega
    have hbit : ((2 * q + 1) % 2 != 0) = true := by simp
    push_cast at hle hlt hwhole
    constructor <;> simp only [ExtendedMantissa.shiftRightOne, hq, hbit, hwhole, true_iff]
    · linarith
    · linarith
    · linarith
    · constructor
      · exact fun hw => .inr (by linarith)
      · rintro (hw | hw) <;> linarith

theorem shiftRight (h : Represents em w) (n : ℕ) : Represents (em >>> n) (w / 2 ^ n) := by
  induction n with
  | zero =>
    rw [pow_zero, div_one]
    exact h
  | succ n ih =>
    have hstep : w / 2 ^ (n + 1) = w / 2 ^ n / 2 := by rw [pow_succ, div_div]
    rw [hstep]
    exact ih.shiftRightOne

/-- No whole number lies between a number and what it is rounded to. -/
theorem rounded (h : Represents em w) (n : ℕ) :
    ((n : ℚ) ≤ w → n ≤ em.roundedMantissa) ∧ (w ≤ n → em.roundedMantissa ≤ n) := by
  obtain ⟨hlow, hhigh⟩ := roundedMantissa_bounds em
  constructor
  · intro hn
    have hlt : (n : ℚ) < (em.mantissa + 1 : ℕ) := by
      push_cast
      exact lt_of_le_of_lt hn h.lt
    have := Nat.cast_lt.mp hlt
    omega
  · intro hn
    have hle : em.mantissa ≤ n := Nat.cast_le.mp (le_trans h.le hn)
    rcases eq_or_ne w em.mantissa with hw | hw
    · exact (roundedMantissa_of_whole (h.whole_iff.mpr hw)).le.trans hle
    · have hlt : (em.mantissa : ℚ) < n := lt_of_lt_of_le (lt_of_le_of_ne h.le (Ne.symm hw)) hn
      have := Nat.cast_lt.mp hlt
      omega

end Represents

/-! ### Numbers of the format -/

/-- A mantissa and an exponent as the format holds them: the mantissa is full, unless the exponent is the least. -/
structure Canonical (m : ℕ) (e : ℤ) : Prop where
  lt : m < 2 ^ 53
  ge : -1074 ≤ e
  le : e ≤ 971
  full : 2 ^ 52 ≤ m ∨ e = -1074

/-- No multiple of a power of two lies between the two numbers, if that power is fine enough to be written. -/
def RoundsTo (v w : ℚ) : Prop :=
  ∀ j ≤ 1074, v * 2 ^ j < 2 ^ 53 → ∀ n : ℕ, ((n : ℚ) ≤ v * 2 ^ j → n ≤ w * 2 ^ j) ∧ (v * 2 ^ j ≤ n → w * 2 ^ j ≤ n)

/-- The unpacked number is positive, of the format, and what the value rounds to. -/
def IsRoundingOf (u : UnpackedFloat) (v : ℚ) : Prop :=
  ∃ m e h, u = .finite .positive m e h ∧ Canonical m e ∧ RoundsTo v (m * 2 ^ e)

/-- The least exponent at which the format holds a mantissa. -/
def leastExponent (m : ℕ) (e : ℤ) : ℤ := max (m.log2 + 1 + e - 53) (-1074)

theorem targetExponent_eq (m : ℕ) (e : ℤ) :
    Format.binary64.targetExponent (totalExponent m e) = leastExponent m e := rfl

theorem shiftToTargetExponent_eq (m : ℕ) (e : ℤ) (acc : Accuracy) :
    shiftToTargetExponent Format.binary64 m e acc =
      (ExtendedMantissa.ofMantissaAndAccuracy m acc >>> (leastExponent m e - e).toNat,
        e + (leastExponent m e - e).toNat) := rfl

theorem two_pow_log2_le {m : ℕ} (hm : 0 < m) : (2 : ℚ) ^ m.log2 ≤ m := by
  exact_mod_cast Nat.log2_self_le hm.ne'

theorem lt_two_pow_log2 (m : ℕ) : (m : ℚ) + 1 ≤ 2 ^ (m.log2 + 1) := by
  exact_mod_cast Nat.lt_log2_self

/-- A mantissa of one bit too many is even, and is shifted once more. -/
theorem shiftToTargetExponent_rounded {r : ℕ} {t : ℤ} (hpos : 0 < r) (hr : r ≤ 2 ^ 53) (ht : -1074 ≤ t)
    (hle : t ≤ 970) (hfull : 2 ^ 52 ≤ r ∨ t = -1074) :
    ∃ m e, (shiftToTargetExponent Format.binary64 r t .exact).1.mantissa = m ∧
      (shiftToTargetExponent Format.binary64 r t .exact).2 = e ∧ 0 < m ∧ Canonical m e ∧
      (m : ℚ) * 2 ^ e = r * 2 ^ t := by
  rw [shiftToTargetExponent_eq]
  rcases Nat.eq_or_lt_of_le hr with rfl | hlt
  · have hleast : leastExponent (2 ^ 53) t = t + 1 := by
      have hlog : Nat.log2 (2 ^ 53) = 53 := Nat.log2_two_pow
      unfold leastExponent
      rw [hlog]
      omega
    have hone : (t + 1 - t).toNat = 1 := by omega
    refine ⟨2 ^ 52, t + 1, ?_, ?_, by norm_num, ⟨by norm_num, by omega, by omega, .inl (by norm_num)⟩, ?_⟩
    · rw [hleast, hone]
      rfl
    · rw [hleast, hone]
      rfl
    · rw [zpow_add_one₀ (by norm_num)]
      push_cast
      ring
  · have hleast : leastExponent r t = t := by
      have hlog : r.log2 < 53 := (Nat.log2_lt hpos.ne').mpr hlt
      unfold leastExponent
      rcases hfull with hfull | rfl
      · have hlog' : 52 ≤ r.log2 := (Nat.le_log2 hpos.ne').mpr hfull
        omega
      · omega
    have hzero : (t - t).toNat = 0 := by omega
    refine ⟨r, t, ?_, ?_, hpos, ⟨hlt, ht, by omega, hfull⟩, rfl⟩
    · rw [hleast, hzero]
      rfl
    · rw [hleast, hzero]
      simp

/-- Multiples of a finer power of two than the unit lie on the same side of a value and of what it is rounded to. -/
theorem RoundsTo.of_units {v : ℚ} {r : ℕ} {t : ℤ}
    (hfine : ∀ j : ℕ, j ≤ 1074 → v * 2 ^ j < 2 ^ 53 → t ≤ -j)
    (hunits : ∀ n : ℕ, ((n : ℚ) ≤ v * 2 ^ (-t) → n ≤ r) ∧ (v * 2 ^ (-t) ≤ n → r ≤ n)) : RoundsTo v (r * 2 ^ t) := by
  intro j hj hsmall n
  obtain ⟨d, hd⟩ : ∃ d : ℕ, (d : ℤ) = -j - t := ⟨(-j - t).toNat, by have := hfine j hj hsmall; omega⟩
  have hpos : (0 : ℚ) < 2 ^ d := by positivity
  have hsplit : v * 2 ^ (-t) = v * 2 ^ j * 2 ^ d := by
    rw [mul_assoc, ← zpow_natCast, ← zpow_natCast, ← zpow_add₀ two_ne_zero, hd]
    congr 2
    omega
  have hscale : (r : ℚ) * 2 ^ t * 2 ^ j * 2 ^ d = r := by
    rw [mul_assoc, mul_assoc, ← zpow_natCast, ← zpow_natCast, ← zpow_add₀ two_ne_zero, ← zpow_add₀ two_ne_zero, hd]
    have hzero : t + (j + (-j - t)) = 0 := by omega
    rw [hzero, zpow_zero, mul_one]
  obtain ⟨hlow, hhigh⟩ := hunits (n * 2 ^ d)
  push_cast at hlow hhigh
  constructor
  · intro hn
    have hr := hlow (hsplit ▸ mul_le_mul_of_nonneg_right hn hpos.le)
    refine le_of_mul_le_mul_right ?_ hpos
    rw [hscale]
    exact_mod_cast hr
  · intro hn
    have hr := hhigh (hsplit ▸ mul_le_mul_of_nonneg_right hn hpos.le)
    refine le_of_mul_le_mul_right ?_ hpos
    rw [hscale]
    exact_mod_cast hr

section Value
variable {m : ℕ} {e : ℤ} {w : ℚ}

/-- The leading bit of the mantissa bounds the value below. -/
theorem two_zpow_le_value (hpos : 0 < m) (hle : (m : ℚ) ≤ w) (t : ℤ) :
    (2 : ℚ) ^ (m.log2 + e + t) ≤ w * 2 ^ e * 2 ^ t := by
  rw [zpow_add₀ two_ne_zero, zpow_add₀ two_ne_zero, zpow_natCast]
  have hlead : (2 : ℚ) ^ m.log2 ≤ w := le_trans (two_pow_log2_le hpos) hle
  have hscaled := mul_le_mul_of_nonneg_right hlead (by positivity : (0 : ℚ) ≤ 2 ^ e)
  exact mul_le_mul_of_nonneg_right hscaled (by positivity)

theorem leastExponent_le (hpos : 0 < m) (hle : (m : ℚ) ≤ w) {j : ℕ} (hj : j ≤ 1074)
    (hsmall : w * 2 ^ e * 2 ^ j < 2 ^ 53) : leastExponent m e ≤ -j := by
  have hlt : (2 : ℚ) ^ (m.log2 + e + j) < 2 ^ (53 : ℤ) :=
    lt_of_le_of_lt (two_zpow_le_value hpos hle j) (by exact_mod_cast hsmall)
  have := (zpow_lt_zpow_iff_right₀ (by norm_num)).mp hlt
  unfold leastExponent
  omega

/-- In units of the exponent that is aimed at, a value has 53 bits at most. -/
theorem value_units_le (hlt : w < m + 1) :
    w * 2 ^ e * 2 ^ (-leastExponent m e) ≤ ((2 ^ 53 : ℕ) : ℚ) := by
  have hbits : (2 : ℚ) ^ ((m.log2 + 1 : ℕ) + e + -leastExponent m e) ≤ 2 ^ (53 : ℤ) := by
    refine zpow_le_zpow_right₀ (by norm_num) ?_
    unfold leastExponent
    omega
  rw [zpow_add₀ two_ne_zero, zpow_add₀ two_ne_zero, zpow_natCast] at hbits
  have hlead : w ≤ 2 ^ (m.log2 + 1) := le_trans hlt.le (lt_two_pow_log2 m)
  have hscaled := mul_le_mul_of_nonneg_right hlead (by positivity : (0 : ℚ) ≤ 2 ^ e)
  exact le_trans (mul_le_mul_of_nonneg_right hscaled (by positivity)) (by exact_mod_cast hbits)

/-- And it has all of these bits, unless the exponent is the least. -/
theorem le_value_units (hpos : 0 < m) (hle : (m : ℚ) ≤ w) (h : leastExponent m e ≠ -1074) :
    ((2 ^ 52 : ℕ) : ℚ) ≤ w * 2 ^ e * 2 ^ (-leastExponent m e) := by
  have hbits : (m.log2 : ℤ) + e + -leastExponent m e = (52 : ℕ) := by
    unfold leastExponent at h ⊢
    omega
  have hvalue := two_zpow_le_value (e := e) hpos hle (-leastExponent m e)
  rw [hbits, zpow_natCast] at hvalue
  exact_mod_cast hvalue

end Value

theorem mantissa_ofMantissaAndAccuracy (m : ℕ) (acc : Accuracy) :
    (ExtendedMantissa.ofMantissaAndAccuracy m acc).mantissa = m := by
  rcases acc with _ | (_ | _ | _) <;> rfl

/-- Rounding an exact value gives a number of the format that it rounds to. -/
theorem isRoundingOf_roundWithAccuracy {m : ℕ} {e : ℤ} {acc : Accuracy} {w : ℚ}
    (h : Represents (.ofMantissaAndAccuracy m acc) w) (hpos : 0 < m) (hleast : e ≤ leastExponent m e)
    (hlow : 2 ^ (-1074 : ℤ) ≤ w * 2 ^ e) (hhigh : w * 2 ^ e < 2 ^ 53) :
    IsRoundingOf (roundWithAccuracy Format.binary64 .positive m e acc) (w * 2 ^ e) := by
  have hle : (m : ℚ) ≤ w := mantissa_ofMantissaAndAccuracy m acc ▸ h.le
  have hlt : w < (m : ℚ) + 1 := mantissa_ofMantissaAndAccuracy m acc ▸ h.lt
  have hfull := le_value_units (e := e) hpos hle
  have hcapacity := value_units_le (e := e) hlt
  have hfine : ∀ j : ℕ, j ≤ 1074 → w * 2 ^ e * 2 ^ j < 2 ^ 53 → leastExponent m e ≤ -j :=
    fun j => leastExponent_le hpos hle
  have htmin : -1074 ≤ leastExponent m e := le_max_right _ _
  have ht0 : leastExponent m e ≤ 0 := by simpa using hfine 0 (by norm_num) (by simpa using hhigh)
  have hrounded := (h.shiftRight (leastExponent m e - e).toNat).rounded
  have hunits : w / 2 ^ (leastExponent m e - e).toNat = w * 2 ^ e * 2 ^ (-leastExponent m e) := by
    rw [mul_assoc, ← zpow_add₀ two_ne_zero, div_eq_mul_inv, ← zpow_natCast, ← zpow_neg]
    congr 2
    omega
  have hshift : e + ((leastExponent m e - e).toNat : ℤ) = leastExponent m e := by omega
  unfold roundWithAccuracy
  rw [shiftToTargetExponent_eq, hshift]
  dsimp only
  rw [hunits] at hrounded
  generalize (ExtendedMantissa.ofMantissaAndAccuracy m acc >>> (leastExponent m e - e).toNat).roundedMantissa = r
    at hrounded ⊢
  generalize leastExponent m e = t at hfull hcapacity hfine htmin ht0 hrounded ⊢
  have hr53 : r ≤ 2 ^ 53 := (hrounded _).2 hcapacity
  have hr52 : 2 ^ 52 ≤ r ∨ t = -1074 := (em (t = -1074)).symm.imp_left fun hne => (hrounded _).1 (hfull hne)
  have hrpos : 0 < r := by
    rcases hr52 with hr52 | rfl
    · omega
    · refine (hrounded 1).1 ?_
      have hone := mul_le_mul_of_nonneg_right hlow (by positivity : (0 : ℚ) ≤ 2 ^ (-(-1074) : ℤ))
      rwa [← zpow_add₀ two_ne_zero, add_neg_cancel, zpow_zero, ← Nat.cast_one] at hone
  obtain ⟨m', e', hm', he', hpos', hcanonical, hvalue⟩ :=
    shiftToTargetExponent_rounded hrpos hr53 htmin (by omega) hr52
  refine ⟨m', e', hpos', ?_, hcanonical, hvalue ▸ .of_units hfine hrounded⟩
  simp only [hm', he', dif_neg hpos'.ne']

end Tracing.Number
