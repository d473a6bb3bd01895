import Tracing.Proofs.Number.Packing

/-! # Positive numbers of double precision

A positive number stands for a value, and two that stand for one value are the same. Arithmetic comes to the number that
the exact value rounds to, which is that value itself if it can be written; comparisons, whole parts and whole numbers
are exact. -/

namespace Tracing.Number

open Float.Model Float.Model.UnpackedFloat

/-- The number is positive and stands for the value. -/
def HasValue (x : Float) (v : ℚ) : Prop :=
  ∃ m e h, x.toModel = .pack (.finite .positive m e h) ∧ Canonical m e ∧ (m : ℚ) * 2 ^ e = v

/-- The number is what the value rounds to. -/
def Approximates (x : Float) (v : ℚ) : Prop := ∃ w, HasValue x w ∧ RoundsTo v w

theorem eq_of_toModel_eq {x y : Float} (h : x.toModel = y.toModel) : x = y := congrArg Float.ofModel h

theorem model_eq_of_toBits_eq {a b : Float.Model} (h : a.toBits = b.toBits) : a = b := by
  cases a
  cases b
  cases h
  rfl

/-- A number is packed from what it unpacks to. -/
theorem toModel_eq_pack (x : Float) : x.toModel = .pack x.toModel.unpack :=
  model_eq_of_toBits_eq (congrArg UInt64.ofBitVec (pack_unpack_of_valid x.toModel.valid).symm)

/-- Every number that unpacks as positive stands for a value. -/
theorem hasValue_of_unpack {x : Float} {m : ℕ} {e : ℤ} {h : 0 < m} (hx : x.toModel.unpack = .finite .positive m e h) :
    HasValue x (m * 2 ^ e) :=
  ⟨m, e, h, (toModel_eq_pack x).trans (congrArg Float.Model.pack hx), canonical_of_unpack hx, rfl⟩

section Values
variable {x y : Float} {u v : ℚ}

theorem HasValue.exists_unpack (hx : HasValue x v) :
    ∃ m e h, x.toModel.unpack = .finite .positive m e h ∧ Canonical m e ∧ (m : ℚ) * 2 ^ e = v := by
  obtain ⟨m, e, h, hx, hc, hv⟩ := hx
  exact ⟨m, e, h, hx ▸ unpack_pack h hc, hc, hv⟩

theorem approximates_of_isRoundingOf {z : UnpackedFloat} (hx : x.toModel = .pack z) (hz : IsRoundingOf z v) :
    Approximates x v := by
  obtain ⟨m, e, h, rfl, hc, hrounds⟩ := hz
  exact ⟨_, ⟨m, e, h, hx, hc, rfl⟩, hrounds⟩

theorem HasValue.pos (hx : HasValue x v) : 0 < v := by
  obtain ⟨m, e, h, -, -, rfl⟩ := hx
  have hm : (0 : ℚ) < m := by exact_mod_cast h
  positivity

theorem HasValue.least_le (hx : HasValue x v) : 2 ^ (-1074 : ℤ) ≤ v := by
  obtain ⟨m, e, h, -, hc, rfl⟩ := hx
  exact least_le_of_pos h hc.ge

/-- Two numbers that stand for the same value are the same. -/
theorem HasValue.unique (hx : HasValue x v) (hy : HasValue y v) : x = y := by
  obtain ⟨m₁, e₁, h₁, hx, hc₁, hv₁⟩ := hx
  obtain ⟨m₂, e₂, h₂, hy, hc₂, hv₂⟩ := hy
  have he : e₁ = e₂ := by
    rcases lt_trichotomy e₁ e₂ with h | h | h
    · exact absurd (hv₁.trans hv₂.symm) (hc₁.lt_of_exponent_lt hc₂ h).ne
    · exact h
    · exact absurd (hv₂.trans hv₁.symm) (hc₂.lt_of_exponent_lt hc₁ h).ne
  subst he
  have hm : m₁ = m₂ := by
    have hpow : (2 : ℚ) ^ e₁ ≠ 0 := by positivity
    exact_mod_cast mul_right_cancel₀ hpow (hv₁.trans hv₂.symm)
  subst hm
  exact eq_of_toModel_eq (hx.trans hy.symm)

/-- A value that can be written is not changed by rounding. -/
theorem Approximates.exact (hx : Approximates x v) {j n : ℕ} (hj : j ≤ 1074) (hn : n < 2 ^ 53) (hv : v * 2 ^ j = n) :
    HasValue x v := by
  obtain ⟨w, hw, hrounds⟩ := hx
  have hsmall : v * 2 ^ j < 2 ^ 53 := by
    rw [hv]
    exact_mod_cast hn
  obtain ⟨hlow, hhigh⟩ := hrounds j hj hsmall n
  have hsame : w * 2 ^ j = v * 2 ^ j := by
    rw [hv]
    exact le_antisymm (hhigh hv.le) (hlow hv.ge)
  exact mul_right_cancel₀ (by positivity) hsame ▸ hw

/-! ### Arithmetic -/

section Arithmetic
variable (hx : HasValue x u) (hy : HasValue y v)
include hx hy

theorem HasValue.mul (hlow : 2 ^ (-1074 : ℤ) ≤ u * v) (hhigh : u * v < 2 ^ 53) : Approximates (x * y) (u * v) := by
  obtain ⟨m₁, e₁, h₁, hux, hc₁, rfl⟩ := hx.exists_unpack
  obtain ⟨m₂, e₂, h₂, huy, hc₂, rfl⟩ := hy.exists_unpack
  refine approximates_of_isRoundingOf ?_ (isRoundingOf_mul h₁ h₂ hc₁ hc₂ hlow hhigh)
  show Float.Model.pack (UnpackedFloat.mul .binary64 x.toModel.unpack y.toModel.unpack) = _
  rw [hux, huy]

theorem HasValue.div (hlow : 2 ^ (-1074 : ℤ) ≤ u / v) (hhigh : u / v < 2 ^ 53) : Approximates (x / y) (u / v) := by
  obtain ⟨m₁, e₁, h₁, hux, hc₁, rfl⟩ := hx.exists_unpack
  obtain ⟨m₂, e₂, h₂, huy, hc₂, rfl⟩ := hy.exists_unpack
  refine approximates_of_isRoundingOf ?_ (isRoundingOf_div h₁ h₂ hlow hhigh)
  show Float.Model.pack (UnpackedFloat.div .binary64 x.toModel.unpack y.toModel.unpack) = _
  rw [hux, huy]

theorem HasValue.add (hhigh : u + v < 2 ^ 53) : Approximates (x + y) (u + v) := by
  obtain ⟨m₁, e₁, h₁, hux, hc₁, rfl⟩ := hx.exists_unpack
  obtain ⟨m₂, e₂, h₂, huy, hc₂, rfl⟩ := hy.exists_unpack
  refine approximates_of_isRoundingOf ?_ (isRoundingOf_add h₁ h₂ hc₁ hc₂ hhigh)
  show Float.Model.pack (UnpackedFloat.add .binary64 x.toModel.unpack y.toModel.unpack) = _
  rw [hux, huy]

theorem HasValue.sub (hlt : v < u) (hhigh : u < 2 ^ 53) : Approximates (x - y) (u - v) := by
  obtain ⟨m₁, e₁, h₁, hux, hc₁, rfl⟩ := hx.exists_unpack
  obtain ⟨m₂, e₂, h₂, huy, hc₂, rfl⟩ := hy.exists_unpack
  refine approximates_of_isRoundingOf ?_ (isRoundingOf_sub h₁ h₂ hc₁ hc₂ hlt hhigh)
  show Float.Model.pack (UnpackedFloat.sub .binary64 x.toModel.unpack y.toModel.unpack) = _
  rw [hux, huy]

/-! ### Comparisons -/

theorem HasValue.compare : x.toModel.compare y.toModel = some (compare u v) := by
  obtain ⟨m₁, e₁, h₁, hux, hc₁, rfl⟩ := hx.exists_unpack
  obtain ⟨m₂, e₂, h₂, huy, hc₂, rfl⟩ := hy.exists_unpack
  show UnpackedFloat.compare x.toModel.unpack y.toModel.unpack = _
  rw [hux, huy, compare_eq h₁ h₂ hc₁ hc₂]

theorem HasValue.lt_iff : x < y ↔ u < v := by
  have hcompare := hx.compare hy
  show decide ((x.toModel.compare y.toModel == some .lt) = true) = true ↔ _
  rw [hcompare]
  simp [compare_lt_iff_lt]

theorem HasValue.le_iff : x ≤ y ↔ u ≤ v := by
  have hcompare := hx.compare hy
  show decide ((x.toModel.compare y.toModel).any (·.isLE) = true) = true ↔ _
  rw [hcompare]
  rcases lt_trichotomy u v with h | rfl | h
  · simp [compare_lt_iff_lt.mpr h, h.le]
  · simp
  · simp [compare_gt_iff_gt.mpr h, h]

end Arithmetic

theorem unpack_zero : (0.0 : Float).toModel.unpack = .zero .positive := by
  have hzero : (0.0 : Float) = Float.ofBits 0 := by decide +kernel
  rw [hzero]
  rfl

section Zero
variable (hx : HasValue x u)
include hx

theorem HasValue.sub_self : x - x = 0.0 := by
  obtain ⟨m, e, h, hux, -, -⟩ := hx.exists_unpack
  refine eq_of_toModel_eq ?_
  show Float.Model.pack (UnpackedFloat.sub .binary64 x.toModel.unpack x.toModel.unpack) = _
  rw [hux, sub_self_eq]
  decide +kernel

theorem HasValue.sub_zero : x - 0.0 = x := by
  obtain ⟨m, e, h, hux, -, -⟩ := hx.exists_unpack
  refine eq_of_toModel_eq ?_
  show Float.Model.pack (UnpackedFloat.sub .binary64 x.toModel.unpack (0.0 : Float).toModel.unpack) = _
  rw [hux, unpack_zero]
  exact ((toModel_eq_pack x).trans (congrArg Float.Model.pack hux)).symm

theorem HasValue.zero_lt : 0.0 < x := by
  obtain ⟨m, e, h, hux, -, -⟩ := hx.exists_unpack
  show decide (UnpackedFloat.lt (0.0 : Float).toModel.unpack x.toModel.unpack = true) = true
  rw [hux, unpack_zero]
  rfl

theorem HasValue.not_lt_zero : ¬ x < 0.0 := by
  obtain ⟨m, e, h, hux, -, -⟩ := hx.exists_unpack
  show ¬ decide (UnpackedFloat.lt x.toModel.unpack (0.0 : Float).toModel.unpack = true) = true
  rw [hux, unpack_zero]
  exact Bool.false_ne_true

theorem HasValue.zero_le : 0.0 ≤ x := by
  obtain ⟨m, e, h, hux, -, -⟩ := hx.exists_unpack
  show decide (UnpackedFloat.le (0.0 : Float).toModel.unpack x.toModel.unpack = true) = true
  rw [hux, unpack_zero]
  rfl

theorem HasValue.beq_zero : (x == 0.0) = false := by
  obtain ⟨m, e, h, hux, -, -⟩ := hx.exists_unpack
  show UnpackedFloat.beq x.toModel.unpack (0.0 : Float).toModel.unpack = false
  rw [hux, unpack_zero]
  rfl

theorem HasValue.isNaN : x.isNaN = false := by
  obtain ⟨m, e, h, hux, -, -⟩ := hx.exists_unpack
  show UnpackedFloat.isNaN x.toModel.unpack = false
  rw [hux]
  rfl

/-- The sign of a positive number is not that of a zero below all positive numbers. -/
theorem HasValue.toBits_ne : x.toBits ≠ 0x8000000000000000 := by
  obtain ⟨m, e, h, hux, -, -⟩ := hx.exists_unpack
  intro hbits
  have hunpack : x.toModel.unpack = .zero .negative := by
    show UnpackedFloat.unpack .binary64 x.toBits.toBitVec = _
    rw [hbits]
    rfl
  rw [hux] at hunpack
  cases hunpack

end Zero

/-! ### Whole numbers -/

theorem hasValue_ofNat {n : ℕ} (hpos : 0 < n) (hlt : n < 2 ^ 53) : HasValue (UInt64.ofNat n).toFloat n := by
  have hlow : (2 : ℚ) ^ (-1074 : ℤ) ≤ n * 2 ^ (0 : ℤ) := least_le_of_pos hpos (by norm_num)
  have hhigh : (n : ℚ) * 2 ^ (0 : ℤ) < 2 ^ 53 := by
    rw [zpow_zero, mul_one]
    exact_mod_cast hlt
  have hround := isRoundingOf_round hpos hlow hhigh
  rw [zpow_zero, mul_one] at hround
  have hn : (UInt64.ofNat n).toNat = n := UInt64.toNat_ofNat_of_lt' (lt_trans hlt (by decide))
  have happrox : Approximates (UInt64.ofNat n).toFloat n := by
    refine approximates_of_isRoundingOf ?_ hround
    show Float.Model.pack (UnpackedFloat.normalize .binary64 ((UInt64.ofNat n).toNat : ℤ) 0 .positive) = _
    rw [hn, normalize_of_pos hpos]
  exact happrox.exact (Nat.zero_le _) hlt (by simp)

theorem HasValue.toUInt64 (hx : HasValue x v) (hlt : v < 2 ^ 53) : x.toUInt64 = UInt64.ofNat ⌊v⌋₊ := by
  obtain ⟨m, e, h, hux, -, rfl⟩ := hx.exists_unpack
  have hfloor : ⌊(m : ℚ) * 2 ^ e⌋₊ < 2 ^ 53 := (Nat.floor_lt (by positivity)).mpr (by exact_mod_cast hlt)
  show UInt64.ofNatClamp (UnpackedFloat.toInt 0 (UInt64.size - 1) x.toModel.unpack).toNat = _
  rw [hux]
  show UInt64.ofNatClamp (roundToInt .positive m e).toNat = _
  rw [roundToInt_eq, Int.toNat_natCast]
  rw [UInt64.ofNatClamp, dif_pos (lt_trans hfloor (by decide))]
  exact UInt64.ofNatLT_eq_ofNat _

/-- What a number has beyond a smaller whole number is exact. -/
theorem HasValue.sub_ofNat (hx : HasValue x u) (hhigh : u < 2 ^ 53) {n : ℕ} (hpos : 0 < n) (hlt : n < u) :
    HasValue (x - (UInt64.ofNat n).toFloat) (u - n) := by
  have hn : n < 2 ^ 53 := by exact_mod_cast lt_trans hlt hhigh
  have happrox := hx.sub (hasValue_ofNat hpos hn) hlt hhigh
  obtain ⟨m, e, h, -, hc, rfl⟩ := hx
  have he : e ≤ 0 := by
    by_contra he
    have hge := hc.ge
    have hfull : (2 : ℚ) ^ 52 ≤ m := by exact_mod_cast hc.full.resolve_right (by omega)
    have hpow : (2 : ℚ) ^ (1 : ℤ) ≤ 2 ^ e := zpow_le_zpow_right₀ (by norm_num) (by omega)
    have hbig := mul_le_mul hfull hpow (by positivity) (by positivity)
    norm_num at hbig hhigh
    linarith
  obtain ⟨j, hj⟩ : ∃ j : ℕ, (j : ℤ) = -e := ⟨(-e).toNat, by omega⟩
  have hvalue : (m : ℚ) * 2 ^ e * 2 ^ j = m := by
    rw [mul_assoc, ← zpow_natCast, ← zpow_add₀ two_ne_zero, hj, add_neg_cancel, zpow_zero, mul_one]
  have hpow : (0 : ℚ) < 2 ^ j := by positivity
  have hle : n * 2 ^ j ≤ m := by
    have hscaled := mul_lt_mul_of_pos_right hlt hpow
    rw [hvalue] at hscaled
    exact_mod_cast hscaled.le
  have hm := hc.lt
  refine happrox.exact (j := j) (n := m - n * 2 ^ j) (by have := hc.ge; omega) (by omega) ?_
  rw [sub_mul, hvalue, Nat.cast_sub hle]
  push_cast
  rfl

end Values

/-! ### All numbers -/

theorem eq_of_unpack_zero {x : Float} {s : Sign} (hx : x.toModel.unpack = .zero s) :
    x = Float.ofModel (.pack (.zero s)) :=
  eq_of_toModel_eq ((toModel_eq_pack x).trans (congrArg Float.Model.pack hx))

theorem hasValue_one : HasValue 1.0 1 := by
  have hone : (1.0 : Float) = (UInt64.ofNat 1).toFloat := by decide +kernel
  rw [hone]
  exact_mod_cast hasValue_ofNat one_pos (by norm_num)

theorem lt_zero_of_unpack_infinity {x : Float} (hx : x.toModel.unpack = .infinity .negative) : x < 0.0 := by
  show decide (UnpackedFloat.lt x.toModel.unpack (0.0 : Float).toModel.unpack = true) = true
  rw [hx, unpack_zero]
  rfl

theorem lt_zero_of_unpack_finite {x : Float} {m : ℕ} {e : ℤ} {h : 0 < m}
    (hx : x.toModel.unpack = .finite .negative m e h) : x < 0.0 := by
  show decide (UnpackedFloat.lt x.toModel.unpack (0.0 : Float).toModel.unpack = true) = true
  rw [hx, unpack_zero]
  rfl

theorem one_lt_of_unpack_infinity {x : Float} (hx : x.toModel.unpack = .infinity .positive) :
    ¬ x < 0.0 ∧ 1.0 < x := by
  obtain ⟨m, e, h, hone, -, -⟩ := hasValue_one.exists_unpack
  constructor
  · show ¬ decide (UnpackedFloat.lt x.toModel.unpack (0.0 : Float).toModel.unpack = true) = true
    rw [hx, unpack_zero]
    exact Bool.false_ne_true
  · show decide (UnpackedFloat.lt (1.0 : Float).toModel.unpack x.toModel.unpack = true) = true
    rw [hx, hone]
    rfl

/-- A number is below zero, a zero, above one, or one that stands for a value up to one. -/
theorem cases_of_isNaN_eq_false {x : Float} (hx : x.isNaN = false) :
    x < 0.0 ∨ x = 0.0 ∨ x = -0.0 ∨ (¬ x < 0.0 ∧ 1.0 < x) ∨ ∃ v, HasValue x v ∧ v ≤ 1 := by
  cases hunpack : x.toModel.unpack with
  | notANumber =>
    have hnan : x.isNaN = true := by
      show UnpackedFloat.isNaN x.toModel.unpack = true
      rw [hunpack]
      rfl
    rw [hnan] at hx
    cases hx
  | infinity s =>
    cases s with
    | negative => exact .inl (lt_zero_of_unpack_infinity hunpack)
    | positive => exact .inr (.inr (.inr (.inl (one_lt_of_unpack_infinity hunpack))))
  | zero s =>
    have hzero := eq_of_unpack_zero hunpack
    cases s with
    | negative =>
      have hnegative : Float.ofModel (.pack (.zero .negative)) = -0.0 := by decide +kernel
      exact .inr (.inr (.inl (hzero.trans hnegative)))
    | positive =>
      have hpositive : Float.ofModel (.pack (.zero .positive)) = 0.0 := by decide +kernel
      exact .inr (.inl (hzero.trans hpositive))
  | finite s m e h =>
    cases s with
    | negative => exact .inl (lt_zero_of_unpack_finite hunpack)
    | positive =>
      have hvalue := hasValue_of_unpack hunpack
      rcases le_or_gt ((m : ℚ) * 2 ^ e) 1 with hle | hgt
      · exact .inr (.inr (.inr (.inr ⟨_, hvalue, hle⟩)))
      · exact .inr (.inr (.inr (.inl ⟨hvalue.not_lt_zero, (hasValue_one.lt_iff hvalue).mpr hgt⟩)))

end Tracing.Number
