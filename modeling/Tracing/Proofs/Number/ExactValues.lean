import Tracing.Proofs.Number.Rounding

/-! # Operations in double precision

A product, quotient, sum or difference of two positive numbers of double precision is the number that the exact result
rounds to. They are compared by their values, and the whole part of a number is exact. -/

namespace Tracing.Number

open Float.Model Float.Model.UnpackedFloat

/-! ### Products and quotients -/

/-- A rest strictly between the whole numbers is told apart by the side of one half on which it lies. -/
theorem Represents.inexact {q : ℕ} {rest : ℚ} {side : Ordering} (hpos : 0 < rest) (hlt : rest < 1)
    (hside : side = compare rest (1 / 2)) :
    Represents (.ofMantissaAndAccuracy q (.inexact side)) (q + rest) := by
  subst hside
  cases h : compare rest (1 / 2) with
  | lt =>
    rw [compare_lt_iff_lt] at h
    constructor <;> simp [ExtendedMantissa.ofMantissaAndAccuracy, hpos.le, hpos.ne', hlt] <;> linarith
  | eq =>
    rw [compare_eq_iff_eq] at h
    subst h
    constructor <;> simp [ExtendedMantissa.ofMantissaAndAccuracy]
    norm_num
  | gt =>
    rw [compare_gt_iff_gt] at h
    constructor <;> simp [ExtendedMantissa.ofMantissaAndAccuracy, hpos.le, hpos.ne', hlt] <;> linarith

/-- The remainder of a division tells how accurate the quotient is. -/
theorem Represents.div (a : ℕ) {b : ℕ} (hb : 0 < b) :
    Represents (.ofMantissaAndAccuracy (a / b) (accuracyOfFraction (a % b) b)) ((a : ℚ) / b) := by
  have hdiv : (b : ℚ) * (a / b : ℕ) + (a % b : ℕ) = a := by exact_mod_cast Nat.div_add_mod a b
  have hmod := Nat.mod_lt a hb
  generalize a / b = q at hdiv
  generalize a % b = r at hdiv hmod
  have hb' : (0 : ℚ) < b := by exact_mod_cast hb
  have hvalue : (a : ℚ) / b = q + r / b := by
    rw [← hdiv]
    field_simp
  rw [hvalue]
  rcases Nat.eq_zero_or_pos r with rfl | hr
  · rw [Nat.cast_zero, zero_div, add_zero]
    exact .natCast q
  · have hside : compare (2 * r) b = compare ((r : ℚ) / b) (1 / 2) := by
      have hlt : 2 * r < b ↔ (r : ℚ) / b < 1 / 2 := by
        rw [div_lt_div_iff₀ hb' two_pos, one_mul, mul_comm]
        exact_mod_cast Iff.rfl
      have heq : 2 * r = b ↔ (r : ℚ) / b = 1 / 2 := by
        rw [div_eq_div_iff hb'.ne' two_ne_zero, one_mul, mul_comm]
        exact_mod_cast Iff.rfl
      rcases lt_trichotomy (2 * r) b with h | h | h
      · rw [compare_lt_iff_lt.mpr h, compare_lt_iff_lt.mpr (hlt.mp h)]
      · rw [compare_eq_iff_eq.mpr h, compare_eq_iff_eq.mpr (heq.mp h)]
      · have hgt : (1 : ℚ) / 2 < r / b :=
          lt_of_le_of_ne (not_lt.mp (hlt.not.mp h.not_gt)) (Ne.symm (heq.not.mp h.ne'))
        rw [compare_gt_iff_gt.mpr h, compare_gt_iff_gt.mpr hgt]
    rw [accuracyOfFraction, if_neg hr.ne', hside]
    exact .inexact (by positivity) ((div_lt_one hb').mpr (by exact_mod_cast hmod)) rfl

theorem log2_mul_two_pow {m : ℕ} (hpos : 0 < m) (a : ℕ) : (m * 2 ^ a).log2 = m.log2 + a := by
  induction a with
  | zero => simp
  | succ a ih =>
    have hstep : m * 2 ^ (a + 1) = 2 * (m * 2 ^ a) := by ring
    rw [hstep, Nat.log2_two_mul (by positivity), ih, Nat.add_assoc]

/-- A mantissa and an exponent, whatever the exponent, are rounded to a number of the format. -/
theorem isRoundingOf_round {m : ℕ} {e : ℤ} (hpos : 0 < m) (hlow : 2 ^ (-1074 : ℤ) ≤ (m : ℚ) * 2 ^ e)
    (hhigh : (m : ℚ) * 2 ^ e < 2 ^ 53) :
    IsRoundingOf (UnpackedFloat.round Format.binary64 .positive m e) (m * 2 ^ e) := by
  obtain ⟨a, ha⟩ : ∃ a : ℕ, a = (e - leastExponent m e).toNat := ⟨_, rfl⟩
  have hvalue : ((m * 2 ^ a : ℕ) : ℚ) * 2 ^ (e - a) = m * 2 ^ e := by
    push_cast
    rw [mul_assoc, ← zpow_natCast, ← zpow_add₀ two_ne_zero]
    congr 2
    omega
  have hleast : e - a ≤ leastExponent (m * 2 ^ a) (e - a) := by
    unfold leastExponent at ha ⊢
    rw [log2_mul_two_pow hpos]
    omega
  have hrounded := isRoundingOf_roundWithAccuracy (Represents.natCast (m * 2 ^ a)) (by positivity) hleast
    (by rwa [hvalue]) (by rwa [hvalue])
  rw [hvalue] at hrounded
  unfold UnpackedFloat.round
  rw [targetExponent_eq]
  unfold decreaseExponent
  dsimp only
  rw [← ha, Nat.shiftLeft_eq]
  exact hrounded

/-- A product of numbers of the format. -/
theorem isRoundingOf_mul {m₁ m₂ : ℕ} {e₁ e₂ : ℤ} (h₁ : 0 < m₁) (h₂ : 0 < m₂) (hc₁ : Canonical m₁ e₁)
    (hc₂ : Canonical m₂ e₂) (hlow : 2 ^ (-1074 : ℤ) ≤ (m₁ : ℚ) * 2 ^ e₁ * (m₂ * 2 ^ e₂))
    (hhigh : (m₁ : ℚ) * 2 ^ e₁ * (m₂ * 2 ^ e₂) < 2 ^ 53) :
    IsRoundingOf (UnpackedFloat.mul Format.binary64 (.finite .positive m₁ e₁ h₁) (.finite .positive m₂ e₂ h₂))
      (m₁ * 2 ^ e₁ * (m₂ * 2 ^ e₂)) := by
  have hvalue : ((m₁ * m₂ : ℕ) : ℚ) * 2 ^ (e₁ + e₂) = m₁ * 2 ^ e₁ * (m₂ * 2 ^ e₂) := by
    rw [zpow_add₀ two_ne_zero]
    push_cast
    ring
  have hpos : 0 < m₁ * m₂ := Nat.mul_pos h₁ h₂
  have hleast : e₁ + e₂ ≤ leastExponent (m₁ * m₂) (e₁ + e₂) := by
    have hge₁ := hc₁.ge
    have hge₂ := hc₂.ge
    unfold leastExponent
    rcases hc₁.full with hfull | hmin₁
    · have hlog := (Nat.le_log2 hpos.ne').mpr (le_trans hfull (Nat.le_mul_of_pos_right m₁ h₂))
      omega
    · rcases hc₂.full with hfull | hmin₂
      · have hlog := (Nat.le_log2 hpos.ne').mpr (le_trans hfull (Nat.le_mul_of_pos_left m₂ h₁))
        omega
      · omega
  have hrounded :=
    isRoundingOf_roundWithAccuracy (Represents.natCast (m₁ * m₂)) hpos hleast (by rwa [hvalue]) (by rwa [hvalue])
  rwa [hvalue] at hrounded

/-- The exponent of the whole part of a quotient: low enough for a full mantissa, unless it is below all exponents. -/
def quotientExponent (m₁ : ℕ) (e₁ : ℤ) (m₂ : ℕ) (e₂ : ℤ) : ℤ :=
  min (e₁ - e₂) (max ((m₁.log2 : ℤ) + e₁ - (m₂.log2 + e₂) - 53) (-1074))

theorem divCore_eq (m₁ : ℕ) (e₁ : ℤ) (m₂ : ℕ) (e₂ : ℤ) :
    divCore Format.binary64 m₁ e₁ m₂ e₂ =
      let t := quotientExponent m₁ e₁ m₂ e₂
      let m := m₁ * 2 ^ (e₁ - e₂ - t).toNat
      (m / m₂, t, accuracyOfFraction (m % m₂) m₂) := by
  have htotal : totalExponent m₁ e₁ - totalExponent m₂ e₂ = (m₁.log2 : ℤ) + e₁ - (m₂.log2 + e₂) := by
    unfold totalExponent
    omega
  unfold divCore
  rw [htotal]
  dsimp only
  rw [Nat.shiftLeft_eq]
  rfl

/-- A quotient of numbers of the format. -/
theorem isRoundingOf_div {m₁ m₂ : ℕ} {e₁ e₂ : ℤ} (h₁ : 0 < m₁) (h₂ : 0 < m₂)
    (hlow : 2 ^ (-1074 : ℤ) ≤ (m₁ : ℚ) * 2 ^ e₁ / (m₂ * 2 ^ e₂)) (hhigh : (m₁ : ℚ) * 2 ^ e₁ / (m₂ * 2 ^ e₂) < 2 ^ 53) :
    IsRoundingOf (UnpackedFloat.div Format.binary64 (.finite .positive m₁ e₁ h₁) (.finite .positive m₂ e₂ h₂))
      (m₁ * 2 ^ e₁ / (m₂ * 2 ^ e₂)) := by
  obtain ⟨t, ht⟩ : ∃ t, t = quotientExponent m₁ e₁ m₂ e₂ := ⟨_, rfl⟩
  obtain ⟨a, ha⟩ : ∃ a : ℕ, a = (e₁ - e₂ - t).toNat := ⟨_, rfl⟩
  have hcore := divCore_eq m₁ e₁ m₂ e₂
  rw [← ht] at hcore
  dsimp only at hcore
  rw [← ha] at hcore
  have hm₂ : (0 : ℚ) < m₂ := by exact_mod_cast h₂
  have hat : (a : ℤ) = e₁ - e₂ - t := by
    unfold quotientExponent at ht
    omega
  have hvalue : ((m₁ * 2 ^ a : ℕ) : ℚ) / m₂ * 2 ^ t = m₁ * 2 ^ e₁ / (m₂ * 2 ^ e₂) := by
    have he₁ : e₁ = a + t + e₂ := by omega
    rw [he₁, zpow_add₀ two_ne_zero, zpow_add₀ two_ne_zero, zpow_natCast]
    push_cast
    field_simp
  have hquotient : 2 ^ 52 ≤ m₁ * 2 ^ a / m₂ ∨ (t ≤ -1074 ∧ 1 ≤ m₁ * 2 ^ a / m₂) := by
    by_cases hfull : t ≤ (m₁.log2 : ℤ) + e₁ - (m₂.log2 + e₂) - 53
    · refine .inl ((Nat.le_div_iff_mul_le h₂).mpr ?_)
      have hbits : m₂.log2 + 1 + 52 ≤ m₁.log2 + a := by omega
      calc 2 ^ 52 * m₂ ≤ 2 ^ 52 * 2 ^ (m₂.log2 + 1) := Nat.mul_le_mul_left _ Nat.lt_log2_self.le
        _ = 2 ^ (m₂.log2 + 1 + 52) := by ring
        _ ≤ 2 ^ (m₁.log2 + a) := Nat.pow_le_pow_right two_pos hbits
        _ = 2 ^ m₁.log2 * 2 ^ a := Nat.pow_add _ _ _
        _ ≤ m₁ * 2 ^ a := Nat.mul_le_mul_right _ (Nat.log2_self_le h₁.ne')
    · have hmin : t ≤ -1074 := by
        unfold quotientExponent at ht
        omega
      refine .inr ⟨hmin, (Nat.le_div_iff_mul_le h₂).mpr ?_⟩
      have hunit : (2 : ℚ) ^ t ≤ ((m₁ * 2 ^ a : ℕ) : ℚ) / m₂ * 2 ^ t :=
        hvalue ▸ le_trans (zpow_le_zpow_right₀ (by norm_num) hmin) hlow
      have hone := le_of_mul_le_mul_right ((one_mul ((2 : ℚ) ^ t)).le.trans hunit) (by positivity)
      rw [le_div_iff₀ hm₂] at hone
      exact_mod_cast hone
  have hpos : 0 < m₁ * 2 ^ a / m₂ := by omega
  have hleast : t ≤ leastExponent (m₁ * 2 ^ a / m₂) t := by
    unfold leastExponent
    rcases hquotient with hfull | ⟨hmin, -⟩
    · have hlog := (Nat.le_log2 hpos.ne').mpr hfull
      omega
    · omega
  have hrounded :=
    isRoundingOf_roundWithAccuracy (Represents.div (m₁ * 2 ^ a) h₂) hpos hleast (by rwa [hvalue]) (by rwa [hvalue])
  rw [hvalue] at hrounded
  unfold UnpackedFloat.div
  dsimp only
  rw [hcore]
  exact hrounded

theorem decreaseExponent_eq (m : ℕ) {e t : ℤ} (h : t ≤ e) :
    ∃ n, decreaseExponent m e t = (n, t) ∧ (n : ℚ) * 2 ^ t = m * 2 ^ e := by
  obtain ⟨a, ha⟩ : ∃ a : ℕ, a = (e - t).toNat := ⟨_, rfl⟩
  refine ⟨m * 2 ^ a, ?_, ?_⟩
  · unfold decreaseExponent
    dsimp only
    rw [← ha, Nat.shiftLeft_eq]
    congr 1
    omega
  · have he : e = a + t := by omega
    rw [he, zpow_add₀ two_ne_zero, zpow_natCast]
    push_cast
    ring

theorem normalize_of_pos {m : ℕ} (hpos : 0 < m) (e : ℤ) (s : Sign) :
    UnpackedFloat.normalize Format.binary64 m e s = UnpackedFloat.round Format.binary64 .positive m e := by
  have hcompare : compare (m : ℤ) 0 = .gt := compare_gt_iff_gt.mpr (by exact_mod_cast hpos)
  unfold UnpackedFloat.normalize
  rw [hcompare]
  rfl

theorem least_le_of_one_le {v : ℚ} {n : ℕ} (hn : n ≤ 1074) (h : 1 ≤ v * 2 ^ n) : (2 : ℚ) ^ (-1074 : ℤ) ≤ v := by
  have hpow : (2 : ℚ) ^ (-1074 : ℤ) ≤ 2 ^ (-n : ℤ) := zpow_le_zpow_right₀ (by norm_num) (by omega)
  rw [zpow_neg 2 (n : ℤ), zpow_natCast] at hpow
  exact hpow.trans ((inv_le_iff_one_le_mul₀ (by positivity)).mpr h)

theorem least_le_of_pos {m : ℕ} {e : ℤ} (hpos : 0 < m) (he : -1074 ≤ e) : (2 : ℚ) ^ (-1074 : ℤ) ≤ m * 2 ^ e := by
  have hone : (1 : ℚ) ≤ m := by exact_mod_cast hpos
  calc (2 : ℚ) ^ (-1074 : ℤ) ≤ 2 ^ e := zpow_le_zpow_right₀ (by norm_num) he
    _ ≤ m * 2 ^ e := le_mul_of_one_le_left (by positivity) hone

/-- A sum of numbers of the format. -/
theorem isRoundingOf_add {m₁ m₂ : ℕ} {e₁ e₂ : ℤ} (h₁ : 0 < m₁) (h₂ : 0 < m₂) (hc₁ : Canonical m₁ e₁)
    (hc₂ : Canonical m₂ e₂) (hhigh : (m₁ : ℚ) * 2 ^ e₁ + m₂ * 2 ^ e₂ < 2 ^ 53) :
    IsRoundingOf (UnpackedFloat.add Format.binary64 (.finite .positive m₁ e₁ h₁) (.finite .positive m₂ e₂ h₂))
      (m₁ * 2 ^ e₁ + m₂ * 2 ^ e₂) := by
  obtain ⟨n₁, hn₁, hvalue₁⟩ := decreaseExponent_eq m₁ (min_le_left e₁ e₂)
  obtain ⟨n₂, hn₂, hvalue₂⟩ := decreaseExponent_eq m₂ (min_le_right e₁ e₂)
  have hmin : -1074 ≤ min e₁ e₂ := le_min hc₁.ge hc₂.ge
  have hvalue : ((n₁ + n₂ : ℕ) : ℚ) * 2 ^ min e₁ e₂ = m₁ * 2 ^ e₁ + m₂ * 2 ^ e₂ := by
    rw [← hvalue₁, ← hvalue₂]
    push_cast
    ring
  have hpos : 0 < n₁ := by
    have hm₁ : (0 : ℚ) < m₁ := by exact_mod_cast h₁
    have hn : (0 : ℚ) < n₁ * 2 ^ min e₁ e₂ := hvalue₁ ▸ by positivity
    exact_mod_cast pos_of_mul_pos_left hn (by positivity)
  have hrounded := isRoundingOf_round (Nat.add_pos_left hpos n₂) (least_le_of_pos (Nat.add_pos_left hpos n₂) hmin)
    (by rwa [hvalue])
  rw [hvalue] at hrounded
  unfold UnpackedFloat.add
  dsimp only
  rw [hn₁, hn₂]
  dsimp only [Sign.apply]
  rw [← Nat.cast_add, normalize_of_pos (Nat.add_pos_left hpos n₂)]
  exact hrounded

/-- A difference of numbers of the format, the smaller from the larger. -/
theorem isRoundingOf_sub {m₁ m₂ : ℕ} {e₁ e₂ : ℤ} (h₁ : 0 < m₁) (h₂ : 0 < m₂) (hc₁ : Canonical m₁ e₁)
    (hc₂ : Canonical m₂ e₂) (hlt : (m₂ : ℚ) * 2 ^ e₂ < m₁ * 2 ^ e₁) (hhigh : (m₁ : ℚ) * 2 ^ e₁ < 2 ^ 53) :
    IsRoundingOf (UnpackedFloat.sub Format.binary64 (.finite .positive m₁ e₁ h₁) (.finite .positive m₂ e₂ h₂))
      (m₁ * 2 ^ e₁ - m₂ * 2 ^ e₂) := by
  obtain ⟨n₁, hn₁, hvalue₁⟩ := decreaseExponent_eq m₁ (min_le_left e₁ e₂)
  obtain ⟨n₂, hn₂, hvalue₂⟩ := decreaseExponent_eq m₂ (min_le_right e₁ e₂)
  have hmin : -1074 ≤ min e₁ e₂ := le_min hc₁.ge hc₂.ge
  have hless : n₂ < n₁ := by
    rw [← hvalue₁, ← hvalue₂] at hlt
    exact_mod_cast lt_of_mul_lt_mul_right hlt (by positivity)
  obtain ⟨n, rfl⟩ := Nat.exists_eq_add_of_lt hless
  have hvalue : ((n + 1 : ℕ) : ℚ) * 2 ^ min e₁ e₂ = m₁ * 2 ^ e₁ - m₂ * 2 ^ e₂ := by
    rw [← hvalue₁, ← hvalue₂]
    push_cast
    ring
  have hsmall : ((n + 1 : ℕ) : ℚ) * 2 ^ min e₁ e₂ < 2 ^ 53 := by
    have hpos₂ : (0 : ℚ) ≤ m₂ * 2 ^ e₂ := by positivity
    rw [hvalue]
    linarith
  have hrounded := isRoundingOf_round n.succ_pos (least_le_of_pos n.succ_pos hmin) hsmall
  rw [hvalue] at hrounded
  unfold UnpackedFloat.sub
  dsimp only
  rw [hn₁, hn₂]
  dsimp only [Sign.apply]
  have hdifference : ((n₂ + n + 1 : ℕ) : ℤ) - n₂ = (n + 1 : ℕ) := by
    push_cast
    ring
  rw [hdifference, normalize_of_pos n.succ_pos]
  exact hrounded

/-- A number less itself. -/
theorem sub_self_eq (m : ℕ) (e : ℤ) (h : 0 < m) :
    UnpackedFloat.sub Format.binary64 (.finite .positive m e h) (.finite .positive m e h) = .zero .positive := by
  unfold UnpackedFloat.sub
  simp [UnpackedFloat.normalize, Sign.apply]

/-! ### Order and whole parts -/

/-- Of two numbers of the format, the one with the larger exponent is larger. -/
theorem Canonical.lt_of_exponent_lt {m₁ m₂ : ℕ} {e₁ e₂ : ℤ} (hc₁ : Canonical m₁ e₁) (hc₂ : Canonical m₂ e₂)
    (h : e₁ < e₂) : (m₁ : ℚ) * 2 ^ e₁ < m₂ * 2 ^ e₂ := by
  have hfull : 2 ^ 52 ≤ m₂ := hc₂.full.resolve_right (by have := hc₁.ge; omega)
  have hm₁ : (m₁ : ℚ) < 2 ^ 53 := by exact_mod_cast hc₁.lt
  have hm₂ : (2 : ℚ) ^ 52 ≤ m₂ := by exact_mod_cast hfull
  have hpow : (2 : ℚ) ^ (e₁ + 1) ≤ 2 ^ e₂ := zpow_le_zpow_right₀ (by norm_num) h
  rw [zpow_add_one₀ two_ne_zero] at hpow
  calc (m₁ : ℚ) * 2 ^ e₁ < 2 ^ 53 * 2 ^ e₁ := mul_lt_mul_of_pos_right hm₁ (by positivity)
    _ = 2 ^ 52 * (2 ^ e₁ * 2) := by ring
    _ ≤ m₂ * 2 ^ e₂ := mul_le_mul hm₂ hpow (by positivity) (by positivity)

/-- Numbers of the format are compared by their values. -/
theorem compare_eq {m₁ m₂ : ℕ} {e₁ e₂ : ℤ} (h₁ : 0 < m₁) (h₂ : 0 < m₂) (hc₁ : Canonical m₁ e₁)
    (hc₂ : Canonical m₂ e₂) :
    UnpackedFloat.compare (.finite .positive m₁ e₁ h₁) (.finite .positive m₂ e₂ h₂) =
      some (compare ((m₁ : ℚ) * 2 ^ e₁) (m₂ * 2 ^ e₂)) := by
  show some ((compare e₁ e₂).then (compare m₁ m₂)) = _
  congr 1
  rcases lt_trichotomy e₁ e₂ with h | rfl | h
  · rw [compare_lt_iff_lt.mpr h, compare_lt_iff_lt.mpr (hc₁.lt_of_exponent_lt hc₂ h)]
    rfl
  · have hpow : (0 : ℚ) < 2 ^ e₁ := by positivity
    rw [compare_eq_iff_eq.mpr rfl, Ordering.eq_then]
    rcases lt_trichotomy m₁ m₂ with hm | rfl | hm
    · rw [compare_lt_iff_lt.mpr hm, compare_lt_iff_lt.mpr (mul_lt_mul_of_pos_right (by exact_mod_cast hm) hpow)]
    · rw [compare_eq_iff_eq.mpr rfl, compare_eq_iff_eq.mpr rfl]
    · rw [compare_gt_iff_gt.mpr hm, compare_gt_iff_gt.mpr (mul_lt_mul_of_pos_right (by exact_mod_cast hm) hpow)]
  · rw [compare_gt_iff_gt.mpr h, compare_gt_iff_gt.mpr (hc₂.lt_of_exponent_lt hc₁ h)]
    rfl

/-- The whole part of a number. -/
theorem roundToInt_eq (m : ℕ) (e : ℤ) : roundToInt .positive m e = (⌊(m : ℚ) * 2 ^ e⌋₊ : ℤ) := by
  obtain ⟨a, ha⟩ : ∃ a : ℕ, a = (e - 0).toNat := ⟨_, rfl⟩
  obtain ⟨s, hs⟩ : ∃ s : ℕ, s = (0 - (e - a)).toNat := ⟨_, rfl⟩
  have hvalue : ((m * 2 ^ a : ℕ) : ℚ) / 2 ^ s = m * 2 ^ e := by
    have he : e = a + -s := by omega
    rw [he, zpow_add₀ two_ne_zero, zpow_neg, zpow_natCast, zpow_natCast]
    push_cast
    field_simp
  have hwhole := (Represents.natCast (m * 2 ^ a)).shiftRight s
  rw [hvalue] at hwhole
  have hfloor := (Nat.floor_eq_iff hwhole.nonneg).mpr ⟨hwhole.le, hwhole.lt⟩
  rw [hfloor]
  unfold roundToInt decreaseExponent shiftToExponent
  dsimp only
  rw [← ha, ← hs, Nat.shiftLeft_eq]
  rfl

/-- A rounded number is near to the value. -/
theorem RoundsTo.abs_sub_le {v w : ℚ} (h : RoundsTo v w) (hv : 0 ≤ v) {j : ℕ} (hj : j ≤ 1074)
    (hsmall : v * 2 ^ j < 2 ^ 53) : |w - v| ≤ 1 / 2 ^ j := by
  have hpow : (0 : ℚ) < 2 ^ j := by positivity
  have hscaled : 0 ≤ v * 2 ^ j := mul_nonneg hv hpow.le
  have hlow := (h j hj hsmall ⌊v * 2 ^ j⌋₊).1 (Nat.floor_le hscaled)
  have hhigh := (h j hj hsmall (⌊v * 2 ^ j⌋₊ + 1)).2 (by exact_mod_cast (Nat.lt_floor_add_one _).le)
  have hfloor := Nat.floor_le hscaled
  have hceil := Nat.lt_floor_add_one (v * 2 ^ j)
  push_cast at hhigh
  have hdistance : |w - v| * 2 ^ j = |w * 2 ^ j - v * 2 ^ j| := by rw [← sub_mul, abs_mul, abs_of_pos hpow]
  rw [le_div_iff₀ hpow, hdistance, abs_le]
  constructor <;> linarith

end Tracing.Number
