import Tracing.Proofs.Number.Double
import Tracing.Sampling

/-! # Rounding sample rates

A rounded rate is a number of steps from 0 to 10000, each a ten thousandth, or the zero below all positive numbers. Not
every such rate can be written in double precision, but what is written in its place is so near to it that it counts as
the same number of steps, as does any other number that near. So a rounded rate is not changed by rounding it again. -/

namespace Tracing.SampleRate

open Number

/-- The rate of a number of steps. -/
def ofSteps (k : ℕ) : Float := (UInt64.ofNat k).toFloat / steps

theorem hasValue_steps : HasValue steps 10000 := by
  have hsteps : steps = (UInt64.ofNat 10000).toFloat := by decide +kernel
  rw [hsteps]
  exact_mod_cast hasValue_ofNat (n := 10000) (by norm_num) (by norm_num)

theorem hasValue_half : HasValue 0.5 (1 / 2) := by
  have hhalf : (0.5 : Float) = (UInt64.ofNat 1).toFloat / (UInt64.ofNat 2).toFloat := by decide +kernel
  have hone := hasValue_ofNat (n := 1) (by norm_num) (by norm_num)
  have htwo := hasValue_ofNat (n := 2) (by norm_num) (by norm_num)
  rw [hhalf]
  have hdiv := hone.div htwo (least_le_of_one_le (n := 1) (by norm_num) (by norm_num)) (by norm_num)
  exact_mod_cast hdiv.exact (j := 1) (n := 1) (by norm_num) (by norm_num) (by norm_num)

theorem ofNat_succ {n : ℕ} (hlt : n + 1 < 2 ^ 53) :
    (UInt64.ofNat n).toFloat + 1.0 = (UInt64.ofNat (n + 1)).toFloat := by
  have hsucc := hasValue_ofNat n.succ_pos hlt
  rcases Nat.eq_zero_or_pos n with rfl | hpos
  · decide +kernel
  · have hsum : ((n : ℚ) + 1) < 2 ^ 53 := by exact_mod_cast hlt
    have happrox := (hasValue_ofNat hpos (by omega)).add hasValue_one hsum
    have hexact := happrox.exact (j := 0) (n := n + 1) (by norm_num) hlt (by push_cast; ring)
    exact hexact.unique (by exact_mod_cast hsucc)

/-! ### The nearest whole number -/

/-- Whether what a number has beyond its whole part is at least one half. -/
theorem half_le_sub_iff {x : Float} {u : ℚ} (hx : HasValue x u) (hlt : u < 2 ^ 53) :
    x - (UInt64.ofNat ⌊u⌋₊).toFloat ≥ 0.5 ↔ ⌊u⌋₊ + 1 / 2 ≤ u := by
  have hle : (⌊u⌋₊ : ℚ) ≤ u := Nat.floor_le hx.pos.le
  rcases Nat.eq_zero_or_pos ⌊u⌋₊ with hzero | hpos
  · have hnothing : (UInt64.ofNat 0).toFloat = 0.0 := by decide +kernel
    rw [hzero, hnothing, hx.sub_zero, ge_iff_le, hasValue_half.le_iff hx, Nat.cast_zero, zero_add]
  · rcases eq_or_lt_of_le hle with heq | hless
    · have hn : (⌊u⌋₊ : ℚ) < 2 ^ 53 := lt_of_le_of_lt hle hlt
      have hsame : x = (UInt64.ofNat ⌊u⌋₊).toFloat :=
        hx.unique (heq ▸ hasValue_ofNat hpos (by exact_mod_cast hn))
      have hnone : ¬ (0.0 : Float) ≥ 0.5 := by decide +kernel
      rw [← hsame, hx.sub_self]
      constructor
      · intro h
        exact absurd h hnone
      · intro h
        linarith
    · rw [ge_iff_le, hasValue_half.le_iff (hx.sub_ofNat hlt hpos hless), le_sub_iff_add_le, add_comm]

/-- The nearest whole number, a half going up. -/
theorem nearest_eq {x : Float} {u : ℚ} (hx : HasValue x u) (hlt : u < 2 ^ 52) :
    nearest x = (UInt64.ofNat ⌊u + 1 / 2⌋₊).toFloat := by
  have hu : u < 2 ^ 53 := by linarith
  have hle : (⌊u⌋₊ : ℚ) ≤ u := Nat.floor_le hx.pos.le
  have hnext : u < ⌊u⌋₊ + 1 := Nat.lt_floor_add_one u
  have hpositive : (0 : ℚ) ≤ u + 1 / 2 := by linarith [hx.pos]
  unfold nearest
  rw [hx.beq_zero, if_neg Bool.false_ne_true, hx.toUInt64 hu]
  dsimp only
  by_cases h : (⌊u⌋₊ : ℚ) + 1 / 2 ≤ u
  · have hfloor : ⌊u + 1 / 2⌋₊ = ⌊u⌋₊ + 1 := by
      rw [Nat.floor_eq_iff hpositive]
      push_cast
      constructor <;> linarith
    have hsmall : ⌊u⌋₊ < 2 ^ 52 := by exact_mod_cast lt_of_le_of_lt hle hlt
    rw [if_pos ((half_le_sub_iff hx hu).mpr h), hfloor, ofNat_succ (by omega)]
  · have hfloor : ⌊u + 1 / 2⌋₊ = ⌊u⌋₊ := by
      rw [Nat.floor_eq_iff hpositive]
      constructor <;> linarith
    rw [if_neg ((half_le_sub_iff hx hu).not.mpr h), hfloor]

/-! ### Steps -/

theorem approximates_ofSteps {k : ℕ} (hpos : 0 < k) (hle : k ≤ 10000) : Approximates (ofSteps k) (k / 10000) := by
  have hk : (1 : ℚ) ≤ k := by exact_mod_cast hpos
  have hk' : (k : ℚ) ≤ 10000 := by exact_mod_cast hle
  refine (hasValue_ofNat hpos (by omega)).div hasValue_steps (least_le_of_one_le (n := 14) (by norm_num) ?_) ?_
  · linarith
  · linarith

/-- What is made of a rate between zero and one. -/
def roundClamped (p : Float) : Float :=
  let rounded := nearest (p * steps) / steps
  if rounded == 0.0 && p > 0.0 then 1.0 / steps else rounded

theorem round_eq {r : Float} (h : r.isNaN = false) : round r = roundClamped (clamp r) := by
  unfold round
  rw [if_neg (by rw [h]; exact Bool.false_ne_true)]
  rfl

theorem clamp_eq_self {r : Float} {v : ℚ} (hr : HasValue r v) (hle : v ≤ 1) : clamp r = r := by
  have hone : ¬ r > 1.0 := (hasValue_one.lt_iff hr).not.mpr hle.not_gt
  unfold clamp
  rw [if_neg hr.not_lt_zero, if_neg hone]

/-- The product of a rate up to one and the number of steps, and the whole number nearest to it. -/
theorem nearest_mul_steps {p : Float} {v : ℚ} (hp : HasValue p v) (hle : v ≤ 1) :
    ∃ w, RoundsTo (v * 10000) w ∧ 0 ≤ w ∧ ⌊w + 1 / 2⌋₊ ≤ 10000 ∧
      nearest (p * steps) = (UInt64.ofNat ⌊w + 1 / 2⌋₊).toFloat := by
  have hlow : 2 ^ (-1074 : ℤ) ≤ v * 10000 := le_trans hp.least_le (le_mul_of_one_le_right hp.pos.le (by norm_num))
  obtain ⟨w, hw, hrounds⟩ := hp.mul hasValue_steps hlow (by linarith)
  have hcap : w * 2 ^ 0 ≤ (10000 : ℕ) := (hrounds 0 (by norm_num) (by linarith) 10000).2 (by push_cast; linarith)
  push_cast at hcap
  have hfloor : ⌊w + 1 / 2⌋₊ < 10001 := (Nat.floor_lt (by linarith [hw.pos])).mpr (by push_cast; linarith)
  exact ⟨w, hrounds, hw.pos.le, by omega, nearest_eq hw (by linarith)⟩

/-- A positive rate becomes a positive number of steps. -/
theorem roundClamped_eq {p : Float} {v : ℚ} (hp : HasValue p v) {n : ℕ} (hn : n ≤ 10000)
    (hnearest : nearest (p * steps) = (UInt64.ofNat n).toFloat) : roundClamped p = ofSteps (max 1 n) := by
  have hrounded : nearest (p * steps) / steps = ofSteps n := by
    rw [hnearest]
    rfl
  unfold roundClamped
  rw [hrounded]
  dsimp only
  rcases Nat.eq_zero_or_pos n with rfl | hpos
  · have hnothing : (ofSteps 0 == 0.0) = true := by decide +kernel
    have hstep : (1.0 : Float) / steps = ofSteps 1 := by decide +kernel
    have hp0 : p > 0.0 := hp.zero_lt
    rw [hnothing, if_pos (by simp [hp0]), hstep]
    rfl
  · obtain ⟨g, hg, -⟩ := approximates_ofSteps hpos hn
    rw [hg.beq_zero, Bool.false_and, if_neg Bool.false_ne_true, max_eq_right hpos]

/-- Every rounded rate is a number of steps, or the zero below all positive numbers. -/
theorem round_cases (r : Float) : (∃ k ≤ 10000, round r = ofSteps k) ∨ round r = -0.0 := by
  cases hnan : r.isNaN with
  | true =>
    have hone : (1.0 : Float) = ofSteps 10000 := by decide +kernel
    refine .inl ⟨10000, le_rfl, ?_⟩
    rw [← hone, round, if_pos hnan]
  | false =>
    have hclamped : clamp r = 0.0 ∨ clamp r = -0.0 ∨ ∃ v, HasValue (clamp r) v ∧ v ≤ 1 := by
      rcases cases_of_isNaN_eq_false hnan with hlow | rfl | rfl | ⟨hlow, hhigh⟩ | ⟨v, hv, hle⟩
      · exact .inl (if_pos hlow)
      · exact .inl (by decide +kernel)
      · exact .inr (.inl (by decide +kernel))
      · have hone : clamp r = 1.0 := by
          unfold clamp
          rw [if_neg hlow, if_pos hhigh]
        exact .inr (.inr ⟨1, hone ▸ hasValue_one, le_rfl⟩)
      · exact .inr (.inr ⟨v, (clamp_eq_self hv hle).symm ▸ hv, hle⟩)
    rw [round_eq hnan]
    rcases hclamped with hzero | hzero | ⟨v, hv, hle⟩
    · have hnothing : roundClamped 0.0 = ofSteps 0 := by decide +kernel
      exact .inl ⟨0, by norm_num, by rw [hzero, hnothing]⟩
    · have hnothing : roundClamped (-0.0) = -0.0 := by decide +kernel
      exact .inr (by rw [hzero, hnothing])
    · obtain ⟨w, -, -, hn, hnearest⟩ := nearest_mul_steps hv hle
      exact .inl ⟨_, max_le (by norm_num) hn, roundClamped_eq hv hn hnearest⟩

section Near
variable {x : Float} {k : ℕ} (hpos : 0 < k) (hle : k ≤ 10000) (hx : Approximates x (k / 10000))
include hpos hle hx

theorem exists_value_of_approximates : ∃ v, HasValue x v ∧ v ≤ 1 ∧ |v - k / 10000| ≤ 1 / 2 ^ 40 := by
  have hk : (k : ℚ) ≤ 10000 := by exact_mod_cast hle
  obtain ⟨v, hv, hrounds⟩ := hx
  have hcap : v * 2 ^ 0 ≤ (1 : ℕ) := (hrounds 0 (by norm_num) (by linarith) 1).2 (by push_cast; linarith)
  push_cast at hcap
  exact ⟨v, hv, by linarith, hrounds.abs_sub_le (by positivity) (by norm_num) (by linarith)⟩

/-- What is near to a number of steps counts as that number. -/
theorem nearest_of_approximates : nearest (x * steps) = (UInt64.ofNat k).toFloat := by
  have hk : (1 : ℚ) ≤ k := by exact_mod_cast hpos
  have hk' : (k : ℚ) ≤ 10000 := by exact_mod_cast hle
  obtain ⟨v, hv, hv1, hnear⟩ := exists_value_of_approximates hpos hle hx
  obtain ⟨w, hrounds, hw, -, hnearest⟩ := nearest_mul_steps hv hv1
  have hnear' := hrounds.abs_sub_le (by linarith [hv.pos]) (j := 30) (by norm_num) (by linarith)
  have hfloor : ⌊w + 1 / 2⌋₊ = k := by
    rw [abs_le] at hnear hnear'
    rw [Nat.floor_eq_iff (by linarith)]
    constructor <;> linarith [hnear.1, hnear.2, hnear'.1, hnear'.2]
  rw [hnearest, hfloor]

/-- And is rounded to it. -/
theorem round_of_approximates : round x = ofSteps k := by
  have hnearest := nearest_of_approximates hpos hle hx
  obtain ⟨v, hv, hv1, -⟩ := exists_value_of_approximates hpos hle hx
  rw [round_eq hv.isNaN, clamp_eq_self hv hv1, roundClamped_eq hv hle hnearest, max_eq_right hpos]

end Near

/-- A rounded rate is not changed by rounding it again. -/
theorem round_round (r : Float) : round (round r) = round r := by
  rcases round_cases r with ⟨k, hle, hr⟩ | hr
  · rw [hr]
    rcases Nat.eq_zero_or_pos k with rfl | hpos
    · decide +kernel
    · exact round_of_approximates hpos hle (approximates_ofSteps hpos hle)
  · rw [hr]
    decide +kernel

end Tracing.SampleRate
