import Tracing.Proofs.Number.ExactValues

/-! # Numbers of double precision in 64 bits

A number is packed into a bit for its sign, eleven for its exponent and 52 for its mantissa, of which a full one leaves
out its first bit. Nothing is lost of a number of the format, and what is unpacked is one. -/

namespace Tracing.Number

open Float.Model Float.Model.UnpackedFloat

theorem log2_add_one_eq_iff {m : ℕ} (hpos : 0 < m) (hlt : m < 2 ^ 53) : m.log2 + 1 = 53 ↔ 2 ^ 52 ≤ m := by
  have hbits := (Nat.log2_lt hpos.ne').mpr hlt
  rw [← Nat.le_log2 hpos.ne']
  omega

/-- How a number of the format is packed: a full mantissa without its first bit, and the exponent from 1 on; or a
mantissa that is not full, and 0. -/
theorem pack_eq {m : ℕ} {e : ℤ} (h : 0 < m) (hc : Canonical m e) :
    UnpackedFloat.pack .binary64 (.finite .positive m e h) = packComponents .binary64 .positive
      (if 2 ^ 52 ≤ m then BitVec.ofNat 11 (e + 1075).toNat else 0#11) (BitVec.ofNat 52 m) := by
  obtain ⟨hlt, hge, hle, hfull⟩ := hc
  have hbiased : e + Format.binary64.exponentBias + Format.binary64.mantissaBitsWithoutImplicit = e + 1023 + 52 := rfl
  have hsum : e + 1023 + 52 = e + 1075 := by omega
  have hfits : ¬ 2 ^ Format.binary64.exponentBits ≤ (e + 1075).toNat + 1 := by
    show ¬ 2 ^ 11 ≤ (e + 1075).toNat + 1
    omega
  have hbits : (m.log2 + 1 = Format.binary64.mantissaBits) = (2 ^ 52 ≤ m) := propext (log2_add_one_eq_iff h hlt)
  unfold UnpackedFloat.pack
  dsimp only
  rw [hbiased, hsum, if_neg hfits]
  simp only [hbits]
  split <;> rfl

theorem toNat_pos {y : BitVec 52} (h : y ≠ 0#52) : 0 < y.toNat := by
  rw [ne_eq, ← BitVec.toNat_inj, BitVec.toNat_zero] at h
  omega

theorem toNat_append_one (y : BitVec 52) : (1#1 ++ y).toNat = 2 ^ 52 + y.toNat := by
  rw [BitVec.toNat_append, ← Nat.shiftLeft_add_eq_or_of_lt y.isLt]
  rfl

theorem toNat_append_one_pos (y : BitVec 52) : 0 < (1#1 ++ y).toNat := by
  rw [toNat_append_one]
  omega

/-- What a sign, an exponent and a mantissa stand for. -/
theorem unpack_packComponents (s : Sign) (x : BitVec 11) (y : BitVec 52) :
    UnpackedFloat.unpack .binary64 (packComponents .binary64 s x y) =
      if x = -1#11 then if y = 0#52 then .infinity s else .notANumber
      else if x = 0#11 then
        if h : y = 0#52 then .zero s else .finite s y.toNat (x.toNat - 1075 + 1) (toNat_pos h)
      else .finite s (1#1 ++ y).toNat (x.toNat - 1075) (toNat_append_one_pos y) := by
  unfold UnpackedFloat.unpack
  simp only [unpackMantissa_packComponents, unpackExponent_packComponents, unpackSign_packComponents,
    Sign.ofBitVec_toBitVec]
  rfl

/-- A number of the format is packed without loss. -/
theorem unpack_pack {m : ℕ} {e : ℤ} (h : 0 < m) (hc : Canonical m e) :
    UnpackedFloat.unpack .binary64 (UnpackedFloat.pack .binary64 (.finite .positive m e h)) =
      .finite .positive m e h := by
  obtain ⟨hlt, hge, hle, hfull⟩ := id hc
  have hones : (-1#11).toNat = 2047 := rfl
  rw [pack_eq h hc, unpack_packComponents]
  by_cases hm : 2 ^ 52 ≤ m
  · have hexponent : (BitVec.ofNat 11 (e + 1075).toNat).toNat = (e + 1075).toNat := by
      rw [BitVec.toNat_ofNat, Nat.mod_eq_of_lt (by omega)]
    have hfinite : BitVec.ofNat 11 (e + 1075).toNat ≠ -1#11 := by
      rw [ne_eq, ← BitVec.toNat_inj, hexponent, hones]
      omega
    have hnormal : BitVec.ofNat 11 (e + 1075).toNat ≠ 0#11 := by
      rw [ne_eq, ← BitVec.toNat_inj, hexponent, BitVec.toNat_zero]
      omega
    have hmantissa : (1#1 ++ BitVec.ofNat 52 m).toNat = m := by
      rw [toNat_append_one, BitVec.toNat_ofNat]
      omega
    simp only [if_pos hm, if_neg hfinite, if_neg hnormal]
    congr 1
    omega
  · have hmantissa : (BitVec.ofNat 52 m).toNat = m := by
      rw [BitVec.toNat_ofNat, Nat.mod_eq_of_lt (by omega)]
    have hpositive : BitVec.ofNat 52 m ≠ 0#52 := by
      rw [ne_eq, ← BitVec.toNat_inj, hmantissa, BitVec.toNat_zero]
      omega
    have hfinite : (0#11 : BitVec 11) ≠ -1#11 := by decide
    simp only [if_neg hm, if_neg hfinite, if_true, dif_neg hpositive]
    congr 1
    exact (hfull.resolve_left hm).symm

/-- A positive number that is unpacked is one of the format. -/
theorem canonical_of_unpack {b : BitVec Format.binary64.numBits} {m : ℕ} {e : ℤ} {h : 0 < m}
    (hb : UnpackedFloat.unpack .binary64 b = .finite .positive m e h) : Canonical m e := by
  have hones : (-1#11).toNat = 2047 := rfl
  obtain ⟨s, x, y, rfl⟩ : ∃ s, ∃ x : BitVec 11, ∃ y : BitVec 52, packComponents .binary64 s x y = b :=
    ⟨_, _, _, packComponents_unpackSign_unpackExponent_unpackMantissa b⟩
  have hx := x.isLt
  have hy := y.isLt
  rw [unpack_packComponents] at hb
  split at hb
  · split at hb <;> cases hb
  · rename_i hfinite
    rw [← BitVec.toNat_inj, hones] at hfinite
    split at hb
    · split at hb
      · cases hb
      · injection hb with hs hm he
        subst_vars
        exact ⟨by omega, by rfl, by norm_num, .inr rfl⟩
    · rename_i hnormal
      rw [← BitVec.toNat_inj, BitVec.toNat_zero] at hnormal
      injection hb with hs hm he
      rw [toNat_append_one] at hm
      exact ⟨by omega, by omega, by omega, .inl (by omega)⟩

end Tracing.Number
