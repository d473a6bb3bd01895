/-!
# Hexadecimal digits

A number is written with a fixed count of lower-case digits (`hexDigits`) and read back from digits of
either case (`hexValue`). Reading what was written gives the number modulo the count of digits.
-/

namespace Tracing.Text

/-- The value of a digit of either case. -/
def hexDigitValue (c : Char) : Option Nat :=
  let n := c.toNat
  if 48 ≤ n ∧ n ≤ 57 then some (n - 48)
  else if 97 ≤ n ∧ n ≤ 102 then some (n - 87)
  else if 65 ≤ n ∧ n ≤ 70 then some (n - 55)
  else none

/-- A digit of either case. -/
def isHexDigit (c : Char) : Bool := (hexDigitValue c).isSome

/-- The lower-case digit of a number below sixteen. -/
def hexDigit (n : Nat) : Char := if n < 10 then Char.ofNat (48 + n) else Char.ofNat (87 + n)

/-- The last `count` digits of a number, leading zeros included. -/
def hexDigits : (count : Nat) → Nat → List Char
  | 0, _ => []
  | count + 1, n => hexDigits count (n / 16) ++ [hexDigit (n % 16)]

/-- The number that a list of digits writes, the most significant first. Other characters count as zero. -/
def hexValue (cs : List Char) : Nat := cs.foldl (fun n c => n * 16 + (hexDigitValue c).getD 0) 0

/-- A number without leading zeros. -/
def hexMinimal (n : Nat) : List Char := Nat.toDigits 16 n

theorem hexDigitValue_hexDigit {n : Nat} (h : n < 16) : hexDigitValue (hexDigit n) = some n := by
  have : ∀ k : Nat, k < 16 → hexDigitValue (hexDigit k) = some k := by decide
  exact this n h

theorem isHexDigit_hexDigit {n : Nat} (h : n < 16) : isHexDigit (hexDigit n) = true := by
  simp [isHexDigit, hexDigitValue_hexDigit h]

@[simp] theorem length_hexDigits (count n : Nat) : (hexDigits count n).length = count := by
  induction count generalizing n with
  | zero => rfl
  | succ count ih => simp [hexDigits, ih]

theorem isHexDigit_of_mem_hexDigits {count n : Nat} {c : Char} (h : c ∈ hexDigits count n) :
    isHexDigit c = true := by
  induction count generalizing n with
  | zero => simp [hexDigits] at h
  | succ count ih =>
    simp only [hexDigits, List.mem_append, List.mem_singleton] at h
    rcases h with h | rfl
    · exact ih h
    · exact isHexDigit_hexDigit (Nat.mod_lt _ (by decide))

/-- Reading the last digits of a number gives its last bits, four for each digit. -/
theorem hexValue_hexDigits (count n : Nat) : hexValue (hexDigits count n) = (BitVec.ofNat (4 * count) n).toNat := by
  suffices hmod : hexValue (hexDigits count n) = n % 16 ^ count by
    rw [hmod, BitVec.toNat_ofNat, Nat.pow_mul]
  induction count generalizing n with
  | zero => simp [hexDigits, hexValue, Nat.mod_one]
  | succ count ih =>
    have hd := hexDigitValue_hexDigit (Nat.mod_lt n (by decide : 0 < 16))
    have hv := ih (n / 16)
    simp only [hexValue] at hv
    simp only [hexValue, hexDigits, List.foldl_append, List.foldl_cons, List.foldl_nil, hd, hv,
      Option.getD_some]
    rw [Nat.pow_succ, Nat.mul_comm (16 ^ count) 16, Nat.mod_mul]
    omega

end Tracing.Text
