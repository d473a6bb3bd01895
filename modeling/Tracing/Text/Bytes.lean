/-!
# Text measured in bytes

The limits of the wire formats count the bytes of a text in UTF-8, not its characters. A text is a list
of characters here, so a limit is a sum over the list and splits over concatenation.
-/

namespace Tracing.Text

/-- The number of bytes that a text takes in UTF-8. -/
def byteLength : List Char → Nat
  | [] => 0
  | c :: cs => c.utf8Size + byteLength cs

@[simp] theorem byteLength_nil : byteLength [] = 0 := rfl

@[simp] theorem byteLength_cons (c : Char) (cs : List Char) :
    byteLength (c :: cs) = c.utf8Size + byteLength cs := rfl

@[simp] theorem byteLength_append (cs ds : List Char) :
    byteLength (cs ++ ds) = byteLength cs + byteLength ds := by
  induction cs with
  | nil => simp
  | cons c cs ih => simp [ih, Nat.add_assoc]

/-- Every character takes at least one byte. -/
theorem length_le_byteLength (cs : List Char) : cs.length ≤ byteLength cs := by
  induction cs with
  | nil => simp
  | cons c cs ih =>
    have := Char.utf8Size_pos c
    simp only [List.length_cons, byteLength_cons]
    omega

/-- The characters of the seven-bit code, which UTF-8 writes as one byte each. -/
def isAscii (c : Char) : Bool := c.toNat < 128

/-- The bytes of a text of the seven-bit code are its characters. -/
theorem byteLength_of_ascii {cs : List Char} (h : ∀ c ∈ cs, isAscii c = true) :
    byteLength cs = cs.length := by
  induction cs with
  | nil => rfl
  | cons c cs ih =>
    have hc : c.toNat < 128 := by simpa [isAscii] using h c (by simp)
    have hsize : c.utf8Size = 1 := Char.utf8Size_eq_one_iff.2 (UInt32.le_iff_toNat_le.2 (by
      have hval : c.toNat = c.val.toNat := rfl
      have hbound : (127 : UInt32).toNat = 127 := rfl
      omega))
    simp [hsize, ih fun d hd => h d (List.mem_cons_of_mem _ hd), Nat.add_comm]

/-- The first of the bytes that UTF-8 writes for a character. -/
def leadByte (c : Char) : Nat :=
  let n := c.toNat
  if n < 0x80 then n
  else if n < 0x800 then 0xC0 + n / 0x40
  else if n < 0x10000 then 0xE0 + n / 0x1000
  else 0xF0 + n / 0x40000

theorem leadByte_of_ascii {c : Char} (h : isAscii c = true) : leadByte c = c.toNat := by
  simp only [isAscii, decide_eq_true_eq] at h
  simp [leadByte, h]

end Tracing.Text
