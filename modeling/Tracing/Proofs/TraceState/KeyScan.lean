import Tracing.Proofs.TraceState.Conforming

/-! # Checking a key byte by byte

A key can be checked in one pass over its bytes that remembers only where it met an at sign. The pass ends early at a
byte that may not stand where it does, and at an at sign with too many bytes behind it; an at sign with none behind it
shows when the pass is over. What the pass accepts are just the keys: names, and names with an at sign and a system of
up to 13 characters behind them. -/

namespace Tracing.TraceState

open Text

/-! ### The pass -/

/-- The byte is a lower-case letter or a digit. -/
def startsName (b : UInt8) : Bool :=
  ('a'.toUInt8 ≤ b && b ≤ 'z'.toUInt8) || ('0'.toUInt8 ≤ b && b ≤ '9'.toUInt8)

/-- The byte may stand in a key. -/
def standsInKey (b : UInt8) : Bool :=
  startsName b || b == '_'.toUInt8 || b == '-'.toUInt8 || b == '*'.toUInt8 || b == '/'.toUInt8 || b == '@'.toUInt8

/-- Goes over the bytes from a place on, after an at sign at `sign` if there was one, in a key of a length in all. The
result is the place of the at sign, if there is one, or nothing if a byte is refused. -/
def scanFrom (length : Nat) : (place : Nat) → (sign : Option Nat) → List UInt8 → Option (Option Nat)
  | _, sign, [] => some sign
  | place, sign, b :: rest =>
    if !standsInKey b then none
    else if place == 0 && !startsName b then none
    else if b == '@'.toUInt8 then
      if sign.isSome || decide (place + 14 < length) then none else scanFrom length (place + 1) (some place) rest
    else if sign.any (fun sign => place == sign + 1) && !startsName b then none
    else scanFrom length (place + 1) sign rest

/-- The pass came to its end, and not with an at sign as the last byte. -/
def accepts (length : Nat) : Option (Option Nat) → Bool
  | none => false
  | some none => true
  | some (some sign) => sign + 1 != length

/-- The check of a key in one pass over its bytes. -/
def scanKey (key : String) : Bool :=
  let bytes := key.toUTF8.data.toList
  if bytes.isEmpty || decide (maxTextLength < bytes.length) then false
  else accepts bytes.length (scanFrom bytes.length 0 none bytes)

/-! ### Bytes and characters -/

/-- The bytes of a text. -/
def utf8 (cs : List Char) : List UInt8 := cs.flatMap String.utf8EncodeChar

theorem data_toUTF8 (s : String) : s.toUTF8.data.toList = utf8 s.toList := by
  rw [String.toUTF8, ← String.utf8Encode_toList, List.utf8Encode, List.data_toByteArray]
  rfl

theorem length_utf8 (cs : List Char) : (utf8 cs).length = byteLength cs := by
  induction cs with
  | nil => rfl
  | cons c cs ih =>
    have hcons : utf8 (c :: cs) = String.utf8EncodeChar c ++ utf8 cs := rfl
    rw [hcons, List.length_append, String.length_utf8EncodeChar, ih, byteLength_cons]

theorem byteLength_toList (s : String) : byteLength s.toList = s.utf8ByteSize := by
  rw [← length_utf8, ← data_toUTF8]
  rfl

theorem one_le_utf8ByteSize_iff {s : String} : 1 ≤ s.utf8ByteSize ↔ ∃ c cs, s.toList = c :: cs := by
  rw [← byteLength_toList]
  constructor
  · intro h
    refine List.exists_cons_of_ne_nil fun hnil => ?_
    rw [hnil] at h
    cases h
  · rintro ⟨c, cs, hchars⟩
    rw [hchars, byteLength_cons]
    exact Nat.le_add_right_of_le c.utf8Size_pos

theorem utf8Size_of_ascii {c : Char} (h : isAscii c = true) : c.utf8Size = 1 := by
  have hone : byteLength [c] = 1 := byteLength_of_ascii fun d hd => List.mem_singleton.mp hd ▸ h
  rwa [byteLength_cons, byteLength_nil, Nat.add_zero] at hone

theorem utf8_cons_of_ascii {c : Char} (h : isAscii c = true) (cs : List Char) :
    utf8 (c :: cs) = c.toUInt8 :: utf8 cs := by
  show String.utf8EncodeChar c ++ utf8 cs = _
  rw [String.utf8EncodeChar_eq_singleton (utf8Size_of_ascii h)]
  rfl

/-- The bytes of a character begin with its lead byte. -/
theorem utf8_cons (c : Char) (cs : List Char) : ∃ b rest, utf8 (c :: cs) = b :: rest ∧ b.toNat = leadByte c := by
  have hcode : c.toNat < 0x110000 := c.valid.elim (fun h => Nat.lt_trans h (by decide)) And.right
  have hfirst : ∃ b rest, String.utf8EncodeChar c = b :: rest ∧ b.toNat = leadByte c := by
    unfold String.utf8EncodeChar leadByte
    simp only [Char.toNat] at hcode ⊢
    split
    · exact ⟨_, _, rfl, by grind [UInt8.toNat_ofNat']⟩
    · split
      · exact ⟨_, _, rfl, by grind [UInt8.toNat_ofNat']⟩
      · split
        · exact ⟨_, _, rfl, by grind [UInt8.toNat_ofNat']⟩
        · exact ⟨_, _, rfl, by grind [UInt8.toNat_ofNat']⟩
  obtain ⟨b, rest, hencode, hb⟩ := hfirst
  refine ⟨b, rest ++ utf8 cs, ?_, hb⟩
  show String.utf8EncodeChar c ++ utf8 cs = _
  rw [hencode]
  rfl

theorem le_leadByte_of_not_ascii {c : Char} (h : isAscii c = false) : 128 ≤ leadByte c := by
  have hcode : ¬c.toNat < 128 := of_decide_eq_false h
  grind [leadByte]

/-- A character beyond the seven-bit code begins with a byte beyond it. -/
theorem utf8_cons_of_not_ascii {c : Char} (h : isAscii c = false) (cs : List Char) :
    ∃ b rest, utf8 (c :: cs) = b :: rest ∧ 128 ≤ b.toNat := by
  obtain ⟨b, rest, hbytes, hb⟩ := utf8_cons c cs
  exact ⟨b, rest, hbytes, hb ▸ le_leadByte_of_not_ascii h⟩

/-- What holds of all codes of seven bits holds of all characters of that code. -/
theorem forall_ascii {p : Char → Prop} (h : ∀ n < 128, p (Char.ofNat n)) {c : Char} (hc : isAscii c = true) : p c := by
  rw [← Char.ofNat_toNat c]
  exact h _ (of_decide_eq_true hc)

theorem startsName_toUInt8 {c : Char} (h : isAscii c = true) : startsName c.toUInt8 = isNameStart c :=
  forall_ascii (p := fun c => startsName c.toUInt8 = isNameStart c) (by decide) h

theorem standsInKey_toUInt8 {c : Char} (h : isAscii c = true) : standsInKey c.toUInt8 = (isNameChar c || c == '@') :=
  forall_ascii (p := fun c => standsInKey c.toUInt8 = (isNameChar c || c == '@')) (by decide) h

theorem beq_toUInt8 {c : Char} (h : isAscii c = true) : (c.toUInt8 == '@'.toUInt8) = (c == '@') :=
  forall_ascii (p := fun c => (c.toUInt8 == '@'.toUInt8) = (c == '@')) (by decide) h

theorem standsInKey_of_ge {b : UInt8} (h : 128 ≤ b.toNat) : standsInKey b = false := by
  have hall : ∀ n < 128, standsInKey (UInt8.ofNat (128 + n)) = false := by decide
  have hlt := b.toNat_lt
  rw [← UInt8.ofNat_toNat (x := b), ← Nat.add_sub_cancel' h]
  exact hall _ (by omega)

theorem isAscii_of_isNameChar {c : Char} (h : isNameChar c = true) : isAscii c = true := by
  have hle {d : Char} (hd : c ≤ d) (hd' : d.toNat < 128) : isAscii c = true :=
    decide_eq_true (Nat.lt_of_le_of_lt (UInt32.le_iff_toNat_le.mp hd) hd')
  simp only [isNameChar, isNameStart, Bool.or_eq_true, Bool.and_eq_true, decide_eq_true_eq, beq_iff_eq] at h
  rcases h with ((((⟨-, hz⟩ | ⟨-, hnine⟩) | rfl) | rfl) | rfl) | rfl
  · exact hle hz (by decide)
  · exact hle hnine (by decide)
  all_goals rfl

theorem isNameChar_of_not_ascii {c : Char} (h : isAscii c = false) : isNameChar c = false := by
  refine Bool.eq_false_iff.mpr fun hname => ?_
  rw [isAscii_of_isNameChar hname] at h
  cases h

/-- One step of the pass, in terms of the characters. -/
theorem scanFrom_cons (length place : Nat) (sign : Option Nat) (c : Char) (cs : List Char) :
    scanFrom length place sign (utf8 (c :: cs)) =
      if !(isNameChar c || c == '@') then none
      else if place == 0 && !isNameStart c then none
      else if c == '@' then
        if sign.isSome || decide (place + 14 < length) then none
        else scanFrom length (place + 1) (some place) (utf8 cs)
      else if sign.any (fun sign => place == sign + 1) && !isNameStart c then none
      else scanFrom length (place + 1) sign (utf8 cs) := by
  cases h : isAscii c with
  | true =>
    rw [utf8_cons_of_ascii h, scanFrom, startsName_toUInt8 h, standsInKey_toUInt8 h, beq_toUInt8 h]
  | false =>
    obtain ⟨b, rest, hbytes, hb⟩ := utf8_cons_of_not_ascii h cs
    have hat : (c == '@') = false := by
      refine beq_false_of_ne ?_
      rintro rfl
      cases h
    rw [hbytes, scanFrom, standsInKey_of_ge hb, isNameChar_of_not_ascii h, hat]
    rfl

/-! ### What a pass accepts -/

section Pass
variable {length place : Nat} {sign : Option Nat} {c : Char}

theorem at_ne_of_isNameChar (h : isNameChar c = true) : (c == '@') = false := by
  refine beq_false_of_ne ?_
  rintro rfl
  cases h

theorem isNameChar_of_isNameStart (h : isNameStart c = true) : isNameChar c = true := by
  simp [isNameChar, h]

theorem byteLength_cons_of_isNameChar (h : isNameChar c = true) (cs : List Char) :
    byteLength (c :: cs) = 1 + byteLength cs := by
  rw [byteLength_cons, utf8Size_of_ascii (isAscii_of_isNameChar h)]

/-- Where neither the key nor the system begins, any character of a name is passed. -/
theorem scanFrom_of_isNameChar (h : isNameChar c = true) (hplace : place ≠ 0) (hsign : ∀ s ∈ sign, place ≠ s + 1)
    (cs : List Char) :
    scanFrom length place sign (utf8 (c :: cs)) = scanFrom length (place + 1) sign (utf8 cs) := by
  have hany : sign.any (fun s => place == s + 1) = false := by
    cases sign with
    | none => rfl
    | some s => exact beq_false_of_ne (hsign s rfl)
  rw [scanFrom_cons, h, at_ne_of_isNameChar h, beq_false_of_ne hplace, hany]
  rfl

theorem scanFrom_of_isNameStart (h : isNameStart c = true) (cs : List Char) :
    scanFrom length place sign (utf8 (c :: cs)) = scanFrom length (place + 1) sign (utf8 cs) := by
  have hname := isNameChar_of_isNameStart h
  rw [scanFrom_cons, hname, at_ne_of_isNameChar hname, h]
  simp

/-- The first character of a key begins a name. -/
theorem scanFrom_zero_of_not_isNameStart (h : isNameStart c = false) (cs : List Char) :
    scanFrom length 0 sign (utf8 (c :: cs)) = none := by
  rw [scanFrom_cons, h]
  simp

/-- After the at sign there is no other. -/
theorem scanFrom_some_of_not_isNameChar {s : Nat} (h : isNameChar c = false) (cs : List Char) :
    scanFrom length place (some s) (utf8 (c :: cs)) = none := by
  rw [scanFrom_cons, h]
  cases hat : c == '@' <;> simp

/-- The first character of a system begins a name. -/
theorem scanFrom_next_of_not_isNameStart {s : Nat} (h : isNameStart c = false) (cs : List Char) :
    scanFrom length (s + 1) (some s) (utf8 (c :: cs)) = none := by
  rw [scanFrom_cons, h]
  cases hat : c == '@' <;> simp

theorem scanFrom_none_of_stranger (h : isNameChar c = false) (hat : c ≠ '@') (cs : List Char) :
    scanFrom length place none (utf8 (c :: cs)) = none := by
  rw [scanFrom_cons, h, beq_false_of_ne hat]
  rfl

theorem scanFrom_sign (hplace : place ≠ 0) (cs : List Char) :
    scanFrom length place none (utf8 ('@' :: cs)) =
      if place + 14 < length then none else scanFrom length (place + 1) (some place) (utf8 cs) := by
  rw [scanFrom_cons, beq_false_of_ne hplace]
  simp

/-- In a system, behind its first character. -/
theorem accepts_inSystem {s : Nat} (cs : List Char) (hplace : s + 1 < place) (hend : place + byteLength cs = length) :
    accepts length (scanFrom length place (some s) (utf8 cs)) = cs.all isNameChar := by
  induction cs generalizing place with
  | nil =>
    have hne : s + 1 ≠ length := by
      rw [byteLength_nil] at hend
      omega
    exact bne_iff_ne.mpr hne
  | cons c cs ih =>
    cases hname : isNameChar c with
    | true =>
      rw [byteLength_cons_of_isNameChar hname] at hend
      have hnext : ∀ t ∈ some s, place ≠ t + 1 := by
        rintro _ ⟨⟩
        omega
      rw [scanFrom_of_isNameChar hname (by omega) hnext, ih (by omega) (by omega), List.all_cons, hname, Bool.true_and]
    | false => rw [scanFrom_some_of_not_isNameChar hname, List.all_cons, hname, accepts, Bool.false_and]

/-- Behind the at sign, where a system of up to 13 characters is left. -/
theorem accepts_atSystem (cs : List Char) (hend : place + 1 + byteLength cs = length)
    (hroom : byteLength cs ≤ maxSystemLength) :
    accepts length (scanFrom length (place + 1) (some place) (utf8 cs)) = isSystem cs := by
  cases cs with
  | nil => exact bne_eq_false_iff_eq.mpr hend
  | cons c cs =>
    cases hstart : isNameStart c with
    | true =>
      rw [byteLength_cons_of_isNameChar (isNameChar_of_isNameStart hstart)] at hend hroom
      have hshort : cs.length < maxSystemLength := by
        have hle := length_le_byteLength cs
        omega
      rw [scanFrom_of_isNameStart hstart, accepts_inSystem cs (by omega) (by omega), isSystem, hstart,
        decide_eq_true hshort, Bool.true_and, Bool.and_true]
    | false => rw [scanFrom_next_of_not_isNameStart hstart, isSystem, hstart, accepts, Bool.false_and, Bool.false_and]

theorem byteLength_of_isSystem {cs : List Char} (h : isSystem cs = true) : byteLength cs ≤ maxSystemLength := by
  cases cs with
  | nil => cases h
  | cons c cs =>
    simp only [isSystem, Bool.and_eq_true, List.all_eq_true, decide_eq_true_eq] at h
    obtain ⟨⟨hstart, hnames⟩, hshort⟩ := h
    rw [byteLength_cons_of_isNameChar (isNameChar_of_isNameStart hstart),
      byteLength_of_ascii fun d hd => isAscii_of_isNameChar (hnames d hd)]
    omega

/-- Behind the first character of a key, before the at sign. The pass refuses a system that is too long at the sign
itself, from the count of all bytes that are left, and that of the characters of a name is the same. -/
theorem accepts_inKey (cs : List Char) (hplace : place ≠ 0) (hend : place + byteLength cs = length) :
    accepts length (scanFrom length place none (utf8 cs)) = isKeyRest cs := by
  induction cs generalizing place with
  | nil => rfl
  | cons c cs ih =>
    by_cases hat : c = '@'
    · subst hat
      have hend : place + 1 + byteLength cs = length := by
        rw [byteLength_cons] at hend
        rw [← hend, Nat.add_assoc]
        rfl
      rw [scanFrom_sign hplace, isKeyRest, if_pos rfl]
      split
      · have hlong : ¬byteLength cs ≤ maxSystemLength := by
          unfold maxSystemLength
          omega
        exact (Bool.eq_false_iff.mpr fun h => hlong (byteLength_of_isSystem h)).symm
      · refine accepts_atSystem cs hend ?_
        unfold maxSystemLength
        omega
    · rw [isKeyRest, if_neg hat]
      cases hname : isNameChar c with
      | true =>
        rw [byteLength_cons_of_isNameChar hname] at hend
        have hnext : ∀ s ∈ (none : Option Nat), place ≠ s + 1 := by
          rintro _ ⟨⟩
        rw [scanFrom_of_isNameChar hname hplace hnext, ih (by omega) (by omega), Bool.true_and]
      | false => rw [scanFrom_none_of_stranger hname hat, accepts, Bool.false_and]

end Pass

/-- The pass over the bytes accepts the keys. -/
theorem scanKey_eq (key : String) : scanKey key = isKey key.toList := by
  unfold scanKey
  rw [data_toUTF8]
  dsimp only
  rw [length_utf8]
  cases key.toList with
  | nil => rfl
  | cons c cs =>
    have hsome : (utf8 (c :: cs)).isEmpty = false := by
      have hpos : 0 < (utf8 (c :: cs)).length := by
        rw [length_utf8, byteLength_cons]
        exact Nat.add_pos_left c.utf8Size_pos _
      exact List.isEmpty_eq_false_iff.mpr (List.ne_nil_of_length_pos hpos)
    rw [hsome, Bool.false_or, isKey]
    by_cases hlong : maxTextLength < byteLength (c :: cs)
    · rw [if_pos (decide_eq_true hlong), decide_eq_false (Nat.not_le_of_lt hlong), Bool.false_and, Bool.false_and]
    · rw [decide_eq_false hlong, if_neg Bool.false_ne_true, decide_eq_true (Nat.le_of_not_lt hlong), Bool.true_and]
      cases hstart : isNameStart c with
      | true =>
        have hend := byteLength_cons_of_isNameChar (isNameChar_of_isNameStart hstart) cs
        rw [scanFrom_of_isNameStart hstart, accepts_inKey cs Nat.one_ne_zero hend.symm, Bool.true_and]
      | false => rw [scanFrom_zero_of_not_isNameStart hstart, accepts, Bool.false_and]

/-! ### The form of keys -/

theorem isNameStart_iff {c : Char} : isNameStart c = true ↔ c ∈ lowerLetters ++ digits := by
  refine ⟨fun h => ?_, isNameStart_of_mem⟩
  refine forall_ascii (p := fun c => isNameStart c = true → c ∈ lowerLetters ++ digits) (by decide) ?_ h
  exact isAscii_of_isNameChar (isNameChar_of_isNameStart h)

theorem isNameChar_iff {c : Char} : isNameChar c = true ↔ c ∈ keyChars := by
  refine ⟨fun h => ?_, isNameChar_of_mem⟩
  exact forall_ascii (p := fun c => isNameChar c = true → c ∈ keyChars) (by decide) (isAscii_of_isNameChar h) h

/-- The part of a key behind its at sign, in the words of its description. -/
structure SystemForm (system : String) : Prop where
  bytes : 1 ≤ system.utf8ByteSize ∧ system.utf8ByteSize ≤ 13
  first : ∀ c ∈ system.toList.head?, c ∈ lowerLetters ++ digits

/-- A key in the words of its description. -/
structure KeyForm (key : String) : Prop where
  bytes : 1 ≤ key.utf8ByteSize ∧ key.utf8ByteSize ≤ 256
  chars : ∀ c ∈ key.toList, c ∈ '@' :: keyChars
  first : ∀ c ∈ key.toList.head?, c ∈ lowerLetters ++ digits
  signs : key.toList.count '@' ≤ 1
  system : ∀ tenant system : String, key = tenant ++ "@" ++ system → SystemForm system

theorem at_not_mem_of_isSystem {cs : List Char} (h : isSystem cs = true) : '@' ∉ cs := by
  cases cs with
  | nil => cases h
  | cons c cs =>
    simp only [isSystem, Bool.and_eq_true, List.all_eq_true] at h
    obtain ⟨⟨hstart, hnames⟩, -⟩ := h
    intro hmem
    rcases List.mem_cons.mp hmem with rfl | hmem
    · cases hstart
    · cases hnames _ hmem

/-- The at sign of a key has a system behind it, wherever it is found. -/
theorem isSystem_of_isKeyRest {tenant system : List Char} (h : isKeyRest (tenant ++ '@' :: system) = true) :
    isSystem system = true := by
  induction tenant with
  | nil => simpa [isKeyRest] using h
  | cons c tenant ih =>
    rw [List.cons_append, isKeyRest] at h
    split at h
    · exact absurd (List.mem_append_right _ List.mem_cons_self) (at_not_mem_of_isSystem h)
    · exact ih (Bool.and_eq_true_iff.mp h).2

theorem count_of_isKeyRest {cs : List Char} (h : isKeyRest cs = true) : cs.count '@' ≤ 1 := by
  induction cs with
  | nil => exact Nat.zero_le 1
  | cons c cs ih =>
    rw [isKeyRest] at h
    split at h
    · rename_i hat
      have hnone := List.count_eq_zero_of_not_mem (at_not_mem_of_isSystem h)
      rw [hat, List.count_cons_self]
      omega
    · rename_i hat
      rw [List.count_cons_of_ne hat]
      exact ih (Bool.and_eq_true_iff.mp h).2

theorem systemForm_of_isSystem {system : String} (h : isSystem system.toList = true) : SystemForm system := by
  have hlong := byteLength_of_isSystem h
  rw [byteLength_toList] at hlong
  cases hchars : system.toList with
  | nil =>
    rw [hchars] at h
    cases h
  | cons c cs =>
    refine ⟨⟨one_le_utf8ByteSize_iff.mpr ⟨c, cs, hchars⟩, hlong⟩, ?_⟩
    rw [hchars, isSystem, Bool.and_eq_true, Bool.and_eq_true] at h
    rw [hchars]
    rintro _ ⟨⟩
    exact isNameStart_iff.mp h.1.1

theorem isSystem_of_systemForm {system : String} (h : SystemForm system) (hchars : ∀ c ∈ system.toList, c ∈ keyChars) :
    isSystem system.toList = true := by
  obtain ⟨⟨hpos, hlong⟩, hfirst⟩ := h
  obtain ⟨c, cs, hsystem⟩ := one_le_utf8ByteSize_iff.mp hpos
  rw [← byteLength_toList] at hlong
  rw [hsystem] at hchars hfirst hlong ⊢
  have hstart := isNameStart_of_mem (hfirst c rfl)
  have hnames : cs.all isNameChar = true :=
    List.all_eq_true.mpr fun d hd => isNameChar_of_mem (hchars d (List.mem_cons_of_mem _ hd))
  have hshort : cs.length < maxSystemLength := by
    have hle := length_le_byteLength (c :: cs)
    rw [List.length_cons] at hle
    exact Nat.le_trans hle hlong
  rw [isSystem, hstart, hnames, decide_eq_true hshort]
  rfl

theorem keyForm_of_isKey {key : String} (h : isKey key.toList = true) : KeyForm key := by
  obtain ⟨c, rest, hkey, hstart, hrest⟩ := exists_cons_of_isKey h
  have hat : c ≠ '@' := by
    rintro rfl
    cases hstart
  constructor
  case bytes =>
    rw [hkey, isKey, Bool.and_eq_true, Bool.and_eq_true, decide_eq_true_eq, ← hkey, byteLength_toList] at h
    exact ⟨one_le_utf8ByteSize_iff.mpr ⟨c, rest, hkey⟩, h.1.1⟩
  case chars =>
    intro d hd
    rcases isNameChar_or_at_of_mem_key h hd with hname | rfl
    · exact List.mem_cons_of_mem _ (isNameChar_iff.mp hname)
    · exact List.mem_cons_self
  case first =>
    rw [hkey]
    rintro _ ⟨⟩
    exact isNameStart_iff.mp hstart
  case signs =>
    rw [hkey, List.count_cons_of_ne hat]
    exact count_of_isKeyRest hrest
  case system =>
    intro tenant system hsplit
    have hlist : c :: rest = tenant.toList ++ '@' :: system.toList := by
      rw [← hkey, hsplit, String.toList_append, String.toList_append, List.append_assoc]
      rfl
    refine systemForm_of_isSystem ?_
    rcases List.cons_eq_append_iff.mp hlist with ⟨-, hsign⟩ | ⟨tenantRest, -, hrestSplit⟩
    · exact absurd (List.cons.inj hsign).1.symm hat
    · exact isSystem_of_isKeyRest (hrestSplit ▸ hrest)

/-- A text of the characters of keys with one at sign at most is a name, or two names with the sign between them. -/
theorem isKeyRest_of_keyForm {key : String} (h : KeyForm key) {c : Char} {rest : List Char}
    (hkey : key.toList = c :: rest) : isKeyRest rest = true := by
  have hname {d : Char} (hd : d ∈ key.toList) (hat : d ≠ '@') : d ∈ keyChars :=
    (List.mem_cons.mp (h.chars d hd)).resolve_left hat
  by_cases hsign : '@' ∈ rest
  · obtain ⟨tenant, system, rfl⟩ := List.append_of_mem hsign
    have hcount : tenant.count '@' = 0 ∧ system.count '@' = 0 := by
      have hone := h.signs
      rw [hkey, List.count_cons, List.count_append, List.count_cons_self] at hone
      omega
    have hsplit : key = String.ofList (c :: tenant) ++ "@" ++ String.ofList system := by
      rw [← String.toList_inj, hkey]
      simp
    have hmem {d : Char} (hd : d ∈ tenant ++ '@' :: system) : d ∈ key.toList := hkey ▸ List.mem_cons_of_mem _ hd
    have htenant : ∀ d ∈ tenant, d ∈ keyChars := fun d hd =>
      hname (hmem (List.mem_append_left _ hd)) fun heq => List.count_eq_zero.mp hcount.1 (heq ▸ hd)
    have hsystem : ∀ d ∈ system, d ∈ keyChars := fun d hd =>
      hname (hmem (List.mem_append_right _ (List.mem_cons_of_mem _ hd))) fun heq =>
        List.count_eq_zero.mp hcount.2 (heq ▸ hd)
    rw [isKeyRest_append htenant, isKeyRest, if_pos rfl, ← String.toList_ofList (l := system)]
    refine isSystem_of_systemForm (h.system _ _ hsplit) ?_
    rwa [String.toList_ofList]
  · have hnames : ∀ d ∈ rest, d ∈ keyChars := fun d hd =>
      hname (hkey ▸ List.mem_cons_of_mem _ hd) fun heq => hsign (heq ▸ hd)
    rw [← List.append_nil rest, isKeyRest_append hnames]
    rfl

theorem isKey_of_keyForm {key : String} (h : KeyForm key) : isKey key.toList = true := by
  obtain ⟨hpos, hlong⟩ := h.bytes
  obtain ⟨c, rest, hkey⟩ := one_le_utf8ByteSize_iff.mp hpos
  have hstart : isNameStart c = true := isNameStart_of_mem (h.first c (by rw [hkey]; rfl))
  have hshort : byteLength (c :: rest) ≤ maxTextLength := by
    rw [← hkey, byteLength_toList]
    exact hlong
  rw [hkey, isKey, decide_eq_true hshort, hstart, isKeyRest_of_keyForm h hkey]
  rfl

/-- The key check accepts just the texts of up to 256 bytes that its description allows, and the pass over the bytes
that remembers one place comes to the same. -/
theorem key_check_accepts_form (key : String) :
    (isKey key.toList = true ↔ KeyForm key) ∧ scanKey key = isKey key.toList :=
  ⟨⟨keyForm_of_isKey, isKey_of_keyForm⟩, scanKey_eq key⟩

end Tracing.TraceState
