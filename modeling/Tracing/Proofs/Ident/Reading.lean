import Tracing.Proofs.TraceState.KeyScan
import Tracing.Proofs.Traceparent.Grammar

/-! # Reading an identifier

The reader of an identifier goes over the bytes of a text two at a time, and each two digits are one byte. It counts
bytes, so characters of several bytes can make up the length; the first byte that is no digit ends it. What it reads
are just the texts of two digits for each byte. Written again, they are the same digits in lower case, and both the
text and the bytes of an identifier give it back. -/

namespace Tracing

open Text TraceState

/-! ### Digits and bytes -/

namespace Text

/-- The digits of either case. -/
def hexAlphabet : List Char := "0123456789abcdefABCDEF".toList

/-- The character whose code is a byte. -/
def byteChar (b : UInt8) : Char := Char.ofNat b.toNat

/-- The first byte of a text that is no digit. -/
def firstStranger (s : String) : Option UInt8 := s.toUTF8.data.toList.find? fun b => byteChar b ∉ hexAlphabet

/-- The bytes that digits write, two for each. -/
def pairBytes : List Char → List UInt8
  | high :: low :: rest => UInt8.ofNat (16 * digitNumber high + digitNumber low) :: pairBytes rest
  | [_] | [] => []

theorem mem_hexAlphabet_iff {c : Char} : c ∈ hexAlphabet ↔ isHexDigit c = true := by
  have hall : hexAlphabet.all isHexDigit = true := by decide
  exact ⟨fun h => List.all_eq_true.mp hall c h, fun h => forall_hexDigit (p := (· ∈ hexAlphabet)) (by decide) h⟩

theorem byteChar_toUInt8 {c : Char} (h : isAscii c = true) : byteChar c.toUInt8 = c :=
  forall_ascii (p := fun c => byteChar c.toUInt8 = c) (by decide) h

theorem toNat_byteChar (b : UInt8) : (byteChar b).toNat = b.toNat := by
  have hlt := b.toNat_lt
  have hvalid : b.toNat.isValidChar := Or.inl (by omega)
  rw [byteChar, Char.ofNat, dif_pos hvalid]
  rfl

theorem isHexDigit_byteChar_of_ge {b : UInt8} (h : 128 ≤ b.toNat) : isHexDigit (byteChar b) = false := by
  refine Bool.eq_false_iff.mpr fun hdigit => ?_
  have hcode := toNat_of_isHexDigit hdigit
  rw [toNat_byteChar] at hcode
  omega

theorem map_byteChar_utf8 {cs : List Char} (h : ∀ c ∈ cs, isHexDigit c = true) : (utf8 cs).map byteChar = cs := by
  induction cs with
  | nil => rfl
  | cons c cs ih =>
    have hascii := isAscii_of_isHexDigit (h c List.mem_cons_self)
    rw [utf8_cons_of_ascii hascii, List.map_cons, byteChar_toUInt8 hascii,
      ih fun d hd => h d (List.mem_cons_of_mem _ hd)]

/-- The first byte that is no digit is the lead byte of the first character that is none. -/
theorem find?_utf8 (cs : List Char) : ((utf8 cs).find? fun b => !isHexDigit (byteChar b)).map byteChar =
    (cs.find? fun c => !isHexDigit c).map fun c => Char.ofNat (leadByte c) := by
  induction cs with
  | nil => rfl
  | cons c cs ih =>
    cases hdigit : isHexDigit c with
    | true =>
      have hascii := isAscii_of_isHexDigit hdigit
      rw [utf8_cons_of_ascii hascii, List.find?_cons_of_neg (by simp [byteChar_toUInt8 hascii, hdigit]),
        List.find?_cons_of_neg (by simp [hdigit]), ih]
    | false =>
      obtain ⟨b, rest, hbytes, hb⟩ := utf8_cons c cs
      have hchar : byteChar b = Char.ofNat (leadByte c) := congrArg Char.ofNat hb
      have hstranger : isHexDigit (byteChar b) = false := by
        cases hascii : isAscii c with
        | true => rw [hchar, leadByte_of_ascii hascii, Char.ofNat_toNat, hdigit]
        | false => exact isHexDigit_byteChar_of_ge (hb ▸ le_leadByte_of_not_ascii hascii)
      rw [hbytes, List.find?_cons_of_pos (by simp [hstranger]), List.find?_cons_of_pos (by simp [hdigit])]
      exact congrArg some hchar

theorem firstStranger_eq (s : String) :
    firstStranger s = (utf8 s.toList).find? fun b => !isHexDigit (byteChar b) := by
  rw [firstStranger, data_toUTF8]
  simp only [mem_hexAlphabet_iff, decide_not, Bool.decide_eq_true]

end Text

namespace Ident

/-! ### The pass over the bytes -/

/-- The number of a byte that is a digit. -/
def nibble (b : UInt8) : Except IdentError UInt8 :=
  match hexDigitValue (byteChar b) with
  | some n => .ok (UInt8.ofNat n)
  | none => .error (.digit (byteChar b))

/-- The bytes that digits write, two for each. The first byte that is no digit ends the pass. -/
def readPairs : List UInt8 → Except IdentError (List UInt8)
  | high :: low :: rest => do
    let high ← nibble high
    let low ← nibble low
    return (high <<< 4 ||| low) :: (← readPairs rest)
  | [_] | [] => .ok []

/-- The bytes that a text of two digits for each of them writes. -/
def readBytes (count : Nat) (s : String) : Except IdentError (List UInt8) :=
  let raw := s.toUTF8.data.toList
  if raw.length ≠ 2 * count then .error (.length (2 * count) s.length) else readPairs raw

theorem nibble_of_isHexDigit {b : UInt8} (h : isHexDigit (byteChar b) = true) :
    nibble b = .ok (UInt8.ofNat (digitNumber (byteChar b))) := by
  obtain ⟨n, hn⟩ := Option.isSome_iff_exists.mp h
  simp [nibble, digitNumber, hn]

theorem nibble_of_not_isHexDigit {b : UInt8} (h : isHexDigit (byteChar b) = false) :
    nibble b = .error (.digit (byteChar b)) := by
  have hn : hexDigitValue (byteChar b) = none := Option.isSome_eq_false_iff.mp h |> Option.isNone_iff_eq_none.mp
  simp [nibble, hn]

theorem join_halves {x y : Nat} (hx : x < 16) (hy : y < 16) :
    UInt8.ofNat x <<< 4 ||| UInt8.ofNat y = UInt8.ofNat (16 * x + y) := by
  have hall : ∀ x < 16, ∀ y < 16, UInt8.ofNat x <<< 4 ||| UInt8.ofNat y = UInt8.ofNat (16 * x + y) := by decide
  exact hall x hx y hy

section Pass
variable {high low : UInt8} {rest : List UInt8}

theorem readPairs_of_not_high (h : isHexDigit (byteChar high) = false) :
    readPairs (high :: low :: rest) = .error (.digit (byteChar high)) := by
  rw [readPairs, nibble_of_not_isHexDigit h]
  rfl

theorem readPairs_of_not_low (hhigh : isHexDigit (byteChar high) = true) (h : isHexDigit (byteChar low) = false) :
    readPairs (high :: low :: rest) = .error (.digit (byteChar low)) := by
  rw [readPairs, nibble_of_isHexDigit hhigh, nibble_of_not_isHexDigit h]
  rfl

theorem readPairs_of_digits (hhigh : isHexDigit (byteChar high) = true) (hlow : isHexDigit (byteChar low) = true) :
    readPairs (high :: low :: rest) = (readPairs rest).map
      (UInt8.ofNat (16 * digitNumber (byteChar high) + digitNumber (byteChar low)) :: ·) := by
  rw [readPairs, nibble_of_isHexDigit hhigh, nibble_of_isHexDigit hlow,
    ← join_halves (digitNumber_lt hhigh) (digitNumber_lt hlow)]
  cases readPairs rest <;> rfl

/-- The pass ends at the first byte that is no digit; where there is none, it comes to the end. An odd byte at
the end would not be looked at, hence the even length. -/
theorem readPairs_eq {raw : List UInt8} (heven : raw.length % 2 = 0) :
    readPairs raw = match raw.find? fun b => !isHexDigit (byteChar b) with
      | some b => .error (.digit (byteChar b))
      | none => .ok (pairBytes (raw.map byteChar)) := by
  induction raw using readPairs.induct with
  | case1 high low rest ih =>
    rw [List.length_cons, List.length_cons] at heven
    have ih := ih (by omega)
    cases hhigh : isHexDigit (byteChar high) with
    | false => rw [readPairs_of_not_high hhigh, List.find?_cons_of_pos (by rw [hhigh]; rfl)]
    | true =>
      rw [List.find?_cons_of_neg (by rw [hhigh]; simp)]
      cases hlow : isHexDigit (byteChar low) with
      | false => rw [readPairs_of_not_low hhigh hlow, List.find?_cons_of_pos (by rw [hlow]; rfl)]
      | true =>
        rw [List.find?_cons_of_neg (by rw [hlow]; simp), readPairs_of_digits hhigh hlow, ih]
        cases rest.find? fun b => !isHexDigit (byteChar b) <;> rfl
  | case2 b => cases heven
  | case3 => rfl

end Pass

/-! ### Bytes and numbers -/

theorem ofBytes_concat (bs : List UInt8) (b : UInt8) : ofBytes (bs ++ [b]) = ofBytes bs * 256 + b.toNat := by
  rw [ofBytes, List.foldl_append]
  rfl

theorem ofBytes_bytes (count n : Nat) : ofBytes (bytes count n) = n % 256 ^ count := by
  induction count generalizing n with
  | zero => exact (Nat.mod_one n).symm
  | succ count ih =>
    rw [bytes, ofBytes_concat, ih, UInt8.toNat_ofNat', Nat.mod_mod, Nat.pow_succ', Nat.mod_mul]
    omega

theorem bytes_ofBytes (bs : List UInt8) : bytes bs.length (ofBytes bs) = bs := by
  induction bs using List.reverseRecOn with
  | nil => rfl
  | append_singleton bs b ih =>
    have hlt := b.toNat_lt
    have hlead : (ofBytes bs * 256 + b.toNat) / 256 = ofBytes bs := by omega
    have hlast : (ofBytes bs * 256 + b.toNat) % 256 = b.toNat := by omega
    rw [List.length_append, List.length_singleton, bytes, ofBytes_concat, hlead, hlast, ih, UInt8.ofNat_toNat]

theorem length_pairBytes (cs : List Char) : (pairBytes cs).length = cs.length / 2 := by
  induction cs using pairBytes.induct with
  | case1 high low rest ih =>
    rw [pairBytes, List.length_cons, ih, List.length_cons, List.length_cons]
    omega
  | case2 c => simp [pairBytes]
  | case3 => rfl

theorem foldl_pairBytes {cs : List Char} (heven : cs.length % 2 = 0) (h : ∀ c ∈ cs, isHexDigit c = true) (n : Nat) :
    (pairBytes cs).foldl (fun n b => n * 256 + b.toNat) n = cs.foldl (fun n c => n * 16 + digitNumber c) n := by
  induction cs using pairBytes.induct generalizing n with
  | case1 high low rest ih =>
    rw [List.length_cons, List.length_cons] at heven
    rw [List.forall_mem_cons, List.forall_mem_cons] at h
    obtain ⟨hhigh, hlow, hrest⟩ := h
    have hbyte : 16 * digitNumber high + digitNumber low < 2 ^ 8 := by
      have hlt := digitNumber_lt hhigh
      have hlt' := digitNumber_lt hlow
      omega
    have hnext : n * 256 + (16 * digitNumber high + digitNumber low) =
        (n * 16 + digitNumber high) * 16 + digitNumber low := by
      omega
    rw [pairBytes, List.foldl_cons, List.foldl_cons, List.foldl_cons, UInt8.toNat_ofNat', Nat.mod_eq_of_lt hbyte,
      hnext, ih (by omega) hrest]
  | case2 c => cases heven
  | case3 => rfl

section Digits
variable {count : Nat} {cs : List Char}

/-- The bytes of digits hold the number that the digits write. -/
theorem ofBytes_pairBytes (h : IsHex (2 * count) cs) : ofBytes (pairBytes cs) = numberOf cs := by
  have hlength := h.length
  rw [← hexValue_eq_numberOf]
  exact foldl_pairBytes (by omega) h.digits 0

theorem bytes_numberOf (h : IsHex (2 * count) cs) : bytes count (numberOf cs) = pairBytes cs := by
  have hcount : (pairBytes cs).length = count := by
    rw [length_pairBytes, h.length]
    omega
  calc bytes count (numberOf cs)
    _ = bytes (pairBytes cs).length (ofBytes (pairBytes cs)) := by rw [hcount, ofBytes_pairBytes h]
    _ = pairBytes cs := bytes_ofBytes _

theorem hexDigits_eq_lowerCase (h : IsHex count cs) : hexDigits count (numberOf cs) = lowerCase cs := by
  rw [← h.length, hexDigits_numberOf h.digits, lowerCase_of_ascii]
  exact fun c hc => of_decide_eq_true (isAscii_of_isHexDigit (h.digits c hc))

end Digits

/-! ### The answer -/

theorem firstStranger_map (s : String) : (firstStranger s).map byteChar =
    (s.toList.find? fun c => !isHexDigit c).map fun c => Char.ofNat (leadByte c) := by
  rw [firstStranger_eq, find?_utf8]

theorem isHex_iff_hexAlphabet {count : Nat} {s : String} :
    IsHex count s.toList ↔ s.length = count ∧ ∀ c ∈ s.toList, c ∈ hexAlphabet := by
  simp only [mem_hexAlphabet_iff, ← String.length_toList]
  exact ⟨fun h => ⟨h.length, h.digits⟩, fun h => ⟨h.1, h.2⟩⟩

theorem isHex_iff_firstStranger {count : Nat} {s : String} :
    IsHex count s.toList ↔ s.utf8ByteSize = count ∧ firstStranger s = none := by
  have hnone : firstStranger s = none ↔ ∀ c ∈ s.toList, isHexDigit c = true := by
    rw [← Option.map_eq_none_iff, firstStranger_map, Option.map_eq_none_iff, List.find?_eq_none]
    simp
  rw [← isHex_iff_byteLength, byteLength_toList, hnone]

/-- The pass over the bytes of a text, without the steps that it takes. -/
theorem readBytes_eq (count : Nat) (s : String) : readBytes count s =
    if s.utf8ByteSize ≠ 2 * count then .error (.length (2 * count) s.length)
    else match firstStranger s with
      | some b => .error (.digit (byteChar b))
      | none => .ok (pairBytes s.toList) := by
  have hlength : (utf8 s.toList).length = s.utf8ByteSize := by rw [length_utf8, byteLength_toList]
  rw [readBytes, data_toUTF8, firstStranger_eq, hlength]
  split
  · rfl
  · rename_i hsize
    rw [readPairs_eq (by omega), ← firstStranger_eq]
    cases hfirst : firstStranger s with
    | some b => rfl
    | none =>
      have hhex : IsHex (2 * count) s.toList := isHex_iff_firstStranger.mpr ⟨of_not_not hsize, hfirst⟩
      dsimp only
      rw [map_byteChar_utf8 hhex.digits]

/-- The reader of an identifier comes to the same as the pass over the bytes. -/
theorem decode_eq_readBytes (count : Nat) (s : String) :
    decode (2 * count) s.toList = (readBytes count s).map ofBytes := by
  have hfirst := firstStranger_map s
  rw [readBytes_eq, decode, byteLength_toList, String.length_toList]
  split
  · rfl
  · rename_i hsize
    cases hstranger : firstStranger s with
    | some b =>
      rw [hstranger] at hfirst
      obtain ⟨c, hc, hchar⟩ := Option.map_eq_some_iff.mp hfirst.symm
      rw [hc]
      exact congrArg (fun c => Except.error (IdentError.digit c)) hchar
    | none =>
      have hhex : IsHex (2 * count) s.toList := isHex_iff_firstStranger.mpr ⟨of_not_not hsize, hstranger⟩
      rw [hstranger] at hfirst
      rw [Option.map_eq_none_iff.mp hfirst.symm, hexValue_eq_numberOf, ← ofBytes_pairBytes hhex]
      rfl

/-- The answer to reading an identifier of so many bytes from a text, where `text` and `bytes` write identifiers. -/
structure Reads {α : Type} (count : Nat) (text : α → String) (bytes : α → List UInt8) (s : String)
    (answer : Except IdentError α) : Prop where
  accepted : (∃ id, answer = .ok id) ↔ s.length = 2 * count ∧ ∀ c ∈ s.toList, c ∈ hexAlphabet
  written : ∀ id, answer = .ok id → text id = String.ofList (lowerCase s.toList) ∧ bytes id = pairBytes s.toList
  length : ∀ expected found, answer = .error (.length expected found) ↔
    s.utf8ByteSize ≠ 2 * count ∧ expected = 2 * count ∧ found = s.length
  digit : ∀ c, answer = .error (.digit c) ↔ s.utf8ByteSize = 2 * count ∧ (firstStranger s).map byteChar = some c

namespace Reads
variable {α : Type} {count : Nat} {text : α → String} {bytes : α → List UInt8} {s : String}

theorem of_length (h : s.utf8ByteSize ≠ 2 * count) :
    Reads count text bytes s (.error (.length (2 * count) s.length)) := by
  constructor
  case accepted =>
    rw [← isHex_iff_hexAlphabet, isHex_iff_firstStranger]
    simp [h]
  case written => rintro _ ⟨⟩
  case length => simp [h, eq_comm]
  case digit => simp [h]

theorem of_digit (h : s.utf8ByteSize = 2 * count) {b : UInt8} (hb : firstStranger s = some b) :
    Reads count text bytes s (.error (.digit (byteChar b))) := by
  constructor
  case accepted =>
    rw [← isHex_iff_hexAlphabet, isHex_iff_firstStranger]
    simp [hb]
  case written => rintro _ ⟨⟩
  case length => simp [h]
  case digit => simp [h, hb]

theorem of_isHex (h : IsHex (2 * count) s.toList) {id : α} (htext : text id = String.ofList (lowerCase s.toList))
    (hbytes : bytes id = pairBytes s.toList) : Reads count text bytes s (.ok id) := by
  obtain ⟨hsize, hnone⟩ := isHex_iff_firstStranger.mp h
  constructor
  case accepted => exact iff_of_true ⟨id, rfl⟩ (isHex_iff_hexAlphabet.mp h)
  case written =>
    rintro _ ⟨⟩
    exact ⟨htext, hbytes⟩
  case length => simp [hsize]
  case digit => simp [hnone]

end Reads

/-- Identifiers made from numbers are read in this way, if they keep the numbers that so many digits write. -/
theorem reads_decode {α : Type} {count : Nat} {toNat : α → Nat} {ofNat : Nat → α}
    (hkeep : ∀ cs, IsHex (2 * count) cs → toNat (ofNat (numberOf cs)) = numberOf cs) (s : String) :
    Reads count (fun id => String.ofList (hexDigits (2 * count) (toNat id))) (fun id => bytes count (toNat id)) s
      ((decode (2 * count) s.toList).map ofNat) := by
  rw [decode_eq_readBytes, readBytes_eq]
  by_cases hsize : s.utf8ByteSize = 2 * count
  · rw [if_neg (not_not.mpr hsize)]
    cases hstranger : firstStranger s with
    | some b => exact .of_digit hsize hstranger
    | none =>
      have hhex : IsHex (2 * count) s.toList := isHex_iff_firstStranger.mpr ⟨hsize, hstranger⟩
      refine .of_isHex hhex ?_ ?_
      · rw [ofBytes_pairBytes hhex, hkeep _ hhex, hexDigits_eq_lowerCase hhex]
      · rw [ofBytes_pairBytes hhex, hkeep _ hhex, bytes_numberOf hhex]
  · rw [if_pos hsize]
    exact .of_length hsize

end Ident

/-! ### Identifiers of a trace and of a span -/

theorem TraceId.ofHex_text (id : TraceId) : ofHex id.text = .ok id := by
  rw [ofHex, text, String.toList_ofList, digits, toNat, Ident.decode_hexDigits 32 id.bits]
  exact congrArg Except.ok id.ofNat_toNat

theorem SpanId.ofHex_text (id : SpanId) : ofHex id.text = .ok id := by
  rw [ofHex, text, String.toList_ofList, digits, toNat, Ident.decode_hexDigits 16 id.bits]
  exact congrArg Except.ok id.ofNat_toNat

theorem TraceId.ofBytes_bytes (id : TraceId) : ofBytes id.bytes = id := by
  have hlt : id.toNat < 256 ^ 16 := id.bits.isLt
  rw [ofBytes, bytes, Ident.ofBytes_bytes, Nat.mod_eq_of_lt hlt, ofNat_toNat]

theorem SpanId.ofBytes_bytes (id : SpanId) : ofBytes id.bytes = id := by
  have hlt : id.toNat < 256 ^ 8 := id.bits.isLt
  rw [ofBytes, bytes, Ident.ofBytes_bytes, Nat.mod_eq_of_lt hlt, ofNat_toNat]

/-- An identifier is read from two digits of either case for each of its bytes and from no other text. It is written as
the text in lower case, and its bytes are the pairs of digits in order. A text with another number of bytes is refused
for its length, and any other for its first byte that is no digit. The text and the bytes of every identifier give the
identifier back. -/
theorem Ident.reads_exactly_its_digits :
    (∀ s, Reads 16 TraceId.text TraceId.bytes s (TraceId.ofHex s)) ∧
      (∀ s, Reads 8 SpanId.text SpanId.bytes s (SpanId.ofHex s)) ∧
      (∀ id : TraceId, TraceId.ofHex id.text = .ok id ∧ TraceId.ofBytes id.bytes = id) ∧
      ∀ id : SpanId, SpanId.ofHex id.text = .ok id ∧ SpanId.ofBytes id.bytes = id := by
  have htrace : ∀ cs, IsHex (2 * 16) cs → (TraceId.ofNat (numberOf cs)).toNat = numberOf cs :=
    fun cs h => toNat_ofNat_numberOf h (by decide)
  have hspan : ∀ cs, IsHex (2 * 8) cs → (SpanId.ofNat (numberOf cs)).toNat = numberOf cs :=
    fun cs h => toNat_ofNat_numberOf h (by decide)
  exact ⟨reads_decode htrace, reads_decode hspan, fun id => ⟨id.ofHex_text, id.ofBytes_bytes⟩,
    fun id => ⟨id.ofHex_text, id.ofBytes_bytes⟩⟩

/-- A letter of two bytes makes up the length, and its first byte stands for the second digit of a pair. -/
example : SpanId.ofHex "00f067aa0ba90é7" = .error (.digit 'Ã') := by decide

end Tracing
