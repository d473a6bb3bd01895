import Mathlib.Data.List.Induction
import Mathlib.Data.Nat.Digits.Defs
import Tracing.Proofs.Traceparent.RoundTrip
import Tracing.Text.LowerCase

/-! # Which texts are read as a trace context

A text is read just if, without the blanks around it, it is version 00 and three fields of digits with hyphens between
them, and names a trace and a span. The digits alone decide what is read, and writing it gives the same text again, in
lower case and with one flag. Every other text is refused with the name of the header. -/

namespace Tracing

open Text

/-! ### Digits -/

namespace Text

/-- The number that a digit of either case stands for. -/
def digitNumber (c : Char) : Nat := (hexDigitValue c).getD 0

/-- The number that digits write, the most significant first. -/
def numberOf (cs : List Char) : Nat := Nat.ofDigits 16 (cs.reverse.map digitNumber)

theorem numberOf_concat (cs : List Char) (c : Char) : numberOf (cs ++ [c]) = numberOf cs * 16 + digitNumber c := by
  unfold numberOf
  rw [List.reverse_append, List.reverse_singleton, List.singleton_append, List.map_cons, Nat.ofDigits_cons]
  omega

theorem hexValue_eq_numberOf (cs : List Char) : hexValue cs = numberOf cs := by
  induction cs using List.reverseRecOn with
  | nil => rfl
  | append_singleton cs c ih =>
    rw [numberOf_concat, ← ih]
    simp [hexValue, digitNumber, List.foldl_append]

/-- The digits have seven bits, so a fact about each of them is one about few characters. -/
theorem forall_hexDigit {p : Char → Prop} (h : ∀ n, n < 128 → isHexDigit (Char.ofNat n) = true → p (Char.ofNat n))
    {c : Char} (hc : isHexDigit c = true) : p c := by
  have hcode := toNat_of_isHexDigit hc
  have hp := h c.toNat (by omega)
  rw [Char.ofNat_toNat] at hp
  exact hp hc

theorem digitNumber_lt {c : Char} (h : isHexDigit c = true) : digitNumber c < 16 :=
  forall_hexDigit (p := fun c => digitNumber c < 16) (by decide) h

theorem hexDigit_digitNumber {c : Char} (h : isHexDigit c = true) : hexDigit (digitNumber c) = foldAsciiChar c :=
  forall_hexDigit (p := fun c => hexDigit (digitNumber c) = foldAsciiChar c) (by decide) h

theorem digitNumber_eq_zero_iff {c : Char} (h : isHexDigit c = true) : digitNumber c = 0 ↔ c = '0' :=
  forall_hexDigit (p := fun c => digitNumber c = 0 ↔ c = '0') (by decide) h

/-- Exactly so many digits of either case. -/
structure IsHex (count : Nat) (cs : List Char) : Prop where
  length : cs.length = count
  digits : ∀ c ∈ cs, isHexDigit c = true

theorem numberOf_lt {cs : List Char} (h : ∀ c ∈ cs, isHexDigit c = true) : numberOf cs < 16 ^ cs.length := by
  have hlt : numberOf cs < 16 ^ (cs.reverse.map digitNumber).length := by
    refine Nat.ofDigits_lt_base_pow_length (by decide) fun n hn => ?_
    obtain ⟨c, hc, rfl⟩ := List.mem_map.mp hn
    exact digitNumber_lt (h c (List.mem_reverse.mp hc))
  simpa using hlt

/-- As many bits as the digits tell hold their number. -/
theorem toNat_ofNat_numberOf {count w : Nat} {cs : List Char} (h : IsHex count cs) (hwidth : 2 ^ w = 16 ^ count) :
    (BitVec.ofNat w (numberOf cs)).toNat = numberOf cs := by
  rw [BitVec.toNat_ofNat, hwidth, ← h.length]
  exact Nat.mod_eq_of_lt (numberOf_lt h.digits)

theorem numberOf_ne_zero_iff {cs : List Char} (h : ∀ c ∈ cs, isHexDigit c = true) :
    numberOf cs ≠ 0 ↔ ∃ c ∈ cs, c ≠ '0' := by
  induction cs using List.reverseRecOn with
  | nil => simp [numberOf]
  | append_singleton cs c ih =>
    have hcs : ∀ d ∈ cs, isHexDigit d = true := fun d hd => h d (List.mem_append_left _ hd)
    have hc := digitNumber_eq_zero_iff (h c (by simp))
    have hvalue := numberOf_concat cs c
    have hzero : numberOf (cs ++ [c]) ≠ 0 ↔ numberOf cs ≠ 0 ∨ digitNumber c ≠ 0 := by omega
    rw [hzero, ih hcs, ne_eq, hc]
    simp [or_and_right, exists_or]

/-- Writing the number of some digits gives the digits, in lower case. -/
theorem hexDigits_numberOf {cs : List Char} (h : ∀ c ∈ cs, isHexDigit c = true) :
    hexDigits cs.length (numberOf cs) = foldAscii cs := by
  induction cs using List.reverseRecOn with
  | nil => rfl
  | append_singleton cs c ih =>
    have hcs : ∀ d ∈ cs, isHexDigit d = true := fun d hd => h d (List.mem_append_left _ hd)
    have hc := h c (by simp)
    have hlt := digitNumber_lt hc
    have hvalue := numberOf_concat cs c
    have hlead : numberOf (cs ++ [c]) / 16 = numberOf cs := by omega
    have hlast : numberOf (cs ++ [c]) % 16 = digitNumber c := by omega
    rw [List.length_append, List.length_singleton, hexDigits, hlead, hlast, ih hcs, hexDigit_digitNumber hc]
    simp [foldAscii]

theorem hyphen_not_mem_of_isHexDigit {cs : List Char} (h : ∀ c ∈ cs, isHexDigit c = true) : '-' ∉ cs :=
  fun hmem => absurd (h _ hmem) (by decide)

/-- Digits have a byte each, so their bytes may be counted as well. -/
theorem isHex_iff_byteLength {count : Nat} {cs : List Char} :
    (byteLength cs = count ∧ ∀ c ∈ cs, isHexDigit c = true) ↔ IsHex count cs := by
  have hbytes : (∀ c ∈ cs, isHexDigit c = true) → byteLength cs = cs.length :=
    fun h => byteLength_of_ascii fun c hc => isAscii_of_isHexDigit (h c hc)
  constructor
  · rintro ⟨hlength, hdigits⟩
    exact ⟨(hbytes hdigits).symm.trans hlength, hdigits⟩
  · rintro ⟨hlength, hdigits⟩
    exact ⟨(hbytes hdigits).trans hlength, hdigits⟩

theorem decode_eq_ok_iff_isHex {count n : Nat} {cs : List Char} :
    Ident.decode count cs = .ok n ↔ IsHex count cs ∧ numberOf cs = n := by
  rw [Ident.decode_eq_ok_iff, hexValue_eq_numberOf, ← and_assoc, isHex_iff_byteLength]

end Text

namespace Traceparent

/-! ### The grammar -/

/-- The digits that a text of a trace context is made of. -/
structure Fields where
  trace : List Char
  span : List Char
  flags : List Char

namespace Fields

/-- Version 00 and the fields, with hyphens between them. -/
def text (f : Fields) : List Char := "00-".toList ++ f.trace ++ '-' :: f.span ++ '-' :: f.flags

/-- The fields are digits of either case, in their number, and not all zero where they name something. -/
structure Valid (f : Fields) : Prop where
  trace : IsHex 32 f.trace
  span : IsHex 16 f.span
  flags : IsHex 2 f.flags
  namesTrace : ∃ c ∈ f.trace, c ≠ '0'
  namesSpan : ∃ c ∈ f.span, c ≠ '0'

/-- The lowest flag is set. -/
def sampled (f : Fields) : Bool := numberOf f.flags % 2 = 1

/-- The trace context is the one that the fields tell, the most significant digit of each first. -/
structure Tell (f : Fields) (tc : TraceContext) : Prop where
  traceId : tc.traceId.toNat = numberOf f.trace
  spanId : tc.spanId.toNat = numberOf f.span
  flags : tc.flags = .ofSampled f.sampled
  state : tc.state = .empty

end Fields

/-! ### Reading -/

theorem isHexPair_iff {cs : List Char} : isHexPair cs = true ↔ IsHex 2 cs := by
  unfold isHexPair
  rw [Bool.and_eq_true, beq_iff_eq, List.all_eq_true]
  exact isHex_iff_byteLength

theorem traceId_isValid_iff {cs : List Char} (h : IsHex 32 cs) :
    (TraceId.ofNat (numberOf cs)).isValid = true ↔ ∃ c ∈ cs, c ≠ '0' := by
  rw [← numberOf_ne_zero_iff h.digits, ← toNat_ofNat_numberOf h (w := 128) (by decide)]
  simp [TraceId.isValid, TraceId.zero, TraceId.ofNat, ← BitVec.toNat_inj]

theorem spanId_isValid_iff {cs : List Char} (h : IsHex 16 cs) :
    (SpanId.ofNat (numberOf cs)).isValid = true ↔ ∃ c ∈ cs, c ≠ '0' := by
  rw [← numberOf_ne_zero_iff h.digits, ← toNat_ofNat_numberOf h (w := 64) (by decide)]
  simp [SpanId.isValid, SpanId.zero, SpanId.ofNat, ← BitVec.toNat_inj]

/-- The trace context that the fields tell. -/
def Fields.context (f : Fields) : TraceContext :=
  .make (.ofNat (numberOf f.trace)) (.ofNat (numberOf f.span)) ⟨UInt8.ofNat (numberOf f.flags)⟩ .empty

/-- Four fields are read just if they are valid and of version 00. -/
theorem ofFields_eq_ok_iff {version : List Char} {f : Fields} {tc : TraceContext} :
    ofFields version f.trace f.span f.flags = .ok tc ↔ version = ['0', '0'] ∧ f.Valid ∧ f.context = tc := by
  constructor
  · -- One fault after the other is excluded, in the order in which they are looked for.
    intro h
    unfold ofFields at h
    split at h
    · cases h
    split at h
    · cases h
    rename_i hversion
    split at h
    · cases h
    · cases h
    rename_i trace span hread hread'
    obtain ⟨htrace, rfl⟩ := decode_eq_ok_iff_isHex.mp hread
    obtain ⟨hspan, rfl⟩ := decode_eq_ok_iff_isHex.mp hread'
    split at h
    · cases h
    rename_i hflags
    split at h
    · cases h
    rename_i hnames
    split at h
    · cases h
    rename_i hnames'
    rw [hexValue_eq_numberOf] at h
    refine ⟨by simpa using hversion, ⟨htrace, hspan, ?_, ?_, ?_⟩, Except.ok.inj h⟩
    · exact isHexPair_iff.mp (by simpa using hflags)
    · exact (traceId_isValid_iff htrace).mp (by simpa using hnames)
    · exact (spanId_isValid_iff hspan).mp (by simpa using hnames')
  · rintro ⟨rfl, hf, rfl⟩
    have hversion : isHexPair ['0', '0'] = true := by decide
    have htrace := decode_eq_ok_iff_isHex.mpr ⟨hf.trace, rfl⟩
    have hspan := decode_eq_ok_iff_isHex.mpr ⟨hf.span, rfl⟩
    simp only [ofFields, hversion, htrace, hspan, isHexPair_iff.mpr hf.flags,
      (traceId_isValid_iff hf.trace).mpr hf.namesTrace, (spanId_isValid_iff hf.span).mpr hf.namesSpan,
      hexValue_eq_numberOf]
    rfl

/-- The text of valid fields splits into its version and its fields. -/
theorem Fields.Valid.split_text {f : Fields} (hf : f.Valid) :
    split '-' f.text = [['0', '0'], f.trace, f.span, f.flags] := by
  have htext : f.text = ['0', '0'] ++ '-' :: (f.trace ++ '-' :: (f.span ++ '-' :: f.flags)) := by simp [Fields.text]
  have htrace := hyphen_not_mem_of_isHexDigit hf.trace.digits
  have hspan := hyphen_not_mem_of_isHexDigit hf.span.digits
  have hflags := hyphen_not_mem_of_isHexDigit hf.flags.digits
  rw [htext, split_append_cons (by decide), split_append_cons htrace, split_append_cons hspan, split_of_not_mem hflags]

/-- A text is read just if it is that of valid fields. -/
theorem decode_eq_ok_iff {cs : List Char} {tc : TraceContext} :
    decode cs = .ok tc ↔ ∃ f : Fields, f.Valid ∧ trim cs = f.text ∧ f.context = tc := by
  constructor
  · intro h
    unfold decode at h
    split at h
    · rename_i version trace span flags hsplit
      obtain ⟨rfl, hf, hcontext⟩ := ofFields_eq_ok_iff (f := ⟨trace, span, flags⟩).mp h
      have hjoin := join_split '-' (trim cs)
      rw [hsplit] at hjoin
      exact ⟨⟨trace, span, flags⟩, hf, by simp [← hjoin, join, Fields.text], hcontext⟩
    · cases h
  · rintro ⟨f, hf, htext, hcontext⟩
    unfold decode
    rw [htext, hf.split_text]
    exact ofFields_eq_ok_iff.mpr ⟨rfl, hf, hcontext⟩

/-! ### Writing what was read -/

theorem Fields.Valid.toNat_traceId {f : Fields} (hf : f.Valid) : f.context.traceId.toNat = numberOf f.trace :=
  toNat_ofNat_numberOf hf.trace (by decide)

theorem Fields.Valid.toNat_spanId {f : Fields} (hf : f.Valid) : f.context.spanId.toNat = numberOf f.span :=
  toNat_ofNat_numberOf hf.span (by decide)

/-- Of the flags only the lowest is kept. -/
theorem Fields.flags_context (f : Fields) : f.context.flags = .ofSampled f.sampled := by
  have hbits : UInt8.ofNat (numberOf f.flags) &&& 1 = UInt8.ofNat (numberOf f.flags % 2) := by
    apply UInt8.toNat_inj.mp
    rw [UInt8.toNat_and, UInt8.toNat_ofNat', UInt8.toNat_ofNat', UInt8.toNat_one, Nat.and_one_is_mod]
    omega
  refine congrArg TraceFlags.mk (hbits.trans ?_)
  unfold sampled
  obtain hparity | hparity := Nat.mod_two_eq_zero_or_one (numberOf f.flags) <;> rw [hparity] <;> rfl

theorem Fields.Valid.tell {f : Fields} (hf : f.Valid) : f.Tell f.context :=
  ⟨hf.toNat_traceId, hf.toNat_spanId, f.flags_context, rfl⟩

/-- The text of a sampling decision in place of the last two characters. -/
def withDecision (cs : List Char) (sampled : Bool) : List Char :=
  cs.dropLast.dropLast ++ if sampled then ['0', '1'] else ['0', '0']

theorem withDecision_append (cs : List Char) {flags : List Char} (h : flags.length = 2) (sampled : Bool) :
    withDecision (cs ++ flags) sampled = cs ++ if sampled then ['0', '1'] else ['0', '0'] := by
  have hdrop : (cs ++ flags).dropLast.dropLast = cs := by
    rw [List.dropLast_eq_take, List.dropLast_eq_take, List.take_take, List.length_take, List.length_append]
    exact List.take_left' (by omega)
  rw [withDecision, hdrop]

theorem Fields.Valid.lowerCase_text {f : Fields} (hf : f.Valid) : lowerCase f.text =
    "00-".toList ++ foldAscii f.trace ++ '-' :: foldAscii f.span ++ ['-'] ++ foldAscii f.flags := by
  have hdigit : ∀ {cs : List Char}, (∀ c ∈ cs, isHexDigit c = true) → ∀ c ∈ cs, c.toNat < 128 :=
    fun h c hc => of_decide_eq_true (isAscii_of_isHexDigit (h c hc))
  -- A check of the three characters: to decide the statement for all `c` means to try every character there is.
  have hversion : ("00-".toList.all fun c => c.toNat < 128) = true := by decide
  have hascii : ∀ c ∈ f.text, c.toNat < 128 := by
    simp only [Fields.text, List.forall_mem_append, List.forall_mem_cons]
    refine ⟨⟨⟨?_, hdigit hf.trace.digits⟩, by decide, hdigit hf.span.digits⟩, by decide, hdigit hf.flags.digits⟩
    exact fun c hc => of_decide_eq_true (List.all_eq_true.mp hversion c hc)
  rw [lowerCase_of_ascii hascii]
  simp [Fields.text, foldAscii, foldAsciiChar]

/-- What was read is written in lower case, with the sampling decision for the flags. -/
theorem Fields.Valid.encode_context {f : Fields} (hf : f.Valid) :
    encode f.context = withDecision (lowerCase f.text) f.context.isSampled := by
  have hlength : (foldAscii f.flags).length = 2 := (List.length_map _).trans hf.flags.length
  have htrace : f.context.traceId.digits = foldAscii f.trace := by
    rw [← hexDigits_numberOf hf.trace.digits, hf.trace.length, ← hf.toNat_traceId]
    rfl
  have hspan : f.context.spanId.digits = foldAscii f.span := by
    rw [← hexDigits_numberOf hf.span.digits, hf.span.length, ← hf.toNat_spanId]
    rfl
  have hflags : ∀ sampled, hexDigits 2 ((TraceFlags.ofSampled sampled).inter .sampled).bits.toNat =
      if sampled then ['0', '1'] else ['0', '0'] := by decide
  rw [hf.lowerCase_text, withDecision_append _ hlength, encode, htrace, hspan, TraceContext.isSampled, f.flags_context,
    TraceFlags.isSampled_ofSampled, hflags]
  simp

/-! ### Every text -/

theorem parse_eq_ok_iff {header value : String} {tc : TraceContext} :
    parse header value = .ok tc ↔ decode value.toList = .ok tc := by
  unfold parse
  cases decode value.toList <;> simp [Except.mapError]

/-- The texts that are read are those of valid fields. Every header with such a text gives the context that the fields
tell, and it is written as the text in lower case with its sampling decision. Any other text is a malformed header of
the name it came under. -/
theorem reads_exactly_valid_fields (v : String) :
    (∀ header, (∃ tc, parse header v = .ok tc) ↔ ∃ f : Fields, f.Valid ∧ trim v.toList = f.text) ∧
      (∀ f : Fields, f.Valid → trim v.toList = f.text → ∃ tc, f.Tell tc ∧ (∀ header, parse header v = .ok tc) ∧
        format tc = String.ofList (withDecision (lowerCase (trim v.toList)) tc.isSampled)) ∧
      ((¬∃ f : Fields, f.Valid ∧ trim v.toList = f.text) → ∀ header, ∃ fault : Fault,
        parse header v = .error (.malformed header fault.message)) := by
  have hread : ∀ header, (∃ tc, parse header v = .ok tc) ↔ ∃ f : Fields, f.Valid ∧ trim v.toList = f.text := by
    intro header
    simp only [parse_eq_ok_iff, decode_eq_ok_iff]
    constructor
    · rintro ⟨tc, f, hf, htext, -⟩
      exact ⟨f, hf, htext⟩
    · rintro ⟨f, hf, htext⟩
      exact ⟨f.context, f, hf, htext, rfl⟩
  refine ⟨hread, fun f hf htext => ⟨f.context, hf.tell, fun header => ?_, ?_⟩, fun hnone header => ?_⟩
  · exact parse_eq_ok_iff.mpr (decode_eq_ok_iff.mpr ⟨f, hf, htext, rfl⟩)
  · rw [htext, ← hf.encode_context, format]
  · cases hdecode : decode v.toList with
    | ok tc => exact absurd ((hread header).mp ⟨tc, parse_eq_ok_iff.mpr hdecode⟩) hnone
    | error fault =>
      refine ⟨fault, ?_⟩
      rw [parse, hdecode]
      rfl

/-- Fields of digits of either case. -/
def sampleFields : Fields :=
  ⟨"0AF7651916cd43dd8448EB211C80319c".toList, "b7ad6B7169203331".toList, "fF".toList⟩

/-- The text of the fields with blanks around it is read, and one with a sign for a digit is not. -/
theorem reads_exactly_valid_fields_of_sampleFields :
    (∃ tc, parse legacyHeader " 00-0AF7651916cd43dd8448EB211C80319c-b7ad6B7169203331-fF\t" = .ok tc ∧
      tc.spanId.toNat = 0xb7ad6b7169203331 ∧
      format tc = "00-0af7651916cd43dd8448eb211c80319c-b7ad6b7169203331-01") ∧
      ∃ fault : Fault, parse standardHeader "00-+AF7651916cd43dd8448EB211C80319c-b7ad6B7169203331-fF" =
        .error (.malformed standardHeader fault.message) := by
  constructor
  · have hf : sampleFields.Valid := {
      trace := ⟨rfl, List.all_eq_true.mp (by decide +kernel)⟩
      span := ⟨rfl, List.all_eq_true.mp (by decide +kernel)⟩
      flags := ⟨rfl, List.all_eq_true.mp (by decide +kernel)⟩
      namesTrace := ⟨'A', by decide +kernel⟩
      namesSpan := ⟨'b', by decide +kernel⟩ }
    have htext : trim " 00-0AF7651916cd43dd8448EB211C80319c-b7ad6B7169203331-fF\t".toList = sampleFields.text := by
      decide +kernel
    obtain ⟨tc, tell, hparse, hformat⟩ := (reads_exactly_valid_fields _).2.1 sampleFields hf htext
    have hsampled : tc.isSampled = true := by
      rw [TraceContext.isSampled, tell.flags, TraceFlags.isSampled_ofSampled]
      decide
    refine ⟨tc, hparse legacyHeader, tell.spanId.trans (by decide +kernel), ?_⟩
    rw [hformat, hsampled]
    decide +kernel
  · refine (reads_exactly_valid_fields _).2.2 ?_ standardHeader
    rintro ⟨f, hf, htext⟩
    have hsign : '+' ∈ f.text := htext ▸ (by decide +kernel)
    simp only [Fields.text, List.mem_append, List.mem_cons] at hsign
    rcases hsign with ((hmem | hmem) | hmem | hmem) | hmem | hmem
    · exact absurd hmem (by decide)
    · exact absurd (hf.trace.digits '+' hmem) (by decide)
    · exact absurd hmem (by decide)
    · exact absurd (hf.span.digits '+' hmem) (by decide)
    · exact absurd hmem (by decide)
    · exact absurd (hf.flags.digits '+' hmem) (by decide)

end Traceparent
end Tracing
