import Tracing.Traceparent

/-! # Reading back a written trace context

The text of a trace context is its four fields with hyphens between them. It holds no blank, and no hyphen stands
within a field, so it splits into the fields that were written, and each field reads back as the number it was
written from. Only what names nothing, a zero, is refused after that. -/

namespace Tracing

open Text

/-! ### Digits and blanks -/

namespace Text

/-- The codes of the digits. -/
theorem toNat_of_isHexDigit {c : Char} (h : isHexDigit c = true) :
    (48 ≤ c.toNat ∧ c.toNat ≤ 57) ∨ (97 ≤ c.toNat ∧ c.toNat ≤ 102) ∨ (65 ≤ c.toNat ∧ c.toNat ≤ 70) := by
  simp only [isHexDigit, hexDigitValue] at h
  split at h
  · exact .inl ‹_›
  · split at h
    · exact .inr (.inl ‹_›)
    · split at h
      · exact .inr (.inr ‹_›)
      · cases h

theorem isBlank_of_isHexDigit {c : Char} (h : isHexDigit c = true) : isBlank c = false := by
  have hcode := toNat_of_isHexDigit h
  simp only [isBlank, Bool.or_eq_false_iff, Bool.and_eq_false_iff, decide_eq_false_iff_not, beq_eq_false_iff_ne]
  omega

theorem isAscii_of_isHexDigit {c : Char} (h : isHexDigit c = true) : isAscii c = true := by
  have hcode := toNat_of_isHexDigit h
  exact decide_eq_true (by omega)

theorem hyphen_not_mem_hexDigits (count n : Nat) : '-' ∉ hexDigits count n :=
  fun h => absurd (isHexDigit_of_mem_hexDigits h) (by decide)

theorem byteLength_hexDigits (count n : Nat) : byteLength (hexDigits count n) = count := by
  rw [byteLength_of_ascii fun c hc => isAscii_of_isHexDigit (isHexDigit_of_mem_hexDigits hc), length_hexDigits]

/-- A text without blanks is trimmed already. -/
theorem trim_eq_self {cs : List Char} (h : ∀ c ∈ cs, isBlank c = false) : trim cs = cs :=
  trimBy_eq_self (fun c hc => h c (List.mem_of_head? hc)) fun c hc => h c (List.mem_of_getLast? hc)

end Text

/-! ### Fields -/

/-- The digits of an identifier are read as the identifier. -/
theorem Ident.decode_hexDigits (count : Nat) (bits : BitVec (4 * count)) :
    Ident.decode count (hexDigits count bits.toNat) = .ok bits.toNat := by
  refine Ident.decode_eq_ok_iff.mpr ⟨byteLength_hexDigits count _, fun c hc => isHexDigit_of_mem_hexDigits hc, ?_⟩
  rw [hexValue_hexDigits, BitVec.ofNat_toNat, BitVec.setWidth_eq]

theorem TraceId.ofNat_toNat (id : TraceId) : TraceId.ofNat id.toNat = id := by
  unfold TraceId.ofNat TraceId.toNat
  rw [BitVec.ofNat_toNat, BitVec.setWidth_eq]

theorem SpanId.ofNat_toNat (id : SpanId) : SpanId.ofNat id.toNat = id := by
  unfold SpanId.ofNat SpanId.toNat
  rw [BitVec.ofNat_toNat, BitVec.setWidth_eq]

theorem TraceFlags.inter_sampled (flags : TraceFlags) :
    (flags.inter .sampled).inter .sampled = flags.inter .sampled := by
  simp [TraceFlags.inter, UInt8.and_assoc]

theorem TraceContext.isValid_iff {tc : TraceContext} :
    tc.isValid = true ↔ tc.traceId ≠ .zero ∧ tc.spanId ≠ .zero := by
  simp [TraceContext.isValid, TraceId.isValid, SpanId.isValid]

/-- The sampled flag alone is kept, however often. -/
theorem TraceContext.make_inter_sampled (traceId : TraceId) (spanId : SpanId) (flags : TraceFlags)
    (state : TraceState) : make traceId spanId (flags.inter .sampled) state = make traceId spanId flags state := by
  unfold make
  rw [TraceFlags.inter_sampled]

@[simp] theorem TraceContext.isSampled_make (traceId : TraceId) (spanId : SpanId) (flags : TraceFlags)
    (state : TraceState) : (TraceContext.make traceId spanId flags state).isSampled = flags.isSampled := by
  unfold TraceContext.isSampled TraceContext.make TraceFlags.isSampled
  rw [TraceFlags.inter_sampled]

namespace Traceparent

theorem isHexPair_hexDigits (n : Nat) : isHexPair (hexDigits 2 n) = true := by
  simp only [isHexPair, byteLength_hexDigits, beq_self_eq_true, Bool.true_and, List.all_eq_true]
  exact fun c hc => isHexDigit_of_mem_hexDigits hc

theorem isBlank_of_mem_encode {tc : TraceContext} {c : Char} (h : c ∈ encode tc) : isBlank c = false := by
  simp only [encode, TraceId.digits, SpanId.digits, List.mem_append, List.mem_cons] at h
  rcases h with (((h | h) | h | h) | h | h)
  · have hversion : ("00-".toList.all fun c => !isBlank c) = true := rfl
    simpa using List.all_eq_true.mp hversion c h
  · exact isBlank_of_isHexDigit (isHexDigit_of_mem_hexDigits h)
  · rw [h]
    decide
  · exact isBlank_of_isHexDigit (isHexDigit_of_mem_hexDigits h)
  · rw [h]
    decide
  · exact isBlank_of_isHexDigit (isHexDigit_of_mem_hexDigits h)

/-- The text splits into the fields that were written. -/
theorem split_encode (tc : TraceContext) : split '-' (encode tc) =
    [['0', '0'], tc.traceId.digits, tc.spanId.digits, hexDigits 2 (tc.flags.inter .sampled).bits.toNat] := by
  have hencode : encode tc = ['0', '0'] ++ '-' :: (tc.traceId.digits ++ '-' :: (tc.spanId.digits ++
      '-' :: hexDigits 2 (tc.flags.inter .sampled).bits.toNat)) := by
    simp [encode]
  have htrace : '-' ∉ tc.traceId.digits := hyphen_not_mem_hexDigits _ _
  have hspan : '-' ∉ tc.spanId.digits := hyphen_not_mem_hexDigits _ _
  rw [hencode, split_append_cons (by decide), split_append_cons htrace, split_append_cons hspan,
    split_of_not_mem (hyphen_not_mem_hexDigits _ _)]

/-- What is written for a context is read back without its state, unless one of its identifiers is zero. -/
theorem decode_encode (tc : TraceContext) : decode (encode tc) =
    if !tc.traceId.isValid then .error .zeroTrace
    else if !tc.spanId.isValid then .error .zeroSpan
    else .ok (.make tc.traceId tc.spanId tc.flags .empty) := by
  have hversion : isHexPair ['0', '0'] = true := by decide
  have htrace : Ident.decode 32 tc.traceId.digits = .ok tc.traceId.toNat := Ident.decode_hexDigits 32 tc.traceId.bits
  have hspan : Ident.decode 16 tc.spanId.digits = .ok tc.spanId.toNat := Ident.decode_hexDigits 16 tc.spanId.bits
  have hflags : (⟨UInt8.ofNat (hexValue (hexDigits 2 (tc.flags.inter .sampled).bits.toNat))⟩ : TraceFlags) =
      tc.flags.inter .sampled := by
    rw [hexValue_hexDigits, BitVec.toNat_ofNat]
    simp
  unfold decode
  rw [trim_eq_self fun c hc => isBlank_of_mem_encode hc, split_encode]
  simp [ofFields, hversion, htrace, hspan, isHexPair_hexDigits, hflags, TraceId.ofNat_toNat, SpanId.ofNat_toNat,
    TraceContext.make_inter_sampled]

/-- What was written for a context that names a trace is read back, without its state. -/
theorem parse_format (header : String) {tc : TraceContext} (h : tc.isValid = true) :
    parse header (format tc) = .ok (.make tc.traceId tc.spanId tc.flags .empty) := by
  obtain ⟨htrace, hspan⟩ : tc.traceId.isValid = true ∧ tc.spanId.isValid = true := Bool.and_eq_true_iff.mp h
  unfold parse format
  rw [String.toList_ofList, decode_encode, htrace, hspan]
  rfl

/-- What is written for a context with a zero is refused with the name of the header. -/
theorem parse_format_of_zero (header : String) {tc : TraceContext} (h : tc.isValid = false) :
    parse header (format tc) =
      .error (.malformed header (if tc.traceId.isValid then Fault.zeroSpan else .zeroTrace).message) := by
  unfold parse format
  rw [String.toList_ofList, decode_encode]
  cases htrace : tc.traceId.isValid with
  | false => rfl
  | true =>
    have hspan : tc.spanId.isValid = false := by simpa [TraceContext.isValid, htrace] using h
    rw [hspan]
    rfl

/-- Whatever its flags and its state, a written context is read back from either header, without the state; but with a
zero for an identifier it is refused as malformed, under the name of that header. -/
theorem reads_back_unless_zero (traceId : TraceId) (spanId : SpanId) (flags : TraceFlags) (state : TraceState) :
    let tc := TraceContext.make traceId spanId flags state
    let answer (header : String) : Except HeaderError TraceContext :=
      if traceId ≠ .zero ∧ spanId ≠ .zero then .ok (tc.withState .empty)
      else .error (.malformed header (if traceId = .zero then Fault.zeroTrace else .zeroSpan).message)
    parse standardHeader (format tc) = answer standardHeader ∧
      parse legacyHeader (format tc) = answer legacyHeader := by
  intro tc answer
  have hboth : ∀ header, parse header (format tc) = answer header := by
    intro header
    by_cases hzero : traceId ≠ .zero ∧ spanId ≠ .zero
    · have hvalid : tc.isValid = true := TraceContext.isValid_iff.mpr hzero
      calc parse header (format tc)
        _ = .ok (.make traceId spanId (flags.inter .sampled) .empty) := parse_format header hvalid
        _ = .ok (tc.withState .empty) := by rw [TraceContext.make_inter_sampled]; rfl
        _ = answer header := (if_pos hzero).symm
    · have hvalid : tc.isValid = false := Bool.eq_false_iff.mpr fun h => hzero (TraceContext.isValid_iff.mp h)
      have hfault : (if tc.traceId.isValid then Fault.zeroSpan else .zeroTrace) =
          if traceId = .zero then .zeroTrace else .zeroSpan := by
        by_cases htrace : traceId = .zero <;> simp [tc, TraceContext.make, TraceId.isValid, htrace]
      rw [parse_format_of_zero header hvalid, hfault]
      exact (if_neg hzero).symm
  exact ⟨hboth standardHeader, hboth legacyHeader⟩

end Traceparent
end Tracing
