import Tracing.Text.Bytes
import Tracing.Text.Hex
import Tracing.Text.Visible

/-!
# Identifiers

A trace is named by 128 bits and a span by 64 bits. Their text is a fixed count of hexadecimal digits, read
in either case and written in lower case. The identifier of all zeros names nothing.
-/

namespace Tracing

open Text

/-- Why a text is no identifier. -/
inductive IdentError where
  /-- The text does not have the exact number of bytes; `found` counts its characters. -/
  | length (expected found : Nat)
  /-- The first byte that is no digit, shown as the character of that code. -/
  | digit (c : Char)
deriving DecidableEq, Repr

/-- The wording of an identifier error. -/
def IdentError.message : IdentError → String
  | length expected found => s!"expected {expected} hex digits, found {found}"
  | digit c => s!"invalid hex digit {quotedChar c}"

namespace Ident

/-- The number that exactly `count` digits write. -/
def decode (count : Nat) (cs : List Char) : Except IdentError Nat :=
  if byteLength cs ≠ count then .error (.length count cs.length)
  else match cs.find? fun c => !isHexDigit c with
    | some c => .error (.digit (Char.ofNat (leadByte c)))
    | none => .ok (hexValue cs)

/-- The bytes of a number, the most significant first. -/
def bytes : (count : Nat) → Nat → List UInt8
  | 0, _ => []
  | count + 1, n => bytes count (n / 256) ++ [UInt8.ofNat (n % 256)]

/-- The number that a list of bytes holds, the most significant first. -/
def ofBytes (bs : List UInt8) : Nat := bs.foldl (fun n b => n * 256 + b.toNat) 0

theorem decode_eq_ok_iff {count n : Nat} {cs : List Char} :
    decode count cs = .ok n ↔ byteLength cs = count ∧ (∀ c ∈ cs, isHexDigit c = true) ∧ hexValue cs = n := by
  unfold decode
  by_cases hl : byteLength cs = count
  · cases hf : cs.find? fun c => !isHexDigit c with
    | some c =>
      have hm := List.mem_of_find?_eq_some hf
      have hc := List.find?_some hf
      simp only [hl, ne_eq, not_true, if_false, reduceCtorEq, true_and, false_iff, not_and]
      intro h
      simp [h c hm] at hc
    | none =>
      have hall : ∀ c ∈ cs, isHexDigit c = true := by simpa using hf
      simp only [hl, ne_eq, not_true, if_false, Except.ok.injEq, true_and]
      exact ⟨fun h => ⟨hall, h⟩, fun h => h.2⟩
  · simp [hl]

end Ident

/-- The identifier of a trace. -/
structure TraceId where
  bits : BitVec 128
deriving DecidableEq, Inhabited

/-- The identifier of a span or of a transaction. -/
structure SpanId where
  bits : BitVec 64
deriving DecidableEq, Inhabited

namespace TraceId

/-- The identifier with the given number, modulo its width. -/
def ofNat (n : Nat) : TraceId := ⟨BitVec.ofNat 128 n⟩

/-- The number of an identifier. -/
def toNat (id : TraceId) : Nat := id.bits.toNat

/-- The identifier of no trace. -/
def zero : TraceId := ofNat 0

/-- The identifier names a trace. -/
def isValid (id : TraceId) : Bool := id != zero

/-- The identifier that 32 digits write. -/
def ofHex (s : String) : Except IdentError TraceId := (Ident.decode 32 s.toList).map ofNat

/-- The 32 digits of an identifier. -/
def digits (id : TraceId) : List Char := hexDigits 32 id.toNat

/-- The text of an identifier. -/
def text (id : TraceId) : String := String.ofList id.digits

/-- The 16 bytes of an identifier. -/
def bytes (id : TraceId) : List UInt8 := Ident.bytes 16 id.toNat

/-- The identifier of 16 bytes. -/
def ofBytes (bs : List UInt8) : TraceId := ofNat (Ident.ofBytes bs)

end TraceId

namespace SpanId

/-- The identifier with the given number, modulo its width. -/
def ofNat (n : Nat) : SpanId := ⟨BitVec.ofNat 64 n⟩

/-- The number of an identifier. -/
def toNat (id : SpanId) : Nat := id.bits.toNat

/-- The identifier of no span. -/
def zero : SpanId := ofNat 0

/-- The identifier names a span or a transaction. -/
def isValid (id : SpanId) : Bool := id != zero

/-- The identifier that 16 digits write. -/
def ofHex (s : String) : Except IdentError SpanId := (Ident.decode 16 s.toList).map ofNat

/-- The 16 digits of an identifier. -/
def digits (id : SpanId) : List Char := hexDigits 16 id.toNat

/-- The text of an identifier. -/
def text (id : SpanId) : String := String.ofList id.digits

/-- The 8 bytes of an identifier. -/
def bytes (id : SpanId) : List UInt8 := Ident.bytes 8 id.toNat

/-- The identifier of 8 bytes. -/
def ofBytes (bs : List UInt8) : SpanId := ofNat (Ident.ofBytes bs)

end SpanId

end Tracing
