import Tracing.Proofs.Number.Digits
import Tracing.Settings

/-! # The span limit of the environment

The variable for the span limit holds an integer in decimal, with white space around it. An integer of 64 bits means
what it says, where a negative one means no limit. An integer beyond 64 bits counts as no integer: it is reported like
any other text without a meaning, and the default stays. -/

namespace Tracing

open Number Text

/-! ### Numerals -/

/-- The characters write the number in decimal: a sign or none, and digits. -/
inductive Numeral : List Char → Int → Prop where
  | unsigned {ds : List Char} (nonempty : ds ≠ []) (digits : AreDigits ds) : Numeral ds (Nat.ofDigitChars 10 ds 0)
  | plus {ds : List Char} (nonempty : ds ≠ []) (digits : AreDigits ds) :
      Numeral ('+' :: ds) (Nat.ofDigitChars 10 ds 0)
  | minus {ds : List Char} (nonempty : ds ≠ []) (digits : AreDigits ds) :
      Numeral ('-' :: ds) (-(Nat.ofDigitChars 10 ds 0 : Int))

theorem isDigit_eq (c : Char) : isDigit c = c.isDigit := by
  cases h : c.isDigit with
  | true => exact isDigit_of_isDigit h
  | false =>
    have hrange : ¬('0' ≤ c ∧ c ≤ '9') := by
      rintro ⟨hlower, hupper⟩
      rw [Char.isDigit, Bool.and_eq_false_iff, decide_eq_false_iff_not, decide_eq_false_iff_not] at h
      exact h.elim (· hlower) (· hupper)
    rw [isDigit, digitValue, if_neg hrange]
    rfl

theorem readNat_eq_some_iff {cs : List Char} {n : Nat} :
    readNat cs = some n ↔ cs ≠ [] ∧ AreDigits cs ∧ Nat.ofDigitChars 10 cs 0 = n := by
  have hall : cs.all isDigit = true ↔ AreDigits cs := by
    simp only [List.all_eq_true, isDigit_eq]
    rfl
  unfold readNat
  constructor
  · intro h
    obtain ⟨⟨hne, hdigits⟩, hvalue⟩ := Option.ite_none_right_eq_some.mp h
    have hdigits := hall.mp hdigits
    exact ⟨hne, hdigits, natValue_eq hdigits ▸ Option.some.inj hvalue⟩
  · rintro ⟨hne, hdigits, rfl⟩
    rw [if_pos ⟨hne, hall.mpr hdigits⟩, natValue_eq hdigits]

theorem not_sign_of_isDigit {c : Char} (h : c.isDigit = true) : c ≠ '-' ∧ c ≠ '+' := by
  constructor <;> rintro rfl <;> exact absurd h (by decide)

/-- The integers that are read are those that are written. -/
theorem readInt_eq_some_iff {cs : List Char} {n : Int} : readInt cs = some n ↔ Numeral cs n := by
  constructor
  · intro h
    unfold readInt at h
    split at h
    all_goals
      simp only [Option.map_eq_some_iff, Option.bind_eq_bind, Option.bind_eq_some_iff, Option.pure_def,
        Option.some.injEq, readNat_eq_some_iff] at h
      obtain ⟨-, ⟨m, ⟨hne, hdigits, rfl⟩, rfl⟩, rfl⟩ := h
    · exact .minus hne hdigits
    · exact .plus hne hdigits
    · exact .unsigned hne hdigits
  · intro h
    cases h with
    | unsigned hne hdigits =>
      obtain ⟨c, rest, rfl⟩ := List.exists_cons_of_ne_nil hne
      obtain ⟨hminus, hplus⟩ := not_sign_of_isDigit (hdigits c List.mem_cons_self)
      simp [readInt, hminus, hplus, readNat_eq_some_iff.mpr ⟨hne, hdigits, rfl⟩]
    | plus hne hdigits => simp [readInt, readNat_eq_some_iff.mpr ⟨hne, hdigits, rfl⟩]
    | minus hne hdigits => simp [readInt, readNat_eq_some_iff.mpr ⟨hne, hdigits, rfl⟩]

/-! ### White space around numerals -/

/-- The text writes the number, with white space around it. -/
def Writes (text : String) (n : Int) : Prop :=
  ∃ before numeral after, text.toList = before ++ numeral ++ after ∧ (∀ c ∈ before, isBlank c = true) ∧
    (∀ c ∈ after, isBlank c = true) ∧ Numeral numeral n

theorem Text.exists_trim (cs : List Char) : ∃ before after, cs = before ++ trim cs ++ after ∧
    (∀ c ∈ before, isBlank c = true) ∧ ∀ c ∈ after, isBlank c = true := by
  let rest := cs.dropWhile isBlank
  have hrest : trim cs ++ (rest.reverse.takeWhile isBlank).reverse = rest := by
    show (rest.reverse.dropWhile isBlank).reverse ++ _ = rest
    rw [← List.reverse_append, List.takeWhile_append_dropWhile, List.reverse_reverse]
  refine ⟨cs.takeWhile isBlank, (rest.reverse.takeWhile isBlank).reverse, ?_, fun c hc => ?_, fun c hc => ?_⟩
  · rw [List.append_assoc, hrest, List.takeWhile_append_dropWhile]
  · exact List.mem_takeWhile_imp hc
  · exact List.mem_takeWhile_imp (List.mem_reverse.mp hc)

theorem Text.dropWhile_padded {padding cs : List Char} (hpadding : ∀ c ∈ padding, isBlank c = true)
    (hcs : ∀ c ∈ cs.head?, isBlank c = false) : (padding ++ cs).dropWhile isBlank = cs := by
  rw [List.dropWhile_append_of_pos hpadding, dropWhile_eq_self hcs]

/-- White space around a text without any is trimmed. -/
theorem Text.trim_padded {before text after : List Char} (hbefore : ∀ c ∈ before, isBlank c = true)
    (hafter : ∀ c ∈ after, isBlank c = true) (htext : ∀ c ∈ text, isBlank c = false) (hne : text ≠ []) :
    trim (before ++ text ++ after) = text := by
  have hhead : ∀ c ∈ (text ++ after).head?, isBlank c = false := by
    rw [List.head?_append_of_ne_nil _ hne]
    exact fun c hc => htext c (List.mem_of_head? hc)
  have hlast : ∀ c ∈ text.reverse.head?, isBlank c = false :=
    fun c hc => htext c (List.mem_reverse.mp (List.mem_of_head? hc))
  have hbehind : ∀ c ∈ after.reverse, isBlank c = true := fun c hc => hafter c (List.mem_reverse.mp hc)
  unfold trim trimBy trimEndBy
  rw [List.append_assoc, dropWhile_padded hbefore hhead, List.reverse_append, dropWhile_padded hbehind hlast,
    List.reverse_reverse]

theorem Numeral.not_blank {cs : List Char} {n : Int} (h : Numeral cs n) {c : Char} (hc : c ∈ cs) :
    isBlank c = false := by
  have hdigit : ∀ {c : Char}, c.isDigit = true → isBlank c = false := by
    intro c hc
    have hcode : 48 ≤ c.toNat ∧ c.toNat ≤ 57 := by
      simpa [Char.isDigit, UInt32.le_iff_toNat_le] using hc
    simp only [isBlank, Bool.or_eq_false_iff, Bool.and_eq_false_iff, decide_eq_false_iff_not, beq_eq_false_iff_ne]
    omega
  cases h with
  | unsigned _ digits => exact hdigit (digits c hc)
  | plus _ digits | minus _ digits =>
    rcases List.mem_cons.mp hc with rfl | hc
    · rfl
    · exact hdigit (digits c hc)

theorem Numeral.ne_nil {cs : List Char} {n : Int} (h : Numeral cs n) : cs ≠ [] := by
  cases h with
  | unsigned nonempty => exact nonempty
  | plus | minus => exact List.cons_ne_nil _ _

theorem writes_iff {text : String} {n : Int} : Writes text n ↔ readInt (trim text.toList) = some n := by
  rw [readInt_eq_some_iff]
  constructor
  · rintro ⟨before, numeral, after, htext, hbefore, hafter, h⟩
    rwa [htext, trim_padded hbefore hafter (fun c => h.not_blank) h.ne_nil]
  · intro h
    obtain ⟨before, after, htext, hbefore, hafter⟩ := exists_trim text.toList
    exact ⟨before, _, after, htext, hbefore, hafter, h⟩

/-! ### The limit -/

/-- The limit that a number asks for: a negative one asks for none, and none is greater than the largest. -/
def saturated (n : Int) : Nat := if n < 0 then unlimited else min n.toNat unlimited

theorem saturated_mono {m n : Int} (hm : 0 ≤ m) (h : m ≤ n) : saturated m ≤ saturated n := by
  unfold saturated
  rw [if_neg (by omega), if_neg (by omega)]
  omega

/-- A number beyond 64 bits asks for more than the default. -/
theorem default_lt_saturated {n : Int} (h : ¬(-2 ^ 63 ≤ n ∧ n < 2 ^ 63)) : ({} : Settings).maxSpans < saturated n := by
  have hdefault : ({} : Settings).maxSpans = 500 := rfl
  have hunlimited : unlimited = 2 ^ 64 - 1 := rfl
  unfold saturated
  split <;> omega

theorem fitsInt64_iff {n : Int} : fitsInt64 n = true ↔ -2 ^ 63 ≤ n ∧ n < 2 ^ 63 := by
  have hmin : Int64.minValue.toInt = -2 ^ 63 := rfl
  have hmax : Int64.maxValue.toInt = 2 ^ 63 - 1 := rfl
  rw [fitsInt64, Bool.and_eq_true, decide_eq_true_eq, decide_eq_true_eq, hmin, hmax]
  omega

namespace Settings

/-- The settings with a text in the variable for the span limit, and the complaints. -/
def withSpanLimit (env : Environment) (text : String) : Settings × List Event :=
  ofEnvironment { env with maxSpans := some text }

theorem readMaxSpans_of_writes {text : String} {n : Int} (h : Writes text n) :
    readMaxSpans text = if fitsInt64 n = true then some (saturated n) else none := by
  unfold readMaxSpans readInt64
  rw [writes_iff.mp h, Option.filter_some]
  by_cases hfits : fitsInt64 n = true
  · obtain ⟨-, hlt⟩ := fitsInt64_iff.mp hfits
    have hunlimited : unlimited = 2 ^ 64 - 1 := rfl
    have hmin : min n.toNat unlimited = n.toNat := by omega
    rw [if_pos hfits, if_pos hfits, Option.map_some, saturated, hmin]
  · rw [if_neg hfits, if_neg hfits]
    rfl

theorem readMaxSpans_eq_none {text : String} (h : ∀ n, ¬Writes text n) : readMaxSpans text = none := by
  have hread : readInt (trim text.toList) = none :=
    Option.eq_none_iff_forall_ne_some.mpr fun n hn => h n (writes_iff.mpr hn)
  unfold readMaxSpans readInt64
  rw [hread]
  rfl

/-- A limit is read from a text just if it writes an integer of 64 bits. -/
theorem readMaxSpans_eq_none_iff {text : String} :
    readMaxSpans text = none ↔ ∀ n, Writes text n → n < -2 ^ 63 ∨ 2 ^ 63 ≤ n := by
  by_cases h : ∃ n, Writes text n
  · obtain ⟨n, hn⟩ := h
    have hunique : ∀ m, Writes text m → m = n := fun m hm =>
      Option.some.inj ((writes_iff.mp hm).symm.trans (writes_iff.mp hn))
    rw [readMaxSpans_of_writes hn]
    constructor
    · intro hnone m hm
      obtain rfl := hunique m hm
      have hfits : ¬fitsInt64 m = true := fun hfits => by simp [hfits] at hnone
      rw [fitsInt64_iff] at hfits
      omega
    · intro hall
      have hbeyond := hall n hn
      rw [if_neg]
      rw [fitsInt64_iff]
      omega
  · have hnone := not_exists.mp h
    exact iff_of_true (readMaxSpans_eq_none hnone) fun n hn => absurd hn (hnone n)

/-- A variable is complained of in its own words only. -/
theorem not_mem_fromVariable {α : Type} {default : α} {read : String → Option α} {complain : String → Event}
    {event : Event} (h : ∀ value, complain value ≠ event) (setting : Option String) :
    event ∉ (fromVariable default read complain setting).2 := by
  intro hmem
  cases setting with
  | none => cases hmem
  | some value =>
    unfold fromVariable at hmem
    cases hread : read value with
    | some a => simp [hread] at hmem
    | none => exact h value (by simpa [hread, eq_comm] using hmem)

/-- What is read from a text in the variable and what is reported of it. -/
def spanLimitSetting (text : String) : Nat × List Event :=
  fromVariable ({} : Settings).maxSpans readMaxSpans .invalidMaxSpans (some text)

theorem spanLimitSetting_of_read {text : String} {limit : Nat} (h : readMaxSpans text = some limit) :
    spanLimitSetting text = (limit, []) := by
  simp only [spanLimitSetting, fromVariable, h]

theorem spanLimitSetting_of_not_read {text : String} (h : readMaxSpans text = none) :
    spanLimitSetting text = (({} : Settings).maxSpans, [.invalidMaxSpans text]) := by
  simp only [spanLimitSetting, fromVariable, h]

theorem maxSpans_withSpanLimit (env : Environment) (text : String) :
    (withSpanLimit env text).1.maxSpans = (spanLimitSetting text).1 := rfl

/-- The text is reported just if no limit is read from it. -/
theorem reported_iff (env : Environment) (text : String) :
    .invalidMaxSpans text ∈ (withSpanLimit env text).2 ↔ readMaxSpans text = none := by
  have hevents : (withSpanLimit env text).2 =
      (fromVariable ({} : Settings).sampling readSampling .invalidSampleRate env.sampleRate).2 ++
        (spanLimitSetting text).2 ++
          (fromVariable ({} : Settings).writeLegacy readFlag .invalidLegacyFlag env.writeLegacy).2 := rfl
  have hsampling : .invalidMaxSpans text ∉
      (fromVariable ({} : Settings).sampling readSampling .invalidSampleRate env.sampleRate).2 :=
    not_mem_fromVariable (fun _ h => by cases h) _
  have hlegacy : .invalidMaxSpans text ∉
      (fromVariable ({} : Settings).writeLegacy readFlag .invalidLegacyFlag env.writeLegacy).2 :=
    not_mem_fromVariable (fun _ h => by cases h) _
  rw [hevents, List.mem_append, List.mem_append, or_iff_left hlegacy, or_iff_right hsampling]
  cases hread : readMaxSpans text with
  | some limit => simp [spanLimitSetting_of_read hread]
  | none => simp [spanLimitSetting_of_not_read hread]

/-- A text that writes an integer sets the limit that it asks for, up to the greatest one, just if the integer has 64
bits. The text is reported just if it writes no integer of 64 bits, and then the default stays. Up to 64 bits, a
greater integer never makes for a smaller limit. -/
theorem span_limit_saturates_iff (env : Environment) (text : String) :
    (∀ n, Writes text n → ((withSpanLimit env text).1.maxSpans = saturated n ↔ -2 ^ 63 ≤ n ∧ n < 2 ^ 63)) ∧
      (.invalidMaxSpans text ∈ (withSpanLimit env text).2 ↔ ∀ n, Writes text n → n < -2 ^ 63 ∨ 2 ^ 63 ≤ n) ∧
      (.invalidMaxSpans text ∈ (withSpanLimit env text).2 →
        (withSpanLimit env text).1.maxSpans = ({} : Settings).maxSpans) ∧
      ∀ m greater n, Writes text m → Writes greater n → 0 ≤ m → m ≤ n → n < 2 ^ 63 →
        (withSpanLimit env text).1.maxSpans ≤ (withSpanLimit env greater).1.maxSpans := by
  have hfits : ∀ text n, Writes text n → -2 ^ 63 ≤ n ∧ n < 2 ^ 63 →
      (withSpanLimit env text).1.maxSpans = saturated n := by
    intro text n hn hfits
    have hread := (readMaxSpans_of_writes hn).trans (if_pos (fitsInt64_iff.mpr hfits))
    rw [maxSpans_withSpanLimit, spanLimitSetting_of_read hread]
  have hdefault : readMaxSpans text = none → (withSpanLimit env text).1.maxSpans = ({} : Settings).maxSpans := by
    intro hread
    rw [maxSpans_withSpanLimit, spanLimitSetting_of_not_read hread]
  refine ⟨fun n hn => ⟨fun heq => ?_, hfits text n hn⟩, ?_, fun hmem => hdefault ((reported_iff env text).mp hmem), ?_⟩
  · by_contra hbeyond
    have hread := (readMaxSpans_of_writes hn).trans (if_neg fun h => hbeyond (fitsInt64_iff.mp h))
    have hless := default_lt_saturated hbeyond
    rw [hdefault hread] at heq
    omega
  · rw [reported_iff, readMaxSpans_eq_none_iff]
  · intro m greater n hm hn hpos hle hlt
    rw [hfits text m hm ⟨by omega, by omega⟩, hfits greater n hn ⟨by omega, hlt⟩]
    exact saturated_mono hpos hle

/-- Signs, zeros in front and white space make no difference, and the least integer of 64 bits asks for no limit. -/
theorem span_limit_saturates_iff_of_sampleTexts :
    Writes " +0042\t" 42 ∧ (withSpanLimit {} " +0042\t").1.maxSpans = 42 ∧
      Writes "-9223372036854775808" (-2 ^ 63) ∧ (withSpanLimit {} "-9223372036854775808").1.maxSpans = unlimited := by
  have hpadded : Writes " +0042\t" 42 := writes_iff.mpr (by decide)
  have hleast : Writes "-9223372036854775808" (-2 ^ 63) := writes_iff.mpr (by decide)
  obtain ⟨hlimit, -⟩ := span_limit_saturates_iff {} " +0042\t"
  obtain ⟨hlimit', -⟩ := span_limit_saturates_iff {} "-9223372036854775808"
  exact ⟨hpadded, (hlimit 42 hpadded).mpr (by decide), hleast, (hlimit' _ hleast).mpr (by decide)⟩

/-- Beyond 64 bits a negative number leaves a limit, and a greater number makes for a smaller one. -/
theorem limit_beyond_64_bits_is_lost :
    Writes "-9223372036854775809" (-2 ^ 63 - 1) ∧ (withSpanLimit {} "-9223372036854775809").1.maxSpans = 500 ∧
      Writes "9223372036854775808" (2 ^ 63) ∧ (withSpanLimit {} "9223372036854775808").1.maxSpans = 500 ∧
      Writes "501" 501 ∧ (withSpanLimit {} "501").1.maxSpans = 501 ∧
      ¬ ∀ env text n, Writes text n → (withSpanLimit env text).1.maxSpans = saturated n := by
  have hnegative : Writes "-9223372036854775809" (-2 ^ 63 - 1) := writes_iff.mpr (by decide)
  have hdefault : (withSpanLimit {} "-9223372036854775809").1.maxSpans = 500 := by decide
  refine ⟨hnegative, hdefault, writes_iff.mpr (by decide), by decide, writes_iff.mpr (by decide), by decide,
    fun h => ?_⟩
  have hlimit := h {} _ _ hnegative
  rw [hdefault] at hlimit
  exact absurd hlimit (by decide)

end Settings
end Tracing
