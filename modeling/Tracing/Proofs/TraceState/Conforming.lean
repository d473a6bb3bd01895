import Tracing.Proofs.TraceState.Verdicts

/-! # Members that conform to the grammar

The list of members has a published grammar. A key is a simple one that begins with a letter, or names a tenant and,
after an at sign, a system in up to 14 characters; a value is printable. A member that conforms is read by itself as it
is, unless its key has a system of all 14 characters: such a key is refused, for the key check has room for 13. -/

namespace Tracing.TraceState

open Text

/-! ### The grammar -/

def lowerLetters : List Char := "abcdefghijklmnopqrstuvwxyz".toList

def digits : List Char := "0123456789".toList

/-- The characters of keys. -/
def keyChars : List Char := lowerLetters ++ digits ++ ['_', '-', '*', '/']

inductive ConformingKey : List Char → Prop where
  /-- Up to 256 characters. -/
  | simple {first : Char} {rest : List Char} (letter : first ∈ lowerLetters) (chars : ∀ c ∈ rest, c ∈ keyChars)
      (length : rest.length ≤ 255) : ConformingKey (first :: rest)
  /-- A tenant of up to 241 characters and a system of up to 14. -/
  | tenant {first start : Char} {rest system : List Char} (letterOrDigit : first ∈ lowerLetters ++ digits)
      (chars : ∀ c ∈ rest, c ∈ keyChars) (length : rest.length ≤ 240) (letter : start ∈ lowerLetters)
      (systemChars : ∀ c ∈ system, c ∈ keyChars) (systemLength : system.length ≤ 13) :
      ConformingKey (first :: rest ++ '@' :: start :: system)

structure ConformingValue (value : List Char) : Prop where
  pos : 1 ≤ value.length
  length : value.length ≤ 256
  printable : ∀ c ∈ value, 0x20 ≤ c.toNat ∧ c.toNat ≤ 0x7e ∧ c ≠ ',' ∧ c ≠ '='
  last : value.getLast? ≠ some ' '

/-- The key names a system in all of the 14 characters that the grammar allows. -/
def HasLongestSystem (key : List Char) : Prop :=
  ∃ tenant system, '@' ∉ tenant ∧ key = tenant ++ '@' :: system ∧ system.length = 14

/-! ### Values -/

theorem isValue_of_conforming {value : List Char} (h : ConformingValue value) : isValue value = true := by
  have hascii : ∀ c ∈ value, isAscii c = true := by
    intro c hc
    obtain ⟨-, hle, -, -⟩ := h.printable c hc
    simp only [isAscii, decide_eq_true_eq]
    omega
  refine isValue_iff.mpr ⟨List.ne_nil_of_length_pos h.pos, ?_, fun c hc => ?_, h.last⟩
  · rw [byteLength_of_ascii hascii]
    exact h.length
  · obtain ⟨hge, hle, hcomma, hsign⟩ := h.printable c hc
    have hlower : ' ' ≤ c := UInt32.le_iff_toNat_le.mpr hge
    have hupper : c ≤ '~' := UInt32.le_iff_toNat_le.mpr hle
    simp [isValueChar, hlower, hupper, hcomma, hsign]

/-! ### Keys -/

theorem isNameStart_of_mem {c : Char} (h : c ∈ lowerLetters ++ digits) : isNameStart c = true := by
  have hall : (lowerLetters ++ digits).all isNameStart = true := rfl
  exact List.all_eq_true.mp hall c h

theorem isNameChar_of_mem {c : Char} (h : c ∈ keyChars) : isNameChar c = true := by
  have hall : keyChars.all isNameChar = true := rfl
  exact List.all_eq_true.mp hall c h

theorem mem_keyChars {c : Char} (h : c ∈ lowerLetters ++ digits) : c ∈ keyChars := List.mem_append_left _ h

theorem forall_mem_keyChars {chars : List Char} (h : chars.all keyChars.contains = true) :
    ∀ c ∈ chars, c ∈ keyChars := by
  intro c hc
  exact List.contains_iff_mem.mp (List.all_eq_true.mp h c hc)

theorem at_not_mem_keyChars : '@' ∉ keyChars := by decide

/-- What follows the characters of a name decides. -/
theorem isKeyRest_append {rest : List Char} (h : ∀ c ∈ rest, c ∈ keyChars) (tail : List Char) :
    isKeyRest (rest ++ tail) = isKeyRest tail := by
  induction rest with
  | nil => rfl
  | cons c rest ih =>
    obtain ⟨hc, hrest⟩ := List.forall_mem_cons.mp h
    have hne : c ≠ '@' := fun heq => at_not_mem_keyChars (heq ▸ hc)
    rw [List.cons_append, isKeyRest, if_neg hne, isNameChar_of_mem hc, Bool.true_and, ih hrest]

theorem at_not_mem {first : Char} {rest : List Char} (hfirst : first ∈ lowerLetters ++ digits)
    (hrest : ∀ c ∈ rest, c ∈ keyChars) : '@' ∉ first :: rest := by
  intro hmem
  rcases List.mem_cons.mp hmem with rfl | hmem
  · exact absurd hfirst (by decide)
  · exact at_not_mem_keyChars (hrest _ hmem)

theorem isSystem_iff {start : Char} {system : List Char} (hstart : start ∈ lowerLetters)
    (hchars : ∀ c ∈ system, c ∈ keyChars) : isSystem (start :: system) = true ↔ system.length < 13 := by
  have hall : system.all isNameChar = true := List.all_eq_true.mpr fun c hc => isNameChar_of_mem (hchars c hc)
  rw [isSystem, isNameStart_of_mem (List.mem_append_left _ hstart), hall, Bool.true_and, Bool.true_and,
    decide_eq_true_eq]
  rfl

namespace ConformingKey
variable {key : List Char}

theorem ne_nil (h : ConformingKey key) : key ≠ [] := by
  cases h <;> simp

theorem mem_chars (h : ConformingKey key) {c : Char} (hc : c ∈ key) : c ∈ '@' :: keyChars := by
  have hchar {c : Char} (hc : c ∈ keyChars) : c ∈ '@' :: keyChars := List.mem_cons_of_mem _ hc
  cases h with
  | simple letter chars length =>
    rcases List.mem_cons.mp hc with rfl | hc
    · exact hchar (mem_keyChars (List.mem_append_left _ letter))
    · exact hchar (chars c hc)
  | tenant letterOrDigit chars length letter systemChars systemLength =>
    simp only [List.cons_append, List.mem_cons, List.mem_append] at hc
    rcases hc with rfl | hc | rfl | rfl | hc
    · exact hchar (mem_keyChars letterOrDigit)
    · exact hchar (chars c hc)
    · exact List.mem_cons_self
    · exact hchar (mem_keyChars (List.mem_append_left _ letter))
    · exact hchar (systemChars c hc)

/-- What holds of the at sign and of the characters of keys holds all over the key. -/
theorem all (h : ConformingKey key) {p : Char → Bool} (hp : ('@' :: keyChars).all p = true) {c : Char} (hc : c ∈ key) :
    p c = true :=
  List.all_eq_true.mp hp c (h.mem_chars hc)

theorem byteLength_eq (h : ConformingKey key) : byteLength key = key.length := by
  have hascii : ('@' :: keyChars).all isAscii = true := rfl
  exact byteLength_of_ascii fun c hc => h.all hascii hc

/-- The key check takes all keys of the grammar but those with the longest system. -/
theorem isKey_iff (h : ConformingKey key) : isKey key = true ↔ ¬HasLongestSystem key := by
  have hlength := h.byteLength_eq
  cases h with
  | @simple first rest letter chars length =>
    have hat := at_not_mem (List.mem_append_left _ letter) chars
    have hshort : byteLength (first :: rest) ≤ maxTextLength := by
      rw [hlength]
      exact Nat.succ_le_succ length
    have hkey : isKey (first :: rest) = true := by
      simp only [isKey, Bool.and_eq_true, decide_eq_true_eq]
      have hrest : isKeyRest rest = true := by rw [← List.append_nil rest, isKeyRest_append chars, isKeyRest]
      exact ⟨⟨hshort, isNameStart_of_mem (List.mem_append_left _ letter)⟩, hrest⟩
    refine iff_of_true hkey ?_
    rintro ⟨tenant, system, -, hsplit, -⟩
    exact hat (hsplit ▸ List.mem_append_right _ List.mem_cons_self)
  | @tenant first start rest system letterOrDigit chars length letter systemChars systemLength =>
    have hat := at_not_mem letterOrDigit chars
    have hlong : HasLongestSystem (first :: rest ++ '@' :: start :: system) ↔ system.length = 13 := by
      constructor
      · rintro ⟨tenant, system', htenant, hsplit, hlength'⟩
        -- The first at sign cuts the key in one way only.
        have hcut := splitOnce_eq_some_iff.mpr ⟨hsplit, htenant⟩
        rw [splitOnce_eq_some_iff.mpr ⟨rfl, hat⟩, Option.some.injEq, Prod.mk.injEq] at hcut
        obtain ⟨-, rfl⟩ := hcut
        exact Nat.succ.inj hlength'
      · intro hlength'
        exact ⟨first :: rest, start :: system, hat, rfl, congrArg Nat.succ hlength'⟩
    have hshort : byteLength (first :: rest ++ '@' :: start :: system) ≤ maxTextLength := by
      rw [hlength]
      simp only [List.length_append, List.length_cons, maxTextLength]
      omega
    rw [hlong]
    simp only [List.cons_append] at hshort ⊢
    simp only [isKey, Bool.and_eq_true, decide_eq_true_eq]
    rw [isKeyRest_append chars, isKeyRest, if_pos rfl, isSystem_iff letter systemChars,
      and_iff_right ⟨hshort, isNameStart_of_mem letterOrDigit⟩]
    omega

end ConformingKey

/-! ### Reading a member by itself -/

/-- A text without a comma and without padding at its ends is one member. -/
theorem memberTexts_of_trimmed {text : List Char} (hne : text ≠ []) (hcomma : ',' ∉ text)
    (htrim : trimBy isPadding text = text) : memberTexts text = [text] := by
  simp [memberTexts, split_of_not_mem hcomma, htrim, hne]

theorem memberTexts_conforming {key value : List Char} (hkey : ConformingKey key) (hvalue : ConformingValue value) :
    memberTexts (key ++ '=' :: value) = [key ++ '=' :: value] := by
  have hvalid := isValue_of_conforming hvalue
  have hinKey : ',' ∉ key := fun hmem => absurd (hkey.mem_chars hmem) (by decide)
  have hinValue : ',' ∉ value := not_mem_value hvalid (by decide)
  refine memberTexts_of_trimmed (by simp) (by simp [hinKey, hinValue]) (trimBy_eq_self (fun c hc => ?_) fun c hc => ?_)
  · have hpadding : ('@' :: keyChars).all (fun c => !isPadding c) = true := rfl
    obtain ⟨first, rest, hcons⟩ := List.exists_cons_of_ne_nil hkey.ne_nil
    have hfirst : first = c := by simpa [hcons] using hc
    have hmem : c ∈ key := hcons ▸ hfirst ▸ List.mem_cons_self
    simpa using hkey.all hpadding hmem
  · rw [Member.getLast?_signed hvalid] at hc
    exact not_isPadding_of_getLast? hvalid hc

theorem parse_signed {key value : String} (hkey : ConformingKey key.toList) (hvalue : ConformingValue value.toList) :
    parse [key ++ "=" ++ value] =
      if isKey key.toList = true then (⟨[⟨key, value⟩]⟩, []) else (.empty, [.key key]) := by
  have htext : (key ++ "=" ++ value).toList = key.toList ++ '=' :: value.toList := by simp
  have hsign : '=' ∉ key.toList := fun hmem => absurd (hkey.mem_chars hmem) (by decide)
  have hcut : Member.ofChars (key.toList ++ '=' :: value.toList) = some ⟨key, value⟩ := by
    rw [Member.ofChars_cut hsign, String.ofList_toList, String.ofList_toList]
  unfold parse
  rw [List.flatMap_singleton, htext, memberTexts_conforming hkey hvalue]
  by_cases hvalid : isKey key.toList = true
  · simp [parseTexts, acceptText, hcut, accept, hvalid, isValue_of_conforming hvalue, maxMembers]
  · simp [parseTexts, acceptText, hcut, accept, hvalid, TraceState.empty]

/-- A member that conforms is kept as it is, without an error, just if its key does not have the longest system. If it
has, the member is refused for its key. -/
theorem conforming_member_is_kept_iff {key value : String} (hkey : ConformingKey key.toList)
    (hvalue : ConformingValue value.toList) :
    (parse [key ++ "=" ++ value] = (⟨[⟨key, value⟩]⟩, []) ↔ ¬HasLongestSystem key.toList) ∧
      (parse [key ++ "=" ++ value] = (.empty, [.key key]) ↔ HasLongestSystem key.toList) := by
  rw [parse_signed hkey hvalue]
  by_cases hlong : HasLongestSystem key.toList
  · have hinvalid : ¬isKey key.toList = true := fun h => hkey.isKey_iff.mp h hlong
    simp [hlong, hinvalid, TraceState.empty]
  · have hvalid := hkey.isKey_iff.mpr hlong
    simp [hlong, hvalid]

/-! A key with a system of 13 characters, and one with a system of 14. -/

def sampleKey : String := "1-t@abcdefghijklm"

def sampleLongestKey : String := "t@abcdefghijklmn"

theorem conforming_sampleKey : ConformingKey sampleKey.toList :=
  @ConformingKey.tenant '1' 'a' ['-', 't'] "bcdefghijklm".toList (by decide)
    (forall_mem_keyChars rfl) (by decide) (by decide) (forall_mem_keyChars rfl) (by decide)

theorem conforming_sampleLongestKey : ConformingKey sampleLongestKey.toList :=
  @ConformingKey.tenant 't' 'a' [] "bcdefghijklmn".toList (by decide)
    (forall_mem_keyChars rfl) (by decide) (by decide) (forall_mem_keyChars rfl) (by decide)

theorem hasLongestSystem_sampleLongestKey : HasLongestSystem sampleLongestKey.toList :=
  ⟨['t'], "abcdefghijklmn".toList, by decide, rfl, rfl⟩

theorem conforming_sampleValue : ConformingValue " x".toList :=
  ⟨by decide, by decide, by simp, by decide⟩

theorem conforming_member_is_kept_iff_of_sampleKey :
    ConformingKey sampleKey.toList ∧ ConformingKey sampleLongestKey.toList ∧ ConformingValue " x".toList ∧
      parse ["1-t@abcdefghijklm= x"] = (⟨[⟨sampleKey, " x"⟩]⟩, []) ∧
      parse ["t@abcdefghijklmn= x"] = (.empty, [.key sampleLongestKey]) := by
  have hshort : ¬HasLongestSystem sampleKey.toList :=
    conforming_sampleKey.isKey_iff.mp (by decide)
  obtain ⟨hkept, -⟩ := conforming_member_is_kept_iff conforming_sampleKey conforming_sampleValue
  obtain ⟨-, hrefused⟩ := conforming_member_is_kept_iff conforming_sampleLongestKey conforming_sampleValue
  exact ⟨conforming_sampleKey, conforming_sampleLongestKey, conforming_sampleValue, hkept.mpr hshort,
    hrefused.mpr hasLongestSystem_sampleLongestKey⟩

/-- Not every member that conforms is kept. -/
theorem longest_system_is_refused :
    ConformingKey sampleLongestKey.toList ∧ ConformingValue "1".toList ∧
      parse ["t@abcdefghijklmn=1"] = (.empty, [.key sampleLongestKey]) ∧
      ¬ ∀ key value : String, ConformingKey key.toList → ConformingValue value.toList →
        parse [key ++ "=" ++ value] = (⟨[⟨key, value⟩]⟩, []) := by
  have hvalue : ConformingValue "1".toList := ⟨by decide, by decide, by simp, by decide⟩
  have hparse : parse ["t@abcdefghijklmn=1"] = (.empty, [.key sampleLongestKey]) := by decide +kernel
  refine ⟨conforming_sampleLongestKey, hvalue, hparse, fun h => ?_⟩
  have hkept := h _ _ conforming_sampleLongestKey hvalue
  have htext : sampleLongestKey ++ "=" ++ "1" = "t@abcdefghijklmn=1" := rfl
  rw [htext, hparse] at hkept
  cases hkept

end Tracing.TraceState
