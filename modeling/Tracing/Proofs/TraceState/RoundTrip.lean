import Tracing.Proofs.TraceState.WellFormed

/-! # Reading back a written trace state

No valid key or value holds a comma, no key a sign, and no member begins or ends with padding. So the text of
well-formed members splits into the texts of these members, and each of them reads back. A header writes as many
leading members as fit its limit; since the text grows with every member, that is the longest such list. -/

namespace Tracing

open Text

namespace TraceState

/-! ### Characters of members -/

theorem isNameChar_or_at_of_mem_keyRest {cs : List Char} (h : isKeyRest cs = true) {c : Char} (hc : c ∈ cs) :
    isNameChar c = true ∨ c = '@' := by
  induction cs with
  | nil => cases hc
  | cons d ds ih =>
    unfold isKeyRest at h
    split at h
    · rename_i hat
      rcases List.mem_cons.mp hc with rfl | hc
      · exact .inr hat
      · cases ds with
        | nil => cases hc
        | cons e es =>
          simp only [isSystem, Bool.and_eq_true, List.all_eq_true] at h
          rcases List.mem_cons.mp hc with rfl | hc
          · exact .inl (by simp [isNameChar, h.1.1])
          · exact .inl (h.1.2 c hc)
    · obtain ⟨hd, hds⟩ := Bool.and_eq_true_iff.mp h
      rcases List.mem_cons.mp hc with rfl | hc
      · exact .inl hd
      · exact ih hds hc

/-- The first character of a key is one of a name. -/
theorem exists_cons_of_isKey {cs : List Char} (h : isKey cs = true) :
    ∃ c rest, cs = c :: rest ∧ isNameStart c = true ∧ isKeyRest rest = true := by
  cases cs with
  | nil => cases h
  | cons c rest =>
    simp only [isKey, Bool.and_eq_true] at h
    exact ⟨c, rest, rfl, h.1.2, h.2⟩

theorem isNameChar_or_at_of_mem_key {cs : List Char} (h : isKey cs = true) {c : Char} (hc : c ∈ cs) :
    isNameChar c = true ∨ c = '@' := by
  obtain ⟨d, rest, rfl, hstart, hrest⟩ := exists_cons_of_isKey h
  rcases List.mem_cons.mp hc with rfl | hc
  · exact .inl (by simp [isNameChar, hstart])
  · exact isNameChar_or_at_of_mem_keyRest hrest hc

theorem not_mem_key {cs : List Char} (h : isKey cs = true) {c : Char} (hname : isNameChar c = false) (hat : c ≠ '@') :
    c ∉ cs := fun hc => by
  rcases isNameChar_or_at_of_mem_key h hc with hc | hc
  · rw [hname] at hc
    cases hc
  · exact hat hc

/-- What a value is. -/
theorem isValue_iff {cs : List Char} : isValue cs = true ↔
    cs ≠ [] ∧ byteLength cs ≤ maxTextLength ∧ (∀ c ∈ cs, isValueChar c = true) ∧ cs.getLast? ≠ some ' ' := by
  simp [isValue, and_assoc]

theorem not_mem_value {cs : List Char} (h : isValue cs = true) {c : Char} (hc : isValueChar c = false) : c ∉ cs :=
  fun hmem => by
    rw [(isValue_iff.mp h).2.2.1 c hmem] at hc
    cases hc

/-- A value does not end with padding. -/
theorem not_isPadding_of_getLast? {cs : List Char} (h : isValue cs = true) {c : Char} (hc : cs.getLast? = some c) :
    isPadding c = false := by
  obtain ⟨-, -, hall, hlast⟩ := isValue_iff.mp h
  refine Bool.eq_false_iff.mpr fun hpadding => ?_
  rcases Bool.or_eq_true_iff.mp hpadding with hspace | htab
  · exact hlast (beq_iff_eq.mp hspace ▸ hc)
  · exact absurd (hall c (List.mem_of_getLast? hc)) (beq_iff_eq.mp htab ▸ by decide)

end TraceState

open TraceState

namespace Member
variable {m : Member}

theorem getLast?_signed {key value : List Char} (h : isValue value = true) :
    (key ++ '=' :: value).getLast? = value.getLast? := by
  obtain ⟨c, rest, rfl⟩ := List.exists_cons_of_ne_nil (isValue_iff.mp h).1
  simp [List.getLast?_cons]

theorem chars_ne_nil (m : Member) : m.chars ≠ [] := by
  simp [chars]

/-- The text of a member is one piece of a list. -/
theorem comma_not_mem_chars (hkey : isKey m.key.toList = true) (hvalue : isValue m.value.toList = true) :
    ',' ∉ m.chars := by
  have hinKey : ',' ∉ m.key.toList := not_mem_key hkey (by decide) (by decide)
  have hinValue : ',' ∉ m.value.toList := not_mem_value hvalue (by decide)
  simp [chars, hinKey, hinValue]

/-- The text of a member is trimmed already: it begins with a name and does not end with a space. -/
theorem trimBy_chars (hkey : isKey m.key.toList = true) (hvalue : isValue m.value.toList = true) :
    trimBy isPadding m.chars = m.chars := by
  refine trimBy_eq_self (fun c hc => ?_) fun c hc => ?_
  · obtain ⟨d, rest, hcs, hstart, -⟩ := exists_cons_of_isKey hkey
    obtain rfl : d = c := by simpa [chars, hcs] using hc
    refine Bool.eq_false_iff.mpr fun hpadding => ?_
    rcases Bool.or_eq_true_iff.mp hpadding with h | h <;> rw [beq_iff_eq.mp h] at hstart <;> cases hstart
  · unfold chars at hc
    rw [getLast?_signed hvalue] at hc
    exact not_isPadding_of_getLast? hvalue hc

/-- The text of a member is cut at its sign. -/
theorem ofChars_chars (hkey : isKey m.key.toList = true) : ofChars m.chars = some m := by
  have hsign : '=' ∉ m.key.toList := not_mem_key hkey (by decide) (by decide)
  have hsplit : splitOnce '=' m.chars = some (m.key.toList, m.value.toList) :=
    splitOnce_eq_some_iff.mpr ⟨rfl, hsign⟩
  simp [ofChars, hsplit]

end Member

namespace TraceState

/-- The members as a header shows them, with a comma between neighbours. -/
def encode (ms : List Member) : List Char := join ',' (ms.map Member.chars)

/-! ### Reading what was written -/

theorem memberTexts_encode {ms : List Member} (h : WellFormed ms) : memberTexts (encode ms) = ms.map Member.chars := by
  unfold memberTexts encode
  cases ms with
  | nil => rfl
  | cons m rest =>
    have hcomma : ∀ piece ∈ (m :: rest).map Member.chars, ',' ∉ piece := fun piece hp => by
      obtain ⟨x, hx, rfl⟩ := List.mem_map.mp hp
      exact Member.comma_not_mem_chars (h.key x hx) (h.value x hx)
    have htrim : ((m :: rest).map Member.chars).map (trimBy isPadding) = (m :: rest).map Member.chars := by
      rw [List.map_map]
      exact List.map_congr_left fun x hx => Member.trimBy_chars (h.key x hx) (h.value x hx)
    rw [split_join (by simp) hcomma, htrim]
    refine List.filter_eq_self.mpr fun piece hp => ?_
    obtain ⟨x, -, rfl⟩ := List.mem_map.mp hp
    simpa using x.chars_ne_nil

/-- Every member of a well-formed list may follow those before it. -/
theorem acceptText_chars {held rest : List Member} {m : Member} (h : WellFormed (held ++ m :: rest)) :
    acceptText held m.chars = .ok m := by
  have hm : m ∈ held ++ m :: rest := List.mem_append_right _ List.mem_cons_self
  have hsize := h.size
  have hdistinct := h.distinct
  rw [List.map_append, List.nodup_append] at hdistinct
  unfold acceptText
  rw [Member.ofChars_chars (h.key m hm)]
  refine accept_eq_ok_iff.mpr ⟨rfl, h.key m hm, h.value m hm, fun x hx => ?_, ?_⟩
  · exact hdistinct.2.2 _ (List.mem_map_of_mem hx) _ (by simp)
  · rw [List.length_append, List.length_cons] at hsize
    omega

theorem parseTexts_chars {held ms : List Member} (h : WellFormed (held ++ ms)) :
    parseTexts held (ms.map Member.chars) = (held ++ ms, []) := by
  induction ms generalizing held with
  | nil =>
    rw [List.append_nil]
    rfl
  | cons m rest ih =>
    have happend : held ++ [m] ++ rest = held ++ m :: rest := by simp
    rw [List.map_cons, parseTexts, acceptText_chars h]
    dsimp only
    rw [ih (happend ▸ h), happend]

/-- The text of well-formed members reads back as these members, without a fault. -/
theorem parse_encode {ms : List Member} (h : WellFormed ms) : parse [String.ofList (encode ms)] = (⟨ms⟩, []) := by
  unfold parse
  have hread : parseTexts [] (ms.map Member.chars) = (ms, []) := parseTexts_chars (by rwa [List.nil_append])
  rw [List.flatMap_singleton, String.toList_ofList, memberTexts_encode h, hread]

/-! ### Writing under a limit -/

theorem encode_ne_nil {ms : List Member} (h : ms ≠ []) : encode ms ≠ [] := by
  obtain ⟨m, rest, rfl⟩ := List.exists_cons_of_ne_nil h
  cases rest with
  | nil => exact m.chars_ne_nil
  | cons => simp [encode, join]

/-- Writing one member more. -/
theorem follow_encode (ms : List Member) (m : Member) : follow (encode ms) m = encode (ms ++ [m]) := by
  cases ms with
  | nil => rfl
  | cons x rest =>
    unfold follow
    rw [if_neg (encode_ne_nil (by simp))]
    unfold encode
    rw [List.map_append, join_append ',' (by simp) (by simp)]
    rfl

theorem byteLength_encode_append (ms more : List Member) :
    byteLength (encode ms) ≤ byteLength (encode (ms ++ more)) := by
  induction more generalizing ms with
  | nil => exact Nat.le_of_eq (by rw [List.append_nil])
  | cons m more ih =>
    have hone : byteLength (encode ms) ≤ byteLength (encode (ms ++ [m])) := by
      rw [← follow_encode]
      unfold follow
      split
      · rename_i hnil
        rw [hnil]
        exact Nat.zero_le _
      · rw [byteLength_append]
        exact Nat.le_add_right _ _
    have hmore := ih (ms ++ [m])
    rw [List.append_assoc] at hmore
    exact Nat.le_trans hone hmore

/-- The longest list of leading members whose text fits a limit of bytes. -/
structure LongestFit (limit : Nat) (ms p : List Member) : Prop where
  leads : p <+: ms
  fits : byteLength (encode p) ≤ limit
  longest : ∀ q, q <+: ms → byteLength (encode q) ≤ limit → q.length ≤ p.length

/-- Members that fit as a whole are the longest list that fits. -/
theorem LongestFit.of_fits {limit : Nat} {ms : List Member} (h : byteLength (encode ms) ≤ limit) :
    LongestFit limit ms ms := ⟨List.prefix_rfl, h, fun _ hq _ => hq.length_le⟩

theorem LongestFit.eq {limit : Nat} {ms p q : List Member} (hp : LongestFit limit ms p) (hq : LongestFit limit ms q) :
    p = q := by
  have hlength : p.length = q.length :=
    Nat.le_antisymm (hq.longest p hp.leads hp.fits) (hp.longest q hq.leads hq.fits)
  exact (List.prefix_of_prefix_length_le hp.leads hq.leads (Nat.le_of_eq hlength)).eq_of_length hlength

/-- A writer that has come as far as some leading members ends with the longest list that fits. -/
theorem writeWithin_encode (limit : Nat) (rest written : List Member) (h : byteLength (encode written) ≤ limit) :
    ∃ p, LongestFit limit (written ++ rest) p ∧ writeWithin limit (encode written) rest = encode p := by
  induction rest generalizing written with
  | nil =>
    rw [List.append_nil]
    exact ⟨written, .of_fits h, rfl⟩
  | cons m rest ih =>
    unfold writeWithin
    rw [follow_encode]
    dsimp only
    by_cases hnext : byteLength (encode (written ++ [m])) ≤ limit
    · rw [if_pos hnext]
      have hlonger := ih (written ++ [m]) hnext
      rwa [List.append_assoc] at hlonger
    · rw [if_neg hnext]
      refine ⟨written, ⟨List.prefix_append _ _, h, fun q hq hfits => Nat.le_of_not_lt fun hlong => ?_⟩, rfl⟩
      -- A longer list would begin with the members that do not fit.
      have hmore : written ++ [m] <+: written ++ m :: rest := ⟨rest, by simp⟩
      obtain ⟨more, rfl⟩ := List.prefix_of_prefix_length_le hmore hq (by simp; omega)
      exact hnext (Nat.le_trans (byteLength_encode_append _ more) hfits)

theorem headerWithin_eq (s : TraceState) (limit : Nat) :
    ∃ p, LongestFit limit s.members p ∧ s.headerWithin limit = String.ofList (encode p) := by
  obtain ⟨p, hp, hwrite⟩ := writeWithin_encode limit s.members [] (Nat.zero_le _)
  exact ⟨p, hp, congrArg String.ofList hwrite⟩

theorem headerWithin_of_longestFit {s : TraceState} {limit : Nat} {p : List Member} (h : LongestFit limit s.members p) :
    s.headerWithin limit = String.ofList (encode p) := by
  obtain ⟨q, hq, hwrite⟩ := s.headerWithin_eq limit
  rw [hwrite, hq.eq h]

/-- The header of well-formed members reads back as the longest list of leading members that fits. -/
theorem parse_headerWithin {s : TraceState} (h : WellFormed s.members) {limit : Nat} {p : List Member}
    (hp : LongestFit limit s.members p) : parse [s.headerWithin limit] = (⟨p⟩, []) := by
  rw [headerWithin_of_longestFit hp, parse_encode (h.sublist hp.leads.sublist)]

/-- A header without text is that of no members. -/
theorem LongestFit.eq_nil {s : TraceState} {limit : Nat} {p : List Member} (hp : LongestFit limit s.members p)
    (h : s.headerWithin limit = "") : p = [] := by
  rw [headerWithin_of_longestFit hp, String.ofList_eq_empty_iff] at h
  exact Decidable.byContradiction fun hne => encode_ne_nil hne h

/-- All members of the state go into a header. -/
structure FitsHeader (s : TraceState) : Prop where
  wellFormed : WellFormed s.members
  fits : byteLength (encode s.members) ≤ maxHeaderLength

theorem FitsHeader.empty : FitsHeader .empty := ⟨Reachable.empty.wellFormed, Nat.zero_le _⟩

theorem FitsHeader.longestFit {s : TraceState} (h : s.FitsHeader) : LongestFit maxHeaderLength s.members s.members :=
  .of_fits h.fits

/-- What was cut to a limit is not cut again. -/
theorem headerWithin_idem {s : TraceState} {limit : Nat} {p : List Member} (hp : LongestFit limit s.members p) :
    headerWithin ⟨p⟩ limit = s.headerWithin limit := by
  rw [headerWithin_of_longestFit hp, headerWithin_of_longestFit (LongestFit.of_fits hp.fits)]

/-- The header of a trace state is the text of as many leading members as fit the limit, and reads back as these
without a fault; a state that fits as a whole reads back as itself. Whatever headers were read, what is written of
them loses at most members at the end, once, and from then on reading and writing change nothing. -/
theorem header_reads_back (limit : Nat) :
    (∀ s, Reachable s → ∃ p, LongestFit limit s.members p ∧ s.headerWithin limit = String.ofList (encode p) ∧
        parse [s.headerWithin limit] = (⟨p⟩, [])) ∧
      (∀ s, Reachable s → byteLength (encode s.members) ≤ limit →
        s.headerWithin limit = String.ofList (encode s.members) ∧ parse [s.headerWithin limit] = (s, [])) ∧
      ∀ values, ∃ p, LongestFit limit (parse values).1.members p ∧
        let text := (parse values).1.headerWithin limit
        parse [text] = (⟨p⟩, []) ∧ (parse [text]).1.headerWithin limit = text := by
  refine ⟨fun s reach => ?_, fun s reach hfits => ?_, fun values => ?_⟩
  · obtain ⟨p, hp, hwrite⟩ := s.headerWithin_eq limit
    exact ⟨p, hp, hwrite, parse_headerWithin reach.wellFormed hp⟩
  · have hp := LongestFit.of_fits hfits
    exact ⟨headerWithin_of_longestFit hp, parse_headerWithin reach.wellFormed hp⟩
  · obtain ⟨p, hp, -⟩ := (parse values).1.headerWithin_eq limit
    have hread := parse_headerWithin (Reachable.parse values).wellFormed hp
    refine ⟨p, hp, hread, ?_⟩
    rw [hread]
    exact headerWithin_idem hp

/-- A state of two members, with spaces within a value and before another. -/
def sampleState : TraceState := ⟨[⟨"es", " s:1"⟩, ⟨"v@w", "x y"⟩]⟩

theorem reachable_sampleState : Reachable sampleState := by
  have hread : (parse ["v@w=x y"]).1 = ⟨[⟨"v@w", "x y"⟩]⟩ := by decide +kernel
  have hinsert : insert ⟨[⟨"v@w", "x y"⟩]⟩ "es" " s:1" = .ok sampleState := rfl
  exact .insert (hread ▸ Reachable.parse ["v@w=x y"]) hinsert

theorem header_reads_back_at_limit :
    Reachable sampleState ∧ byteLength (encode sampleState.members) = 15 ∧
      parse [sampleState.headerWithin 15] = (sampleState, []) := by
  have hlength : byteLength (encode sampleState.members) = 15 := by decide +kernel
  exact ⟨reachable_sampleState, hlength,
    ((header_reads_back 15).2.1 _ reachable_sampleState (Nat.le_of_eq hlength)).2⟩

end TraceState
end Tracing
