import Tracing.Proofs.TraceState.Canonical

/-! # Strict and lenient reading agree

A strict reader cuts a text into members, of which a comma ends each, cuts all of these into keys and values, and only
then checks them. A lenient reader takes the pieces between the commas and checks each of them by itself, and goes on
after a fault. Blank pieces are left out either way, so both look at the same texts; and one fault anywhere is enough
for the strict reader to refuse, and for the lenient one to report it. -/

namespace Tracing

open Text

namespace TraceState

/-! ### The same texts -/

/-- A comma between members or at the end of each: the texts are the same, for a blank one does not count. -/
theorem terminatedTexts_eq (cs : List Char) : terminatedTexts cs = memberTexts cs := by
  unfold terminatedTexts memberTexts
  rcases split_eq_splitTerminated ',' cs with h | h
  · rw [h]
  · have hblank : trimBy isPadding [] = [] := rfl
    simp [h, hblank]

/-! ### The same members -/

section
variable {held : List Member} {text : List Char} {texts : List (List Char)} {ms : List Member}

/-- The strict reading of the texts that follow the members held. -/
def acceptTexts (held : List Member) (texts : List (List Char)) : Except TraceStateError (List Member) :=
  membersOfTexts texts >>= acceptAll held

theorem acceptText_of_none (h : Member.ofChars text = none) :
    acceptText held text = .error (.member (String.ofList text)) := by
  rw [acceptText, h]

theorem acceptText_of_some {m : Member} (h : Member.ofChars text = some m) : acceptText held text = accept held m := by
  rw [acceptText, h]

/-- The first text is accepted before those after it are looked at, or after: both have to be. -/
theorem acceptTexts_cons_eq_ok_iff : acceptTexts held (text :: texts) = .ok ms ↔
    ∃ m, acceptText held text = .ok m ∧ acceptTexts (held ++ [m]) texts = .ok ms := by
  unfold acceptTexts
  cases htext : Member.ofChars text with
  | none =>
    rw [membersOfTexts, htext, acceptText_of_none htext]
    exact ⟨nofun, fun ⟨_, h, _⟩ => nomatch h⟩
  | some m =>
    rw [membersOfTexts, htext, acceptText_of_some htext]
    cases hrest : membersOfTexts texts with
    | error e => exact ⟨nofun, fun ⟨_, _, h⟩ => nomatch h⟩
    | ok rest =>
      show (accept held m >>= fun m => acceptAll (held ++ [m]) rest) = .ok ms ↔ _
      cases accept held m with
      | error e => exact ⟨nofun, fun ⟨_, h, _⟩ => nomatch h⟩
      | ok m' => exact ⟨fun h => ⟨m', rfl, h⟩, fun ⟨_, hm, h⟩ => Except.ok.inj hm ▸ h⟩

/-- Lenient reading reports no fault just if it keeps the first text and reports none after it. -/
theorem parseTexts_cons_eq_faultless_iff : parseTexts held (text :: texts) = (ms, []) ↔
    ∃ m, acceptText held text = .ok m ∧ parseTexts (held ++ [m]) texts = (ms, []) := by
  rw [parseTexts]
  cases acceptText held text with
  | ok m => exact ⟨fun h => ⟨m, rfl, h⟩, fun ⟨_, hm, h⟩ => Except.ok.inj hm ▸ h⟩
  | error e => cases e <;> simp

/-- What lenient reading makes of texts without a fault is what strict reading makes of them. -/
theorem parseTexts_eq_faultless_iff : parseTexts held texts = (ms, []) ↔ acceptTexts held texts = .ok ms := by
  induction texts generalizing held with
  | nil => simp [parseTexts, acceptTexts, membersOfTexts, acceptAll, bind, Except.bind]
  | cons text texts ih =>
    rw [parseTexts_cons_eq_faultless_iff, acceptTexts_cons_eq_ok_iff]
    simp only [ih]

end

/-! ### The same states -/

theorem ofHeader_eq (text : String) : ofHeader text = (acceptTexts [] (memberTexts text.toList)).map TraceState.mk := by
  unfold ofHeader acceptTexts
  rw [terminatedTexts_eq]
  cases membersOfTexts (memberTexts text.toList) <;> rfl

theorem Stored.ofHeader_eq (text : String) :
    Stored.ofHeader text = (acceptTexts [] (memberTexts text.toList)).map ofList := by
  unfold Stored.ofHeader acceptTexts
  rw [terminatedTexts_eq]
  cases membersOfTexts (memberTexts text.toList) <;> rfl

/-- A state made of the members that were read comes of strict reading just if it comes of lenient reading without a
fault. -/
theorem map_acceptTexts_eq_ok_iff {α : Type} (make : List Member → α) (texts : List (List Char)) (s : α) :
    (acceptTexts [] texts).map make = .ok s ↔ (make (parseTexts [] texts).1, (parseTexts [] texts).2) = (s, []) := by
  constructor
  · intro h
    cases htexts : acceptTexts [] texts with
    | error e =>
      rw [htexts] at h
      cases h
    | ok ms =>
      rw [htexts] at h
      rw [parseTexts_eq_faultless_iff.mpr htexts, ← Except.ok.inj h]
  · intro h
    obtain ⟨rfl, hfaults⟩ := Prod.mk.inj h
    have hparse : parseTexts [] texts = ((parseTexts [] texts).1, []) := Prod.ext rfl hfaults
    rw [parseTexts_eq_faultless_iff.mp hparse]
    rfl

/-- Of every text, strict reading makes a state just if lenient reading makes the same state of it and reports no
error; and so it is for what is held of these states. -/
theorem strict_reading_is_faultless (text : String) :
    (∀ s, ofHeader text = .ok s ↔ parse [text] = (s, [])) ∧
      ∀ s, Stored.ofHeader text = .ok s ↔ Stored.parse [text] = (s, []) := by
  refine ⟨fun s => ?_, fun s => ?_⟩
  · rw [ofHeader_eq, map_acceptTexts_eq_ok_iff]
    unfold parse
    rw [List.flatMap_singleton]
  · rw [Stored.ofHeader_eq, map_acceptTexts_eq_ok_iff]
    unfold Stored.parse
    rw [List.flatMap_singleton]

end TraceState
end Tracing
