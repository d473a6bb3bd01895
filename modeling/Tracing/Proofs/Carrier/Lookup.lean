import Tracing.Carrier
import Tracing.Text.Bytes

/-! # What a written header changes

Under names of the seven-bit code both forms of carrier look up alike: a header that was written is found under
its name in any case, and every other name finds what it found before. -/

namespace Tracing

open Text

/-- The name is written in the seven-bit code. -/
def IsAsciiName (name : String) : Prop := ∀ c ∈ name.toList, isAscii c = true

instance (name : String) : Decidable (IsAsciiName name) :=
  decidable_of_iff (name.toList.all isAscii = true) List.all_eq_true

/-! ### Names -/

theorem sameName_iff {a b : String} : sameName a b = true ↔ foldAscii a.toList = foldAscii b.toList := beq_iff_eq

theorem sameName_comm (a b : String) : sameName a b = sameName b a := BEq.comm

theorem foldAsciiChar_idem (c : Char) : foldAsciiChar (foldAsciiChar c) = foldAsciiChar c := by
  by_cases h : 'A' ≤ c ∧ c ≤ 'Z'
  · have hcode : ∀ n, n < 128 → foldAsciiChar (foldAsciiChar (Char.ofNat n)) = foldAsciiChar (Char.ofNat n) := by
      decide
    have hlt : c.toNat < 128 := Nat.lt_of_le_of_lt h.2 (show 'Z'.toNat < 128 by decide)
    rw [← Char.ofNat_toNat c]
    exact hcode _ hlt
  · have hfold : foldAsciiChar c = c := if_neg h
    rw [hfold, hfold]

theorem foldAscii_idem (cs : List Char) : foldAscii (foldAscii cs) = foldAscii cs := by
  unfold foldAscii
  rw [List.map_map]
  exact List.map_congr_left fun c _ => foldAsciiChar_idem c

theorem toList_lowerName {name : String} (h : IsAsciiName name) : (lowerName name).toList = foldAscii name.toList := by
  unfold lowerName
  rw [String.toList_ofList, lowerCase_of_ascii fun c hc => by simpa [isAscii] using h c hc]

/-- The name that is written for a name is the same up to case. -/
theorem sameName_lowerName {name : String} (h : IsAsciiName name) (key : String) :
    sameName (lowerName name) key = sameName name key := by
  unfold sameName
  rw [toList_lowerName h, foldAscii_idem]

theorem lowerName_eq_iff {a b : String} (ha : IsAsciiName a) (hb : IsAsciiName b) :
    lowerName a = lowerName b ↔ sameName a b = true := by
  rw [← String.toList_inj, toList_lowerName ha, toList_lowerName hb, sameName_iff]

/-! ### Maps -/

namespace HeaderMap

theorem lookup_put (name value key : String) (headers : List Header) :
    (put name value headers).lookup key = if key = name then some value else headers.lookup key := by
  have hcons : ∀ (n v : String) (rest : List Header),
      ((n, v) :: rest).lookup key = if key = n then some v else rest.lookup key := by
    intro n v rest
    by_cases hk : key = n
    · simp [hk]
    · rw [List.lookup_cons, beq_false_of_ne hk, if_neg hk]
  induction headers with
  | nil => exact hcons _ _ _
  | cons h headers ih =>
    obtain ⟨n, v⟩ := h
    unfold put
    split
    · rename_i hname
      subst hname
      rw [hcons, hcons]
      split <;> rfl
    · split
      · exact hcons _ _ _
      · rename_i hname _
        rw [hcons, hcons, ih]
        by_cases hk : key = name
        · have hne : key ≠ n := fun h => hname (hk ▸ h)
          rw [if_neg hne, if_pos hk, if_pos hk]
        · rw [if_neg hk, if_neg hk]

/-- Whatever letters the names hold, what was written is found under every name of the same lower case. -/
theorem get?_set_of_lowerName (m : HeaderMap) (name value key : String) :
    (m.set name value).get? key = if lowerName key = lowerName name then some value else m.get? key :=
  lookup_put _ _ _ _

theorem get?_set (m : HeaderMap) {name : String} (value : String) {key : String} (hname : IsAsciiName name)
    (hkey : IsAsciiName key) :
    (m.set name value).get? key = if sameName name key then some value else m.get? key := by
  rw [get?_set_of_lowerName]
  by_cases h : sameName name key = true
  · rw [if_pos h, if_pos ((lowerName_eq_iff hname hkey).mpr h).symm]
  · rw [if_neg h, if_neg fun heq => h ((lowerName_eq_iff hname hkey).mp heq.symm)]

end HeaderMap

/-! ### Lists -/

namespace HeaderList

/-- The headers of a name, in whatever case. -/
def named (l : HeaderList) (name : String) : List Header := l.headers.filter fun e => sameName e.1 name

theorem named_set (l : HeaderList) {name : String} (value key : String) (hname : IsAsciiName name) :
    (l.set name value).named key = if sameName name key then [(lowerName name, value)] else l.named key := by
  unfold named set
  rw [List.filter_append, List.filter_filter, List.filter_cons, sameName_lowerName hname]
  by_cases h : sameName name key = true
  · have hnone : l.headers.filter (fun e => sameName e.1 key && !sameName e.1 name) = [] := by
      refine List.filter_eq_nil_iff.mpr fun e _ => ?_
      have hsame : sameName e.1 key = sameName e.1 name := by
        unfold sameName
        rw [sameName_iff.mp h]
      simp [hsame]
    rw [hnone]
    simp [h]
  · have hall : l.headers.filter (fun e => sameName e.1 key && !sameName e.1 name) =
        l.headers.filter fun e => sameName e.1 key := by
      refine List.filter_congr fun e _ => ?_
      cases hkey : sameName e.1 key with
      | false => rfl
      | true =>
        have hother : sameName e.1 name = false := by
          refine Bool.eq_false_iff.mpr fun hsame => h (sameName_iff.mpr ?_)
          rw [← sameName_iff.mp hsame, sameName_iff.mp hkey]
        rw [hother]
        rfl
    rw [hall]
    simp [h]

theorem values_set (l : HeaderList) {name : String} (value key : String) (hname : IsAsciiName name) :
    (l.set name value).values key = if sameName name key then [value] else l.values key := by
  have hvalues : ∀ l : HeaderList, l.values key = (l.named key).map Prod.snd := fun _ => rfl
  rw [hvalues, hvalues, named_set l value key hname]
  split <;> rfl

theorem get?_set (l : HeaderList) {name : String} (value key : String) (hname : IsAsciiName name) :
    (l.set name value).get? key = if sameName name key then some value else l.get? key := by
  unfold get?
  rw [values_set l value key hname]
  split <;> rfl

end HeaderList

/-- A header that was written is found under its name, and changes nothing under another. -/
theorem Carrier.get?_set (c : Carrier) {name : String} (value : String) {key : String} (hname : IsAsciiName name)
    (hkey : IsAsciiName key) :
    (c.set name value).get? key = if sameName name key then some value else c.get? key := by
  cases c with
  | map m => exact m.get?_set value hname hkey
  | list l => exact l.get?_set value key hname

/-- A header that was written is the only one of its name. -/
theorem Carrier.getAll?_set (c : Carrier) {name : String} (value : String) {key : String} (hname : IsAsciiName name)
    (hkey : IsAsciiName key) :
    (c.set name value).getAll? key = if sameName name key then some [value] else c.getAll? key := by
  cases c with
  | map m =>
    show ((m.set name value).get? key).map _ = _
    rw [m.get?_set value hname hkey]
    split <;> rfl
  | list l =>
    unfold Carrier.getAll? Carrier.set
    dsimp only
    rw [l.values_set value key hname]
    split <;> rfl

theorem Carrier.get?_eq_none_of_empty {c : Carrier} (h : c.headers = []) (key : String) : c.get? key = none := by
  cases c with
  | map m =>
    have hm : m.headers = [] := h
    show m.headers.lookup _ = none
    rw [hm]
    rfl
  | list l =>
    have hl : l.headers = [] := h
    show ((l.headers.filter _).map Prod.snd).head? = none
    rw [hl]
    rfl

theorem Carrier.getAll?_eq_none_of_empty {c : Carrier} (h : c.headers = []) (key : String) : c.getAll? key = none := by
  cases c with
  | map m => exact congrArg (Option.map fun v => [v]) (Carrier.get?_eq_none_of_empty (c := map m) h key)
  | list l =>
    have hl : l.headers = [] := h
    simp [Carrier.getAll?, HeaderList.values, hl]

end Tracing
