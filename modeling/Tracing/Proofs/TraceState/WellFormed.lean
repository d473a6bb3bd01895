import Tracing.TraceState.Header

/-! # Well-formed trace states

Every trace state that the library makes has at most 32 members, each with a valid key and a valid value, and no key
twice. A reader accepts its members one by one under these rules, and an edit puts a valid member in front of what is
left. -/

namespace Tracing
namespace TraceState

/-- Members that a trace state may have. -/
structure WellFormed (ms : List Member) : Prop where
  key : ∀ m ∈ ms, isKey m.key.toList = true
  value : ∀ m ∈ ms, isValue m.value.toList = true
  distinct : (ms.map Member.key).Nodup
  size : ms.length ≤ maxMembers

/-- The trace states that come about. -/
inductive Reachable : TraceState → Prop where
  | empty : Reachable .empty
  | parse (values : List String) : Reachable (parse values).1
  | ofHeader {text : String} {s : TraceState} (h : ofHeader text = .ok s) : Reachable s
  | ofMembers {ms : List Member} {s : TraceState} (h : ofMembers ms = .ok s) : Reachable s
  | insert {s s' : TraceState} (reach : Reachable s) {key value : String} (h : s.insert key value = .ok s') :
      Reachable s'
  | delete {s s' : TraceState} (reach : Reachable s) {key : String} (h : s.delete key = .ok s') : Reachable s'

namespace WellFormed

theorem nil : WellFormed [] := ⟨nofun, nofun, List.nodup_nil, Nat.zero_le _⟩

/-- Leaving members out does no harm. -/
theorem sublist {ms ms' : List Member} (h : WellFormed ms) (hsub : ms'.Sublist ms) : WellFormed ms' where
  key m hm := h.key m (hsub.subset hm)
  value m hm := h.value m (hsub.subset hm)
  distinct := h.distinct.sublist (hsub.map _)
  size := Nat.le_trans hsub.length_le h.size

end WellFormed

/-! ### Reading -/

theorem accept_eq_ok_iff {held : List Member} {m m' : Member} : accept held m = .ok m' ↔
    m' = m ∧ isKey m.key.toList = true ∧ isValue m.value.toList = true ∧ (∀ h ∈ held, h.key ≠ m.key) ∧
      held.length ≠ maxMembers := by
  unfold accept
  by_cases hkey : isKey m.key.toList = true
  · by_cases hvalue : isValue m.value.toList = true
    · by_cases hheld : ∃ h ∈ held, h.key = m.key
      · have hany : held.any (fun h => h.key == m.key) = true := by simpa using hheld
        obtain ⟨h, hh, heq⟩ := hheld
        simp only [hkey, hvalue, hany, Bool.not_true, Bool.false_eq_true, if_false, if_true, reduceCtorEq, false_iff]
        rintro ⟨-, -, -, hne, -⟩
        exact hne h hh heq
      · have hany : held.any (fun h => h.key == m.key) = false := by simpa using hheld
        have hne : ∀ h ∈ held, h.key ≠ m.key := fun h hh heq => hheld ⟨h, hh, heq⟩
        by_cases hsize : held.length = maxMembers
        · simp [hkey, hvalue, hany, hsize]
        · simpa [hkey, hvalue, hany, hsize, eq_comm] using fun _ => hne
    · simp [hkey, hvalue]
  · simp [hkey]

namespace WellFormed
variable {held : List Member}

/-- A member that is accepted may follow. -/
theorem accepted (h : WellFormed held) {m m' : Member} (haccept : accept held m = .ok m') :
    WellFormed (held ++ [m']) := by
  obtain ⟨rfl, hkey, hvalue, hne, hsize⟩ := accept_eq_ok_iff.mp haccept
  refine ⟨fun x hx => ?_, fun x hx => ?_, ?_, ?_⟩
  · rcases List.mem_append.mp hx with hx | hx
    · exact h.key x hx
    · exact List.mem_singleton.mp hx ▸ hkey
  · rcases List.mem_append.mp hx with hx | hx
    · exact h.value x hx
    · exact List.mem_singleton.mp hx ▸ hvalue
  · rw [List.map_append, List.nodup_append]
    refine ⟨h.distinct, by simp, fun a ha b hb => ?_⟩
    obtain ⟨x, hx, rfl⟩ := List.mem_map.mp ha
    rw [List.map_singleton, List.mem_singleton] at hb
    exact hb ▸ hne x hx
  · have hheld := h.size
    rw [List.length_append, List.length_singleton]
    omega

theorem acceptAll (h : WellFormed held) {ms ms' : List Member} (haccept : acceptAll held ms = .ok ms') :
    WellFormed ms' := by
  induction ms generalizing held with
  | nil => exact Except.ok.inj haccept ▸ h
  | cons m rest ih =>
    unfold TraceState.acceptAll at haccept
    cases hm : accept held m with
    | error e =>
      rw [hm] at haccept
      cases haccept
    | ok m' =>
      rw [hm] at haccept
      exact ih (h.accepted hm) haccept

theorem parseTexts (h : WellFormed held) (texts : List (List Char)) : WellFormed (parseTexts held texts).1 := by
  induction texts generalizing held with
  | nil => exact h
  | cons cs rest ih =>
    unfold TraceState.parseTexts
    cases htext : acceptText held cs with
    | ok m =>
      unfold acceptText at htext
      cases hm : Member.ofChars cs with
      | none =>
        rw [hm] at htext
        cases htext
      | some m' =>
        rw [hm] at htext
        exact ih (h.accepted htext)
    | error e =>
      cases e with
      | tooManyMembers n => exact h
      | key k => exact ih h
      | value v => exact ih h
      | member t => exact ih h
      | duplicateKey k => exact ih h

end WellFormed

/-! ### Editing -/

/-- A key stands once, so all members under it are one. -/
theorem members_remove {ms : List Member} (h : (ms.map Member.key).Nodup) (key : String) :
    (remove ⟨ms⟩ key).members = ms.filter fun m => m.key ≠ key := by
  show ms.eraseP (fun m => m.key == key) = _
  induction ms with
  | nil => rfl
  | cons m rest ih =>
    rw [List.map_cons, List.nodup_cons] at h
    by_cases hm : m.key = key
    · have hrest : rest.filter (fun m => m.key ≠ key) = rest := by
        refine List.filter_eq_self.mpr fun x hx => decide_eq_true fun hkey => h.1 ?_
        exact List.mem_map.mpr ⟨x, hx, hkey.trans hm.symm⟩
      rw [List.eraseP_cons_of_pos (by simp [hm]), List.filter_cons_of_neg (by simp [hm]), hrest]
    · rw [List.eraseP_cons_of_neg (by simp [hm]), List.filter_cons_of_pos (by simp [hm]), ih h.2]

namespace WellFormed
variable {s s' : TraceState}

theorem remove (h : WellFormed s.members) (key : String) : WellFormed (s.remove key).members := by
  rw [members_remove h.distinct]
  exact h.sublist List.filter_sublist

theorem delete (h : WellFormed s.members) {key : String} (hdelete : s.delete key = .ok s') :
    WellFormed s'.members := by
  unfold TraceState.delete at hdelete
  split at hdelete
  · cases hdelete
  · exact Except.ok.inj hdelete ▸ h.remove key

/-- A valid member fits in front of others under other keys, of which a full state loses the last. -/
theorem insert (h : WellFormed s.members) {key value : String} (hinsert : s.insert key value = .ok s') :
    WellFormed s'.members := by
  unfold TraceState.insert at hinsert
  split at hinsert
  · cases hinsert
  split at hinsert
  · cases hinsert
  rename_i hkey hvalue
  obtain rfl := Except.ok.inj hinsert
  generalize hkept : (if (s.remove key).members.length = maxMembers then (s.remove key).members.dropLast
    else (s.remove key).members) = kept
  have hsub : kept.Sublist (s.remove key).members := by
    rw [← hkept]
    split
    · exact List.dropLast_sublist _
    · exact List.Sublist.refl _
  have hrest := (h.remove key).sublist hsub
  have hlength : kept.length < maxMembers := by
    have hremoved := (h.remove key).size
    rw [← hkept]
    split
    · rename_i hfull
      rw [List.length_dropLast, hfull]
      decide
    · omega
  refine ⟨fun x hx => ?_, fun x hx => ?_, ?_, hlength⟩
  · rcases List.mem_cons.mp hx with rfl | hx
    · simpa using hkey
    · exact hrest.key x hx
  · rcases List.mem_cons.mp hx with rfl | hx
    · simpa using hvalue
    · exact hrest.value x hx
  · refine List.nodup_cons.mpr ⟨fun hmem => ?_, hrest.distinct⟩
    obtain ⟨x, hx, hxkey⟩ := List.mem_map.mp hmem
    have hremoved := hsub.subset hx
    rw [members_remove h.distinct, List.mem_filter] at hremoved
    exact of_decide_eq_true hremoved.2 hxkey

end WellFormed

/-- Whatever way a trace state came about, its members are well-formed. -/
theorem Reachable.wellFormed {s : TraceState} (reach : Reachable s) : WellFormed s.members := by
  have hmembers : ∀ {ms s}, TraceState.ofMembers ms = .ok s → WellFormed s.members := by
    intro ms s h
    unfold TraceState.ofMembers at h
    cases hall : TraceState.acceptAll [] ms with
    | error e =>
      rw [hall] at h
      cases h
    | ok held =>
      rw [hall] at h
      exact Except.ok.inj h ▸ WellFormed.nil.acceptAll hall
  induction reach with
  | empty => exact WellFormed.nil
  | parse values => exact WellFormed.nil.parseTexts _
  | @ofHeader text s h =>
    unfold TraceState.ofHeader at h
    cases htexts : membersOfTexts (terminatedTexts text.toList) with
    | error e =>
      rw [htexts] at h
      cases h
    | ok ms =>
      rw [htexts] at h
      exact hmembers h
  | ofMembers h => exact hmembers h
  | insert _ h ih => exact ih.insert h
  | delete _ h ih => exact ih.delete h

end TraceState
end Tracing
