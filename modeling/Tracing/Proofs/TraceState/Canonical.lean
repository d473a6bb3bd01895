import Tracing.Proofs.TraceState.WellFormed
import Tracing.TraceState.Stored

/-! # One form for each trace state

What is held of a trace state follows the operations on its members, and never is a list without members. So a state
holds nothing just if it has no members, and two states with the same members are one. -/

namespace Tracing.TraceState
namespace Stored

/-- What is held when a trace state comes about. -/
inductive Reachable : Stored → Prop where
  | none : Reachable .none
  | parse (values : List String) : Reachable (parse values).1
  | ofHeader {text : String} {s : Stored} (h : ofHeader text = .ok s) : Reachable s
  | ofMembers {ms : List Member} {s : Stored} (h : ofMembers ms = .ok s) : Reachable s
  | insert {s s' : Stored} (reach : Reachable s) {key value : String} (h : s.insert key value = .ok s') : Reachable s'
  | delete {s s' : Stored} (reach : Reachable s) {key : String} (h : s.delete key = .ok s') : Reachable s'

/-! ### Following the operations on members -/

@[simp] theorem members_ofList (ms : List Member) : (ofList ms).members = ms := by
  cases ms <;> rfl

@[simp] theorem state_ofList (ms : List Member) : (ofList ms).state = ⟨ms⟩ :=
  congrArg TraceState.mk (members_ofList ms)

theorem state_ofMembers (ms : List Member) : (ofMembers ms).map state = TraceState.ofMembers ms := by
  unfold ofMembers TraceState.ofMembers
  cases acceptAll [] ms with
  | error e => rfl
  | ok held => exact congrArg Except.ok (state_ofList held)

theorem state_ofHeader (text : String) : (ofHeader text).map state = TraceState.ofHeader text := by
  unfold ofHeader TraceState.ofHeader
  cases membersOfTexts (terminatedTexts text.toList) with
  | error e => rfl
  | ok ms => exact state_ofMembers ms

theorem state_parse (values : List String) : (parse values).1.state = (TraceState.parse values).1 := state_ofList _

theorem state_remove (s : Stored) (key : String) : (s.remove key).state = s.state.remove key := by
  obtain ⟨_ | ms⟩ := s
  · rfl
  · exact state_ofList _

theorem state_delete (s : Stored) (key : String) : (s.delete key).map state = s.state.delete key := by
  unfold delete TraceState.delete
  split
  · rfl
  · exact congrArg Except.ok (state_remove s key)

theorem state_insert (s : Stored) (key value : String) :
    (s.insert key value).map state = s.state.insert key value := by
  have hrest : (s.remove key).members = (s.state.remove key).members :=
    congrArg TraceState.members (state_remove s key)
  unfold insert TraceState.insert
  rw [hrest]
  split
  · rfl
  · split <;> rfl

/-- A result read through the held members. -/
theorem map_state_eq_ok_iff {x : Except TraceStateError Stored} {t : TraceState} :
    x.map state = .ok t ↔ ∃ s, x = .ok s ∧ s.state = t := by
  cases x <;> simp [Except.map]

namespace Reachable
variable {s : Stored}

theorem state (reach : Reachable s) : TraceState.Reachable s.state := by
  induction reach with
  | none => exact .empty
  | parse values => exact state_parse values ▸ .parse values
  | ofHeader h => exact .ofHeader ((state_ofHeader _).symm.trans (map_state_eq_ok_iff.mpr ⟨_, h, rfl⟩))
  | ofMembers h => exact .ofMembers ((state_ofMembers _).symm.trans (map_state_eq_ok_iff.mpr ⟨_, h, rfl⟩))
  | insert _ h ih => exact ih.insert ((state_insert _ _ _).symm.trans (map_state_eq_ok_iff.mpr ⟨_, h, rfl⟩))
  | delete _ h ih => exact ih.delete ((state_delete _ _).symm.trans (map_state_eq_ok_iff.mpr ⟨_, h, rfl⟩))

/-- Every trace state is held in some form. -/
theorem exists_of_state {t : TraceState} (reach : TraceState.Reachable t) : ∃ s, Reachable s ∧ s.state = t := by
  induction reach with
  | empty => exact ⟨.none, .none, rfl⟩
  | parse values => exact ⟨_, .parse values, state_parse values⟩
  | ofHeader h =>
    obtain ⟨s, hs, hstate⟩ := map_state_eq_ok_iff.mp ((state_ofHeader _).trans h)
    exact ⟨s, .ofHeader hs, hstate⟩
  | ofMembers h =>
    obtain ⟨s, hs, hstate⟩ := map_state_eq_ok_iff.mp ((state_ofMembers _).trans h)
    exact ⟨s, .ofMembers hs, hstate⟩
  | insert _ h ih =>
    obtain ⟨r, hr, rfl⟩ := ih
    obtain ⟨s, hs, hstate⟩ := map_state_eq_ok_iff.mp ((state_insert r _ _).trans h)
    exact ⟨s, hr.insert hs, hstate⟩
  | delete _ h ih =>
    obtain ⟨r, hr, rfl⟩ := ih
    obtain ⟨s, hs, hstate⟩ := map_state_eq_ok_iff.mp ((state_delete r _).trans h)
    exact ⟨s, hr.delete hs, hstate⟩

/-! ### No list without members -/

theorem held_ofList (ms : List Member) : (ofList ms).held ≠ some [] := by
  cases ms <;> simp [ofList, Stored.none]

theorem held_ofMembers {ms : List Member} (h : Stored.ofMembers ms = .ok s) : s.held ≠ some [] := by
  unfold Stored.ofMembers at h
  cases hall : acceptAll [] ms with
  | error e =>
    rw [hall] at h
    cases h
  | ok held =>
    rw [hall] at h
    exact Except.ok.inj h ▸ held_ofList held

theorem held_remove (h : s.held ≠ some []) (key : String) : (s.remove key).held ≠ some [] := by
  obtain ⟨_ | ms⟩ := s
  · exact h
  · exact held_ofList _

theorem held_ne (reach : Reachable s) : s.held ≠ some [] := by
  induction reach with
  | none => exact nofun
  | parse values => exact held_ofList _
  | @ofHeader text s h =>
    unfold Stored.ofHeader at h
    cases htexts : membersOfTexts (terminatedTexts text.toList) with
    | error e =>
      rw [htexts] at h
      cases h
    | ok ms =>
      rw [htexts] at h
      exact held_ofMembers h
  | ofMembers h => exact held_ofMembers h
  | insert _ h _ =>
    unfold Stored.insert at h
    split at h
    · cases h
    split at h
    · cases h
    rw [← Except.ok.inj h]
    simp
  | delete _ h ih =>
    unfold Stored.delete at h
    split at h
    · cases h
    · exact Except.ok.inj h ▸ held_remove ih _

/-- What is held follows from the members. -/
theorem eq_ofList (reach : Reachable s) : s = ofList s.members := by
  have hne := reach.held_ne
  obtain ⟨_ | _ | ⟨m, rest⟩⟩ := s
  · rfl
  · exact absurd rfl hne
  · rfl

end Reachable

/-- Whatever way a trace state came about, its members are well-formed, it holds nothing just if it has no members, and
two such states are equal just if their members are. What is held and the list of members tell the same: each trace
state is held in one way. -/
theorem one_form_per_state :
    (∀ s, Reachable s → WellFormed s.members ∧ (s = .none ↔ s.members = [])) ∧
      (∀ s s', Reachable s → Reachable s' → (s = s' ↔ s.members = s'.members)) ∧
      ∀ t, TraceState.Reachable t ↔ ∃ s, Reachable s ∧ s.state = t := by
  have hequal : ∀ s s', Reachable s → Reachable s' → (s = s' ↔ s.members = s'.members) := by
    intro s s' reach reach'
    refine ⟨congrArg members, fun h => ?_⟩
    rw [reach.eq_ofList, reach'.eq_ofList, h]
  refine ⟨fun s reach => ⟨reach.state.wellFormed, hequal s .none reach .none⟩, hequal, fun t => ⟨?_, ?_⟩⟩
  · exact Reachable.exists_of_state
  · rintro ⟨s, reach, rfl⟩
    exact reach.state

/-- As many members as a state holds. -/
def sampleMembers : List Member :=
  (List.range maxMembers).map fun n => ⟨String.ofList (List.replicate (n + 1) 'k'), "v"⟩

/-- A full state to which a member was added, and which lost its last member for it. -/
def sampleFull : Stored := ⟨some (⟨"new", "v"⟩ :: sampleMembers.dropLast)⟩

theorem one_form_per_state_of_sampleFull :
    Reachable sampleFull ∧ sampleFull.members.length = maxMembers ∧ WellFormed sampleFull.members ∧
      sampleFull ≠ .none := by
  have hok : ∀ {x : Except TraceStateError Stored} {s : Stored}, x.toOption = some s → x = .ok s := by
    rintro (e | s) t h <;> cases h
    rfl
  have hfull : ofMembers sampleMembers = .ok ⟨some sampleMembers⟩ := hok (by decide +kernel)
  have hinsert : insert ⟨some sampleMembers⟩ "new" "v" = .ok sampleFull := hok (by decide +kernel)
  have reach : Reachable sampleFull := .insert (.ofMembers hfull) hinsert
  obtain ⟨hwell, hempty⟩ := one_form_per_state.1 sampleFull reach
  exact ⟨reach, rfl, hwell, fun h => List.cons_ne_nil _ _ (hempty.mp h)⟩

end Stored
end Tracing.TraceState
