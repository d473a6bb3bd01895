import Mathlib.Data.List.Nodup
import Tracing.Proofs.TraceState.Canonical

/-! # What an edit changes

An edit concerns the member under one key. A member that is put in front takes the place of the one under its key; if
there is none and the state is full, the last member goes instead. All other members stay, in order, and are looked up
as before. -/

namespace Tracing.TraceState

/-- The members under other keys. -/
def others (ms : List Member) (key : String) : List Member := ms.filter fun m => m.key ≠ key

/-- The member that goes when one is put in front: the last, if the state is full and holds none under the key. -/
def evicted? (s : TraceState) (key : String) : Option Member :=
  if s.size = maxMembers ∧ s.get? key = none then s.members.getLast? else none

variable {s : TraceState} {ms : List Member} {m : Member} {key value : String}

theorem mem_others : m ∈ others ms key ↔ m ∈ ms ∧ m.key ≠ key := by
  simp [others]

/-! ### Looking up -/

theorem get?_eq_none_iff : s.get? key = none ↔ ∀ m ∈ s.members, m.key ≠ key := by
  simp [get?]

theorem mem_of_get? (h : s.get? key = some value) : ⟨key, value⟩ ∈ s.members := by
  obtain ⟨m, hfind, rfl⟩ := Option.map_eq_some_iff.mp h
  obtain rfl : m.key = key := by simpa using List.find?_some hfind
  exact List.mem_of_find?_eq_some hfind

theorem get?_eq_some_iff (h : WellFormed s.members) : s.get? key = some value ↔ ⟨key, value⟩ ∈ s.members := by
  refine ⟨mem_of_get?, fun hmem => ?_⟩
  cases hget : s.get? key with
  | none => exact absurd rfl (get?_eq_none_iff.mp hget _ hmem)
  | some found =>
    have hsame := List.inj_on_of_nodup_map h.distinct (mem_of_get? hget) hmem rfl
    exact congrArg some (Member.mk.inj hsame).2

/-- States that hold the same under a key find the same. -/
theorem get?_congr {s' : TraceState} (h : WellFormed s.members) (h' : WellFormed s'.members)
    (hmem : ∀ value, ⟨key, value⟩ ∈ s'.members ↔ ⟨key, value⟩ ∈ s.members) : s'.get? key = s.get? key := by
  refine Option.ext fun value => ?_
  rw [get?_eq_some_iff h, get?_eq_some_iff h', hmem]

/-! ### Who goes -/

theorem others_eq_self (h : s.get? key = none) : others s.members key = s.members := by
  rw [get?_eq_none_iff] at h
  exact List.filter_eq_self.mpr fun m hm => by simpa using h m hm

/-- Without the member under the key there is room for another in front. -/
theorem length_others_lt (h : WellFormed s.members) (hroom : ¬(s.size = maxMembers ∧ s.get? key = none)) :
    (others s.members key).length < maxMembers := by
  have hle : (others s.members key).length ≤ s.size := List.length_filter_le _ _
  have hsize : s.size ≤ maxMembers := h.size
  by_cases hfull : s.size = maxMembers
  · rw [← hfull]
    refine List.length_filter_lt_length_iff_exists.mpr ?_
    have hheld : s.get? key ≠ none := fun hnone => hroom ⟨hfull, hnone⟩
    rw [Ne, get?_eq_none_iff] at hheld
    push Not at hheld
    simpa using hheld
  · omega

/-- The others stay, all but the one that is evicted. -/
theorem take_others_append (h : WellFormed s.members) (key : String) :
    (others s.members key).take (maxMembers - 1) ++ (s.evicted? key).toList = others s.members key := by
  unfold evicted?
  split
  · rename_i hfull
    have hlength : s.members.length = maxMembers := hfull.1
    have hne : s.members ≠ [] := by
      rintro hnil
      rw [hnil] at hlength
      cases hlength
    rw [others_eq_self hfull.2, ← hlength, ← List.dropLast_eq_take, List.getLast?_eq_some_getLast hne,
      Option.toList_some, List.dropLast_append_getLast]
  · rename_i hroom
    have hlt := length_others_lt h hroom
    rw [List.take_of_length_le (by omega), Option.toList_none, List.append_nil]

theorem mem_of_evicted? (h : s.evicted? key = some m) : m ∈ s.members := by
  unfold evicted? at h
  split at h
  · exact List.mem_of_getLast? h
  · cases h

/-- Of the others just the evicted one goes. -/
theorem mem_take_others_iff (h : WellFormed s.members) :
    m ∈ (others s.members key).take (maxMembers - 1) ↔ m ∈ others s.members key ∧ s.evicted? key ≠ some m := by
  have hnodup : (others s.members key).Nodup := (List.Nodup.of_map _ h.distinct).filter _
  have hsplit := take_others_append h key
  rw [← hsplit, List.nodup_append] at hnodup
  constructor
  · intro htake
    refine ⟨List.mem_of_mem_take htake, fun hevicted => ?_⟩
    exact hnodup.2.2 m htake m (by simp [hevicted]) rfl
  · rintro ⟨hm, hevicted⟩
    rw [← hsplit, List.mem_append] at hm
    refine hm.resolve_right fun hlast => hevicted ?_
    simpa using hlast

/-! ### Both edits -/

/-- A member was put in front. -/
structure Inserted (s : TraceState) (key value : String) (s' : TraceState) : Prop where
  members : s'.members = ⟨key, value⟩ :: (others s.members key).take (maxMembers - 1)
  kept : ∀ m ∈ s.members, m.key ≠ key → (m ∈ s'.members ↔ s.evicted? key ≠ some m)
  found : s'.get? key = some value
  elsewhere : ∀ other, other ≠ key →
    s'.get? other = if (s.evicted? key).map Member.key = some other then none else s.get? other

/-- The member under a key was deleted. -/
structure Deleted (s : TraceState) (key : String) (s' : TraceState) : Prop where
  members : s'.members = others s.members key
  gone : s'.get? key = none
  elsewhere : ∀ other, other ≠ key → s'.get? other = s.get? other

theorem insert_eq (h : WellFormed s.members) (hkey : isKey key.toList = true) (hvalue : isValue value.toList = true) :
    s.insert key value = .ok ⟨⟨key, value⟩ :: (others s.members key).take (maxMembers - 1)⟩ := by
  have hremoved : (s.remove key).members = others s.members key := members_remove h.distinct key
  have hlength : (others s.members key).length ≤ maxMembers := Nat.le_trans (List.length_filter_le _ _) h.size
  have hkept : (if (others s.members key).length = maxMembers then (others s.members key).dropLast
      else others s.members key) = (others s.members key).take (maxMembers - 1) := by
    split
    · rename_i hfull
      rw [List.dropLast_eq_take, hfull]
    · rw [List.take_of_length_le (by omega)]
  unfold insert
  rw [if_neg (by simp [hkey]), if_neg (by simp [hvalue]), hremoved]
  dsimp only
  rw [hkept]

theorem inserted (h : WellFormed s.members) (hkey : isKey key.toList = true) (hvalue : isValue value.toList = true) :
    ∃ s', s.insert key value = .ok s' ∧ Inserted s key value s' := by
  have hinsert := insert_eq h hkey hvalue
  have h' := h.insert hinsert
  have hmem : ∀ m : Member, m.key ≠ key → (m ∈ (⟨key, value⟩ : Member) :: (others s.members key).take (maxMembers - 1) ↔
      m ∈ s.members ∧ s.evicted? key ≠ some m) := by
    intro m hm
    have hne : m ≠ ⟨key, value⟩ := by
      rintro rfl
      exact hm rfl
    simp [mem_take_others_iff h, mem_others, hm, hne]
  refine ⟨_, hinsert, rfl, fun m hm hother => ?_, (get?_eq_some_iff h').mpr List.mem_cons_self, fun other hother => ?_⟩
  · rw [hmem m hother]
    exact and_iff_right hm
  · split
    · rename_i hevicted
      obtain ⟨last, hlast, rfl⟩ := Option.map_eq_some_iff.mp hevicted
      -- What is found under the key of the evicted member was held before, so it is that member.
      refine Option.eq_none_iff_forall_ne_some.mpr fun found hfound => ?_
      obtain ⟨hheld, hkept⟩ := (hmem ⟨last.key, found⟩ hother).mp ((get?_eq_some_iff h').mp hfound)
      have hsame := List.inj_on_of_nodup_map h.distinct (mem_of_evicted? hlast) hheld rfl
      exact hkept (hsame ▸ hlast)
    · rename_i hevicted
      refine get?_congr h h' fun found => (hmem _ hother).trans (and_iff_left fun hlast => hevicted ?_)
      rw [hlast]
      rfl

theorem deleted (h : WellFormed s.members) (hkey : isKey key.toList = true) :
    ∃ s', s.delete key = .ok s' ∧ Deleted s key s' := by
  have hmembers : (s.remove key).members = others s.members key := members_remove h.distinct key
  have hdelete : s.delete key = .ok (s.remove key) := if_neg (by simp [hkey])
  refine ⟨s.remove key, hdelete, hmembers, get?_eq_none_iff.mpr fun m hm => ?_, fun other hother => ?_⟩
  · rw [hmembers] at hm
    exact (mem_others.mp hm).2
  · refine get?_congr h (h.delete hdelete) fun found => ?_
    rw [hmembers, mem_others]
    exact and_iff_left hother

/-- What is held of an edited state is told by its members. -/
theorem Stored.eq_map_ofList {x : Except TraceStateError Stored} (reach : ∀ held, x = .ok held → Reachable held) :
    x = (x.map Stored.state).map fun s => .ofList s.members := by
  cases x with
  | error e => rfl
  | ok held => exact congrArg Except.ok (reach held rfl).eq_ofList

/-- An invalid key is refused by both edits, and an invalid value under a valid key by the one that takes a value.
Otherwise both succeed: a member that is put in front, and the others, of which a full state without the key loses the
last; or the others alone, when a member is deleted. What is held of a state takes the same edits, and holds
nothing when the last member goes. -/
theorem edits_concern_one_key (reach : Reachable s) (key value : String) :
    (isKey key.toList = false → s.insert key value = .error (.key key) ∧ s.delete key = .error (.key key)) ∧
      (isKey key.toList = true → isValue value.toList = false → s.insert key value = .error (.value value)) ∧
      (isKey key.toList = true → isValue value.toList = true →
        ∃ s', s.insert key value = .ok s' ∧ Inserted s key value s') ∧
      (isKey key.toList = true → ∃ s', s.delete key = .ok s' ∧ Deleted s key s') ∧
      ∀ held, Stored.Reachable held → held.state = s →
        held.insert key value = (s.insert key value).map (fun s' => .ofList s'.members) ∧
          held.delete key = (s.delete key).map fun s' => .ofList s'.members := by
  refine ⟨fun hkey => ?_, fun hkey hvalue => ?_, inserted reach.wellFormed, deleted reach.wellFormed, ?_⟩
  · simp [insert, delete, hkey]
  · simp [insert, hkey, hvalue]
  · rintro held hheld rfl
    rw [← Stored.state_insert, ← Stored.state_delete]
    exact ⟨Stored.eq_map_ofList fun _ h => hheld.insert h, Stored.eq_map_ofList fun _ h => hheld.delete h⟩

/-! A full state, into which a member is put under a new key, and from which one is deleted. -/

def sampleHeld : Stored := ⟨some Stored.sampleMembers⟩

/-- The key of its last member. -/
def sampleLastKey : String := String.ofList (List.replicate maxMembers 'k')

theorem reachable_sampleHeld : Stored.Reachable sampleHeld := by
  have hread : (Stored.ofMembers Stored.sampleMembers).toOption = some sampleHeld := by decide +kernel
  cases hmembers : Stored.ofMembers Stored.sampleMembers with
  | error e =>
    rw [hmembers] at hread
    cases hread
  | ok held =>
    rw [hmembers] at hread
    exact Option.some.inj hread ▸ .ofMembers hmembers

theorem edits_concern_one_key_of_sampleHeld :
    Stored.Reachable sampleHeld ∧ isKey "new".toList = true ∧ isValue "v".toList = true ∧
      (∃ s', sampleHeld.state.insert "new" "v" = .ok s' ∧ s'.get? "new" = some "v" ∧
        s'.get? sampleLastKey = none ∧ s'.get? "k" = some "v" ∧
        sampleHeld.insert "new" "v" = .ok (.ofList s'.members)) ∧
      ∃ s', sampleHeld.state.delete "k" = .ok s' ∧ s'.get? "k" = none ∧ s'.get? sampleLastKey = some "v" := by
  have hkey : isKey "new".toList = true := by decide
  have hvalue : isValue "v".toList = true := by decide
  have hevicted : sampleHeld.state.evicted? "new" = some ⟨sampleLastKey, "v"⟩ := by decide +kernel
  have hlast : sampleHeld.state.get? sampleLastKey = some "v" := by decide +kernel
  have hfirst : sampleHeld.state.get? "k" = some "v" := by decide +kernel
  obtain ⟨-, -, hinsert, -, hheld⟩ := edits_concern_one_key reachable_sampleHeld.state "new" "v"
  obtain ⟨-, -, -, hdelete, -⟩ := edits_concern_one_key reachable_sampleHeld.state "k" "v"
  obtain ⟨s', hs', hin⟩ := hinsert hkey hvalue
  obtain ⟨t, ht, hout⟩ := hdelete (by decide)
  refine ⟨reachable_sampleHeld, hkey, hvalue, ⟨s', hs', hin.found, ?_, ?_, ?_⟩, t, ht, hout.gone, ?_⟩
  · rw [hin.elsewhere _ (by decide), hevicted]
    rfl
  · rw [hin.elsewhere _ (by decide), hevicted, if_neg (by decide), hfirst]
  · rw [(hheld sampleHeld reachable_sampleHeld rfl).1, hs']
    rfl
  · rw [hout.elsewhere _ (by decide), hlast]

end Tracing.TraceState
