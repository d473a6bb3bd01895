import Tracing.Proofs.Registry.Expiry

/-! # Where registrations end up

Every registration that is tried has its number. A refused one never enters the registry. An accepted one is, at every
later moment, in just one place: the registry holds it, or a resolution of its key has returned it, or it was discarded
after it had reached the greatest age.

The record of a run (`Registry.Custody`) does not know why entries leave. After each call it sees which keys are still
held, and what is missing was resolved or discarded according to the call. The invariant (`Custody.Sound`) is that what
should be held by this record is what the registry holds, entry by entry. -/

namespace Tracing
namespace Registry

variable {κ ν : Type}

/-- A registration that was tried. -/
structure Attempt (κ ν : Type) where
  number : Nat
  key : κ
  value : ν
  time : Instant

/-- What the registry holds of an attempt that it accepted. -/
def Attempt.entry (x : Attempt κ ν) : κ × RegistryEntry ν := (x.key, ⟨x.value, x.time⟩)

/-- A run of a registry so far, with the whereabouts of all that was tried. -/
structure Custody (κ ν : Type) where
  registry : Registry κ ν
  now : Instant
  /-- How many registrations were tried. -/
  tried : Nat := 0
  accepted : List (Attempt κ ν) := []
  /-- With the answers. -/
  refused : List (Attempt κ ν × Except Panic (Except (RegisterError κ ν) Unit)) := []
  held : List (Attempt κ ν) := []
  resolved : List (Attempt κ ν) := []
  /-- With the times. -/
  discarded : List (Attempt κ ν × Instant) := []
  /-- What resolutions returned, under the keys that they were asked for. -/
  returned : List (κ × ν) := []

namespace Custody

/-- The custody of a registry that was just made. -/
def opened (policy : RegistryPolicy) (strict : Bool) (now : Instant) : Custody κ ν where
  registry := Registry.empty policy now strict
  now := now

variable [DecidableEq κ]

/-- The registry still holds the attempt: its key is there, and was not given to another one just now. -/
def Stays (r : Registry κ ν) (given : Option κ) (x : Attempt κ ν) : Prop :=
  x.key ∈ r.entries.map Prod.fst ∧ given ≠ some x.key

instance (r : Registry κ ν) (given : Option κ) (x : Attempt κ ν) : Decidable (Stays r given x) :=
  inferInstanceAs (Decidable (_ ∧ _))

/-- The attempts that the registry still holds. -/
def kept (s : Custody κ ν) (r : Registry κ ν) (given : Option κ) : List (Attempt κ ν) :=
  s.held.filter fun x => Stays r given x

/-- The attempts that the registry holds no more. -/
def gone (s : Custody κ ν) (r : Registry κ ν) (given : Option κ) : List (Attempt κ ν) :=
  s.held.filter fun x => ¬Stays r given x

/-- What is gone was discarded. -/
def discarding (s : Custody κ ν) (now : Instant) (r : Registry κ ν) (given : Option κ) : Custody κ ν :=
  { s with
    registry := r, now, held := s.kept r given, discarded := (s.gone r given).map (·, now) ++ s.discarded }

/-- What is gone was resolved. -/
def resolving (s : Custody κ ν) (now : Instant) (r : Registry κ ν) (returned : List (κ × ν)) : Custody κ ν :=
  { s with
    registry := r, now, held := s.kept r none, resolved := s.gone r none ++ s.resolved
    returned := returned ++ s.returned }

def accepting (s : Custody κ ν) (x : Attempt κ ν) : Custody κ ν :=
  { s with tried := s.tried + 1, accepted := x :: s.accepted, held := x :: s.held }

def refusing (s : Custody κ ν) (x : Attempt κ ν) (answer : Except Panic (Except (RegisterError κ ν) Unit)) :
    Custody κ ν :=
  { s with tried := s.tried + 1, refused := (x, answer) :: s.refused }

variable [KeyText κ]

/-- The custody after one more call. -/
def after (s : Custody κ ν) (now : Instant) : Call κ ν → Custody κ ν
  | .register key value =>
    let (answer, r, _) := Registry.register now key value s.registry
    let x : Attempt κ ν := ⟨s.tried, key, value, now⟩
    match answer with
    | .ok (.ok ()) => (s.discarding now r (some key)).accepting x
    | refusal => (s.discarding now r none).refusing x refusal
  | .resolve key =>
    let (found, r) := s.registry.resolve key
    s.resolving now r (found.toList.map (key, ·))
  | .sweep => s.discarding now (Registry.sweep now s.registry).2.1 none
  | .size => { s with now }

/-- The custodies of the runs in which time does not go back. -/
inductive Reachable (policy : RegistryPolicy) (strict : Bool) : Custody κ ν → Prop where
  | opened (now : Instant) : Reachable policy strict (opened policy strict now)
  | call {s : Custody κ ν} (h : Reachable policy strict s) {now : Instant} (later : s.now.nanos ≤ now.nanos)
      (c : Call κ ν) : Reachable policy strict (s.after now c)

end Custody

/-! ### Entries that leave -/

section Entries
variable [DecidableEq κ] {r r' : Registry κ ν} {x : Attempt κ ν}

omit [DecidableEq κ] in
theorem tidied_entries_filter (now : Instant) : (r.tidied now).entries =
    r.entries.filter fun e => !r.sweepIsDue now || r.policy.isLive now e.2 := by
  rw [tidied_entries]
  cases r.sweepIsDue now <;> simp

omit [DecidableEq κ] in
/-- A key is held once, so an attempt stays just if its entry does. -/
theorem stays_filter_iff (hnodup : (r.entries.map Prod.fst).Nodup) {p : κ × RegistryEntry ν → Bool}
    (hentries : r'.entries = r.entries.filter p) (hx : x.entry ∈ r.entries) :
    Custody.Stays r' none x ↔ p x.entry = true := by
  unfold Custody.Stays
  rw [hentries]
  constructor
  · rintro ⟨hkey, -⟩
    obtain ⟨e, he, hek⟩ := List.mem_map.mp hkey
    obtain ⟨hmem, hp⟩ := List.mem_filter.mp he
    rwa [List.inj_on_of_nodup_map hnodup hmem hx hek] at hp
  · intro hp
    exact ⟨List.mem_map.mpr ⟨_, List.mem_filter.mpr ⟨hx, hp⟩, rfl⟩, nofun⟩

/-- Giving a key to an entry is erasing what was there. -/
theorem stays_insert_iff (now : Instant) (key : κ) (value : ν) :
    Custody.Stays (r.insert now key value) (some key) x ↔ Custody.Stays (r.erase key) none x := by
  have herase : x.key ∈ (r.erase key).entries.map Prod.fst → key ≠ x.key := by
    intro hx hkey
    obtain ⟨e, he, hek⟩ := List.mem_map.mp hx
    have hne := (List.mem_filter.mp he).2
    simp [hek, hkey] at hne
  have hinsert : (r.insert now key value).entries.map Prod.fst = key :: (r.erase key).entries.map Prod.fst := rfl
  unfold Custody.Stays
  rw [hinsert, List.mem_cons]
  constructor
  · rintro ⟨hx | hx, hgiven⟩
    · exact absurd (congrArg some hx.symm) hgiven
    · exact ⟨hx, nofun⟩
  · rintro ⟨hx, -⟩
    exact ⟨.inr hx, fun hgiven => herase hx (Option.some.inj hgiven)⟩

/-- Under a key there is what a search finds. -/
theorem filter_key_eq_find? {entries : List (κ × RegistryEntry ν)} (hnodup : (entries.map Prod.fst).Nodup) (key : κ) :
    entries.filter (fun e => e.1 = key) = (entries.find? fun e => e.1 = key).toList := by
  induction entries with
  | nil => rfl
  | cons e rest ih =>
    rw [List.map_cons, List.nodup_cons] at hnodup
    by_cases hkey : e.1 = key
    · have hrest : rest.filter (fun e => e.1 = key) = [] := by
        refine List.filter_eq_nil_iff.mpr fun d hd hdk => hnodup.1 ?_
        rw [hkey, ← of_decide_eq_true hdk]
        exact List.mem_map_of_mem hd
      simp [hkey, hrest]
    · simp [hkey, ih hnodup.2]

omit [DecidableEq κ] in
/-- An entry from the past that is not live has reached the greatest age. -/
theorem age_ge_of_not_isLive {policy : RegistryPolicy} {t : Instant} {e : RegistryEntry ν}
    (past : e.registeredAt.nanos ≤ t.nanos) (hl : policy.isLive t e = false) :
    policy.maxAge.nanos ≤ t.nanos - e.registeredAt.nanos := by
  have h : ¬(t.nanos - e.registeredAt.nanos).toNat < policy.maxAge.nanos := of_decide_eq_false hl
  omega

end Entries

namespace Custody

/-! ### What holds at every moment -/

/-- An attempt was refused with an answer that hands it back; only a strict registry panics over a live key instead. -/
def HandsBack (strict : Bool) (x : Attempt κ ν) [KeyText κ]
    (answer : Except Panic (Except (RegisterError κ ν) Unit)) : Prop :=
  answer = .ok (.error (.full x.key x.value)) ∨
    answer = if strict then .error ⟨some (RegisterError.keyInUse x.key x.value).message⟩
      else .ok (.error (.keyInUse x.key x.value))

variable [KeyText κ]

/-- The record agrees with the registry, and every attempt has its place. -/
structure Sound (policy : RegistryPolicy) (strict : Bool) (s : Custody κ ν) : Prop where
  policy_eq : s.registry.policy = policy
  strict_eq : s.registry.strict = strict
  nodup : (s.registry.entries.map Prod.fst).Nodup
  held : s.held.map Attempt.entry = s.registry.entries
  past : ∀ x ∈ s.held, x.time.nanos ≤ s.now.nanos
  tried : (s.accepted.map Attempt.number ++ s.refused.map fun x => x.1.number).Perm (List.range s.tried)
  places : s.accepted.Perm (s.held ++ (s.resolved ++ s.discarded.map Prod.fst))
  handedBack : ∀ x ∈ s.refused, HandsBack strict x.1 x.2
  returned : s.resolved.map (fun x => (x.key, x.value)) = s.returned
  expired : ∀ x ∈ s.discarded, policy.maxAge.nanos ≤ x.2.nanos - x.1.time.nanos

namespace Sound
variable {policy : RegistryPolicy} {strict : Bool} {s : Custody κ ν} {t : Instant}

theorem opened (policy : RegistryPolicy) (strict : Bool) (now : Instant) :
    Sound policy strict (Custody.opened policy strict now : Custody κ ν) where
  policy_eq := rfl
  strict_eq := rfl
  nodup := List.nodup_nil
  held := rfl
  past := nofun
  tried := .nil
  places := .nil
  handedBack := nofun
  returned := rfl
  expired := nofun

theorem later (h : Sound policy strict s) (le : s.now.nanos ≤ t.nanos) : Sound policy strict { s with now := t } :=
  { h with past := fun x hx => Int.le_trans (h.past x hx) le }

theorem entry_mem (h : Sound policy strict s) {x : Attempt κ ν} (hx : x ∈ s.held) : x.entry ∈ s.registry.entries :=
  h.held ▸ List.mem_map_of_mem hx

theorem nodup_filter (h : Sound policy strict s) {r : Registry κ ν} {p : κ × RegistryEntry ν → Bool}
    (hentries : r.entries = s.registry.entries.filter p) : (r.entries.map Prod.fst).Nodup := by
  rw [hentries]
  exact h.nodup.sublist (List.filter_sublist.map _)

theorem accepting (h : Sound policy strict s) {key : κ} (hkey : key ∉ s.registry.entries.map Prod.fst) (value : ν) :
    let registry := { s.registry with entries := (key, ⟨value, s.now⟩) :: s.registry.entries }
    Sound policy strict ({ s with registry }.accepting ⟨s.tried, key, value, s.now⟩) where
  policy_eq := h.policy_eq
  strict_eq := h.strict_eq
  nodup := List.nodup_cons.mpr ⟨hkey, h.nodup⟩
  held := congrArg _ h.held
  past := List.forall_mem_cons.mpr ⟨Int.le_refl _, h.past⟩
  tried := by
    show (s.tried :: _).Perm (List.range (s.tried + 1))
    rw [List.range_succ]
    exact (h.tried.cons _).trans (List.perm_append_singleton _ _).symm
  places := h.places.cons _
  handedBack := h.handedBack
  returned := h.returned
  expired := h.expired

theorem refusing (h : Sound policy strict s) {key : κ} {value : ν}
    {answer : Except Panic (Except (RegisterError κ ν) Unit)}
    (hanswer : HandsBack strict ⟨s.tried, key, value, t⟩ answer) :
    Sound policy strict (s.refusing ⟨s.tried, key, value, t⟩ answer) :=
  { h with
    tried := by
      show (s.accepted.map Attempt.number ++ s.tried :: s.refused.map fun x => x.1.number).Perm
        (List.range (s.tried + 1))
      rw [List.range_succ]
      exact (List.perm_middle.trans (h.tried.cons _)).trans (List.perm_append_singleton _ _).symm
    handedBack := List.forall_mem_cons.mpr ⟨hanswer, h.handedBack⟩ }

variable [DecidableEq κ]

omit [KeyText κ] in
theorem kept_append_gone (s : Custody κ ν) (r : Registry κ ν) (given : Option κ) :
    (s.kept r given ++ s.gone r given).Perm s.held := by
  have hsplit := List.filter_append_perm (fun x => decide (Stays r given x)) s.held
  simpa only [kept, gone, decide_not] using hsplit

/-- The places of what was accepted, with what is gone apart. -/
theorem places_split (h : Sound policy strict s) (r : Registry κ ν) (given : Option κ) :
    s.accepted.Perm
      (s.kept r given ++ (s.gone r given ++ (s.resolved ++ s.discarded.map Prod.fst))) := by
  rw [← List.append_assoc]
  exact h.places.trans (.append_right _ (kept_append_gone s r given).symm)

section Filter
variable {r : Registry κ ν} {p : κ × RegistryEntry ν → Bool} (hentries : r.entries = s.registry.entries.filter p)
include hentries

theorem kept_eq (h : Sound policy strict s) : s.kept r none = s.held.filter fun x => p x.entry := by
  refine List.filter_congr fun x hx => ?_
  rw [Bool.eq_iff_iff, decide_eq_true_iff]
  exact stays_filter_iff h.nodup hentries (h.entry_mem hx)

theorem gone_eq (h : Sound policy strict s) : s.gone r none = s.held.filter fun x => !p x.entry := by
  refine List.filter_congr fun x hx => ?_
  rw [Bool.eq_iff_iff, decide_eq_true_iff, stays_filter_iff h.nodup hentries (h.entry_mem hx)]
  simp

theorem held_kept (h : Sound policy strict s) : (s.kept r none).map Attempt.entry = r.entries := by
  rw [kept_eq hentries h, hentries, ← h.held, List.filter_map]
  rfl

/-- What was discarded had expired. -/
theorem discarding (h : Sound policy strict s) (le : s.now.nanos ≤ t.nanos) (hpolicy : r.policy = policy)
    (hstrict : r.strict = strict)
    (hexpired : ∀ e ∈ s.registry.entries, p e = false → policy.isLive t e.2 = false) :
    Sound policy strict (s.discarding t r none) where
  policy_eq := hpolicy
  strict_eq := hstrict
  nodup := h.nodup_filter hentries
  held := held_kept hentries h
  past x hx := (h.later le).past x (List.mem_of_mem_filter hx)
  tried := h.tried
  places := by
    have hgone : ((s.gone r none).map (·, t)).map Prod.fst = s.gone r none := by
      rw [List.map_map]
      exact List.map_id _
    show s.accepted.Perm (s.kept r none ++ (s.resolved ++ ((s.gone r none).map (·, t) ++ s.discarded).map Prod.fst))
    rw [List.map_append, hgone]
    -- What is gone moves past what was resolved.
    exact (places_split h r none).trans (.append_left _ (List.perm_append_comm_assoc _ _ _))
  handedBack := h.handedBack
  returned := h.returned
  expired x hx := by
    rcases List.mem_append.mp hx with hx | hx
    · obtain ⟨y, hy, rfl⟩ := List.mem_map.mp hx
      rw [gone_eq hentries h] at hy
      obtain ⟨hheld, hp⟩ := List.mem_filter.mp hy
      exact age_ge_of_not_isLive (Int.le_trans (h.past y hheld) le)
        (hexpired _ (h.entry_mem hheld) (Bool.not_eq_true' _ |>.mp hp))
    · exact h.expired x hx

/-- What was resolved is what the resolution returned. -/
theorem resolving (h : Sound policy strict s) (le : s.now.nanos ≤ t.nanos) (hpolicy : r.policy = policy)
    (hstrict : r.strict = strict) {returned : List (κ × ν)}
    (hreturned : (s.registry.entries.filter fun e => !p e).map (fun e => (e.1, e.2.value)) = returned) :
    Sound policy strict (s.resolving t r returned) where
  policy_eq := hpolicy
  strict_eq := hstrict
  nodup := h.nodup_filter hentries
  held := held_kept hentries h
  past x hx := (h.later le).past x (List.mem_of_mem_filter hx)
  tried := h.tried
  places := by
    show s.accepted.Perm (s.kept r none ++ ((s.gone r none ++ s.resolved) ++ s.discarded.map Prod.fst))
    rw [List.append_assoc]
    exact places_split h r none
  handedBack := h.handedBack
  returned := by
    show (s.gone r none ++ s.resolved).map _ = returned ++ s.returned
    rw [List.map_append, h.returned, ← hreturned, gone_eq hentries h, ← h.held, List.filter_map, List.map_map]
    rfl
  expired := h.expired

end Filter

/-! ### Each call -/

/-- The sweep before a registration discards what has expired. -/
theorem tidied (h : Sound policy strict s) (le : s.now.nanos ≤ t.nanos) :
    Sound policy strict (s.discarding t (s.registry.tidied t) none) := by
  refine discarding (tidied_entries_filter t) h le (tidied_policy.trans h.policy_eq) (tidied_strict.trans h.strict_eq)
    fun e _ hp => ?_
  rw [Bool.or_eq_false_iff, h.policy_eq] at hp
  exact hp.2

/-- So does the replacement of an entry that is not live. -/
theorem replaced (h : Sound policy strict s) (le : s.now.nanos ≤ t.nanos) {key : κ}
    (hold : ∀ e, (s.registry.tidied t).find? key = some e → policy.isLive t e = false) :
    Sound policy strict (s.discarding t ((s.registry.tidied t).erase key) none) := by
  have hentries : ((s.registry.tidied t).erase key).entries = s.registry.entries.filter fun e =>
      decide (e.1 ≠ key) && (!s.registry.sweepIsDue t || s.registry.policy.isLive t e.2) := by
    rw [erase, tidied_entries_filter, List.filter_filter]
  have hnodup : ((s.registry.tidied t).entries.map Prod.fst).Nodup := h.nodup_filter (tidied_entries_filter t)
  refine discarding hentries h le (tidied_policy.trans h.policy_eq) (tidied_strict.trans h.strict_eq)
    fun e he hp => ?_
  by_contra hlive
  rw [Bool.not_eq_false] at hlive
  -- A live entry survives the sweep, so only the replacement could have taken it.
  have hswept : e ∈ (s.registry.tidied t).entries := by
    rw [tidied_entries_filter, List.mem_filter, h.policy_eq, hlive, Bool.or_true]
    exact ⟨he, rfl⟩
  rw [h.policy_eq, hlive, Bool.or_true, Bool.and_true, decide_eq_false_iff_not, not_not] at hp
  subst hp
  rw [hold e.2 (find?_of_mem hnodup hswept)] at hlive
  cases hlive

omit [KeyText κ] in
theorem discarding_insert (s : Custody κ ν) (t : Instant) (r : Registry κ ν) (key : κ) (value : ν) :
    s.discarding t (r.insert t key value) (some key) =
      { s.discarding t (r.erase key) none with registry := r.insert t key value } := by
  simp only [Custody.discarding, kept, gone, stays_insert_iff]

/-- A registration that is refused leaves what the sweep before it has left. -/
theorem register_refused (h : Sound policy strict s) (le : s.now.nanos ≤ t.nanos) {key : κ} {value : ν}
    {refusal : Except Panic (Except (RegisterError κ ν) Unit)}
    (hanswer : (Registry.register t key value s.registry).1 = refusal) (hne : refusal ≠ .ok (.ok ()))
    (hleft : (Registry.register t key value s.registry).2.1 = s.registry.tidied t)
    (hback : HandsBack strict ⟨s.tried, key, value, t⟩ refusal) :
    Sound policy strict (s.after t (.register key value)) := by
  have hafter : s.after t (.register key value) =
      (s.discarding t (s.registry.tidied t) none).refusing ⟨s.tried, key, value, t⟩ refusal := by
    simp only [after, hanswer, hleft]
  rw [hafter]
  exact (h.tidied le).refusing hback

theorem register (h : Sound policy strict s) (le : s.now.nanos ≤ t.nanos) (key : κ) (value : ν) :
    Sound policy strict (s.after t (.register key value)) := by
  have hcases := register_cases t key value s.registry
  rw [h.policy_eq, h.strict_eq] at hcases
  rcases hcases with ⟨e, -, -, hleft, hanswer⟩ | ⟨-, -, hleft, hanswer⟩ | ⟨hold, -, hleft, hanswer⟩
  · refine h.register_refused le hanswer ?_ hleft (.inr rfl)
    cases strict <;> nofun
  · exact h.register_refused le hanswer nofun hleft (.inl rfl)
  · have hafter : s.after t (.register key value) =
        (s.discarding t ((s.registry.tidied t).insert t key value) (some key)).accepting
          ⟨s.tried, key, value, t⟩ := by
      simp only [after, hanswer, hleft]
    have hfree : key ∉ ((s.registry.tidied t).erase key).entries.map Prod.fst := by
      simp [erase]
    rw [hafter, discarding_insert]
    exact (h.replaced le hold).accepting hfree value

theorem resolve (h : Sound policy strict s) (le : s.now.nanos ≤ t.nanos) (key : κ) :
    Sound policy strict (s.after t (.resolve key)) := by
  refine resolving (r := s.registry.erase key) (p := fun e => e.1 ≠ key) rfl h le h.policy_eq h.strict_eq ?_
  -- What leaves is all that was under the key, and that is what the search finds.
  have hfound := filter_key_eq_find? h.nodup key
  simp only [decide_not, Bool.not_not, hfound, find?]
  cases hfind : s.registry.entries.find? fun e => e.1 = key with
  | none => rfl
  | some e =>
    have hkey : e.1 = key := by simpa using List.find?_some hfind
    simp [hkey]

theorem sweep (h : Sound policy strict s) (le : s.now.nanos ≤ t.nanos) :
    Sound policy strict (s.after t .sweep) := by
  obtain ⟨_, hswept⟩ := sweep_run t s.registry
  show Sound policy strict (s.discarding t (Registry.sweep t s.registry).2.1 none)
  rw [hswept]
  exact discarding (p := fun e => s.registry.isLive t e.2) rfl h le h.policy_eq h.strict_eq
    fun _ _ hp => h.policy_eq ▸ hp

end Sound

variable [DecidableEq κ] {policy : RegistryPolicy} {strict : Bool} {s : Custody κ ν}

theorem Reachable.sound (h : Reachable policy strict s) : Sound policy strict s := by
  induction h with
  | opened now => exact Sound.opened policy strict now
  | call _ le c ih =>
    cases c with
    | register key value => exact ih.register le key value
    | resolve key => exact ih.resolve le key
    | sweep => exact ih.sweep le
    | size => exact ih.later le

/-! ### The whole account -/

/-- What is on record stays so: later calls only add to it. -/
structure Extends (s s' : Custody κ ν) : Prop where
  accepted : s.accepted <:+ s'.accepted
  refused : s.refused <:+ s'.refused
  resolved : s.resolved <:+ s'.resolved
  discarded : s.discarded <:+ s'.discarded
  returned : s.returned <:+ s'.returned

theorem after_extends (s : Custody κ ν) (now : Instant) (c : Call κ ν) : s.Extends (s.after now c) := by
  cases c with
  | register key value =>
    simp only [after]
    split
    · exact ⟨List.suffix_cons _ _, List.suffix_rfl, List.suffix_rfl, List.suffix_append _ _, List.suffix_rfl⟩
    · exact ⟨List.suffix_rfl, List.suffix_cons _ _, List.suffix_rfl, List.suffix_append _ _, List.suffix_rfl⟩
  | resolve key =>
    exact ⟨List.suffix_rfl, List.suffix_rfl, List.suffix_append _ _, List.suffix_rfl, List.suffix_append _ _⟩
  | sweep => exact ⟨List.suffix_rfl, List.suffix_rfl, List.suffix_rfl, List.suffix_append _ _, List.suffix_rfl⟩
  | size => exact ⟨List.suffix_rfl, List.suffix_rfl, List.suffix_rfl, List.suffix_rfl, List.suffix_rfl⟩

/-- A sweep answers how many it discards. -/
theorem Sound.sweep_count (h : Sound policy strict s) (t : Instant) : ∃ gone,
    (s.after t .sweep).discarded = gone ++ s.discarded ∧ (Registry.sweep t s.registry).1 = .ok gone.length := by
  obtain ⟨_, hswept⟩ := sweep_run t s.registry
  refine ⟨(s.gone (s.registry.swept t) none).map (·, t), ?_, ?_⟩
  · show ((s.gone (Registry.sweep t s.registry).2.1 none).map (·, t)) ++ s.discarded = _
    rw [hswept]
  · have hsplit := (kept_append_gone s (s.registry.swept t) none).length_eq
    have hkept := congrArg List.length
      (held_kept (r := s.registry.swept t) (p := fun e => s.registry.isLive t e.2) rfl h)
    have hheld := congrArg List.length h.held
    rw [List.length_append] at hsplit
    rw [List.length_map] at hkept hheld
    rw [hswept, List.length_map, size, size, ← hkept, ← hheld]
    exact congrArg Except.ok (by omega)

/-- At every moment of a run each registration that was tried is in just one place. The registry holds it, or a
resolution returned it, or it was discarded, or it was refused and never got in. The registry holds what it should
entry by entry, the resolutions returned what is resolved under the keys that it was registered under, and what was
discarded had reached the greatest age. A refusal hands back the key and the value; only a strict registry panics over
a live key instead. The record of this only grows, and a sweep answers how many it adds to the discarded. -/
theorem every_registration_is_accounted_for (h : Reachable policy strict s) :
    ((s.held ++ (s.resolved ++ (s.discarded.map Prod.fst ++ s.refused.map Prod.fst))).map Attempt.number).Perm
        (List.range s.tried) ∧
      s.accepted.Perm (s.held ++ (s.resolved ++ s.discarded.map Prod.fst)) ∧
      s.held.map Attempt.entry = s.registry.entries ∧
      s.resolved.map (fun x => (x.key, x.value)) = s.returned ∧
      (∀ x ∈ s.discarded, policy.maxAge.nanos ≤ x.2.nanos - x.1.time.nanos) ∧
      (∀ x ∈ s.refused, HandsBack strict x.1 x.2) ∧
      s.accepted.length = s.registry.size + s.returned.length + s.discarded.length ∧
      (∀ t c, s.Extends (s.after t c)) ∧
      ∀ t, ∃ gone, (s.after t .sweep).discarded = gone ++ s.discarded ∧
        (Registry.sweep t s.registry).1 = .ok gone.length := by
  have hs := h.sound
  refine ⟨?_, hs.places, hs.held, hs.returned, hs.expired, hs.handedBack, ?_, s.after_extends, hs.sweep_count⟩
  · have hnumbers := (hs.places.map Attempt.number).symm.append_right (s.refused.map fun x => x.1.number)
    refine .trans (.of_eq ?_) (hnumbers.trans hs.tried)
    simp
  · have hplaces := hs.places.length_eq
    rw [size, ← hs.held, ← hs.returned]
    simp only [List.length_append, List.length_map] at hplaces ⊢
    omega

/-- A run of a registry of two places with one attempt in each of the four places: the third one found the registry
full, and the fourth one replaced the first one, which had expired. -/
def sampleCustody : Custody CorrelationKey Nat :=
  (((((opened { maxAge := ⟨10⟩, capacity := 2 } false ⟨0⟩).after ⟨0⟩ (.register (.number 7) 70)).after ⟨1⟩
    (.register (.number 8) 80)).after ⟨2⟩ (.register (.number 9) 90)).after ⟨3⟩ (.resolve (.number 8))).after ⟨11⟩
    (.register (.number 7) 71)

theorem sampleCustody_reachable : Reachable { maxAge := ⟨10⟩, capacity := 2 } false sampleCustody :=
  .call (.call (.call (.call (.call (.opened ⟨0⟩) (by decide) _) (by decide) _) (by decide) _) (by decide) _)
    (by decide) _

theorem every_registration_is_accounted_for_in_sampleCustody :
    sampleCustody.held.map Attempt.number = [3] ∧ sampleCustody.resolved.map Attempt.number = [1] ∧
      sampleCustody.discarded.map (fun x => x.1.number) = [0] ∧
      sampleCustody.refused.map (fun x => x.1.number) = [2] ∧ sampleCustody.returned = [(.number 8, 80)] ∧
      sampleCustody.accepted.length = sampleCustody.registry.size + 1 + 1 := by
  obtain ⟨-, -, -, -, -, -, hcount, -⟩ := every_registration_is_accounted_for sampleCustody_reachable
  exact ⟨by decide, by decide, by decide, by decide, by decide, hcount⟩

/-- A strict registry does not hand back what was registered over a live key. -/
theorem strict_registry_hands_nothing_back :
    let held := (opened { maxAge := ⟨10⟩, capacity := 2 } true ⟨0⟩).after ⟨0⟩ (.register (CorrelationKey.number 7) 70)
    let s := held.after ⟨1⟩ (.register (CorrelationKey.number 7) 71)
    s.tried = 2 ∧ s.accepted.map Attempt.number = [0] ∧
      ∃ x panic, s.refused = [(x, .error panic)] ∧ x.number = 1 ∧ x.value = 71 :=
  ⟨rfl, rfl, _, _, rfl, rfl, rfl⟩

end Custody
end Registry
end Tracing
