import Tracing.Proofs.Registry.Calls

/-! # Lazy expiry

A registry discards expired entries only now and then. Its callers cannot tell: at every moment of every run it
answers a registration like a registry that discards each entry the moment it expires.

An account of a run holds the registry beside the entries that its own answers make it owe (`Account.held`: the
accepted ones that were not resolved since, however old) and beside the registry that is prompt. The invariant
(`Account.Sound`) says that the three agree on the live entries, and that the registry holds nothing that it does
not owe. -/

namespace Tracing

variable {κ ν : Type}

/-! ### Live entries -/

/-- The live ones among the entries. -/
def RegistryPolicy.liveAt (p : RegistryPolicy) (now : Instant) (entries : List (κ × RegistryEntry ν)) :
    List (κ × RegistryEntry ν) :=
  entries.filter fun e => p.isLive now e.2

namespace RegistryPolicy
variable {p : RegistryPolicy} {t u : Instant} {entries other : List (κ × RegistryEntry ν)}

theorem mem_liveAt {e : κ × RegistryEntry ν} :
    e ∈ p.liveAt t entries ↔ e ∈ entries ∧ p.isLive t e.2 = true := List.mem_filter

/-- What is live later is found among what is live now. -/
theorem liveAt_liveAt (h : t.nanos ≤ u.nanos) : p.liveAt u (p.liveAt t entries) = p.liveAt u entries := by
  rw [liveAt, liveAt, List.filter_filter]
  refine List.filter_congr fun e _ => ?_
  cases hu : p.isLive u e.2 with
  | false => rfl
  | true => rw [isLive_of_le h hu, Bool.and_self]

theorem liveAt_congr (h : t.nanos ≤ u.nanos) (heq : p.liveAt t entries = p.liveAt t other) :
    p.liveAt u entries = p.liveAt u other := by
  rw [← liveAt_liveAt h, heq, liveAt_liveAt h]

theorem liveAt_filter (keep : κ × RegistryEntry ν → Bool) :
    p.liveAt t (entries.filter keep) = (p.liveAt t entries).filter keep := by
  unfold liveAt
  rw [List.filter_filter, List.filter_filter]
  exact List.filter_congr fun e _ => Bool.and_comm _ _

theorem liveAt_cons_congr (e : κ × RegistryEntry ν) (h : p.liveAt t entries = p.liveAt t other) :
    p.liveAt t (e :: entries) = p.liveAt t (e :: other) := by
  unfold liveAt at h ⊢
  rw [List.filter_cons, List.filter_cons, h]

end RegistryPolicy

/-! ### A registry that is prompt -/

/-- A registry that discards each entry the moment it expires. -/
structure PromptRegistry (κ ν : Type) where
  policy : RegistryPolicy
  entries : List (κ × RegistryEntry ν) := []

namespace PromptRegistry

/-- The registry with the entries that are live by now. -/
def expired (p : PromptRegistry κ ν) (now : Instant) : PromptRegistry κ ν :=
  { p with entries := p.policy.liveAt now p.entries }

variable [DecidableEq κ]

/-- The answer to a registration, given the live entries. -/
def answer (policy : RegistryPolicy) (live : List (κ × RegistryEntry ν)) (key : κ) (value : ν) :
    Except (RegisterError κ ν) Unit :=
  if key ∈ live.map Prod.fst then .error (.keyInUse key value)
  else if policy.capacity ≤ live.length then .error (.full key value)
  else .ok ()

/-- Registers a value under a key that is free, if there is room. -/
def register (p : PromptRegistry κ ν) (now : Instant) (key : κ) (value : ν) :
    Except (RegisterError κ ν) Unit × PromptRegistry κ ν :=
  let p := p.expired now
  match answer p.policy p.entries key value with
  | .ok () => (.ok (), { p with entries := (key, ⟨value, now⟩) :: p.entries })
  | .error e => (.error e, p)

/-- Takes the value under a key. -/
def resolve (p : PromptRegistry κ ν) (now : Instant) (key : κ) : PromptRegistry κ ν :=
  { p with entries := (p.expired now).entries.filter fun e => e.1 ≠ key }

end PromptRegistry

namespace Registry

/-! ### Accounts of runs -/

/-- A call to a registry. -/
inductive Call (κ ν : Type) where
  | register (key : κ) (value : ν)
  | resolve (key : κ)
  | sweep
  | size

/-- How a registry tells an answer: over a live key a strict one panics with the wording of the refusal. -/
def told [KeyText κ] (strict : Bool) :
    Except (RegisterError κ ν) Unit → Except Panic (Except (RegisterError κ ν) Unit)
  | .error (.keyInUse key value) =>
    if strict then .error ⟨some (RegisterError.keyInUse key value).message⟩
    else .ok (.error (.keyInUse key value))
  | answer => .ok answer

/-- A run of a registry so far: the registry, the entries that it owes, the registry that is prompt, and the time
of the last call. -/
structure Account (κ ν : Type) where
  registry : Registry κ ν
  held : List (κ × RegistryEntry ν) := []
  prompt : PromptRegistry κ ν
  now : Instant

/-- Erasing a key keeps two sets of entries agreed on the live ones. -/
theorem liveAt_erase [DecidableEq κ] {policy : RegistryPolicy} {t : Instant} {r : Registry κ ν}
    {held : List (κ × RegistryEntry ν)} {key : κ} (h : policy.liveAt t r.entries = policy.liveAt t held) :
    policy.liveAt t (r.erase key).entries = policy.liveAt t (held.filter fun e => e.1 ≠ key) := by
  rw [erase, RegistryPolicy.liveAt_filter, RegistryPolicy.liveAt_filter, h]

namespace Account

/-- The account of a registry that was just made. -/
def opened (policy : RegistryPolicy) (strict : Bool) (now : Instant) : Account κ ν where
  registry := Registry.empty policy now strict
  prompt := { policy }
  now := now

/-- The registry, what it owes and the prompt registry agree on the live entries. -/
structure Sound (policy : RegistryPolicy) (strict : Bool) (s : Account κ ν) : Prop where
  policy_eq : s.registry.policy = policy
  strict_eq : s.registry.strict = strict
  prompt_policy : s.prompt.policy = policy
  nodup : (s.held.map Prod.fst).Nodup
  owed : s.registry.entries.Sublist s.held
  live : policy.liveAt s.now s.registry.entries = policy.liveAt s.now s.held
  prompt_live : policy.liveAt s.now s.prompt.entries = policy.liveAt s.now s.held

namespace Sound
variable {policy : RegistryPolicy} {strict : Bool} {s : Account κ ν} {t : Instant}

theorem opened (policy : RegistryPolicy) (strict : Bool) (now : Instant) :
    Sound policy strict (Account.opened policy strict now : Account κ ν) where
  policy_eq := rfl
  strict_eq := rfl
  prompt_policy := rfl
  nodup := List.nodup_nil
  owed := List.Sublist.refl _
  live := rfl
  prompt_live := rfl

theorem seen_sublist (h : Sound policy strict s) : (s.registry.tidied t).entries.Sublist s.held :=
  tidied_sublist.trans h.owed

/-- The sweep before a registration takes no live entry. -/
theorem live_seen (h : Sound policy strict s) (later : s.now.nanos ≤ t.nanos) :
    policy.liveAt t (s.registry.tidied t).entries = policy.liveAt t s.held := by
  rw [← RegistryPolicy.liveAt_congr later h.live, tidied_entries, h.policy_eq]
  split
  · exact RegistryPolicy.liveAt_liveAt (Int.le_refl _)
  · rfl

theorem live_nodup (h : Sound policy strict s) : ((policy.liveAt t s.held).map Prod.fst).Nodup :=
  h.nodup.sublist (List.filter_sublist.map _)

theorem prompt_expired (h : Sound policy strict s) (later : s.now.nanos ≤ t.nanos) :
    s.prompt.expired t = ⟨policy, policy.liveAt t s.held⟩ := by
  rw [PromptRegistry.expired, h.prompt_policy, RegistryPolicy.liveAt_congr later h.prompt_live]

end Sound

/-! ### Runs -/

variable [DecidableEq κ] [KeyText κ]

/-- The account after one more call. The registry owes an entry once it has answered that it registered it, and
until the key is resolved. -/
def after (s : Account κ ν) (now : Instant) : Call κ ν → Account κ ν
  | .register key value =>
    let (answer, registry, _) := Registry.register now key value s.registry
    let held := match answer with
      | .ok (.ok ()) => (key, ⟨value, now⟩) :: s.held.filter fun e => e.1 ≠ key
      | _ => s.held
    { registry, held, prompt := (s.prompt.register now key value).2, now }
  | .resolve key =>
    { registry := (s.registry.resolve key).2, held := s.held.filter fun e => e.1 ≠ key,
      prompt := s.prompt.resolve now key, now }
  | .sweep => { s with registry := (Registry.sweep now s.registry).2.1, prompt := s.prompt.expired now, now }
  | .size => { s with prompt := s.prompt.expired now, now }

/-- The accounts of the runs in which time does not go back. -/
inductive Reachable (policy : RegistryPolicy) (strict : Bool) : Account κ ν → Prop where
  | opened (now : Instant) : Reachable policy strict (opened policy strict now)
  | call {s : Account κ ν} (h : Reachable policy strict s) {now : Instant} (later : s.now.nanos ≤ now.nanos)
      (c : Call κ ν) : Reachable policy strict (s.after now c)

namespace Sound
variable {policy : RegistryPolicy} {strict : Bool} {s : Account κ ν} {t : Instant}

/-- The registry answers as the live entries demand, and what it leaves differs from what the registration saw by
the entry that it accepted. -/
theorem register_cases (h : Sound policy strict s) (later : s.now.nanos ≤ t.nanos) (key : κ) (value : ν) :
    let live := policy.liveAt t s.held
    let seen := s.registry.tidied t
    let out := Registry.register t key value s.registry
    out.1 = told strict (PromptRegistry.answer policy live key value) ∧
      ((PromptRegistry.answer policy live key value = .ok () ∧ key ∉ live.map Prod.fst ∧
          out.2.1 = seen.insert t key value) ∨
        ((∃ e, PromptRegistry.answer policy live key value = .error e) ∧ out.2.1 = seen)) := by
  intro live seen out
  have hlive : policy.liveAt t seen.entries = live := h.live_seen later
  have hnodup : (seen.entries.map Prod.fst).Nodup := h.nodup.sublist (h.seen_sublist.map _)
  have hcases := Registry.register_cases t key value s.registry
  rw [h.policy_eq, h.strict_eq] at hcases
  rcases hcases with ⟨e, he, hl, hleft, hout⟩ | ⟨hkey, hfull, hleft, hout⟩ | ⟨hexpired, hroom, hleft, hout⟩
  · have hmem : (key, e) ∈ live := hlive ▸ RegistryPolicy.mem_liveAt.mpr ⟨he, hl⟩
    have hanswer : PromptRegistry.answer policy live key value = .error (.keyInUse key value) :=
      if_pos (List.mem_map_of_mem hmem)
    rw [hanswer]
    exact ⟨hout, .inr ⟨⟨_, rfl⟩, hleft⟩⟩
  · have hall : live = seen.entries := by
      rw [← hlive]
      refine List.filter_eq_self.mpr fun e he => ?_
      rw [← h.policy_eq] at hfull ⊢
      exact isLive_of_full hfull e he
    have hanswer : PromptRegistry.answer policy live key value = .error (.full key value) := by
      rw [hall]
      exact (if_neg hkey).trans (if_pos hfull)
    rw [hanswer]
    exact ⟨hout, .inr ⟨⟨_, rfl⟩, hleft⟩⟩
  · have hkey : key ∉ live.map Prod.fst := by
      intro hm
      rw [← hlive] at hm
      obtain ⟨⟨k, e⟩, hmem, hk⟩ := List.mem_map.mp hm
      obtain ⟨he, hl⟩ := RegistryPolicy.mem_liveAt.mp hmem
      have hfound : seen.find? key = some e := find?_of_mem hnodup (show (key, e) ∈ _ from hk ▸ he)
      rw [hexpired e hfound] at hl
      cases hl
    have hfew : live.length < policy.capacity := by
      rw [← hlive]
      exact Nat.lt_of_le_of_lt (List.length_filter_le _ _) hroom
    have hanswer : PromptRegistry.answer policy live key value = .ok () :=
      (if_neg hkey).trans (if_neg (Nat.not_le.mpr hfew))
    rw [hanswer]
    exact ⟨hout, .inl ⟨rfl, hkey, hleft⟩⟩

omit [KeyText κ] in
theorem find?_of_live (h : Sound policy strict s) (later : s.now.nanos ≤ t.nanos) {key : κ} {e : RegistryEntry ν}
    (hm : (key, e) ∈ policy.liveAt t s.held) : s.registry.find? key = some e := by
  rw [← RegistryPolicy.liveAt_congr later h.live] at hm
  exact find?_of_mem (h.nodup.sublist (h.owed.map _)) (RegistryPolicy.mem_liveAt.mp hm).1

omit [KeyText κ] in
theorem find?_seen_of_live (h : Sound policy strict s) (later : s.now.nanos ≤ t.nanos) {key : κ}
    {e : RegistryEntry ν} (hm : (key, e) ∈ policy.liveAt t s.held) :
    (s.registry.tidied t).find? key = some e := by
  rw [← h.live_seen later] at hm
  exact find?_of_mem (h.nodup.sublist (h.seen_sublist.map _)) (RegistryPolicy.mem_liveAt.mp hm).1

theorem register (h : Sound policy strict s) (later : s.now.nanos ≤ t.nanos) (key : κ) (value : ν) :
    Sound policy strict (s.after t (.register key value)) := by
  obtain ⟨hout, ⟨hanswer, hkey, hleft⟩ | ⟨⟨e, hanswer⟩, hleft⟩⟩ := h.register_cases later key value
  · have hafter : s.after t (.register key value) =
        { registry := (s.registry.tidied t).insert t key value
          held := (key, ⟨value, t⟩) :: s.held.filter fun e => e.1 ≠ key
          prompt := ⟨policy, (key, ⟨value, t⟩) :: policy.liveAt t s.held⟩
          now := t } := by
      rw [hanswer] at hout
      simp only [after, PromptRegistry.register, h.prompt_expired later, hout, hleft, told, hanswer]
    rw [hafter]
    have hfree : (policy.liveAt t s.held).filter (fun e => e.1 ≠ key) = policy.liveAt t s.held :=
      List.filter_eq_self.mpr fun e he => decide_eq_true fun hk => hkey (hk ▸ List.mem_map_of_mem he)
    exact {
      policy_eq := tidied_policy.trans h.policy_eq
      strict_eq := tidied_strict.trans h.strict_eq
      prompt_policy := rfl
      nodup := List.nodup_cons.mpr ⟨by simp, h.nodup.sublist (List.filter_sublist.map _)⟩
      owed := (h.seen_sublist.filter _).cons_cons _
      live := RegistryPolicy.liveAt_cons_congr _ (liveAt_erase (h.live_seen later))
      prompt_live := RegistryPolicy.liveAt_cons_congr _ (by
        rw [RegistryPolicy.liveAt_filter, hfree, RegistryPolicy.liveAt_liveAt (Int.le_refl _)]) }
  · have hafter : s.after t (.register key value) =
        { registry := s.registry.tidied t, held := s.held, prompt := ⟨policy, policy.liveAt t s.held⟩, now := t } := by
      rw [hanswer] at hout
      simp only [after, PromptRegistry.register, h.prompt_expired later, hout, hleft, hanswer]
      congr 1
      cases e <;> cases strict <;> rfl
    rw [hafter]
    exact {
      policy_eq := tidied_policy.trans h.policy_eq
      strict_eq := tidied_strict.trans h.strict_eq
      prompt_policy := rfl
      nodup := h.nodup
      owed := h.seen_sublist
      live := h.live_seen later
      prompt_live := RegistryPolicy.liveAt_liveAt (Int.le_refl _) }

theorem resolve (h : Sound policy strict s) (later : s.now.nanos ≤ t.nanos) (key : κ) :
    Sound policy strict (s.after t (.resolve key)) where
  policy_eq := h.policy_eq
  strict_eq := h.strict_eq
  prompt_policy := h.prompt_policy
  nodup := h.nodup.sublist (List.filter_sublist.map _)
  owed := h.owed.filter _
  live := liveAt_erase (RegistryPolicy.liveAt_congr later h.live)
  prompt_live := by
    show policy.liveAt t ((s.prompt.expired t).entries.filter _) = policy.liveAt t (s.held.filter _)
    rw [h.prompt_expired later, RegistryPolicy.liveAt_filter, RegistryPolicy.liveAt_filter,
      RegistryPolicy.liveAt_liveAt (Int.le_refl _)]

theorem sweep (h : Sound policy strict s) (later : s.now.nanos ≤ t.nanos) :
    Sound policy strict (s.after t .sweep) := by
  obtain ⟨events, hswept⟩ := sweep_run t s.registry
  have hafter : s.after t .sweep =
      { s with registry := s.registry.swept t, prompt := ⟨policy, policy.liveAt t s.held⟩, now := t } := by
    simp only [after, hswept, h.prompt_expired later]
  rw [hafter]
  have hentries : (s.registry.swept t).entries = policy.liveAt t s.registry.entries := by
    rw [← h.policy_eq]
    rfl
  exact {
    policy_eq := h.policy_eq
    strict_eq := h.strict_eq
    prompt_policy := rfl
    nodup := h.nodup
    owed := hentries ▸ List.filter_sublist.trans h.owed
    live := by
      rw [hentries, RegistryPolicy.liveAt_liveAt (Int.le_refl _), RegistryPolicy.liveAt_congr later h.live]
    prompt_live := RegistryPolicy.liveAt_liveAt (Int.le_refl _) }

theorem size (h : Sound policy strict s) (later : s.now.nanos ≤ t.nanos) :
    Sound policy strict (s.after t .size) where
  policy_eq := h.policy_eq
  strict_eq := h.strict_eq
  prompt_policy := h.prompt_policy
  nodup := h.nodup
  owed := h.owed
  live := RegistryPolicy.liveAt_congr later h.live
  prompt_live := by
    show policy.liveAt t (s.prompt.expired t).entries = policy.liveAt t s.held
    rw [h.prompt_expired later, RegistryPolicy.liveAt_liveAt (Int.le_refl _)]

end Sound

theorem Reachable.sound {policy : RegistryPolicy} {strict : Bool} {s : Account κ ν}
    (h : Reachable policy strict s) : Sound policy strict s := by
  induction h with
  | opened now => exact Sound.opened policy strict now
  | call _ later c ih =>
    cases c with
    | register key value => exact ih.register later key value
    | resolve key => exact ih.resolve later key
    | sweep => exact ih.sweep later
    | size => exact ih.size later

/-- At every moment of a run the registry answers a registration like the registry that is prompt, and as the
entries owed demand that are live: over a live key it refuses, and otherwise it is full just when as many keys are
live as it can hold. A strict registry panics where it refuses a live key. A registration that is not accepted
leaves every live entry. Resolving a live key gives the value registered last, resolving a key that is not owed
gives nothing, and resolving one that expired gives that value or nothing. -/
theorem answers_like_prompt_registry {policy : RegistryPolicy} {strict : Bool} {s : Account κ ν}
    (h : Reachable policy strict s) {t : Instant} (later : s.now.nanos ≤ t.nanos) (key : κ) (value : ν) :
    let live := policy.liveAt t s.held
    let answer : Except (RegisterError κ ν) Unit :=
      if key ∈ live.map Prod.fst then .error (.keyInUse key value)
      else if policy.capacity ≤ live.length then .error (.full key value)
      else .ok ()
    let out := Registry.register t key value s.registry
    (live.map Prod.fst).Nodup ∧
      out.1 = told strict answer ∧
      (s.prompt.register t key value).1 = answer ∧
      (answer ≠ .ok () → ∀ k e, (k, e) ∈ live → s.registry.find? k = some e ∧ out.2.1.find? k = some e) ∧
      (∀ e, (key, e) ∈ live → (s.registry.resolve key).1 = some e.value) ∧
      (key ∉ s.held.map Prod.fst → (s.registry.resolve key).1 = none) ∧
      (∀ e, (key, e) ∈ s.held →
        (s.registry.resolve key).1 = some e.value ∨ (s.registry.resolve key).1 = none) := by
  intro live answer out
  have hs := h.sound
  obtain ⟨hout, hleft⟩ := hs.register_cases later key value
  have hfind : ∀ {k e}, (k, e) ∈ live → s.registry.find? k = some e := fun hm => hs.find?_of_live later hm
  refine ⟨hs.live_nodup, hout, ?_, fun hne k e hm => ⟨hfind hm, ?_⟩, fun e hm => ?_, fun hkey => ?_, fun e hm => ?_⟩
  · show (s.prompt.register t key value).1 = PromptRegistry.answer policy live key value
    rw [PromptRegistry.register, hs.prompt_expired later]
    cases PromptRegistry.answer policy live key value <;> rfl
  · obtain ⟨hok, -⟩ | ⟨-, hseen⟩ := hleft
    · exact absurd hok hne
    · rw [show out.2.1 = s.registry.tidied t from hseen]
      exact hs.find?_seen_of_live later hm
  · rw [Registry.resolve, hfind hm]
    rfl
  · have hnone : s.registry.find? key = none :=
      find?_eq_none_iff.mpr fun hk => hkey ((hs.owed.map Prod.fst).subset hk)
    rw [Registry.resolve, hnone]
    rfl
  · rw [Registry.resolve]
    cases hf : s.registry.find? key with
    | none => exact .inr rfl
    | some e' =>
      have hpair := List.inj_on_of_nodup_map hs.nodup (hs.owed.subset (mem_of_find? hf)) hm rfl
      rw [← (Prod.mk.inj hpair).2]
      exact .inl rfl

/-- A registry of one place, after a registration at its first moment. -/
def sample (strict : Bool) : Account CorrelationKey Nat :=
  (opened { maxAge := ⟨10⟩, capacity := 1 } strict ⟨0⟩).after ⟨0⟩ (.register (.number 7) 70)

theorem sample_reachable (strict : Bool) :
    Reachable { maxAge := ⟨10⟩, capacity := 1 } strict (sample strict) :=
  .call (.opened ⟨0⟩) (Int.le_refl _) _

theorem answers_like_prompt_registry_over_live_key :
    (sample false).now.nanos ≤ 9 ∧
      (Registry.register ⟨9⟩ (.number 7) 71 (sample false).registry).1 = .ok (.error (.keyInUse (.number 7) 71)) :=
  have later : (sample false).now.nanos ≤ (⟨9⟩ : Instant).nanos := by decide
  ⟨later, (answers_like_prompt_registry (sample_reachable false) later (.number 7) 71).2.1⟩

/-- A strict registry does not hand a live key back: it panics. -/
theorem strict_registry_panics_over_live_key :
    (CorrelationKey.number 7, ⟨70, ⟨0⟩⟩) ∈ (sample true).registry.policy.liveAt ⟨9⟩ (sample true).held ∧
      (Registry.register ⟨9⟩ (.number 7) 71 (sample true).registry).1 =
        .error ⟨some (RegisterError.keyInUse (CorrelationKey.number 7) 71).message⟩ ∧
      (Registry.register ⟨9⟩ (.number 7) 71 (sample true).registry).1 ≠
        .ok (.error (.keyInUse (.number 7) 71)) := by
  have hpanic : (Registry.register ⟨9⟩ (.number 7) 71 (sample true).registry).1 =
      .error ⟨some (RegisterError.keyInUse (CorrelationKey.number 7) 71).message⟩ := rfl
  refine ⟨by decide, hpanic, fun h => ?_⟩
  rw [hpanic] at h
  cases h

end Account
end Registry
end Tracing
