import Mathlib.Data.List.Nodup
import Tracing.Registry

/-! # The calls of a registry

What one registration and one resolution answer, and what they leave. A registration sweeps first if that is due
(`Registry.tidied`) and then goes by the entry under its key: a live one refuses it, an expired one is replaced,
and without one the number of entries decides. A registry that is full after the sweep holds live entries only, so
an expired entry is met only where there is room. -/

namespace Tracing

/-- The entry has not reached the greatest age of the policy. -/
def RegistryPolicy.isLive {ν : Type} (p : RegistryPolicy) (now : Instant) (e : RegistryEntry ν) : Bool :=
  (e.registeredAt.elapsed now).nanos < p.maxAge.nanos

/-- An entry that is live was live before. -/
theorem RegistryPolicy.isLive_of_le {ν : Type} {p : RegistryPolicy} {t u : Instant} (h : t.nanos ≤ u.nanos)
    {e : RegistryEntry ν} (hl : p.isLive u e = true) : p.isLive t e = true := by
  have hu : (u.nanos - e.registeredAt.nanos).toNat < p.maxAge.nanos := of_decide_eq_true hl
  have ht : (t.nanos - e.registeredAt.nanos).toNat < p.maxAge.nanos := by omega
  exact decide_eq_true ht

namespace Registry

variable {κ ν : Type} {r : Registry κ ν} {now : Instant} {key : κ} {value : ν}

/-! ### Sweeping -/

/-- The registry as a registration sees it: swept, if that is due. -/
def tidied (r : Registry κ ν) (now : Instant) : Registry κ ν := if r.sweepIsDue now then r.swept now else r

theorem tidied_policy : (r.tidied now).policy = r.policy := by
  unfold tidied
  split <;> rfl

theorem tidied_strict : (r.tidied now).strict = r.strict := by
  unfold tidied
  split <;> rfl

theorem tidied_entries : (r.tidied now).entries =
    if r.sweepIsDue now then r.entries.filter fun e => r.policy.isLive now e.2 else r.entries := by
  unfold tidied
  split <;> rfl

theorem tidied_sublist : (r.tidied now).entries.Sublist r.entries := by
  rw [tidied_entries]
  split
  · exact List.filter_sublist
  · exact List.Sublist.refl _

/-- What is left in a registry that stays full after the sweep has not expired. -/
theorem isLive_of_full (hfull : r.policy.capacity ≤ (r.tidied now).size) :
    ∀ e ∈ (r.tidied now).entries, r.policy.isLive now e.2 = true := by
  intro e he
  by_cases hdue : r.sweepIsDue now = true
  · rw [tidied_entries, if_pos hdue] at he
    exact (List.mem_filter.mp he).2
  · -- Without a sweep the registry was not full.
    have hsame : r.tidied now = r := if_neg hdue
    rw [hsame] at hfull
    simp [sweepIsDue, hfull] at hdue

theorem alone_release : (Home.alone : Home (Registry κ ν) κ ν).release = pure () := rfl

theorem sweep_run (now : Instant) (r : Registry κ ν) : ∃ events,
    sweep now r = (.ok (r.size - (r.swept now).size), r.swept now, events) := by
  by_cases hcount : r.size - (r.swept now).size > 0
  · exact ⟨_, by simp [sweep, Home.sweep, Home.alone, Home.act, Act.onPart, Act.bind_run, discardExpired, Act.update,
      reportSweep, hcount, Act.get, Act.emit]; rfl⟩
  · exact ⟨_, by simp [sweep, Home.sweep, Home.alone, Home.act, Act.onPart, Act.bind_run, discardExpired, Act.update,
      reportSweep, hcount]; rfl⟩

/-- What a registration reports of the sweep before it. -/
def tidyEvents (r : Registry κ ν) (now : Instant) : List Event := if r.sweepIsDue now then (sweep now r).2.2 else []

/-! ### Registering -/

variable [DecidableEq κ]

theorem mem_of_find? {e : RegistryEntry ν} (h : r.find? key = some e) : (key, e) ∈ r.entries := by
  obtain ⟨⟨k, e'⟩, hfind, rfl⟩ := Option.map_eq_some_iff.mp h
  have hk : k = key := by simpa using List.find?_some hfind
  exact hk ▸ List.mem_of_find?_eq_some hfind

theorem find?_eq_none_iff : r.find? key = none ↔ key ∉ r.entries.map Prod.fst := by
  simp only [find?, Option.map_eq_none_iff, List.find?_eq_none, decide_eq_true_eq, List.mem_map, not_exists, not_and]

theorem find?_of_mem (hnodup : (r.entries.map Prod.fst).Nodup) {e : RegistryEntry ν} (h : (key, e) ∈ r.entries) :
    r.find? key = some e := by
  cases hf : r.find? key with
  | none => exact absurd (List.mem_map_of_mem h) (find?_eq_none_iff.mp hf)
  | some e' =>
    have hpair := List.inj_on_of_nodup_map hnodup (mem_of_find? hf) h rfl
    rw [(Prod.mk.inj hpair).2]

variable [KeyText κ]

omit [DecidableEq κ] in
/-- A strict registry panics with the wording of the refusal. -/
theorem keyInUse_message : (UsageError.keyInUse (KeyText.keyText key)).message =
    (RegisterError.keyInUse key value).message := rfl

theorem accept_live (value : ν) {e : RegistryEntry ν} (hf : r.find? key = some e)
    (hl : r.policy.isLive now e = true) :
    accept now key value r =
      (if r.strict then .error ⟨some (RegisterError.keyInUse key value).message⟩
        else .ok (.error (.keyInUse key value)), r, [.misuse (.keyInUse (KeyText.keyText key))]) := by
  have hl : r.isLive now e = true := hl
  rw [← keyInUse_message]
  cases hs : r.strict <;> simp [accept, Act.bind_run, Act.get, hf, hl, Act.misuse, Act.emit, Act.panic, hs]

theorem accept_expired (value : ν) {e : RegistryEntry ν} (hf : r.find? key = some e)
    (hl : r.policy.isLive now e = false) :
    ∃ events, accept now key value r = (.ok (.ok ()), r.insert now key value, events) := by
  have hl : r.isLive now e = false := hl
  exact ⟨_, by simp [accept, Act.bind_run, Act.get, hf, hl, Act.emit, Act.modify]; rfl⟩

theorem accept_full (now : Instant) (value : ν) (hf : r.find? key = none) (hfull : r.policy.capacity ≤ r.size) :
    ∃ events, accept now key value r = (.ok (.error (.full key value)), r, events) :=
  ⟨_, by simp [accept, Act.bind_run, Act.get, hf, hfull, Act.emit]; rfl⟩

theorem accept_free (now : Instant) (value : ν) (hf : r.find? key = none) (hroom : r.size < r.policy.capacity) :
    ∃ events, accept now key value r = (.ok (.ok ()), r.insert now key value, events) := by
  have hfull : ¬r.policy.capacity ≤ r.size := Nat.not_le.mpr hroom
  exact ⟨_, by simp [accept, Act.bind_run, Act.get, hf, hfull, Act.modify]; rfl⟩

theorem register_run (now : Instant) (key : κ) (value : ν) (r : Registry κ ν) :
    register now key value r =
      ((accept now key value (r.tidied now)).1, (accept now key value (r.tidied now)).2.1,
        r.tidyEvents now ++ (accept now key value (r.tidied now)).2.2) := by
  unfold tidied tidyEvents
  cases hdue : r.sweepIsDue now with
  | false =>
    rw [if_neg Bool.false_ne_true, if_neg Bool.false_ne_true]
    cases ha : accept now key value r with | mk answer rest => ?_
    cases answer <;>
      simp [register, Home.register, Act.bind_run, Act.get, hdue, ha, alone_release]
  | true =>
    obtain ⟨swept, hsweep⟩ := sweep_run now r
    rw [if_pos rfl, if_pos rfl, hsweep]
    rw [sweep] at hsweep
    cases ha : accept now key value (r.swept now) with | mk answer rest => ?_
    cases answer <;>
      simp [register, Home.register, Act.bind_run, Act.get, hdue, ha, hsweep, alone_release]

/-- What a registration sees of the key and of the room once the registry is tidied decides its answer, and what
it leaves. -/
theorem register_cases (now : Instant) (key : κ) (value : ν) (r : Registry κ ν) :
    let seen := r.tidied now
    let out := register now key value r
    (∃ e, (key, e) ∈ seen.entries ∧ r.policy.isLive now e = true ∧ out.2.1 = seen ∧
        out.1 = if r.strict then .error ⟨some (RegisterError.keyInUse key value).message⟩
          else .ok (.error (.keyInUse key value))) ∨
      (key ∉ seen.entries.map Prod.fst ∧ r.policy.capacity ≤ seen.size ∧ out.2.1 = seen ∧
        out.1 = .ok (.error (.full key value))) ∨
      ((∀ e, seen.find? key = some e → r.policy.isLive now e = false) ∧ seen.size < r.policy.capacity ∧
        out.2.1 = seen.insert now key value ∧ out.1 = .ok (.ok ())) := by
  intro seen out
  have hout := register_run now key value r
  have hpolicy : seen.policy = r.policy := tidied_policy
  have hstrict : seen.strict = r.strict := tidied_strict
  have hanswer : out.1 = (accept now key value seen).1 := by rw [show out = _ from hout]
  have hleft : out.2.1 = (accept now key value seen).2.1 := by rw [show out = _ from hout]
  rw [hanswer, hleft]
  cases hf : seen.find? key with
  | some e =>
    cases hl : r.policy.isLive now e with
    | true =>
      rw [accept_live value hf (hpolicy ▸ hl), hstrict]
      exact .inl ⟨e, mem_of_find? hf, hl, rfl, rfl⟩
    | false =>
      have hroom : seen.size < r.policy.capacity := by
        refine Nat.lt_of_not_le fun hfull => ?_
        rw [isLive_of_full hfull _ (mem_of_find? hf)] at hl
        cases hl
      obtain ⟨_, haccept⟩ := accept_expired value hf (hpolicy ▸ hl)
      rw [haccept]
      refine .inr (.inr ⟨fun e' he' => ?_, hroom, rfl, rfl⟩)
      rw [← Option.some.inj he', hl]
  | none =>
    by_cases hfull : r.policy.capacity ≤ seen.size
    · obtain ⟨_, haccept⟩ := accept_full now value hf (hpolicy ▸ hfull)
      rw [haccept]
      exact .inr (.inl ⟨find?_eq_none_iff.mp hf, hfull, rfl, rfl⟩)
    · have hroom : seen.size < r.policy.capacity := Nat.not_le.mp hfull
      obtain ⟨_, haccept⟩ := accept_free now value hf (hpolicy ▸ hroom)
      rw [haccept]
      refine .inr (.inr ⟨fun e he => ?_, hroom, rfl, rfl⟩)
      cases he

end Registry
end Tracing
