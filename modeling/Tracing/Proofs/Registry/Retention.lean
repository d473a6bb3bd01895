import Tracing.Proofs.Registry.Expiry

/-! # How long entries stay

Nothing sweeps a registry in the background, and yet no entry outlives a registration by much: whatever was
registered before is then younger than twice the greatest age, and there are never more entries than the registry
can hold.

The invariant (`Registry.Retains`) is about the last sweep. What was there at that time had not reached the greatest
age, and everything else came later. A registration that does not sweep comes less than the greatest age after the
last sweep, so the worst that it can meet is an entry that had just survived it. -/

namespace Tracing
namespace Registry

variable {κ ν : Type}

/-- Within its bounds at the time `now`: no more entries than it can hold, none from the future, and none that had
expired by the last sweep. -/
structure Retains (policy : RegistryPolicy) (now : Instant) (r : Registry κ ν) : Prop where
  policy_eq : r.policy = policy
  size_le : r.size ≤ policy.capacity
  swept_le : r.lastSweep.nanos ≤ now.nanos
  past : ∀ e ∈ r.entries, e.2.registeredAt.nanos ≤ now.nanos
  survived : ∀ e ∈ r.entries, r.lastSweep.nanos ≤ e.2.registeredAt.nanos ∨
    r.lastSweep.nanos - e.2.registeredAt.nanos < policy.maxAge.nanos

/-- A live entry from the past is younger than the greatest age. -/
theorem age_lt_of_isLive {policy : RegistryPolicy} {t : Instant} {e : RegistryEntry ν}
    (hl : policy.isLive t e = true) : t.nanos - e.registeredAt.nanos < policy.maxAge.nanos := by
  have h : (t.nanos - e.registeredAt.nanos).toNat < policy.maxAge.nanos := of_decide_eq_true hl
  omega

namespace Retains
variable {policy : RegistryPolicy} {now t : Instant} {r : Registry κ ν}

theorem empty (policy : RegistryPolicy) (strict : Bool) (now : Instant) :
    (Registry.empty policy now strict : Registry κ ν).Retains policy now where
  policy_eq := rfl
  size_le := Nat.zero_le _
  swept_le := Int.le_refl _
  past := nofun
  survived := nofun

theorem later (h : r.Retains policy now) (le : now.nanos ≤ t.nanos) : r.Retains policy t where
  policy_eq := h.policy_eq
  size_le := h.size_le
  swept_le := Int.le_trans h.swept_le le
  past e he := Int.le_trans (h.past e he) le
  survived := h.survived

/-- Entries can be taken out. -/
theorem sublist (h : r.Retains policy now) {entries : List (κ × RegistryEntry ν)} (hs : entries.Sublist r.entries) :
    ({ r with entries } : Registry κ ν).Retains policy now where
  policy_eq := h.policy_eq
  size_le := Nat.le_trans hs.length_le h.size_le
  swept_le := h.swept_le
  past e he := h.past e (hs.subset he)
  survived e he := h.survived e (hs.subset he)

/-- A sweep leaves what has not expired by now. -/
theorem swept (h : r.Retains policy now) (le : now.nanos ≤ t.nanos) : (r.swept t).Retains policy t where
  policy_eq := h.policy_eq
  size_le := Nat.le_trans (List.length_filter_le _ _) h.size_le
  swept_le := Int.le_refl _
  past e he := (h.later le).past e (List.mem_of_mem_filter he)
  survived _ he := .inr (age_lt_of_isLive (h.policy_eq ▸ (List.mem_filter.mp he).2))

theorem tidied (h : r.Retains policy now) (le : now.nanos ≤ t.nanos) : (r.tidied t).Retains policy t := by
  unfold Registry.tidied
  split
  · exact h.swept le
  · exact h.later le

/-- A registration sees only entries younger than twice the greatest age. -/
theorem age_lt_of_mem_tidied (h : r.Retains policy now) {e : κ × RegistryEntry ν} (he : e ∈ (r.tidied t).entries) :
    t.nanos - e.2.registeredAt.nanos < 2 * policy.maxAge.nanos := by
  rw [tidied_entries, h.policy_eq] at he
  by_cases hdue : r.sweepIsDue t = true
  · rw [if_pos hdue] at he
    have hage := age_lt_of_isLive (List.mem_filter.mp he).2
    omega
  · rw [if_neg hdue] at he
    -- Less than the greatest age has passed since the last sweep.
    have hrecent : t.nanos - r.lastSweep.nanos < policy.maxAge.nanos := by
      simp only [sweepIsDue, Instant.elapsed, h.policy_eq, Bool.or_eq_true, decide_eq_true_eq, not_or] at hdue
      omega
    rcases h.survived e he with hlate | hsurvived <;> omega

variable [DecidableEq κ]

theorem insert (h : r.Retains policy now) (hroom : r.size < policy.capacity) (key : κ) (value : ν) :
    (r.insert now key value).Retains policy now where
  policy_eq := h.policy_eq
  size_le := Nat.le_trans (Nat.succ_le_succ (List.length_filter_le _ _)) hroom
  swept_le := h.swept_le
  past e he := by
    rcases List.mem_cons.mp he with rfl | he
    · exact Int.le_refl _
    · exact h.past e (List.mem_of_mem_filter he)
  survived e he := by
    rcases List.mem_cons.mp he with rfl | he
    · exact .inl h.swept_le
    · exact h.survived e (List.mem_of_mem_filter he)

variable [KeyText κ]

/-- What a registration leaves is what it saw, with the new entry if that was accepted. -/
theorem register_entries (h : r.Retains policy now) (t : Instant) (key : κ) (value : ν) :
    let out := Registry.register t key value r
    out.2.1 = r.tidied t ∨
      (r.tidied t).size < policy.capacity ∧ out.2.1 = (r.tidied t).insert t key value ∧ out.1 = .ok (.ok ()) := by
  obtain ⟨_, _, _, hleft, _⟩ | ⟨_, _, hleft, _⟩ | ⟨_, hroom, hleft, hanswer⟩ := register_cases t key value r
  · exact .inl hleft
  · exact .inl hleft
  · exact .inr ⟨h.policy_eq ▸ hroom, hleft, hanswer⟩

theorem register (h : r.Retains policy now) (le : now.nanos ≤ t.nanos) (key : κ) (value : ν) :
    (Registry.register t key value r).2.1.Retains policy t := by
  rcases h.register_entries t key value with hleft | ⟨hroom, hleft, -⟩
  · rw [hleft]
    exact h.tidied le
  · rw [hleft]
    exact (h.tidied le).insert hroom key value

end Retains

namespace Account

variable [DecidableEq κ] [KeyText κ] {policy : RegistryPolicy} {strict : Bool} {s : Account κ ν}

theorem Reachable.retains (h : Reachable policy strict s) : s.registry.Retains policy s.now := by
  induction h with
  | opened now => exact Retains.empty policy strict now
  | @call s _ now le c ih =>
    cases c with
    | register key value => exact ih.register le key value
    | resolve key => exact (ih.later le).sublist List.filter_sublist
    | sweep =>
      obtain ⟨_, hswept⟩ := sweep_run now s.registry
      show (Registry.sweep now s.registry).2.1.Retains policy now
      rw [hswept]
      exact ih.swept le
    | size => exact ih.later le

/-- A registry never holds more entries than it can. After a registration, accepted or not, each entry but the one
that was just accepted is younger than twice the greatest age. -/
theorem orphans_leave_by_twice_max_age (h : Reachable policy strict s) {t : Instant} (later : s.now.nanos ≤ t.nanos)
    (key : κ) (value : ν) :
    let out := Registry.register t key value s.registry
    s.registry.size ≤ policy.capacity ∧ out.2.1.size ≤ policy.capacity ∧
      ∀ k e, (k, e) ∈ out.2.1.entries →
        (out.1 = .ok (.ok ()) ∧ k = key ∧ e = ⟨value, t⟩) ∨
          (e.registeredAt.nanos ≤ t.nanos ∧ t.nanos - e.registeredAt.nanos < 2 * policy.maxAge.nanos) := by
  intro out
  have hs : s.registry.Retains policy s.now := h.retains
  have hout : out.2.1.Retains policy t := hs.register later key value
  refine ⟨hs.size_le, hout.size_le, fun k e he => ?_⟩
  have hpast : e.registeredAt.nanos ≤ t.nanos := hout.past _ he
  have hyoung : (k, e) ∈ (s.registry.tidied t).entries →
      t.nanos - e.registeredAt.nanos < 2 * policy.maxAge.nanos := fun hold => hs.age_lt_of_mem_tidied hold
  rcases hs.register_entries t key value with hleft | ⟨-, hleft, hanswer⟩
  · have hold : (k, e) ∈ (s.registry.tidied t).entries := hleft ▸ he
    exact .inr ⟨hpast, hyoung hold⟩
  · rcases List.mem_cons.mp (hleft ▸ he) with hnew | hold
    · obtain ⟨hkey, hentry⟩ := Prod.mk.inj hnew
      exact .inl ⟨hanswer, hkey, hentry⟩
    · exact .inr ⟨hpast, hyoung (List.mem_of_mem_filter hold)⟩

/-- A registry of three places with an entry that is 9 ns old at the only sweep, of a greatest age of 10 ns. -/
def sampleAging : Account CorrelationKey Nat :=
  ((opened { maxAge := ⟨10⟩, capacity := 3 } false ⟨0⟩).after ⟨1⟩ (.register (.number 7) 70)).after ⟨10⟩
    (.register (.number 8) 80)

theorem sampleAging_reachable : Reachable { maxAge := ⟨10⟩, capacity := 3 } false sampleAging :=
  .call (.call (.opened ⟨0⟩) (by decide) _) (by decide) _

theorem orphans_leave_by_twice_max_age_in_sampleAging :
    let out := Registry.register ⟨19⟩ (.number 9) 90 sampleAging.registry
    sampleAging.now.nanos ≤ 19 ∧ (CorrelationKey.number 7, ⟨70, ⟨1⟩⟩) ∈ out.2.1.entries ∧ out.2.1.size ≤ 3 ∧
      (19 : Int) - 1 < 2 * 10 := by
  have later : sampleAging.now.nanos ≤ (⟨19⟩ : Instant).nanos := by decide
  obtain ⟨-, hsize, hage⟩ := orphans_leave_by_twice_max_age sampleAging_reachable later (.number 9) 90
  have hm : (CorrelationKey.number 7, ⟨70, ⟨1⟩⟩) ∈
      (Registry.register ⟨19⟩ (.number 9) 90 sampleAging.registry).2.1.entries := by decide
  rcases hage _ _ hm with ⟨-, hkey, -⟩ | ⟨-, hyoung⟩
  · cases hkey
  · exact ⟨later, hm, hsize, hyoung⟩

end Account
end Registry
end Tracing
