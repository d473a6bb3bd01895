import Mathlib.Data.List.Induction
import Mathlib.Data.List.InsertIdx
import Tracing.Proofs.Context.Guards

/-! # The room on a stack of contexts

A guard that is dropped while a later one is live leaves its slot cleared and not free: the slot is reclaimed once
the guards above it are gone. So a stack can be full although few guards are live. What takes up room is told by the
history alone (`Thread.TakesRoom`): a guard does so as long as, at every moment since it was given, it or one
accepted after it has been live.

To tell guards apart, the contexts of a history are replaced by the numbers of the steps that attach them. The
invariant (`Thread.Booked`) lists the numbers that take up room in ascending order, one for each slot of the stack;
the guard at a position is the one listed there. -/

namespace Tracing
namespace ContextStack

variable {α β : Type}

/-- The most contexts that a stack holds. -/
def capacity : Nat := overflow - 1

theorem hasRoom_iff (s : ContextStack α) : s.hasRoom = true ↔ s.slots.size < capacity := by
  unfold hasRoom capacity overflow
  rw [decide_eq_true_iff]
  omega

/-- The guard of a context depends on the height of the stack only. -/
theorem attach_guard_congr {s : ContextStack α} {u : ContextStack β} (h : s.slots.size = u.slots.size) (cx : α)
    (cx' : β) : (s.attach cx).1 = (u.attach cx').1 := by
  unfold attach hasRoom
  rw [h]
  split <;> rfl

end ContextStack

namespace Thread
open ContextStack

variable {α β : Type}

/-! ### The guards of a history -/

theorem held_after_drop (t : Thread α) (place : Nat) : (t.after (.drop place)).held = t.held.eraseIdx place := by
  cases hg : t.held[place]? with
  | some e => simp only [after, hg]
  | none =>
    simp only [after, hg]
    exact (List.eraseIdx_of_length_le (List.getElem?_eq_none_iff.mp hg)).symm

theorem run_concat (base : α) (steps : List (Step α)) (step : Step α) :
    run base (steps ++ [step]) = (run base steps).after step := by
  simp [run, List.foldl_append]

/-- The height of the stack is the position of the latest live guard. -/
theorem Sound.size_eq {base : α} {t : Thread α} (h : Sound base t) :
    t.stack.slots.size = ((t.live.map Prod.fst).getLast?).getD bottom := by
  have htop := h.tracks.top
  rw [List.getLast?_cons] at htop
  rw [List.getLast?_map]
  cases hlast : t.live.getLast? with
  | none =>
    rw [hlast] at htop
    exact (congrArg Prod.fst (Option.some.inj htop)).symm
  | some e =>
    rw [hlast] at htop
    exact (congrArg Prod.fst (Option.some.inj htop)).symm

theorem positions_live (t : Thread α) :
    t.live.map Prod.fst = ((t.held.map Prod.fst).filter ContextGuard.isAccepted).map ContextGuard.position := by
  rw [List.filter_map, List.map_map, live, List.map_map]
  rfl

/-- What a thread has attached does not matter to its guards. -/
theorem size_congr {base : α} {base' : β} {t : Thread α} {u : Thread β} (ht : Sound base t) (hu : Sound base' u)
    (h : t.held.map Prod.fst = u.held.map Prod.fst) : t.stack.slots.size = u.stack.slots.size := by
  rw [ht.size_eq, hu.size_eq, positions_live, positions_live, h]

/-! ### Numbers for contexts -/

/-- A step with its number in place of the context that it attaches. -/
def Step.numbered (number : Nat) : Step α → Step Nat
  | .attach _ => .attach number
  | .drop place => .drop place

/-- A thread that takes the steps with their numbers for contexts. It is given the same guards
(`guards_numberedRun`). -/
def numberedRun (steps : List (Step α)) : Thread Nat := run 0 (steps.mapIdx Step.numbered)

/-- The steps that gave the guards live after the first `k` steps, oldest first. -/
def liveAfter (steps : List (Step α)) (k : Nat) : List Nat := (numberedRun (steps.take k)).live.map Prod.snd

/-- The guard given by a step takes up room: at every moment since, it or one accepted after it has been live. -/
def TakesRoom (steps : List (Step α)) (number : Nat) : Prop :=
  ∀ k, k ≤ steps.length → number < k → ∃ j ∈ liveAfter steps k, number ≤ j

instance (steps : List (Step α)) : DecidablePred (TakesRoom steps) := fun number =>
  decidable_of_iff (∀ k, k < steps.length + 1 → number < k → ∃ j ∈ liveAfter steps k, number ≤ j)
    (forall_congr' fun _ => imp_congr_left Nat.lt_succ_iff)

/-- The steps whose guards take up room, in order. -/
def roomTaken (steps : List (Step α)) : List Nat := (List.range steps.length).filter fun i => TakesRoom steps i

theorem numberedRun_concat (steps : List (Step α)) (step : Step α) :
    numberedRun (steps ++ [step]) = (numberedRun steps).after (step.numbered steps.length) := by
  unfold numberedRun
  rw [List.mapIdx_concat, run_concat]

theorem guards_numberedRun (base : α) (steps : List (Step α)) :
    (run base steps).held.map Prod.fst = (numberedRun steps).held.map Prod.fst := by
  induction steps using List.reverseRecOn with
  | nil => rfl
  | append_singleton steps step ih =>
    rw [run_concat, numberedRun_concat]
    cases step with
    | attach cx =>
      have hsize := size_congr (Sound.run base steps) (Sound.run 0 (steps.mapIdx Step.numbered)) ih
      show ((run base steps).held ++ [_]).map _ = ((numberedRun steps).held ++ [_]).map _
      rw [List.map_append, List.map_append, ih]
      exact congrArg (_ ++ [·]) (attach_guard_congr hsize cx steps.length)
    | drop place =>
      show ((run base steps).after (.drop place)).held.map _ = ((numberedRun steps).after (.drop place)).held.map _
      rw [held_after_drop, held_after_drop, ← List.eraseIdx_map, ← List.eraseIdx_map, ih]

/-- A guard that takes up room after one more step did so before, and it or a later one is live. -/
theorem roomTaken_concat (steps : List (Step α)) (step : Step α) :
    roomTaken (steps ++ [step]) = (roomTaken steps ++ [steps.length]).filter fun i =>
      ∃ j ∈ (numberedRun (steps ++ [step])).live.map Prod.snd, i ≤ j := by
  have hbefore : ∀ k, k ≤ steps.length → liveAfter (steps ++ [step]) k = liveAfter steps k := by
    intro k hk
    rw [liveAfter, liveAfter, List.take_append_of_le_length hk]
  have hnow : liveAfter (steps ++ [step]) (steps.length + 1) = (numberedRun (steps ++ [step])).live.map Prod.snd := by
    rw [liveAfter, List.take_of_length_le (by simp)]
  have htakes : ∀ i, i ≤ steps.length → (TakesRoom (steps ++ [step]) i ↔ TakesRoom steps i ∧
      ∃ j ∈ (numberedRun (steps ++ [step])).live.map Prod.snd, i ≤ j) := by
    intro i hi
    rw [← hnow]
    constructor
    · intro h
      refine ⟨fun k hk hik => ?_, h _ (by simp) (Nat.lt_succ_of_le hi)⟩
      rw [← hbefore k hk]
      exact h k (by simp; omega) hik
    · rintro ⟨hold, hlast⟩ k hk hik
      by_cases hk' : k ≤ steps.length
      · rw [hbefore k hk']
        exact hold k hk' hik
      · have hk : k = steps.length + 1 := by
          rw [List.length_append, List.length_singleton] at hk
          omega
        rw [hk]
        exact hlast
  -- No moment has passed since the last step.
  have hfresh : TakesRoom steps steps.length := fun k hk hik => absurd hik (Nat.not_lt.mpr hk)
  have hroom : roomTaken steps ++ [steps.length] =
      (List.range (steps.length + 1)).filter fun i => TakesRoom steps i := by
    rw [List.range_succ, List.filter_append, roomTaken]
    simp [hfresh]
  rw [hroom, List.filter_filter, roomTaken, List.length_append, List.length_singleton]
  refine List.filter_congr fun i hi => ?_
  have hi : i ≤ steps.length := Nat.le_of_lt_succ (List.mem_range.mp hi)
  rw [← Bool.decide_and]
  exact decide_eq_decide.mpr ((htakes i hi).trans and_comm)

/-! ### One number for each slot -/

/-- Up to a member of an ascending list come as many as its place tells. -/
theorem filter_le_eq_take {l : List Nat} (h : l.Pairwise (· < ·)) {k j : Nat} (hk : l[k]? = some j) :
    (l.filter fun i => i ≤ j) = l.take (k + 1) := by
  obtain ⟨hlt, hat⟩ := List.getElem?_eq_some_iff.mp hk
  have hsplit : l = l.take (k + 1) ++ l.drop (k + 1) := (List.take_append_drop _ _).symm
  have hlow : ∀ i ∈ l.take (k + 1), i ≤ j := by
    intro i hi
    rw [← List.take_append_getElem hlt, hat] at hi
    rcases List.mem_append.mp hi with hi | hi
    · rw [← List.take_append_drop k l, List.drop_eq_getElem_cons hlt, hat] at h
      exact Nat.le_of_lt ((List.pairwise_append.mp h).2.2 i hi j List.mem_cons_self)
    · exact Nat.le_of_eq (List.mem_singleton.mp hi)
  have hhigh : ∀ i ∈ l.drop (k + 1), ¬i ≤ j := by
    intro i hi
    rw [← List.take_append_drop k l, List.drop_eq_getElem_cons hlt, hat] at h
    exact Nat.not_le.mpr ((List.pairwise_cons.mp (List.pairwise_append.mp h).2.1).1 i hi)
  rw [hsplit, List.filter_append, List.filter_eq_self.mpr (by simpa using hlow),
    List.filter_eq_nil_iff.mpr (by simpa using hhigh), List.append_nil, ← hsplit]

/-- The list has one number for each slot, in ascending order and all below `bound`; the guard at a position is
listed there. -/
structure Booked (t : Thread Nat) (bound : Nat) (room : List Nat) : Prop where
  ascending : room.Pairwise (· < ·)
  below : ∀ i ∈ room, i < bound
  length_eq : room.length = t.stack.slots.size
  listed : ∀ e ∈ t.live, room[e.1 - 1]? = some e.2

namespace Booked
variable {t u : Thread Nat} {bound : Nat} {room : List Nat}

theorem mem (h : Booked t bound room) {e : Nat × Nat} (he : e ∈ t.live) : e.2 ∈ room :=
  List.mem_of_getElem? (h.listed e he)

theorem position_pos {base : Nat} (hs : Sound base t) {e : Nat × Nat} (he : e ∈ t.live) : 0 < e.1 :=
  (List.pairwise_cons.mp hs.tracks.ascending).1 e he

/-- The later of two positions has the later guard. -/
theorem le_of_le (h : Booked t bound room) {e f : Nat × Nat} (he : e ∈ t.live) (hf : f ∈ t.live) (hle : e.1 ≤ f.1) :
    e.2 ≤ f.2 := by
  obtain ⟨hlt, hat⟩ := List.getElem?_eq_some_iff.mp (h.listed e he)
  obtain ⟨hlt', hat'⟩ := List.getElem?_eq_some_iff.mp (h.listed f hf)
  rw [← hat, ← hat']
  rcases Nat.eq_or_lt_of_le (Nat.sub_le_sub_right hle 1) with heq | hless
  · simp only [heq, Nat.le_refl]
  · exact Nat.le_of_lt (List.pairwise_iff_getElem.mp h.ascending _ _ hlt hlt' hless)

/-- A thread that attaches one more context. -/
theorem attach (h : Booked t bound room) (hroom : t.stack.hasRoom = true) :
    (room ++ [bound]).filter (fun i => ∃ j ∈ (t.after (.attach bound)).live.map Prod.snd, i ≤ j) = room ++ [bound] ∧
      Booked (t.after (.attach bound)) (bound + 1) (room ++ [bound]) := by
  have hafter : t.after (.attach bound) =
      ⟨t.stack.push bound, t.held ++ [(⟨t.stack.slots.size + 1⟩, bound)]⟩ := by
    simp [after, ContextStack.attach, hroom]
  have haccepted : ContextGuard.isAccepted ⟨t.stack.slots.size + 1⟩ = true := by
    simpa [ContextStack.attach, hroom] using isAccepted_attach t.stack bound
  have hlive : (t.after (.attach bound)).live = t.live ++ [(t.stack.slots.size + 1, bound)] := by
    rw [hafter, live_eq_of_held rfl, if_pos haccepted]
    simp [live]
  constructor
  · refine List.filter_eq_self.mpr fun i hi => decide_eq_true ?_
    refine ⟨bound, by simp [hlive], ?_⟩
    rcases List.mem_append.mp hi with hi | hi
    · exact Nat.le_of_lt (h.below i hi)
    · exact Nat.le_of_eq (List.mem_singleton.mp hi)
  · refine ⟨?_, fun i hi => ?_, ?_, fun e he => ?_⟩
    · refine List.pairwise_append.mpr ⟨h.ascending, List.pairwise_singleton _ _, fun i hi j hj => ?_⟩
      rw [List.mem_singleton.mp hj]
      exact h.below i hi
    · rcases List.mem_append.mp hi with hi | hi
      · exact Nat.lt_succ_of_lt (h.below i hi)
      · rw [List.mem_singleton.mp hi]
        exact Nat.lt_succ_self _
    · rw [hafter]
      simp [ContextStack.push, h.length_eq]
    · rw [hlive] at he
      rcases List.mem_append.mp he with he | he
      · have hat := h.listed e he
        rw [List.getElem?_append_left (List.getElem?_eq_some_iff.mp hat).1, hat]
      · rw [List.mem_singleton.mp he, Nat.add_sub_cancel, ← h.length_eq]
        simp

/-- A thread on which nothing is live that was not so before. -/
theorem shrink (h : Booked t bound room) (hu : Sound 0 u) (hlive : ∀ e ∈ u.live, e ∈ t.live) :
    (room ++ [bound]).filter (fun i => ∃ j ∈ u.live.map Prod.snd, i ≤ j) = room.take u.stack.slots.size ∧
      Booked u (bound + 1) (room.take u.stack.slots.size) := by
  have hout : ¬∃ j ∈ u.live.map Prod.snd, bound ≤ j := by
    rintro ⟨j, hj, hle⟩
    obtain ⟨e, he, rfl⟩ := List.mem_map.mp hj
    exact absurd (h.below _ (h.mem (hlive e he))) (Nat.not_lt.mpr hle)
  have hsize := hu.size_eq
  rw [List.getLast?_map] at hsize
  obtain ⟨hfits, hcut⟩ : u.stack.slots.size ≤ room.length ∧
      room.filter (fun i => ∃ j ∈ u.live.map Prod.snd, i ≤ j) = room.take u.stack.slots.size := by
    cases hlast : u.live.getLast? with
    | none =>
      rw [hlast] at hsize
      rw [List.getLast?_eq_none_iff.mp hlast, hsize]
      exact ⟨Nat.zero_le _, by simp [bottom]⟩
    | some top =>
      rw [hlast] at hsize
      have hsize : u.stack.slots.size = top.1 := hsize
      have htop : top ∈ u.live := List.mem_of_getLast? hlast
      have hat := h.listed top (hlive top htop)
      have hpos : top.1 - 1 + 1 = top.1 := Nat.sub_add_cancel (position_pos hu htop)
      have hlt : top.1 - 1 < room.length := (List.getElem?_eq_some_iff.mp hat).1
      refine ⟨by omega, ?_⟩
      rw [hsize, ← hpos, ← filter_le_eq_take h.ascending hat]
      refine List.filter_congr fun i _ => decide_eq_decide.mpr ⟨?_, fun hi => ⟨_, List.mem_map_of_mem htop, hi⟩⟩
      rintro ⟨j, hj, hij⟩
      obtain ⟨e, he, rfl⟩ := List.mem_map.mp hj
      have hle : e.1 ≤ top.1 := hsize ▸ hu.tracks.le_size (List.mem_cons_of_mem _ he)
      exact Nat.le_trans hij (h.le_of_le (hlive e he) (hlive top htop) hle)
  refine ⟨?_, h.ascending.sublist (List.take_sublist _ _), fun i hi => ?_, ?_, fun e he => ?_⟩
  · rw [List.filter_append, hcut]
    simpa using hout
  · exact Nat.lt_succ_of_lt (h.below i (List.mem_of_mem_take hi))
  · rw [List.length_take, Nat.min_eq_left hfits]
  · have hpos := position_pos hu he
    have hbound : e.1 ≤ u.stack.slots.size := hu.tracks.le_size (List.mem_cons_of_mem _ he)
    rw [List.getElem?_take_of_lt (by omega)]
    exact h.listed e (hlive e he)

end Booked

/-- A step that attaches nothing leaves no guard live that was not so before. -/
theorem live_subset_after {t : Thread Nat} {step : Step Nat} (h : ∀ cx, step = .attach cx → t.stack.hasRoom = false) :
    ∀ e ∈ (t.after step).live, e ∈ t.live := by
  intro e he
  obtain ⟨f, hf, rfl⟩ := List.mem_map.mp he
  obtain ⟨hheld, hacc⟩ := List.mem_filter.mp hf
  refine List.mem_map_of_mem (List.mem_filter.mpr ⟨?_, hacc⟩)
  cases step with
  | attach cx =>
    have hheld : f ∈ t.held ++ [((t.stack.attach cx).1, cx)] := hheld
    rcases List.mem_append.mp hheld with hheld | hheld
    · exact hheld
    · rw [List.mem_singleton.mp hheld, isAccepted_attach, h cx rfl] at hacc
      cases hacc
  | drop place =>
    rw [held_after_drop] at hheld
    exact List.mem_of_mem_eraseIdx hheld

theorem booked (steps : List (Step α)) : Booked (numberedRun steps) steps.length (roomTaken steps) := by
  induction steps using List.reverseRecOn with
  | nil => exact ⟨List.Pairwise.nil, nofun, rfl, nofun⟩
  | append_singleton steps step ih =>
    have hafter : Sound 0 (numberedRun (steps ++ [step])) := Sound.run 0 _
    rw [roomTaken_concat, List.length_append, List.length_singleton]
    rw [numberedRun_concat] at hafter ⊢
    by_cases hroom : ∃ cx, step = .attach cx ∧ (numberedRun steps).stack.hasRoom = true
    · obtain ⟨cx, rfl, hroom⟩ := hroom
      obtain ⟨hall, hbooked⟩ := ih.attach hroom
      exact (congrArg (Booked _ _) hall).mpr hbooked
    · have hlive : ∀ e ∈ ((numberedRun steps).after (step.numbered steps.length)).live,
          e ∈ (numberedRun steps).live := by
        refine live_subset_after fun n hn => ?_
        cases step with
        | attach cx => simpa using fun h => hroom ⟨cx, rfl, h⟩
        | drop place => cases hn
      obtain ⟨hcut, hbooked⟩ := ih.shrink hafter hlive
      exact (congrArg (Booked _ _) hcut).mpr hbooked

/-! ### What an attach needs -/

theorem size_eq_roomTaken (base : α) (steps : List (Step α)) :
    (run base steps).stack.slots.size = (roomTaken steps).length := by
  rw [(booked steps).length_eq]
  exact size_congr (Sound.run base steps) (Sound.run 0 _) (guards_numberedRun base steps)

theorem length_live (base : α) (steps : List (Step α)) :
    (run base steps).live.length = (liveAfter steps steps.length).length := by
  have h := congrArg List.length (congrArg (List.map ContextGuard.position)
    (congrArg (List.filter ContextGuard.isAccepted) (guards_numberedRun base steps)))
  rw [← positions_live, ← positions_live, List.length_map, List.length_map] at h
  rw [h, liveAfter, List.take_length, List.length_map]

theorem mem_roomTaken_of_live {steps : List (Step α)} {i : Nat} (hi : i ∈ liveAfter steps steps.length) :
    i ∈ roomTaken steps := by
  rw [liveAfter, List.take_length] at hi
  obtain ⟨e, he, rfl⟩ := List.mem_map.mp hi
  exact (booked steps).mem he

theorem nodup_liveAfter (steps : List (Step α)) : (liveAfter steps steps.length).Nodup := by
  rw [liveAfter, List.take_length]
  have hs : Sound 0 (numberedRun steps) := Sound.run 0 _
  have hpositions := (List.pairwise_cons.mp hs.tracks.ascending).2
  refine List.pairwise_map.mpr (hpositions.imp_of_mem fun {e f} he hf hlt heq => ?_)
  -- One number is not listed at two positions.
  have hb := booked steps
  obtain ⟨hin, hat⟩ := List.getElem?_eq_some_iff.mp (hb.listed e he)
  obtain ⟨hin', hat'⟩ := List.getElem?_eq_some_iff.mp (hb.listed f hf)
  have hpos := Booked.position_pos hs he
  have hless := List.pairwise_iff_getElem.mp hb.ascending _ _ hin hin' (by omega)
  rw [hat, hat', heq] at hless
  exact Nat.lt_irrefl _ hless

/-- After any steps a context is attached, and becomes current, just when fewer guards take up room than the stack
holds; otherwise the stack stays as it is. The live guards take up room. Where no others do, because none was dropped
under a later one that is still live, it is the number of live guards that counts. -/
theorem attach_accepted_iff_room (base : α) (steps : List (Step α)) (cx : α) :
    let t := run base steps
    let g := (t.stack.attach cx).1
    let stack := (t.stack.attach cx).2.1
    (g.isAccepted = true ↔ (roomTaken steps).length < 65534) ∧
      (g.isAccepted = true → stack.current = cx) ∧
      (g.isAccepted = false → stack = t.stack) ∧
      (∀ i ∈ liveAfter steps steps.length, i ∈ roomTaken steps) ∧
      (liveAfter steps steps.length).length = t.live.length ∧
      ((∀ i ∈ roomTaken steps, i ∈ liveAfter steps steps.length) →
        (g.isAccepted = true ↔ t.live.length < 65534)) := by
  intro t g stack
  have hiff : (t.stack.attach cx).1.isAccepted = true ↔ (roomTaken steps).length < 65534 := by
    rw [isAccepted_attach, hasRoom_iff, size_eq_roomTaken]
    exact Iff.rfl
  refine ⟨hiff, fun hacc => ?_, fun hrefused => ?_, fun i => mem_roomTaken_of_live, (length_live base steps).symm,
    fun hlive => ?_⟩
  · have hroom : t.stack.hasRoom = true := (isAccepted_attach t.stack cx).symm.trans hacc
    simp [stack, ContextStack.attach, hroom, ContextStack.push]
  · have hroom : t.stack.hasRoom = false := (isAccepted_attach t.stack cx).symm.trans hrefused
    simp [stack, ContextStack.attach, hroom]
  · have hnodup : (roomTaken steps).Nodup := (booked steps).ascending.imp Nat.ne_of_lt
    have hperm := (List.perm_ext_iff_of_nodup hnodup (nodup_liveAfter steps)).mpr
      fun i => ⟨hlive i, mem_roomTaken_of_live⟩
    rw [show t.live.length = _ from length_live base steps, ← hperm.length_eq]
    exact hiff

/-! A thread that replaces its guard over and over, each time attaching before it drops. -/

/-- Attaches the context 1, and then attaches it anew and drops the older guard a number of times. -/
def replacing (times : Nat) : List (Step Nat) := .attach 1 :: (List.replicate times [.attach 1, .drop 0]).flatten

/-- Each replacement raises the stack by one. -/
theorem run_replacing (times : Nat) (h : times + 1 < overflow) :
    (run 0 (replacing times)).stack.slots.size = times + 1 ∧ (run 0 (replacing times)).stack.current = 1 ∧
      (run 0 (replacing times)).held = [(⟨times + 1⟩, 1)] := by
  induction times with
  | zero => exact ⟨rfl, rfl, rfl⟩
  | succ times ih =>
    obtain ⟨hsize, hcurrent, hheld⟩ := ih (Nat.lt_of_succ_lt h)
    have hsteps : replacing (times + 1) = replacing times ++ [.attach 1] ++ [.drop 0] := by
      simp [replacing, List.replicate_succ']
    have hroom : (run 0 (replacing times)).stack.hasRoom = true := by
      rw [hasRoom, hsize]
      exact decide_eq_true h
    have hinside : bottom < times + 1 ∧ times + 1 < overflow := ⟨Nat.succ_pos _, Nat.lt_of_succ_lt h⟩
    have hproper : ¬(times + 1 = bottom ∨ times + 1 = overflow) := by omega
    have hbelow : ¬times + 1 < times := by omega
    rw [hsteps, run_concat, run_concat]
    simp [after, ContextStack.attach, hroom, hheld, hsize, detach, popAt, hinside, hproper, hbelow, ContextStack.push,
      clear]

theorem attach_replacing (times : Nat) (h : times + 2 = overflow) (cx : Nat) :
    (run 0 (replacing times)).live.length = 1 ∧
      ((run 0 (replacing times)).stack.attach cx).1.isAccepted = false ∧
      ((run 0 (replacing times)).stack.attach cx).2.1.current = 1 := by
  have hlt : times + 1 < overflow := h ▸ Nat.lt_succ_self _
  obtain ⟨hsize, hcurrent, hheld⟩ := run_replacing times hlt
  have hfull : (run 0 (replacing times)).stack.hasRoom = false := by
    rw [hasRoom, hsize, h]
    exact decide_eq_false (Nat.lt_irrefl _)
  have haccepted : ContextGuard.isAccepted ⟨times + 1⟩ = true := by
    simpa [ContextGuard.isAccepted] using Nat.ne_of_lt hlt
  refine ⟨?_, ?_, ?_⟩
  · simp [live, hheld, haccepted]
  · rw [isAccepted_attach, hfull]
  · simp [ContextStack.attach, hfull, hcurrent]

/-- With one live guard a stack can be full. -/
theorem attach_refused_under_one_live_guard :
    (run 0 (replacing 65533)).live.length = 1 ∧
      ((run 0 (replacing 65533)).stack.attach 2).1.isAccepted = false ∧
      ((run 0 (replacing 65533)).stack.attach 2).2.1.current = 1 :=
  attach_replacing 65533 rfl 2

end Thread
end Tracing
