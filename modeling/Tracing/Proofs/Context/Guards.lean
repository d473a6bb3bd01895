import Tracing.Context.Stack
import Tracing.Proofs.Lists

/-! # Guards and the stack of contexts

A thread attaches contexts and drops guards in any order. At every moment its current context is that of the
latest guard still held, refused ones aside, and its first context once none is held.

The invariant reads the stack as a table of the contexts attached at each position, with the first context of the
thread at the bottom (`Tracks`): the highest entry is the current context, and the slot of a position below it
holds the context attached there, or nothing once that guard was dropped. -/

namespace Tracing
namespace ContextStack

variable {α : Type}

/-! ### The table behind a stack -/

/-- The stack holds the contexts of `table`, each with its position, in ascending order. -/
structure Tracks (s : ContextStack α) (table : List (Nat × α)) : Prop where
  ascending : table.Pairwise fun a b => a.1 < b.1
  top : table.getLast? = some (s.slots.size, s.current)
  slot : ∀ i, i < s.slots.size → s.slots[i]? = some (table.lookup i)

theorem lookup_of_mem {table : List (Nat × α)} (h : table.Pairwise fun a b => a.1 < b.1) {p : Nat} {cx : α}
    (hm : (p, cx) ∈ table) : table.lookup p = some cx := by
  have hnodup : (table.map Prod.fst).Nodup := List.pairwise_map.mpr (h.imp Nat.ne_of_lt)
  exact (lookup_eq_some_iff_mem hnodup).mpr hm

theorem lookup_eq_none_of_lt {table : List (Nat × α)} {p : Nat} (h : ∀ e ∈ table, e.1 < p) :
    table.lookup p = none := by
  rw [List.lookup_eq_none_iff]
  intro e he
  simpa using Nat.ne_of_gt (h e he)

theorem lookup_filter_ne {table : List (Nat × α)} {p i : Nat} :
    (table.filter fun e => e.1 ≠ p).lookup i = if i = p then none else table.lookup i := by
  induction table with
  | nil => simp
  | cons e table ih =>
    by_cases hp : e.1 = p
    · rw [List.filter_cons_of_neg (by simpa using hp), ih, List.lookup_cons, hp]
      split
      · rfl
      · rename_i hi
        rw [beq_false_of_ne hi]
    · rw [List.filter_cons_of_pos (by simpa using hp), List.lookup_cons, List.lookup_cons, ih]
      by_cases hi : i = e.1
      · simp [hi, hp]
      · rw [beq_false_of_ne hi]

namespace Tracks
variable {s : ContextStack α} {table : List (Nat × α)}

/-- The entries below the top lie below its position. -/
theorem split (h : s.Tracks table) : ∃ lower, table = lower ++ [(s.slots.size, s.current)] ∧
    ∀ e ∈ lower, e.1 < s.slots.size := by
  obtain ⟨lower, rfl⟩ := List.getLast?_eq_some_iff.mp h.top
  exact ⟨lower, rfl, fun e he => (List.pairwise_append.mp h.ascending).2.2 e he _ (List.mem_singleton_self _)⟩

theorem le_size (h : s.Tracks table) {e : Nat × α} (he : e ∈ table) : e.1 ≤ s.slots.size := by
  obtain ⟨lower, rfl, hlow⟩ := h.split
  rcases List.mem_append.mp he with he | he
  · exact Nat.le_of_lt (hlow e he)
  · exact Nat.le_of_eq (congrArg Prod.fst (List.mem_singleton.mp he))

/-- The first context of a thread lies at the bottom. -/
theorem ofBase (base : α) : (ContextStack.ofBase base).Tracks [(bottom, base)] where
  ascending := List.pairwise_singleton _ _
  top := by simp [ContextStack.ofBase, bottom]
  slot i hi := absurd hi (Nat.not_lt_zero i)

theorem push (h : s.Tracks table) (cx : α) : (s.push cx).Tracks (table ++ [(s.slots.size + 1, cx)]) where
  ascending := by
    refine List.pairwise_append.mpr ⟨h.ascending, List.pairwise_singleton _ _, fun e he f hf => ?_⟩
    rw [List.mem_singleton.mp hf]
    exact Nat.lt_succ_of_le (h.le_size he)
  top := by simp [ContextStack.push]
  slot i hi := by
    simp only [ContextStack.push, Array.size_push] at hi
    have hne : i ≠ s.slots.size + 1 := by omega
    have hlookup : (table ++ [(s.slots.size + 1, cx)]).lookup i = table.lookup i := by
      rw [List.lookup_append, List.lookup_cons, beq_false_of_ne hne]
      simp
    rw [hlookup]
    simp only [ContextStack.push, Array.getElem?_push]
    split
    · -- The new slot keeps the context that was current, which is the top of the table.
      rename_i heq
      rw [heq, lookup_of_mem h.ascending (List.mem_of_getLast? h.top)]
    · exact h.slot i (by omega)

/-- Clearing a slot below the top takes its context out of the table. -/
theorem clear (h : s.Tracks table) {p : Nat} (hp : p < s.slots.size) :
    (s.clear p).Tracks (table.filter fun e => e.1 ≠ p) where
  ascending := h.ascending.filter _
  top := by
    obtain ⟨lower, rfl, -⟩ := h.split
    have hne : s.slots.size ≠ p := by omega
    simp [ContextStack.clear, List.filter_append, hne]
  slot i hi := by
    simp only [ContextStack.clear, Array.size_setIfInBounds] at hi
    rw [lookup_filter_ne]
    simp only [ContextStack.clear, Array.getElem?_setIfInBounds]
    by_cases hip : p = i
    · simp [hip, hi]
    · rw [ite_cond_eq_false _ _ (eq_false hip), ite_cond_eq_false _ _ (eq_false (Ne.symm hip))]
      exact h.slot i hi

end Tracks

/-! ### Dropping the top -/

/-- Above a slot that is filled, cleared slots are discarded. -/
theorem dropCleared_of_cleared {slots : Array (Option α)} {q : Nat} {cx : α} (hq : slots[q]? = some (some cx))
    (above : ∀ i, q < i → i < slots.size → slots[i]? = some none) :
    dropCleared slots = slots.take (q + 1) := by
  obtain ⟨hlt, hfilled⟩ := Array.getElem?_eq_some_iff.mp hq
  have hcut : slots = slots.take (q + 1) ++ slots.extract (q + 1) slots.size := by
    rw [Array.take_eq_extract, Array.extract_append_extract, Nat.min_eq_left (Nat.zero_le _), Nat.max_eq_right hlt,
      Array.extract_size]
  have hcleared : ∀ a ∈ slots.extract (q + 1) slots.size, a.isNone = true := by
    intro a ha
    obtain ⟨i, hi, rfl⟩ := Array.mem_iff_getElem.mp ha
    rw [Array.size_extract, Nat.min_self] at hi
    have hnone := above (q + 1 + i) (by omega) (by omega)
    rw [Array.getElem?_eq_getElem (by omega)] at hnone
    rw [Array.getElem_extract, Option.some.inj hnone]
    rfl
  unfold dropCleared
  rw [hcut, Array.popWhile_append_of_pos hcleared, ← hcut]
  rw [Array.popWhile]
  have hsize : (slots.take (q + 1)).size = q + 1 := by simp [Array.take_eq_extract]; omega
  simp [hsize, hfilled]

/-- Dropping the top makes the context current that the highest slot still filled holds. -/
theorem pop_of_cleared {s : ContextStack α} {q : Nat} {cx : α} (hq : s.slots[q]? = some (some cx))
    (above : ∀ i, q < i → i < s.slots.size → s.slots[i]? = some none) :
    s.pop = { current := cx, slots := s.slots.take q } := by
  obtain ⟨hlt, -⟩ := Array.getElem?_eq_some_iff.mp hq
  have hback : (s.slots.take (q + 1)).back? = some (some cx) := by
    rw [Array.back?_eq_getElem?, Array.take_eq_extract, Array.getElem?_extract, Array.size_extract]
    have hin : min (q + 1) s.slots.size - 0 - 1 < min (q + 1) s.slots.size - 0 := by omega
    have hat : 0 + (min (q + 1) s.slots.size - 0 - 1) = q := by omega
    rw [if_pos hin, hat, hq]
  have hpop : (s.slots.take (q + 1)).pop = s.slots.take q := by
    rw [← Array.extract_eq_pop rfl, Array.take_eq_extract, Array.extract_extract, Array.take_eq_extract,
      Array.size_extract]
    congr 1
    omega
  unfold pop
  rw [dropCleared_of_cleared hq above]
  simp only [hback, hpop]

namespace Tracks
variable {s : ContextStack α} {low : List (Nat × α)} {q : Nat} {cx : α}

/-- The slots hold what lies below the top. -/
theorem slot_lower {lower : List (Nat × α)} (h : s.Tracks (lower ++ [(s.slots.size, s.current)])) {i : Nat}
    (hi : i < s.slots.size) : s.slots[i]? = some (lower.lookup i) := by
  rw [h.slot i hi, List.lookup_append, List.lookup_cons, beq_false_of_ne (Nat.ne_of_lt hi)]
  simp

/-- Without its top the table has the entry below it on top. -/
theorem pop_eq (h : s.Tracks ((low ++ [(q, cx)]) ++ [(s.slots.size, s.current)])) :
    s.pop = { current := cx, slots := s.slots.take q } := by
  obtain ⟨hasc, -, hlow⟩ := List.pairwise_append.mp h.ascending
  have hlt : ∀ e ∈ low ++ [(q, cx)], e.1 < s.slots.size := fun e he => hlow e he _ (List.mem_singleton_self _)
  have hle : ∀ e ∈ low ++ [(q, cx)], e.1 ≤ q := by
    intro e he
    rcases List.mem_append.mp he with he | he
    · exact Nat.le_of_lt ((List.pairwise_append.mp hasc).2.2 e he _ (List.mem_singleton_self _))
    · exact Nat.le_of_eq (congrArg Prod.fst (List.mem_singleton.mp he))
  have hq : (q, cx) ∈ low ++ [(q, cx)] := List.mem_append_right _ (List.mem_singleton_self _)
  refine pop_of_cleared ?_ fun i hqi hi => ?_
  · rw [h.slot_lower (hlt _ hq), lookup_of_mem hasc hq]
  · rw [h.slot_lower hi, lookup_eq_none_of_lt fun e he => Nat.lt_of_le_of_lt (hle e he) hqi]

theorem pop_lower (h : s.Tracks ((low ++ [(q, cx)]) ++ [(s.slots.size, s.current)])) :
    s.pop.Tracks (low ++ [(q, cx)]) := by
  obtain ⟨hasc, -, hlow⟩ := List.pairwise_append.mp h.ascending
  have hq : q < s.slots.size :=
    hlow (q, cx) (List.mem_append_right _ (List.mem_singleton_self _)) _ (List.mem_singleton_self _)
  have hsize : (s.slots.take q).size = q := by
    rw [Array.take_eq_extract, Array.size_extract]
    omega
  rw [h.pop_eq]
  refine ⟨hasc, ?_, fun i hi => ?_⟩
  · rw [List.getLast?_concat, hsize]
  · have hi : i < q := hsize ▸ hi
    show (s.slots.take q)[i]? = _
    rw [← h.slot_lower (Nat.lt_trans hi hq), Array.take_eq_extract, Array.getElem?_extract, Nat.zero_add]
    exact if_pos (by omega)

/-- Dropping the top takes its context out of the table, as long as something lies below it. -/
theorem pop {table : List (Nat × α)} (h : s.Tracks table) {p : Nat} {base : α} (hbase : (p, base) ∈ table)
    (hp : p < s.slots.size) : s.pop.Tracks (table.filter fun e => e.1 ≠ s.slots.size) := by
  obtain ⟨lower, rfl, hlow⟩ := h.split
  have hfilter : (lower ++ [(s.slots.size, s.current)]).filter (fun e => e.1 ≠ s.slots.size) = lower := by
    rw [List.filter_append, List.filter_eq_self.mpr fun e he => by simpa using Nat.ne_of_lt (hlow e he)]
    simp
  rw [hfilter]
  rcases List.eq_nil_or_concat lower with rfl | ⟨low, ⟨q, cx⟩, rfl⟩
  · rw [List.nil_append, List.mem_singleton] at hbase
    rw [(Prod.mk.inj hbase).1] at hp
    exact absurd hp (Nat.lt_irrefl _)
  · rw [List.concat_eq_append] at h ⊢
    exact h.pop_lower

/-- A guard of the table is dropped without complaint, and leaves the rest of the table. -/
theorem detach {base : α} {live : List (Nat × α)} (h : s.Tracks ((bottom, base) :: live))
    (hfits : s.slots.size < overflow) {p : Nat} (hm : (p, cx) ∈ live) :
    (s.detach ⟨p⟩).2 = [] ∧ (s.detach ⟨p⟩).1.Tracks ((bottom, base) :: live.filter fun e => e.1 ≠ p) := by
  have hpos : bottom < p := (List.pairwise_cons.mp h.ascending).1 _ hm
  have hle : p ≤ s.slots.size := h.le_size (List.mem_cons_of_mem _ hm)
  have hin : bottom < p ∧ p < overflow := ⟨hpos, Nat.lt_of_le_of_lt hle hfits⟩
  have hproper : ¬(p = bottom ∨ p = overflow) := by omega
  have hfilter : (bottom, base) :: live.filter (fun e => e.1 ≠ p) =
      ((bottom, base) :: live).filter fun e => e.1 ≠ p :=
    (List.filter_cons_of_pos (by simpa using Nat.ne_of_lt hpos)).symm
  rw [hfilter]
  unfold ContextStack.detach popAt
  rw [if_pos hin, if_neg hproper]
  by_cases htop : p = s.slots.size
  · rw [if_pos htop, htop]
    exact ⟨rfl, h.pop (List.mem_cons_self) (htop ▸ hpos)⟩
  · rw [if_neg htop, if_neg (Nat.not_lt.mpr hle)]
    exact ⟨rfl, h.clear (Nat.lt_of_le_of_ne hle htop)⟩

end Tracks

end ContextStack

/-! ### Runs of a thread -/

/-- The context of the guard was attached, not refused. -/
def ContextGuard.isAccepted (g : ContextGuard) : Bool := g.position != ContextStack.overflow

theorem ContextStack.isAccepted_attach {α : Type} (s : ContextStack α) (cx : α) :
    (s.attach cx).1.isAccepted = s.hasRoom := by
  unfold ContextStack.attach
  split
  · rename_i hroom
    have hlt : s.slots.size + 1 < overflow := by simpa [hasRoom] using hroom
    rw [hroom]
    simpa [ContextGuard.isAccepted] using Nat.ne_of_lt hlt
  · rename_i hroom
    simp [ContextGuard.isAccepted, hroom]

/-- A thread: its stack of contexts, and the guards that it holds with the contexts they were given for, oldest
first. -/
structure Thread (α : Type) where
  stack : ContextStack α
  held : List (ContextGuard × α) := []

namespace Thread
open ContextStack

variable {α : Type}

/-- What a thread does with contexts. -/
inductive Step (α : Type) where
  /-- Attaches a context and holds the guard. -/
  | attach (cx : α)
  /-- Drops one of the guards held, by its place among them, oldest first. -/
  | drop (place : Nat)

/-- The thread after a step. A guard that was dropped is not held any more, so none is dropped twice. -/
def after (t : Thread α) : Step α → Thread α
  | .attach cx =>
    let (g, stack, _) := t.stack.attach cx
    { stack, held := t.held ++ [(g, cx)] }
  | .drop place =>
    match t.held[place]? with
    | some (g, _) => { stack := (t.stack.detach g).1, held := t.held.eraseIdx place }
    | none => t

/-- The thread after a number of steps, from one on which `base` is current and nothing is attached. -/
def run (base : α) (steps : List (Step α)) : Thread α := steps.foldl after { stack := ContextStack.ofBase base }

/-- The contexts of the guards held, with their positions, oldest first and without the refused ones. -/
def live (t : Thread α) : List (Nat × α) :=
  (t.held.filter fun e => e.1.isAccepted).map fun e => (e.1.position, e.2)

/-- The stack holds just the contexts that are live, above the first one of the thread. -/
structure Sound (base : α) (t : Thread α) : Prop where
  tracks : t.stack.Tracks ((bottom, base) :: t.live)
  fits : t.stack.slots.size < overflow

theorem live_eq_of_held {t : Thread α} {before after : List (ContextGuard × α)} {g : ContextGuard} {cx : α}
    (hheld : t.held = before ++ (g, cx) :: after) :
    t.live = live ⟨t.stack, before⟩ ++ (if g.isAccepted then [(g.position, cx)] else []) ++
      live ⟨t.stack, after⟩ := by
  unfold live
  rw [hheld, List.filter_append, List.filter_cons]
  split <;> simp

theorem filter_eq_of_pairwise {before after : List (Nat × α)} {p : Nat} {cx : α}
    (h : (before ++ [(p, cx)] ++ after).Pairwise fun a b => a.1 < b.1) :
    (before ++ [(p, cx)] ++ after).filter (fun e => e.1 ≠ p) = before ++ after := by
  obtain ⟨hleft, -, hright⟩ := List.pairwise_append.mp h
  have hbefore : before.filter (fun e => e.1 ≠ p) = before := List.filter_eq_self.mpr fun e he => by
    simpa using Nat.ne_of_lt ((List.pairwise_append.mp hleft).2.2 e he _ (List.mem_singleton_self _))
  have hafter : after.filter (fun e => e.1 ≠ p) = after := List.filter_eq_self.mpr fun e he => by
    simpa using Nat.ne_of_gt (hright (p, cx) (List.mem_append_right _ (List.mem_singleton_self _)) e he)
  rw [List.filter_append, List.filter_append, hbefore, hafter]
  simp

namespace Sound
variable {base : α} {t : Thread α}

theorem start (base : α) : Sound base ⟨ContextStack.ofBase base, []⟩ where
  tracks := Tracks.ofBase base
  fits := show 0 < 65535 by decide

theorem attach (h : Sound base t) (cx : α) : Sound base (t.after (.attach cx)) := by
  obtain ⟨htracks, hfits⟩ := h
  by_cases hroom : t.stack.hasRoom = true
  · have hlt : t.stack.slots.size + 1 < overflow := by simpa [hasRoom] using hroom
    have haccepted : ContextGuard.isAccepted ⟨t.stack.slots.size + 1⟩ = true := by
      simpa [ContextStack.attach, hroom] using isAccepted_attach t.stack cx
    have hafter : t.after (.attach cx) =
        ⟨t.stack.push cx, t.held ++ [(⟨t.stack.slots.size + 1⟩, cx)]⟩ := by
      simp [after, ContextStack.attach, hroom]
    rw [hafter]
    refine ⟨?_, by simpa [ContextStack.push] using hlt⟩
    rw [live_eq_of_held rfl, if_pos haccepted]
    simpa [live] using htracks.push cx
  · have hrefused : ContextGuard.isAccepted ⟨overflow⟩ = false := by simp [ContextGuard.isAccepted]
    have hafter : t.after (.attach cx) = ⟨t.stack, t.held ++ [(⟨overflow⟩, cx)]⟩ := by
      simp [after, ContextStack.attach, hroom]
    rw [hafter]
    refine ⟨?_, hfits⟩
    rw [live_eq_of_held rfl, hrefused]
    simpa [live] using htracks

/-- Guards of refused contexts have no effect. -/
theorem detach_refused {s : ContextStack α} {g : ContextGuard} (hg : g.isAccepted = false) : s.detach g = (s, []) := by
  have hpos : g.position = overflow := by simpa [ContextGuard.isAccepted] using hg
  unfold ContextStack.detach
  rw [hpos, if_neg fun h => Nat.lt_irrefl _ h.2]

theorem drop (h : Sound base t) (place : Nat) : Sound base (t.after (.drop place)) := by
  obtain ⟨htracks, hfits⟩ := h
  cases hg : t.held[place]? with
  | none => simpa [after, hg] using ⟨htracks, hfits⟩
  | some e =>
    obtain ⟨g, cx⟩ := e
    obtain ⟨hlt, hat⟩ := List.getElem?_eq_some_iff.mp hg
    have hheld : t.held = t.held.take place ++ (g, cx) :: t.held.drop (place + 1) := by
      rw [← hat, List.getElem_cons_drop, List.take_append_drop]
    have hafter : t.after (.drop place) =
        ⟨(t.stack.detach g).1, t.held.take place ++ t.held.drop (place + 1)⟩ := by
      simp [after, hg, List.eraseIdx_eq_take_drop_succ]
    have hlive : ∀ stack : ContextStack α, live ⟨stack, t.held.take place ++ t.held.drop (place + 1)⟩ =
        live ⟨t.stack, t.held.take place⟩ ++ live ⟨t.stack, t.held.drop (place + 1)⟩ := by
      intro stack
      simp [live, List.filter_append]
    have hsplit := live_eq_of_held hheld
    rw [hafter]
    by_cases hacc : g.isAccepted = true
    · rw [if_pos hacc] at hsplit
      have hm : (g.position, cx) ∈ t.live := by simp [hsplit]
      obtain ⟨-, htracks'⟩ := htracks.detach hfits hm
      have hfilter : t.live.filter (fun e => e.1 ≠ g.position) =
          live ⟨t.stack, t.held.take place⟩ ++ live ⟨t.stack, t.held.drop (place + 1)⟩ := by
        rw [hsplit]
        exact filter_eq_of_pairwise (hsplit ▸ (List.pairwise_cons.mp htracks.ascending).2)
      refine ⟨by rw [hlive, ← hfilter]; exact htracks', ?_⟩
      -- The new top was in the table before, so the stack has not grown.
      rcases List.mem_cons.mp (List.mem_of_getLast? htracks'.top) with htop | htop
      · rw [(Prod.mk.inj htop).1]
        decide
      · exact Nat.lt_of_le_of_lt (htracks.le_size (List.mem_cons_of_mem _ ((List.mem_filter.mp htop).1))) hfits
    · have hacc : g.isAccepted = false := by simpa using hacc
      rw [if_neg (by simp [hacc]), List.append_nil] at hsplit
      rw [detach_refused hacc]
      exact ⟨by rw [hlive, ← hsplit]; exact htracks, hfits⟩

theorem run (base : α) (steps : List (Step α)) : Sound base (Thread.run base steps) := by
  unfold Thread.run
  suffices h : ∀ t : Thread α, Sound base t → Sound base (steps.foldl after t) from h _ (start base)
  induction steps with
  | nil => exact fun _ h => h
  | cons step steps ih =>
    intro t h
    cases step with
    | attach cx => exact ih _ (h.attach cx)
    | drop place => exact ih _ (h.drop place)

theorem mem_live {e : ContextGuard × α} (he : e ∈ t.held) (hacc : e.1.isAccepted = true) :
    (e.1.position, e.2) ∈ t.live :=
  List.mem_map.mpr ⟨e, List.mem_filter.mpr ⟨he, hacc⟩, rfl⟩

/-- The top of the table is current. -/
theorem current (h : Sound base t) : t.stack.current = (t.live.getLast?.map Prod.snd).getD base := by
  have htop := h.tracks.top
  rw [List.getLast?_cons] at htop
  cases hlast : t.live.getLast? with
  | none =>
    rw [hlast] at htop
    exact (Prod.mk.inj (Option.some.inj htop)).2.symm
  | some e =>
    rw [hlast] at htop
    exact (congrArg Prod.snd (Option.some.inj htop)).symm

/-- With nothing live the stack is as it was at first. -/
theorem stack_of_live_nil (h : Sound base t) (hnil : t.live = []) : t.stack = ContextStack.ofBase base := by
  have htop := h.tracks.top
  rw [hnil] at htop
  obtain ⟨hsize, hcurrent⟩ := Prod.mk.inj (Option.some.inj htop)
  have hslots : t.stack.slots = #[] := Array.eq_empty_of_size_eq_zero hsize.symm
  show (⟨t.stack.current, t.stack.slots⟩ : ContextStack α) = ⟨base, #[]⟩
  rw [hslots, hcurrent]

end Sound

/-- After any steps, the current context is that of the latest guard held, refused ones aside, or the first context
of the thread. The positions of these guards differ, lie within the stack and fit 16 bits; dropping any of them
takes no faulty branch. Refused contexts leave the stack as it was, and so do their guards. With no guard held the
thread is as it was at first. -/
theorem current_is_latest_live (base : α) (steps : List (Step α)) :
    let t := run base steps
    t.stack.current = (t.live.getLast?.map Prod.snd).getD base ∧
      (t.live.map Prod.fst).Nodup ∧
      t.stack.slots.size < overflow ∧
      (∀ e ∈ t.held, e.1.isAccepted = true →
        bottom < e.1.position ∧ e.1.position ≤ t.stack.slots.size ∧ (t.stack.detach e.1).2 = []) ∧
      (∀ e ∈ t.held, e.1.isAccepted = false → t.stack.detach e.1 = (t.stack, [])) ∧
      (∀ cx, (t.stack.attach cx).1.isAccepted = t.stack.hasRoom ∧
        (t.stack.hasRoom = false → (t.stack.attach cx).2 = (t.stack, [.attachFailed overflow]))) ∧
      (t.live = [] → t.stack = ContextStack.ofBase base) := by
  intro t
  have hs : Sound base t := Sound.run base steps
  obtain ⟨hbottom, hasc⟩ := List.pairwise_cons.mp hs.tracks.ascending
  refine ⟨hs.current, ?_, hs.fits, fun e he hacc => ?_, fun e _ hacc => Sound.detach_refused hacc,
    fun cx => ⟨isAccepted_attach t.stack cx, fun hroom => ?_⟩, hs.stack_of_live_nil⟩
  · exact List.pairwise_map.mpr (hasc.imp fun h => Nat.ne_of_lt h)
  · have hm := Sound.mem_live he hacc
    exact ⟨hbottom _ hm, hs.tracks.le_size (List.mem_cons_of_mem _ hm), (hs.tracks.detach hs.fits hm).1⟩
  · simp [ContextStack.attach, hroom]

/-- The older of two guards is dropped first: its slot is cleared, the context attached last stays current, and one more
takes effect above it. Once these two guards are dropped as well, the thread is as it was at first. -/
example : let steps : List (Step Nat) := [.attach 1, .attach 2, .drop 0, .attach 3]
    (run 0 steps).stack = ⟨3, #[some 0, none, some 2]⟩ ∧ (run 0 steps).live = [(2, 2), (3, 3)] ∧
      (run 0 (steps ++ [.drop 1])).stack.current = 2 ∧ (run 0 (steps ++ [.drop 1, .drop 0])).stack = ⟨0, #[]⟩ := by
  decide +kernel

end Thread
end Tracing
