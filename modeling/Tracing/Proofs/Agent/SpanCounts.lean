import Mathlib.Data.List.TakeWhile
import Tracing.Proofs.Agent.Attributes
import Tracing.Proofs.Agent.Runs

/-! # How many spans a transaction has

The starts of spans in a transaction are counted until it ends. The first of them, up to its limit, give live spans,
and all others give dropped ones; no end of a span and nothing done with another transaction changes that. The
counters, and the record that a transaction leaves behind when it ends, tell just these numbers. -/

namespace Tracing

/-! ### What a call does to the counters -/

/-- The transaction that a call ends. -/
def Call.ended {P : Type} : Call P → Option Transaction
  | endTransaction t _ _ => some t
  | _ => none

namespace Agent

variable {P : Type} (a : Agent P)

theorem editTransaction_counts (t : Transaction) (e : TransactionEdit) (u : Transaction) :
    (a.editTransaction t e).spanCount u = a.spanCount u ∧ (a.editTransaction t e).hasEnded u = a.hasEnded u := by
  unfold editTransaction
  dsimp only
  rw [spanCount_setTransaction, hasEnded_setTransaction]
  split
  · rename_i hslot
    unfold spanCount hasEnded transaction
    rw [hslot.1, Option.isNone_map]
    exact ⟨rfl, rfl⟩
  · exact ⟨rfl, rfl⟩

theorem endTransaction_counts [Processor P] (t : Transaction) (ending : Ending) (now : Instant) (u : Transaction)
    (hu : u.slot < a.transactions.size) :
    (endTransaction t ending now a).2.1.spanCount u = a.spanCount u ∧
      (endTransaction t ending now a).2.1.hasEnded u = (a.hasEnded u || u.slot == t.slot) := by
  cases hdata : (a.transaction t).data with
  | none =>
    have hended : u.slot = t.slot → a.hasEnded u = true := by
      intro hslot
      unfold hasEnded transaction at *
      rw [hslot, hdata]
      rfl
    rw [endTransaction_of_none hdata, misuse_state]
    refine ⟨rfl, ?_⟩
    cases h : u.slot == t.slot with
    | false => simp
    | true => simp [hended (beq_iff_eq.mp h)]
  | some d =>
    have htransactions := (stable_transactions _).steady.emit t.tracer
      (.transaction (transactionRecord t d (a.spanCount t) (ending.duration t.start now)))
      (a.setTransaction t { a.transaction t with data := none }) rfl
    rw [endTransaction_of_some hdata, spanCount_of_transactions htransactions, hasEnded_of_transactions htransactions,
      spanCount_setTransaction, hasEnded_setTransaction]
    by_cases hslot : u.slot = t.slot
    · rw [if_pos ⟨hslot, hslot ▸ hu⟩, if_pos ⟨hslot, hslot ▸ hu⟩]
      unfold spanCount transaction
      simp [hslot]
    · rw [if_neg fun h => hslot h.1, if_neg fun h => hslot h.1]
      simp [hslot]

end Agent

/-- A call leaves the counters alone, and ends at most one transaction. -/
theorem Call.counts {P : Type} [Processor P] (c : Call P) (a : Agent P) {u : Transaction}
    (hu : u.slot < a.transactions.size) : (c.run a).spanCount u = a.spanCount u ∧
      (c.run a).hasEnded u = (a.hasEnded u || c.ended.any fun t => u.slot == t.slot) := by
  have hquiet : ∀ {b : Agent P}, b.transactions = a.transactions →
      b.spanCount u = a.spanCount u ∧ b.hasEnded u = (a.hasEnded u || false) := fun h =>
    ⟨Agent.spanCount_of_transactions h u, (Agent.hasEnded_of_transactions h u).trans (Bool.or_false _).symm⟩
  have hstable := Agent.stable_transactions (P := P) a.transactions
  have hsteady := hstable.steady
  cases c with
  | editTransaction t e =>
    obtain ⟨hcount, hended⟩ := a.editTransaction_counts t e u
    exact ⟨hcount, hended.trans (Bool.or_false _).symm⟩
  | endTransaction t ending now => exact a.endTransaction_counts t ending now u hu
  | editSpan s e =>
    cases s with
    | live s => exact hquiet rfl
    | dropped => exact hquiet rfl
  | endSpan s ending now => exact hquiet (Agent.keeps_endSpan hsteady s ending now a rfl)
  | captureError t cx message causes => exact hquiet (Agent.keeps_captureError hsteady id t cx message causes a rfl)
  | forceFlush t => exact hquiet (hsteady.forceFlush t a rfl)
  | shutdown t => exact hquiet (hsteady.shutdown t a rfl)
  | release holders => exact hquiet (Agent.keeps_release hsteady holders a rfl)
  | work t place x => exact hquiet (hstable.keeps_onProcessors t _ a rfl)

/-! ### Counting starts -/

namespace Move
variable {P : Type} {t : Transaction} {moves : List (Move P)} {m : Move P}

/-- The move starts a span in the transaction, on it, on one of its spans, or through a context. -/
def startsIn (t : Transaction) : Move P → Bool
  | start s _ => s.owner = some t
  | _ => false

/-- The move ends the transaction. -/
def ends (t : Transaction) : Move P → Bool
  | call c => c.ended = some t
  | _ => false

/-- How many spans were started in the transaction before it ended. -/
def startsBeforeEnd (t : Transaction) (moves : List (Move P)) : Nat :=
  (moves.takeWhile fun m => !m.ends t).countP (startsIn t)

theorem takeWhile_eq_self_iff_open : (moves.takeWhile fun m => !m.ends t) = moves ↔ moves.any (ends t) = false := by
  rw [List.takeWhile_eq_self_iff, List.any_eq_false]
  simp

theorem startsBeforeEnd_of_open (h : moves.any (ends t) = false) :
    startsBeforeEnd t moves = moves.countP (startsIn t) := by
  rw [startsBeforeEnd, takeWhile_eq_self_iff_open.mpr h]

theorem startsBeforeEnd_le (t : Transaction) (moves : List (Move P)) :
    startsBeforeEnd t moves ≤ moves.countP (startsIn t) :=
  (List.takeWhile_sublist _).countP_le

/-- After the end nothing is counted, and an end is no start. -/
theorem startsBeforeEnd_concat (t : Transaction) (moves : List (Move P)) (m : Move P) :
    startsBeforeEnd t (moves ++ [m]) =
      startsBeforeEnd t moves + if !moves.any (ends t) && m.startsIn t then 1 else 0 := by
  have hwhole : (moves.takeWhile fun m => !m.ends t).length = moves.length ↔ moves.any (ends t) = false :=
    (List.takeWhile_sublist _).length_eq.trans takeWhile_eq_self_iff_open
  unfold startsBeforeEnd
  rw [List.takeWhile_append]
  cases hopen : moves.any (ends t) with
  | true =>
    rw [if_neg fun hlength => by simp [hwhole.mp hlength] at hopen]
    simp
  | false =>
    rw [if_pos (hwhole.mpr hopen), List.countP_append, takeWhile_eq_self_iff_open.mpr hopen]
    cases hends : m.ends t with
    | false => simp [hends, List.countP_cons]
    | true =>
      have hstarts : m.startsIn t = false := by
        cases m with
        | call => rfl
        | start | addGenerator | addTracer => cases hends
      simp [hends, hstarts]

end Move

/-! ### The tally of a transaction -/

namespace Process

variable {P : Type} {w : Process P} {t : Transaction} {moves : List (Move P)} {m : Move P}

/-- The span that a birth gave, if it was started in the transaction. -/
def spanIn? (t : Transaction) : Birth → Option Span
  | ⟨s, .span x⟩ => if s.owner = some t then some x else none
  | _ => none

/-- The spans that were started in the transaction, oldest first. -/
def spansIn (w : Process P) (t : Transaction) : List Span := w.births.filterMap (spanIn? t)

/-- A span of the transaction was started in it. -/
theorem Linked.mem_spansIn (hw : w.Linked) {s : Span} (held : w.Holds (.span s)) (hs : s.transaction = some t) :
    s ∈ w.spansIn t := by
  obtain ⟨⟨start, x⟩, hb, rfl⟩ := held
  refine List.mem_filterMap.mpr ⟨_, hb, ?_⟩
  exact if_pos ((hw.placed _ hb s rfl).symm.trans hs)

/-- What the starts in a transaction have come to after some moves. -/
structure Tally (moves : List (Move P)) (w : Process P) (t : Transaction) : Prop where
  ended : w.agent.hasEnded t = moves.any (Move.ends t)
  count : w.agent.spanCount t = ⟨min (Move.startsBeforeEnd t moves) t.spanLimit,
    Move.startsBeforeEnd t moves - min (Move.startsBeforeEnd t moves) t.spanLimit⟩
  spans : (w.spansIn t).map Span.isDropped =
    List.replicate (min (Move.startsBeforeEnd t moves) t.spanLimit) false ++
      List.replicate (moves.countP (Move.startsIn t) - min (Move.startsBeforeEnd t moves) t.spanLimit) true

namespace Tally

/-- A move that starts nothing in the transaction. -/
theorem other (h : Tally moves w t) {w' : Process P} (hstarts : m.startsIn t = false)
    (hspans : w'.spansIn t = w.spansIn t) (hcount : w'.agent.spanCount t = w.agent.spanCount t)
    (hended : w'.agent.hasEnded t = (w.agent.hasEnded t || m.ends t)) : Tally (moves ++ [m]) w' t := by
  have hn : Move.startsBeforeEnd t (moves ++ [m]) = Move.startsBeforeEnd t moves := by
    rw [Move.startsBeforeEnd_concat]
    simp [hstarts]
  have htotal : (moves ++ [m]).countP (Move.startsIn t) = moves.countP (Move.startsIn t) := by
    simp [List.countP_append, hstarts]
  constructor
  case ended => rw [hended, h.ended]; simp
  case count => rw [hcount, h.count, hn]
  case spans => rw [hspans, h.spans, hn, htotal]

/-- One start more that is counted: a live span below the limit, a dropped one from there on. -/
theorem count_succ (limit n : Nat) : (⟨min (n + 1) limit, n + 1 - min (n + 1) limit⟩ : SpanCount) =
    SpanCount.add ⟨min n limit, n - min n limit⟩ (decide (limit ≤ min n limit)) := by
  unfold SpanCount.add
  rcases Nat.lt_or_ge n limit with hfree | hfull
  · rw [Nat.min_eq_left hfree, Nat.min_eq_left (Nat.le_of_lt hfree), if_neg (by simpa using hfree)]
    simp
  · rw [Nat.min_eq_right (Nat.le_succ_of_le hfull), Nat.min_eq_right hfull, if_pos (by simp)]
    simp [Nat.succ_sub hfull]

/-- One dropped span more. -/
theorem drops_succ {live total : Nat} (h : live ≤ total) :
    List.replicate live false ++ List.replicate (total + 1 - live) true =
      List.replicate live false ++ List.replicate (total - live) true ++ [true] := by
  rw [Nat.succ_sub h, List.replicate_succ', List.append_assoc]

theorem counted_drops_succ (limit n : Nat) :
    List.replicate (min (n + 1) limit) false ++ List.replicate (n + 1 - min (n + 1) limit) true =
      List.replicate (min n limit) false ++ List.replicate (n - min n limit) true ++
        [decide (limit ≤ min n limit)] := by
  rcases Nat.lt_or_ge n limit with hfree | hfull
  · rw [Nat.min_eq_left hfree, Nat.min_eq_left (Nat.le_of_lt hfree), decide_eq_false (Nat.not_le_of_lt hfree)]
    simp [List.replicate_succ']
  · rw [Nat.min_eq_right (Nat.le_succ_of_le hfull), Nat.min_eq_right hfull, decide_eq_true (Nat.le_refl _),
      drops_succ hfull]

/-- A start in the transaction. -/
theorem start (h : Tally moves w t) {w' : Process P} {x : Span} (hslot : t.slot < w.agent.transactions.size)
    (hstarts : m.startsIn t = true) (hspans : w'.spansIn t = w.spansIn t ++ [x])
    (hcounted : Agent.SpanCounted w.agent t x w'.agent) : Tally (moves ++ [m]) w' t := by
  have hends : m.ends t = false := by
    cases m with
    | start => rfl
    | call | addGenerator | addTracer => cases hstarts
  have hended : w'.agent.hasEnded t = (moves ++ [m]).any (Move.ends t) := by
    rw [hcounted.ended, h.ended]
    simp [hends]
  have htotal : (moves ++ [m]).countP (Move.startsIn t) = moves.countP (Move.startsIn t) + 1 := by
    simp [List.countP_append, hstarts]
  have hn := Move.startsBeforeEnd_concat t moves m
  have hdropped := hcounted.dropped
  have hown := hcounted.own hslot
  rw [h.ended, h.count] at hdropped hown
  cases hopen : moves.any (Move.ends t) with
  | true =>
    -- After the end the start is not counted.
    replace hn : Move.startsBeforeEnd t (moves ++ [m]) = Move.startsBeforeEnd t moves := by simpa [hopen] using hn
    rw [hopen] at hdropped hown
    have hle := Nat.le_trans (Nat.min_le_left _ t.spanLimit) (Move.startsBeforeEnd_le t moves)
    refine ⟨hended, hn ▸ hown, ?_⟩
    rw [hspans, List.map_append, h.spans, hn, htotal, drops_succ hle]
    exact congrArg (_ ++ [·]) hdropped
  | false =>
    replace hn : Move.startsBeforeEnd t (moves ++ [m]) = Move.startsBeforeEnd t moves + 1 := by
      simpa [hopen, hstarts] using hn
    rw [hopen, Bool.false_or] at hdropped
    rw [hopen, hdropped] at hown
    refine ⟨hended, ?_, ?_⟩
    · rw [hn, count_succ]
      exact hown
    · rw [hspans, List.map_append, h.spans, hn, htotal, ← Move.startsBeforeEnd_of_open hopen, counted_drops_succ]
      exact congrArg (_ ++ [·]) hdropped

theorem outcome (h : Tally moves w t) (hw : w.Linked) (held : w.Holds (.transaction t)) {s : Start}
    (permitted : w.Permits s) {now : Instant} {x : Handle} {a : Agent P} (ho : s.Outcome w.agent now x a) :
    Tally (moves ++ [.start s now]) (w.born ⟨s, x⟩ a) t := by
  have hslot := hw.slot t held
  have hborn : ∀ {y : Handle}, (w.born ⟨s, y⟩ a).spansIn t = w.spansIn t ++ (spanIn? t ⟨s, y⟩).toList :=
    filterMap_concat _ _ _
  cases ho with
  | transaction owner slot transactions =>
    have hrow : a.transaction t = w.agent.transaction t := by
      rw [Agent.transaction_of_push transactions, if_neg (Nat.ne_of_lt hslot)]
    refine h.other (by simp [Move.startsIn, owner]) (hborn.trans (by simp [spanIn?]))
      (congrArg TransactionState.count hrow) ?_
    exact (congrArg (·.data.isNone) hrow).trans (Bool.or_false _).symm
  | @span u owner y b hspan =>
    have hcounted := hspan.counted
    by_cases hu : u = t
    · subst hu
      exact h.start hslot (by simp [Move.startsIn, owner]) (hborn.trans (by simp [spanIn?, owner])) hcounted
    · have hne : t.slot ≠ u.slot := fun heq => hu (hw.unique u t (hw.holds_owner permitted owner) held heq.symm)
      refine h.other (by simp [Move.startsIn, owner, hu]) (hborn.trans (by simp [spanIn?, owner, hu]))
        (hcounted.others t hne) ((hcounted.ended t).trans (Bool.or_false _).symm)
  | outside owner =>
    exact h.other (by simp [Move.startsIn, owner]) (hborn.trans (by simp [spanIn?, owner])) rfl (Bool.or_false _).symm

theorem move [Processor P] (h : Tally moves w t) (hw : w.Linked) (held : w.Holds (.transaction t))
    (allowed : w.Allows m) : Tally (moves ++ [m]) (w.move m) t := by
  cases m with
  | addGenerator g => exact h.other rfl rfl rfl (Bool.or_false _).symm
  | addTracer state => exact h.other rfl rfl rfl (Bool.or_false _).symm
  | start s now => exact h.outcome hw held allowed (s.run_outcome w.agent now)
  | call c =>
    obtain ⟨hcount, hended⟩ := c.counts w.agent (hw.slot t held)
    have hends : (c.ended.any fun u => t.slot == u.slot) = Move.ends t (.call c) := by
      cases c with
      | endTransaction u ending now =>
        have hsame : t.slot = u.slot ↔ u = t := ⟨fun heq => hw.unique u t allowed held heq.symm, fun heq => heq ▸ rfl⟩
        simp [Call.ended, Move.ends, hsame, beq_eq_decide]
      | _ => rfl
    exact h.other rfl rfl hcount (hends ▸ hended)

/-- Once a span was dropped there is no place for another one until the transaction ends. -/
theorem full_of_dropped (h : Tally moves w t) {p : Span} (hp : p ∈ w.spansIn t) (hdropped : p.isDropped = true)
    (isOpen : w.agent.hasEnded t = false) : t.spanLimit ≤ (w.agent.spanCount t).started := by
  have htotal := Move.startsBeforeEnd_of_open (h.ended.symm.trans isOpen)
  have hmem : true ∈ (w.spansIn t).map Span.isDropped := List.mem_map.mpr ⟨p, hp, hdropped⟩
  rw [h.spans, ← htotal] at hmem
  have hlt : min (Move.startsBeforeEnd t moves) t.spanLimit < Move.startsBeforeEnd t moves := by
    rcases List.mem_append.mp hmem with hmem | hmem
    · exact absurd (List.eq_of_mem_replicate hmem) (by decide)
    · exact Nat.lt_of_sub_pos (Nat.pos_of_ne_zero (List.mem_replicate.mp hmem).1)
  rw [h.count]
  show t.spanLimit ≤ min _ t.spanLimit
  omega

/-- A transaction that was just started. -/
theorem new (hmoves : ∀ m ∈ moves, m.startsIn t = false ∧ m.ends t = false) (hspans : w.spansIn t = [])
    {d : TransactionData} (hrow : w.agent.transaction t = { data := some d }) : Tally moves w t := by
  have hopen : moves.any (Move.ends t) = false := List.any_eq_false.mpr fun m hm => by simp [(hmoves m hm).2]
  have htotal : moves.countP (Move.startsIn t) = 0 := List.countP_eq_zero.mpr fun m hm => by simp [(hmoves m hm).1]
  have hn := (Move.startsBeforeEnd_of_open hopen).trans htotal
  refine ⟨?_, ?_, ?_⟩
  · rw [hopen, Agent.hasEnded, hrow]
    rfl
  · rw [Agent.spanCount, hrow, hn]
    simp
  · rw [hspans, hn, htotal]
    simp

end Tally

variable [Processor P]

/-- What happens to a transaction happens after its start. -/
theorem Run.holds_of_move (run : Run moves w) (hm : m ∈ moves) (h : m.startsIn t = true ∨ m.ends t = true) :
    w.Holds (.transaction t) := by
  induction run with
  | init => cases hm
  | @next moves w run m' allowed ih =>
    rcases List.mem_append.mp hm with hm | hm
    · exact (ih hm).move m'
    · obtain rfl := List.mem_singleton.mp hm
      refine Holds.move ?_ m
      cases m with
      | addGenerator | addTracer => simp [Move.startsIn, Move.ends] at h
      | start s now => exact run.linked.holds_owner allowed (by simpa [Move.startsIn, Move.ends] using h)
      | call c =>
        have hended : c.ended = some t := by simpa [Move.startsIn, Move.ends] using h
        cases c with
        | endTransaction u ending now => exact Option.some.inj hended ▸ allowed
        | _ => cases hended

theorem Run.tally_new (run : Run moves w) {s : Start} {now : Instant} {x : Handle} {a : Agent P}
    (ho : s.Outcome w.agent now x a) (hnot : ¬w.Holds (.transaction t)) (hx : x = .transaction t) :
    Tally (moves ++ [.start s now]) (w.born ⟨s, x⟩ a) t := by
  subst hx
  cases ho with
  | transaction owner slot transactions =>
    refine Tally.new (fun m hm => ?_) ?_ ((Agent.transaction_of_push transactions t).trans (if_pos slot))
    · rcases List.mem_append.mp hm with hm | hm
      · refine ⟨Bool.eq_false_iff.mpr fun h => hnot ?_, Bool.eq_false_iff.mpr fun h => hnot ?_⟩
        · exact run.holds_of_move hm (.inl h)
        · exact run.holds_of_move hm (.inr h)
      · rw [List.mem_singleton.mp hm]
        exact ⟨by simp [Move.startsIn, owner], rfl⟩
    · refine List.filterMap_eq_nil_iff.mpr fun b hb => ?_
      rcases List.mem_append.mp hb with hb | hb
      · have howner : b.start.owner ≠ some t := fun h => hnot (run.linked.owner b hb t h)
        unfold spanIn?
        split
        · exact if_neg howner
        · rfl
      · rw [List.mem_singleton.mp hb]
        rfl

/-- After every run the counters and the spans of a transaction are what its starts make them. -/
theorem Run.tally (run : Run moves w) (held : w.Holds (.transaction t)) : Tally moves w t := by
  induction run with
  | init =>
    obtain ⟨b, hb, -⟩ := held
    cases hb
  | @next moves w run m allowed ih =>
    by_cases hheld : w.Holds (.transaction t)
    · exact (ih hheld).move run.linked hheld allowed
    · -- Only a start gives a transaction that was not there before.
      cases m with
      | addGenerator | addTracer | call => exact absurd held hheld
      | start s now =>
        have hx : (s.run w.agent now).1 = .transaction t := (holds_born.mp held).resolve_left hheld
        exact run.tally_new (s.run_outcome w.agent now) hheld hx

/-- Of the starts of spans in a transaction before it ended, the first ones up to its limit gave live spans, and all
other starts in it, whether before or after its end, gave dropped ones. The counters tell just this about the starts
before the end, and when the transaction ends, its record tells the same. -/
theorem first_starts_are_live (run : Run moves w) (held : w.Holds (.transaction t)) :
    let counted := Move.startsBeforeEnd t moves
    let live := min counted (if t.isSampled then t.maxSpans else 0)
    w.agent.spanCount t = ⟨live, counted - live⟩ ∧
      (w.spansIn t).map Span.isDropped =
        List.replicate live false ++ List.replicate (moves.countP (Move.startsIn t) - live) true ∧
      (moves.any (Move.ends t) = false → ∀ ending now, ∃ d,
        Agent.endTransaction t ending now w.agent =
          Agent.emit t.tracer (.transaction (Agent.transactionRecord t d ⟨live, counted - live⟩
              (ending.duration t.start now)))
            (w.agent.setTransaction t { data := none, count := ⟨live, counted - live⟩ })) := by
  have htally := run.tally held
  refine ⟨htally.count, htally.spans, fun hopen ending now => ?_⟩
  have hended : (w.agent.transaction t).data.isNone = false := htally.ended.trans hopen
  obtain ⟨d, hdata⟩ := Option.isSome_iff_exists.mp (Option.isNone_eq_false_iff.mp hended)
  refine ⟨d, ?_⟩
  rw [Agent.endTransaction_of_some hdata, htally.count]
  have hrow : { w.agent.transaction t with data := none } = (⟨none, w.agent.spanCount t⟩ : TransactionState) := rfl
  rw [hrow, htally.count]
  rfl

theorem first_starts_are_live_in_sampleRun :
    Run sampleMoves sampleProcess ∧ sampleProcess.Holds (.transaction sampleTask) ∧
      sampleProcess.agent.spanCount sampleTask = ⟨2, 1⟩ ∧
      (sampleProcess.spansIn sampleTask).map Span.isDropped = [false, false, true, true] := by
  have held : sampleProcess.Holds (.transaction sampleTask) := ⟨_, List.mem_cons_self, rfl⟩
  have hfirst := first_starts_are_live sampleRun held
  have hspan : sampleSpan.transaction = some sampleTask := rfl
  have hmoves : Move.startsBeforeEnd sampleTask sampleMoves = 3 ∧
      sampleMoves.countP (Move.startsIn sampleTask) = 4 := by
    simp [sampleMoves, Move.startsBeforeEnd, Move.startsIn, Move.ends, Start.owner, Call.ended, hspan]
  have hlimit : (if sampleTask.isSampled then sampleTask.maxSpans else 0) = 2 := rfl
  rw [hmoves.1, hmoves.2, hlimit] at hfirst
  exact ⟨sampleRun, held, hfirst.1, hfirst.2.1⟩

end Process
end Tracing
