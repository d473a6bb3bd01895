import Tracing.Proofs.Agent.Inheritance
import Tracing.Proofs.Agent.Tables

/-! # Starts of spans

Every start of a span, on a transaction, on another span or through a context, comes down to one in the transaction
that owns it (`Start.owner`), or gives a span outside of any transaction. In its transaction a span is dropped if the
transaction has ended, dropped and counted if it is not sampled or has reached its limit, and live otherwise. -/

namespace Tracing

/-- The transaction in which a span is started. -/
def Start.owner : Start → Option Transaction
  | transaction .. | transactionFrom .. => none
  | span t _ _ _ => some t
  | child parent _ _ => parent.transaction
  | spanIn cx _ _ => cx.spanOwner

/-- What a span is started with in its transaction. -/
def Start.spanOptions : Start → SpanOptions
  | transaction .. | transactionFrom .. => {}
  | span _ _ _ options => options
  | child parent _ _ => { parent := some parent }
  | spanIn cx _ _ => { parent := cx.span }

/-- Outside of any transaction a span is started under none but one that is outside as well. -/
theorem Start.transaction_of_outside {s : Start} (howner : s.owner = none) {p : Span}
    (hp : s.spanOptions.parent = some p) : p.transaction = none := by
  cases s with
  | transaction | transactionFrom => cases hp
  | span => cases howner
  | child parent name type => exact Option.some.inj hp ▸ howner
  | spanIn cx name type =>
    change cx.spanOwner = none at howner
    change cx.span = some p at hp
    unfold Context.spanOwner at howner
    rwa [hp] at howner

/-- The most spans of the transaction that are live. -/
def Transaction.spanLimit (t : Transaction) : Nat := if t.isSampled then t.maxSpans else 0

namespace Agent

variable {P : Type} {a b : Agent P} {t u : Transaction} {name type : String} {options : SpanOptions} {now : Instant}

/-! ### One start in a transaction -/

/-- When the parent of a span of the transaction started. -/
def parentStart (t : Transaction) (options : SpanOptions) : Instant :=
  ((options.parent.filter fun s => s.belongsTo t).bind Span.start).getD t.start

/-- What comes of a start of a span in a transaction. -/
inductive SpanOutcome (a : Agent P) (t : Transaction) (options : SpanOptions) (now : Instant) : Span → Agent P → Prop
  | ended (h : a.hasEnded t = true) : SpanOutcome a t options now (.dropped (parentContext t options) (some t)) a
  | refused (isOpen : a.hasEnded t = false) (full : t.spanLimit ≤ (a.spanCount t).started) :
      SpanOutcome a t options now (.dropped (parentContext t options) (some t)) (a.countDropped t)
  | live (isOpen : a.hasEnded t = false) (free : (a.spanCount t).started < t.spanLimit) {slot : Nat} {id : SpanId}
      {b : Agent P} (transactions : b.transactions = (a.countStarted t).transactions) :
      SpanOutcome a t options now
        (.live { slot, traceContext := (parentContext t options).withSpanId id,
                 parentId := (parentContext t options).spanId,
                 start := (options.start.getD now).latest (parentStart t options), transaction := t }) b

theorem startSpan_outcome (a : Agent P) (t : Transaction) (name type : String) (options : SpanOptions)
    (now : Instant) : SpanOutcome a t options now (a.startSpan t name type options now).1
      (a.startSpan t name type options now).2 := by
  unfold startSpan
  dsimp only
  split
  · exact .ended ‹_›
  rename_i hopen
  have hopen : a.hasEnded t = false := by simpa using hopen
  split
  · rename_i hfull
    refine .refused hopen ?_
    unfold Transaction.spanLimit
    cases hsampled : t.isSampled with
    | false => exact Nat.zero_le _
    | true => simpa [hsampled] using hfull
  · rename_i hfree
    obtain ⟨hsampled, hfree⟩ : t.isSampled = true ∧ (a.spanCount t).started < t.maxSpans := by simpa using hfree
    refine .live hopen ?_ rfl
    rwa [Transaction.spanLimit, if_pos hsampled]

/-- A parent of another transaction counts as none. -/
theorem startSpan_of_foreign {p : Span} (h : p.belongsTo t = false) (start : Option Instant) :
    a.startSpan t name type { parent := some p, start } now = a.startSpan t name type { start } now := by
  unfold startSpan
  simp [Option.filter, h]

/-! ### Counters -/

theorem spanCount_setTransaction (a : Agent P) (t u : Transaction) (state : TransactionState) :
    (a.setTransaction t state).spanCount u =
      if u.slot = t.slot ∧ t.slot < a.transactions.size then state.count else a.spanCount u := by
  unfold spanCount
  rw [transaction_setTransaction]
  split <;> rfl

theorem hasEnded_setTransaction (a : Agent P) (t u : Transaction) (state : TransactionState) :
    (a.setTransaction t state).hasEnded u =
      if u.slot = t.slot ∧ t.slot < a.transactions.size then state.data.isNone else a.hasEnded u := by
  unfold hasEnded
  rw [transaction_setTransaction]
  split <;> rfl

theorem spanCount_of_transactions (h : b.transactions = a.transactions) (u : Transaction) :
    b.spanCount u = a.spanCount u := congrArg (fun rows => (Array.getD rows u.slot default).count) h

theorem hasEnded_of_transactions (h : b.transactions = a.transactions) (u : Transaction) :
    b.hasEnded u = a.hasEnded u := congrArg (fun rows => (Array.getD rows u.slot default).data.isNone) h

theorem SameAttributes.hasEnded (h : SameAttributes a b) (u : Transaction) : b.hasEnded u = a.hasEnded u :=
  congrArg Option.isNone (h.data u)

end Agent

/-- The counters after one more span was counted. -/
def SpanCount.add (c : SpanCount) (dropped : Bool) : SpanCount :=
  if dropped then { c with dropped := c.dropped + 1 } else { c with started := c.started + 1 }

namespace Agent

variable {P : Type} {a b : Agent P} {t u : Transaction} {name type : String} {options : SpanOptions} {now : Instant}
  {s : Span}

/-- What a start of a span in a transaction does to the counters. -/
structure SpanCounted (a : Agent P) (t : Transaction) (s : Span) (b : Agent P) : Prop where
  dropped : s.isDropped = (a.hasEnded t || Decidable.decide (t.spanLimit ≤ (a.spanCount t).started))
  size : b.transactions.size = a.transactions.size
  ended : ∀ u, b.hasEnded u = a.hasEnded u
  others : ∀ u, u.slot ≠ t.slot → b.spanCount u = a.spanCount u
  own : t.slot < a.transactions.size →
    b.spanCount t = if a.hasEnded t then a.spanCount t else (a.spanCount t).add s.isDropped

theorem SpanOutcome.transaction (h : SpanOutcome a t options now s b) : s.transaction = some t := by
  cases h <;> rfl

theorem SpanOutcome.counted (h : SpanOutcome a t options now s b) : SpanCounted a t s b := by
  have hothers : ∀ {state : TransactionState} {u : Transaction}, u.slot ≠ t.slot →
      (a.setTransaction t state).spanCount u = a.spanCount u := by
    intro state u hu
    rw [spanCount_setTransaction, if_neg fun hslot => hu hslot.1]
  have hown : ∀ {state : TransactionState}, t.slot < a.transactions.size →
      (a.setTransaction t state).spanCount t = state.count := by
    intro state ht
    rw [spanCount_setTransaction, if_pos ⟨rfl, ht⟩]
  cases h with
  | ended h => exact ⟨by simp [Span.isDropped, h], rfl, fun _ => rfl, fun _ _ => rfl, fun _ => by rw [if_pos h]⟩
  | refused isOpen full =>
    have hsame : SameAttributes a (a.countDropped t) := sameAttributes_setTransaction a rfl
    refine ⟨by simp [Span.isDropped, isOpen, full], hsame.size, hsame.hasEnded, fun u => hothers, fun ht => ?_⟩
    rw [isOpen]
    exact hown ht
  | live isOpen free transactions =>
    have hsame : SameAttributes a (a.countStarted t) := sameAttributes_setTransaction a rfl
    refine ⟨by simp [Span.isDropped, isOpen, free], ?_, fun u => ?_, fun u hu => ?_, fun ht => ?_⟩
    · rw [transactions]
      exact hsame.size
    · rw [hasEnded_of_transactions transactions]
      exact hsame.hasEnded u
    · rw [spanCount_of_transactions transactions]
      exact hothers hu
    · rw [spanCount_of_transactions transactions, isOpen]
      exact hown ht

end Agent

/-! ### Every start -/

/-- What comes of a start. -/
inductive Start.Outcome {P : Type} (s : Start) (a : Agent P) (now : Instant) : Handle → Agent P → Prop
  | transaction (owner : s.owner = none) {t : Transaction} {b : Agent P} (slot : t.slot = a.transactions.size)
      (transactions : b.transactions = a.transactions.push { data := some { name := s.name, type := s.type } }) :
      Outcome s a now (.transaction t) b
  | span {t : Transaction} (owner : s.owner = some t) {x : Span} {b : Agent P}
      (h : Agent.SpanOutcome a t s.spanOptions now x b) : Outcome s a now (.span x) b
  | outside (owner : s.owner = none) :
      Outcome s a now (.span (.dropped ((s.spanOptions.parent.map Span.traceContext).getD .none) none)) a

theorem Start.run_outcome {P : Type} (s : Start) (a : Agent P) (now : Instant) :
    s.Outcome a now (s.run a now).1 (s.run a now).2 := by
  have hchild : ∀ {s : Start} {parent : Span} {name type : String}, s.owner = parent.transaction →
      s.spanOptions = { parent := some parent } →
        s.Outcome a now (.span (a.startChild parent name type now).1) (a.startChild parent name type now).2 := by
    intro s parent name type howner hoptions
    cases hparent : parent.transaction with
    | none =>
      have houtside : s.Outcome a now _ a := .outside (howner.trans hparent)
      rw [hoptions] at houtside
      rw [Agent.startChild_of_none hparent]
      exact houtside
    | some t =>
      have houtcome := Agent.startSpan_outcome a t name type { parent := some parent } now
      rw [← hoptions] at houtcome
      unfold Agent.startChild
      rw [hparent]
      exact hoptions ▸ .span (howner.trans hparent) houtcome
  cases s with
  | transaction tracer name type options =>
    cases (Start.run_adds a now (.transaction tracer name type options)).1 with
    | transaction slot transactions => exact .transaction rfl slot transactions
  | transactionFrom tracer name type cx =>
    cases (Start.run_adds a now (.transactionFrom tracer name type cx)).1 with
    | transaction slot transactions => exact .transaction rfl slot transactions
  | span t name type options => exact .span rfl (Agent.startSpan_outcome a t name type options now)
  | child parent name type => exact hchild rfl rfl
  | spanIn cx name type =>
    have howner : (Start.spanIn cx name type).owner = cx.spanOwner := rfl
    have hoptions : (Start.spanIn cx name type).spanOptions = { parent := cx.span } := rfl
    unfold Context.spanOwner at howner
    unfold Start.run
    dsimp only
    cases hspan : cx.span with
    | some parent =>
      obtain ⟨cx', h⟩ := Agent.startSpanIn_of_span hspan a name type now
      rw [hspan] at howner hoptions
      rw [h]
      exact hchild howner hoptions
    | none =>
      rw [hspan] at howner hoptions
      cases ht : cx.transaction with
      | some t =>
        obtain ⟨cx', h⟩ := Agent.startSpanIn_of_transaction hspan ht a name type now
        have houtcome := Agent.startSpan_outcome a t name type {} now
        rw [h]
        exact .span (howner.trans ht) (hoptions ▸ houtcome)
      | none =>
        have houtside : (Start.spanIn cx name type).Outcome a now _ a := .outside (howner.trans ht)
        rw [hoptions] at houtside
        rw [Agent.startSpanIn_of_none hspan ht]
        exact houtside

end Tracing
