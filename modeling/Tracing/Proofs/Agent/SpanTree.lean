import Mathlib.Data.List.Nodup
import Tracing.Proofs.Agent.SpanCounts

/-! # The tree of spans

A transaction and its live spans are the nodes of a tree: the parent of a live span is a node of its transaction that
was started before it, and starts no later. A dropped span stands for such a node. The invariant (`Process.Rooted`) says
this of every birth and those before it. It rests on the limit: under a dropped span no live one is started any more. -/

namespace Tracing

/-- Something with an identifier of its own: a transaction or a live span. -/
inductive Node where
  | transaction (t : Transaction)
  | span (s : LiveSpan)

namespace Node

def traceContext : Node → TraceContext
  | transaction t => t.traceContext
  | span s => s.traceContext

/-- The identifier of the node. -/
def id (x : Node) : SpanId := x.traceContext.spanId

def start : Node → Instant
  | transaction t => t.start
  | span s => s.start

/-- The transaction of the node. -/
def root : Node → Transaction
  | transaction t => t
  | span s => s.transaction

end Node

/-- The node that a handle is; a dropped span is none. -/
def Handle.node? : Handle → Option Node
  | .transaction t => some (.transaction t)
  | .span (.live s) => some (.span s)
  | .span (.dropped ..) => none

/-- The nodes that were born, oldest first. -/
def nodesOf (births : List Birth) : List Node := births.filterMap fun b => b.handle.node?

namespace Process

variable {P : Type} {w : Process P} {t : Transaction} {before after : List Birth} {b : Birth}

theorem mem_nodesOf {x : Node} : x ∈ nodesOf before ↔ ∃ b ∈ before, b.handle.node? = some x := List.mem_filterMap

theorem transaction_mem_nodesOf : .transaction t ∈ nodesOf before ↔ ∃ b ∈ before, b.handle = .transaction t := by
  rw [mem_nodesOf]
  refine exists_congr fun b => and_congr_right fun _ => ?_
  rcases b.handle with u | (s | ⟨tc, u⟩) <;> simp [Handle.node?]

theorem span_mem_nodesOf {s : LiveSpan} : .span s ∈ nodesOf before ↔ ∃ b ∈ before, b.handle = .span (.live s) := by
  rw [mem_nodesOf]
  refine exists_congr fun b => and_congr_right fun _ => ?_
  rcases b.handle with u | (r | ⟨tc, u⟩) <;> simp [Handle.node?]

theorem nodesOf_mono {more : List Birth} (hsub : before ⊆ more) : nodesOf before ⊆ nodesOf more := by
  intro x hx
  obtain ⟨b, hb, hbx⟩ := mem_nodesOf.mp hx
  exact mem_nodesOf.mpr ⟨b, hsub hb, hbx⟩

/-! ### Every birth and those before it -/

/-- A live span stands under an older node of its transaction, a dropped one stands for one, and a span outside of any
transaction names nothing. -/
def Under (before : List Birth) : Handle → Prop
  | .transaction _ => True
  | .span (.live s) => ∃ x ∈ nodesOf before, x.root = s.transaction ∧ x.id = s.parentId ∧
      x.start.nanos ≤ s.start.nanos ∧ s.transaction.start.nanos ≤ s.start.nanos
  | .span (.dropped tc (some t)) => ∃ x ∈ nodesOf before, x.root = t ∧ x.traceContext = tc
  | .span (.dropped tc none) => tc = .none

/-- Every birth is under the births before it. -/
def Rooted (births : List Birth) : Prop := ∀ before b after, births = before ++ b :: after → Under before b.handle

theorem Under.mono {more : List Birth} (hsub : before ⊆ more) {x : Handle} (h : Under before x) : Under more x := by
  unfold Under at h ⊢
  split at h
  · trivial
  · exact h.imp fun y hy => ⟨nodesOf_mono hsub hy.1, hy.2⟩
  · exact h.imp fun y hy => ⟨nodesOf_mono hsub hy.1, hy.2⟩
  · exact h

namespace Rooted
variable {births : List Birth}

theorem nil : Rooted [] := fun before b after h => by simp at h

theorem under (h : Rooted births) (hb : b ∈ births) : Under births b.handle := by
  obtain ⟨before, after, heq⟩ := List.append_of_mem hb
  exact (h before b after heq).mono (heq ▸ List.subset_append_left _ _)

theorem concat (h : Rooted births) (hb : Under births b.handle) : Rooted (births ++ [b]) := by
  intro before b' after heq
  rcases List.eq_nil_or_concat after with rfl | ⟨after, last, rfl⟩
  · obtain ⟨rfl, hlast⟩ := List.append_inj' heq rfl
    exact (List.cons.inj hlast).1 ▸ hb
  · have hconcat : births ++ [b] = (before ++ b' :: after) ++ [last] := by simpa using heq
    exact h before b' after (List.append_inj' hconcat rfl).1

end Rooted

/-! ### The tree -/

/-- Whichever way parents are followed from the node, it ends at the transaction. -/
inductive LeadsTo (w : Process P) (t : Transaction) : Node → Prop where
  | root : LeadsTo w t (.transaction t)
  | up {s : LiveSpan} (found : ∃ x ∈ nodesOf w.births, x.id = s.parentId)
      (all : ∀ x ∈ nodesOf w.births, x.id = s.parentId → LeadsTo w t x) : LeadsTo w t (.span s)

/-- The transactions and live spans of a process are trees, and nothing else is handed on. -/
structure SpanTree (w : Process P) : Prop where
  /-- The parent of a live span is an older node of its transaction, and neither it nor the transaction starts later. -/
  parent : ∀ before b after s, w.births = before ++ b :: after → b.handle = .span (.live s) →
    ∃ x ∈ nodesOf before, x.root = s.transaction ∧ x.id = s.parentId ∧ x.start.nanos ≤ s.start.nanos ∧
      s.transaction.start.nanos ≤ s.start.nanos ∧ ∀ y ∈ nodesOf w.births, y.id = s.parentId → y = x
  leads : ∀ s, w.Holds (.span (.live s)) → w.LeadsTo s.transaction (.span s)
  /-- A parent that does not belong to the transaction counts as none. -/
  foreign : ∀ t p, w.Holds (.transaction t) → w.Holds (.span p) → p.transaction ≠ some t →
    ∀ name type start now, w.agent.startSpan t name type { parent := some p, start } now =
      w.agent.startSpan t name type { start } now
  /-- A dropped span stands for an older node of its transaction. -/
  dropped : ∀ before b after tc t, w.births = before ++ b :: after → b.handle = .span (.dropped tc (some t)) →
    ∃ x ∈ nodesOf before, x.root = t ∧ x.traceContext = tc
  /-- A span outside of any transaction names nothing. -/
  outside : ∀ tc, w.Holds (.span (.dropped tc none)) → tc = .none
  /-- A context in which something is active hands on the trace context of a node; any other one that of its caller. -/
  handedOn : ∀ cx tc, w.Derived cx → cx.traceContext = some tc →
    (∃ x ∈ nodesOf w.births, x.traceContext = tc) ∨ cx.hasActiveTrace = false ∧ cx.remote = some tc

/-- By induction on what was born before the span. -/
theorem Rooted.leadsTo (h : Rooted w.births) (distinct : ((nodesOf w.births).map Node.id).Nodup) {s : LiveSpan}
    (heq : w.births = before ++ b :: after) (hs : b.handle = .span (.live s)) : w.LeadsTo s.transaction (.span s) := by
  induction hlength : before.length using Nat.strong_induction_on generalizing before b after s with
  | _ n ih =>
    have hunder := h before b after heq
    rw [hs] at hunder
    obtain ⟨x, hx, hroot, hid, -, -⟩ := hunder
    have hall : x ∈ nodesOf w.births := nodesOf_mono (heq ▸ List.subset_append_left _ _) hx
    refine .up ⟨x, hall, hid⟩ fun y hy hyid => ?_
    rw [List.inj_on_of_nodup_map distinct hy hall (hyid.trans hid.symm), ← hroot]
    cases x with
    | transaction t => exact .root
    | span q =>
      obtain ⟨b', hb', hq⟩ := span_mem_nodesOf.mp hx
      obtain ⟨before', after', hbefore⟩ := List.append_of_mem hb'
      have hshorter : before'.length < n := by
        rw [← hlength, hbefore]
        simp
      have hsplit : w.births = before' ++ b' :: (after' ++ b :: after) := by
        rw [heq, hbefore]
        simp
      exact ih _ hshorter hsplit hq rfl

/-- A span has the trace context of a node, or names nothing. -/
theorem Rooted.node_of_span (h : Rooted w.births) {p : Span} (held : w.Holds (.span p)) :
    (∃ x ∈ nodesOf w.births, x.traceContext = p.traceContext) ∨ p.traceContext = .none := by
  obtain ⟨b, hb, hbp⟩ := id held
  have hunder := h.under hb
  rw [hbp] at hunder
  match p, hunder with
  | .live q, _ => exact .inl ⟨_, span_mem_nodesOf.mpr held, rfl⟩
  | .dropped _ (some _), ⟨x, hx, _, hcontext⟩ => exact .inl ⟨x, hx, hcontext⟩
  | .dropped _ none, hnone => exact .inr hnone

theorem Linked.handedOn (hw : w.Linked) (h : Rooted w.births) {cx : Context} (derived : w.Derived cx)
    {tc : TraceContext} (htc : cx.traceContext = some tc) :
    (∃ x ∈ nodesOf w.births, x.traceContext = tc) ∨ cx.hasActiveTrace = false ∧ cx.remote = some tc := by
  have hactive := derived.activeHeld hw.holds_transaction
  obtain ⟨hfirst, -⟩ := Option.filter_eq_some_iff.mp htc
  cases hspan : (cx.span.map Span.traceContext).filter TraceContext.isValid with
  | some own =>
    rw [hspan] at hfirst
    obtain rfl : own = tc := Option.some.inj hfirst
    obtain ⟨hmap, hvalid⟩ := Option.filter_eq_some_iff.mp hspan
    obtain ⟨p, hp, rfl⟩ := Option.map_eq_some_iff.mp hmap
    refine .inl ((h.node_of_span (hactive.span p hp).1).resolve_right fun hnone => ?_)
    rw [hnone] at hvalid
    exact absurd hvalid (by decide)
  | none =>
    rw [hspan] at hfirst
    cases ht : cx.transaction with
    | some t =>
      rw [ht] at hfirst
      obtain rfl : t.traceContext = tc := Option.some.inj hfirst
      exact .inl ⟨_, transaction_mem_nodesOf.mpr (hactive.transaction t ht), rfl⟩
    | none =>
      rw [ht] at hfirst
      refine .inr ⟨?_, hfirst⟩
      rw [Context.hasActiveTrace, ht]
      rfl

/-! ### Runs -/

/-- The node under which a span is started in a transaction. Unless a dropped span is its parent, it is known when the
node started. -/
theorem Linked.parentNode (hw : w.Linked) (h : Rooted w.births) (held : w.Holds (.transaction t))
    {options : SpanOptions} (hparent : ∀ p, options.parent = some p → w.Holds (.span p)) :
    ∃ x ∈ nodesOf w.births, x.root = t ∧ x.traceContext = Agent.parentContext t options ∧
      (x.start = Agent.parentStart t options ∧ t.start.nanos ≤ x.start.nanos ∨
        ∃ p ∈ w.spansIn t, p.isDropped = true) := by
  unfold Agent.parentContext Agent.parentStart
  cases hp : options.parent.filter fun s => s.belongsTo t with
  | none => exact ⟨_, transaction_mem_nodesOf.mpr held, rfl, rfl, .inl ⟨rfl, Int.le_refl _⟩⟩
  | some p =>
    obtain ⟨hgiven, hbelongs⟩ := Option.filter_eq_some_iff.mp hp
    have hheld := hparent p hgiven
    have howner := hw.transaction_of_belongsTo held hheld hbelongs
    obtain ⟨b, hb, hbp⟩ := id hheld
    have hunder := h.under hb
    rw [hbp] at hunder
    cases p with
    | live q =>
      obtain rfl := Option.some.inj howner
      obtain ⟨-, -, -, -, -, hstart⟩ := hunder
      exact ⟨_, span_mem_nodesOf.mpr hheld, rfl, rfl, .inl ⟨rfl, hstart⟩⟩
    | dropped tc u =>
      obtain rfl : u = some t := howner
      obtain ⟨x, hx, hroot, hcontext⟩ := hunder
      exact ⟨x, hx, hroot, hcontext, .inr ⟨_, hw.mem_spansIn hheld rfl, rfl⟩⟩

variable [Processor P] {moves : List (Move P)}

theorem Run.under (run : Run moves w) (h : Rooted w.births) {s : Start} (permitted : w.Permits s) {now : Instant}
    {x : Handle} {a : Agent P} (ho : s.Outcome w.agent now x a) : Under w.births x := by
  have hw := run.linked
  have hparent : ∀ p, s.spanOptions.parent = some p → w.Holds (.span p) := fun p hp => hw.holds_parent permitted hp
  cases ho with
  | transaction => trivial
  | @span t owner y b hspan =>
    have held := hw.holds_owner permitted owner
    obtain ⟨x, hx, hroot, hcontext, hstart⟩ := hw.parentNode h held hparent
    cases hspan with
    | ended => exact ⟨x, hx, hroot, hcontext⟩
    | refused => exact ⟨x, hx, hroot, hcontext⟩
    | live isOpen free =>
      rcases hstart with ⟨hstart, hroots⟩ | ⟨p, hp, hdropped⟩
      · have hlatest : x.start.nanos ≤ ((s.spanOptions.start.getD now).latest x.start).nanos := Int.le_max_right _ _
        rw [← hstart]
        exact ⟨x, hx, hroot, congrArg _ hcontext, hlatest, Int.le_trans hroots hlatest⟩
      · -- A dropped parent means that the limit was reached before, so this span cannot be live.
        exact absurd ((run.tally held).full_of_dropped hp hdropped isOpen) (Nat.not_le_of_lt free)
  | outside owner =>
    show (s.spanOptions.parent.map Span.traceContext).getD .none = .none
    cases hp : s.spanOptions.parent with
    | none => rfl
    | some p =>
      obtain ⟨b, hb, hbp⟩ := hparent p hp
      have hunder := h.under hb
      rw [hbp] at hunder
      have houtside := s.transaction_of_outside owner hp
      cases p with
      | live q => cases houtside
      | dropped tc u =>
        obtain rfl : u = none := houtside
        exact hunder

theorem Run.rooted (run : Run moves w) : Rooted w.births := by
  induction run with
  | init => exact .nil
  | @next moves w run m allowed ih =>
    cases m with
    | addGenerator | addTracer | call => exact ih
    | start s now => exact ih.concat (run.under ih allowed (s.run_outcome w.agent now))

/-- With identifiers that are all distinct, the transactions and live spans of a process are trees after every run. -/
theorem spans_form_trees (run : Run moves w) (distinct : ((nodesOf w.births).map Node.id).Nodup) : w.SpanTree := by
  have hw := run.linked
  have hrooted := run.rooted
  constructor
  case parent =>
    intro before b after s heq hs
    have hunder := hrooted before b after heq
    rw [hs] at hunder
    obtain ⟨x, hx, hroot, hid, hstart, hroots⟩ := hunder
    refine ⟨x, hx, hroot, hid, hstart, hroots, fun y hy hyid => ?_⟩
    exact List.inj_on_of_nodup_map distinct hy (nodesOf_mono (heq ▸ List.subset_append_left _ _) hx)
      (hyid.trans hid.symm)
  case leads =>
    intro s held
    obtain ⟨b, hb, hs⟩ := held
    obtain ⟨before, after, heq⟩ := List.append_of_mem hb
    exact hrooted.leadsTo distinct heq hs
  case foreign =>
    intro t p ht hp hne name type start now
    refine Agent.startSpan_of_foreign (Bool.eq_false_iff.mpr fun hbelongs => hne ?_) start
    exact hw.transaction_of_belongsTo ht hp hbelongs
  case dropped =>
    intro before b after tc t heq hs
    have hunder := hrooted before b after heq
    rw [hs] at hunder
    exact hunder
  case outside =>
    intro tc held
    obtain ⟨b, hb, hs⟩ := held
    have hunder := hrooted.under hb
    rw [hs] at hunder
    exact hunder
  case handedOn => exact fun cx tc derived htc => hw.handedOn hrooted derived htc

/-- The child that was to start before its parent starts with it, and leads to the transaction. -/
theorem spans_form_trees_in_sampleRun :
    Run sampleMoves sampleProcess ∧ ((nodesOf sampleProcess.births).map Node.id).Nodup ∧
      ∃ s, sampleProcess.Holds (.span (.live s)) ∧ s.start = ⟨7⟩ ∧ sampleProcess.LeadsTo sampleTask (.span s) := by
  have hids : (nodesOf sampleProcess.births).map Node.id = [.ofNat 1, .ofNat 3, .ofNat 4] := rfl
  have distinct : ((nodesOf sampleProcess.births).map Node.id).Nodup := hids ▸ (by decide)
  have htree := spans_form_trees sampleRun distinct
  obtain ⟨s, hs, hstart, htask⟩ : ∃ s, sampleProcess.Holds (.span (.live s)) ∧ s.start = ⟨7⟩ ∧
      s.transaction = sampleTask :=
    ⟨_, ⟨_, List.mem_cons_of_mem _ (List.mem_cons_of_mem _ List.mem_cons_self), rfl⟩, rfl, rfl⟩
  exact ⟨sampleRun, distinct, s, hs, hstart, htask ▸ htree.leads s hs⟩

end Process
end Tracing
