import Tracing.Proofs.Agent.Emitting
import Tracing.Proofs.Agent.SpanStarts

/-! # What a process holds after a run

What a process holds fits together after every run (`Process.Linked`): a span belongs to the transaction in which it
was started, and the process holds that transaction. Nothing is asked of the sources of identifiers for that, and
nothing of calls, so the same holds of the processes that come about by steps. -/

namespace Tracing.Process

variable {P : Type}

theorem Holds.move [Processor P] {w : Process P} {x : Handle} (h : w.Holds x) (m : Move P) : (w.move m).Holds x := by
  cases m with
  | start s now => exact holds_born.mpr (.inl h)
  | addGenerator | addTracer | call => exact h

/-- What a process holds fits together. -/
structure Linked (w : Process P) : Prop extends Slots w where
  placed : ∀ b ∈ w.births, ∀ s, b.handle = .span s → s.transaction = b.start.owner
  owner : ∀ b ∈ w.births, ∀ t, b.start.owner = some t → w.Holds (.transaction t)

namespace Linked
variable {w : Process P}

theorem init : Linked ({} : Process P) where
  slot := by rintro t ⟨b, hb, -⟩; cases hb
  unique := by rintro t u ⟨b, hb, -⟩; cases hb
  placed b hb := by cases hb
  owner b hb := by cases hb

theorem holds_transaction (hw : w.Linked) (s : Span) (t : Transaction) (held : w.Holds (.span s))
    (hs : s.transaction = some t) : w.Holds (.transaction t) := by
  obtain ⟨b, hb, hbs⟩ := held
  exact hw.owner b hb t ((hw.placed b hb s hbs).symm.trans hs)

/-- A span is started in a transaction that the process holds. -/
theorem holds_owner (hw : w.Linked) {s : Start} (permitted : w.Permits s) {t : Transaction}
    (howner : s.owner = some t) : w.Holds (.transaction t) := by
  cases s with
  | transaction | transactionFrom => cases howner
  | span u name type options => exact Option.some.inj howner ▸ permitted.1
  | child parent name type => exact hw.holds_transaction parent t permitted howner
  | spanIn cx name type =>
    have hactive := permitted.activeHeld hw.holds_transaction
    change cx.spanOwner = some t at howner
    unfold Context.spanOwner at howner
    cases hspan : cx.span with
    | some parent =>
      rw [hspan] at howner
      exact hw.holds_transaction parent t (hactive.span parent hspan).1 howner
    | none =>
      rw [hspan] at howner
      exact hactive.transaction t howner

/-- A span is started under a span that the process holds, if under any. -/
theorem holds_parent (hw : w.Linked) {s : Start} (permitted : w.Permits s) {p : Span}
    (hp : s.spanOptions.parent = some p) : w.Holds (.span p) := by
  cases s with
  | transaction | transactionFrom => cases hp
  | span u name type options => exact permitted.2 p hp
  | child parent name type => exact Option.some.inj hp ▸ permitted
  | spanIn cx name type => exact ((Derived.activeHeld hw.holds_transaction permitted).span p hp).1

/-- A span that belongs to a transaction is one of its own. -/
theorem transaction_of_belongsTo (hw : w.Linked) {t : Transaction} (ht : w.Holds (.transaction t)) {s : Span}
    (hs : w.Holds (.span s)) (h : s.belongsTo t = true) : s.transaction = some t := by
  unfold Span.belongsTo at h
  cases hown : s.transaction with
  | none =>
    rw [hown] at h
    cases h
  | some u =>
    rw [hown] at h
    rw [hw.unique u t (hw.holds_transaction s u hs hown) ht (by simpa [Transaction.same] using h)]

/-- The same births, and as many transactions. -/
theorem frame (hw : w.Linked) {a : Agent P} (hsize : a.transactions.size = w.agent.transactions.size) :
    Linked { w with agent := a } where
  toSlots := hw.toSlots.same (fun _ ht => ht) hsize
  placed := hw.placed
  owner := hw.owner

/-- One birth more. -/
theorem born (hw : w.Linked) {b : Birth} {a : Agent P} (hslots : (w.born b a).Slots)
    (placed : ∀ s, b.handle = .span s → s.transaction = b.start.owner)
    (owner : ∀ t, b.start.owner = some t → w.Holds (.transaction t)) : (w.born b a).Linked where
  toSlots := hslots
  placed b' hb' s hs := by
    rcases mem_born.mp hb' with hb' | rfl
    · exact hw.placed b' hb' s hs
    · exact placed s hs
  owner b' hb' t ht := by
    refine holds_born.mpr (.inl ?_)
    rcases mem_born.mp hb' with hb' | rfl
    · exact hw.owner b' hb' t ht
    · exact owner t ht

theorem outcome (hw : w.Linked) {s : Start} (permitted : w.Permits s) {now : Instant} {x : Handle} {a : Agent P}
    (h : s.Outcome w.agent now x a) : (w.born ⟨s, x⟩ a).Linked := by
  have howner : ∀ t, s.owner = some t → w.Holds (.transaction t) := fun t ht => hw.holds_owner permitted ht
  cases h with
  | transaction owner slot transactions =>
    refine hw.born (hw.toSlots.bornTransaction slot ?_) nofun howner
    rw [transactions, Array.size_push]
  | span owner h =>
    refine hw.born (hw.toSlots.same (fun _ => holds_bornSpan) h.counted.size) (fun s' hs' => ?_) howner
    rw [← Handle.span.inj hs']
    exact h.transaction.trans owner.symm
  | outside owner =>
    refine hw.born (hw.toSlots.same (fun _ => holds_bornSpan) rfl) (fun s' hs' => ?_) howner
    rw [← Handle.span.inj hs']
    exact owner.symm

/-- A start uses what the process has; nothing is asked of other moves. -/
theorem move [Processor P] (hw : w.Linked) {m : Move P} (permitted : ∀ s now, m = .start s now → w.Permits s) :
    (w.move m).Linked := by
  cases m with
  | addGenerator g => exact hw.frame rfl
  | addTracer state => exact hw.frame rfl
  | start s now => exact hw.outcome (permitted s now rfl) (s.run_outcome w.agent now)
  | call c => exact hw.frame (c.frame w.agent).transactions

end Linked

theorem Run.linked [Processor P] {moves : List (Move P)} {w : Process P} (run : Run moves w) : w.Linked := by
  induction run with
  | init => exact .init
  | next _ m allowed ih =>
    refine ih.move fun s now hm => ?_
    subst hm
    exact allowed

theorem Reachable.linked [Processor P] {w : Process P} (h : Reachable w) : w.Linked := by
  induction h with
  | init => exact .init
  | next _ step ih =>
    obtain ⟨m, takes, rfl⟩ := step_iff.mp step
    refine ih.move fun s now hm => ?_
    subst hm
    exact takes.1

/-- What descends from a root is in its trace after a run, too, if tracers are added before they were asked anything
and the sources name what they hand out. -/
theorem Run.sound [Processor P] {moves : List (Move P)} {w : Process P} (run : Run moves w)
    (unasked : ∀ state, .addTracer state ∈ moves → state.asked = [])
    (named : Throughout (fun w m => ∀ s now, m = .start s now → w.agent.NamesNext) moves) : w.Sound :=
  (run.reachable unasked named).sound

/-! A run with a transaction that may start two spans: one, a child of it, and a third that is dropped. The transaction
ends, and a span is started in it after that. -/

def sampleSetup : Process (DirectProcessor MemoryStore) where
  agent := ((Agent.empty.addGenerator .increment).2.addTracer
    { settings := { maxSpans := 2 }, sampler := ⟨fun _ _ _ => ⟨true, 1.0⟩⟩, generator := 0 }).2

def sampleTask : Transaction := (sampleSetup.agent.startTransaction ⟨0⟩ "GET /" "request" {} ⟨5⟩).1

def sampleBegun : Process (DirectProcessor MemoryStore) :=
  sampleSetup.move (.start (.transaction ⟨0⟩ "GET /" "request" {}) ⟨5⟩)

def sampleSpan : Span := (sampleBegun.agent.startSpan sampleTask "query" "db" {} ⟨7⟩).1

def sampleNested : Process (DirectProcessor MemoryStore) :=
  (sampleBegun.move (.start (.span sampleTask "query" "db" {}) ⟨7⟩)).move (.start (.child sampleSpan "row" "db") ⟨6⟩)

def sampleOver : Process (DirectProcessor MemoryStore) :=
  ((sampleNested.move (.call (.endSpan sampleSpan .now ⟨8⟩))).move (.start (.child sampleSpan "row" "db") ⟨9⟩)).move
    (.call (.endTransaction sampleTask .now ⟨10⟩))

def sampleProcess : Process (DirectProcessor MemoryStore) :=
  sampleOver.move (.start (.span sampleTask "late" "db" {}) ⟨11⟩)

def sampleMoves : List (Move (DirectProcessor MemoryStore)) :=
  [.addGenerator .increment,
    .addTracer { settings := { maxSpans := 2 }, sampler := ⟨fun _ _ _ => ⟨true, 1.0⟩⟩, generator := 0 },
    .start (.transaction ⟨0⟩ "GET /" "request" {}) ⟨5⟩, .start (.span sampleTask "query" "db" {}) ⟨7⟩,
    .start (.child sampleSpan "row" "db") ⟨6⟩, .call (.endSpan sampleSpan .now ⟨8⟩),
    .start (.child sampleSpan "row" "db") ⟨9⟩, .call (.endTransaction sampleTask .now ⟨10⟩),
    .start (.span sampleTask "late" "db" {}) ⟨11⟩]

theorem sampleNested_run : Run (sampleMoves.take 5) sampleNested := by
  have hsetup : Run (sampleMoves.take 2) sampleSetup :=
    (Run.init.next (.addGenerator _) trivial).next (.addTracer _) trivial
  have hbegun : Run (sampleMoves.take 3) sampleBegun := hsetup.next _ (show 0 < 1 by decide)
  have htask : sampleBegun.Holds (.transaction sampleTask) := ⟨_, List.mem_cons_self, rfl⟩
  have hspan : Run (sampleMoves.take 4) (sampleBegun.move (.start (.span sampleTask "query" "db" {}) ⟨7⟩)) :=
    hbegun.next _ ⟨htask, nofun⟩
  exact hspan.next _ ⟨_, List.mem_cons_of_mem _ List.mem_cons_self, rfl⟩

theorem sampleTask_held : sampleNested.Holds (.transaction sampleTask) := ⟨_, List.mem_cons_self, rfl⟩

theorem sampleSpan_held : sampleNested.Holds (.span sampleSpan) :=
  ⟨_, List.mem_cons_of_mem _ List.mem_cons_self, rfl⟩

theorem sampleRun : Run sampleMoves sampleProcess := by
  have hended := sampleNested_run.next (.call (.endSpan sampleSpan .now ⟨8⟩)) sampleSpan_held
  have hdropped := hended.next (.start (.child sampleSpan "row" "db") ⟨9⟩) (sampleSpan_held.move _)
  have hover : Run (sampleMoves.take 8) sampleOver := hdropped.next (.call (.endTransaction sampleTask .now ⟨10⟩))
    ((sampleTask_held.move (.call _)).move (.start _ _))
  exact hover.next (.start (.span sampleTask "late" "db" {}) ⟨11⟩)
    ⟨((sampleTask_held.move (.call _)).move (.start _ _)).move (.call _), nofun⟩

end Tracing.Process
