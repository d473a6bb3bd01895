import Tracing.Processor.Direct
import Tracing.Proofs.Lists
import Tracing.Proofs.Processor.Watched

/-! # Feeding processors

A processor is fed with records. Between two of them it may be flushed and may do work of its own, such as the steps
of a worker (`Fed`). Where no processor panics (`Sturdy`, and with shutdown `Processor.NeverPanics`), each call goes
through the whole list of them. -/

namespace Tracing

section
variable {P : Type} [Processor P]

/-- What a processor has become after it took these records, oldest first. -/
inductive Fed (own : (P → P) → Prop) (p₀ : P) : List Record → P → Prop where
  | start : Fed own p₀ [] p₀
  | take {rs : List Record} {p : P} (h : Fed own p₀ rs p) (r : Record) :
      Fed own p₀ (rs ++ [r]) (Processor.onEnd r p).2.1
  | flush {rs : List Record} {p : P} (h : Fed own p₀ rs p) : Fed own p₀ rs (Processor.forceFlush p).2.1
  | work {rs : List Record} {p : P} (h : Fed own p₀ rs p) {f : P → P} (hf : own f) : Fed own p₀ rs (f p)

/-- No run of calls of the processor and work of its own ends in a panic, as long as it is not shut down. -/
def Sturdy (own : (P → P) → Prop) (p : P) : Prop :=
  ∃ good : P → Prop, good p ∧ ∀ p, good p →
    (∀ r, Act.Returns good (Processor.onEnd r) p) ∧ Act.Returns good Processor.forceFlush p ∧ ∀ f, own f → good (f p)

namespace Sturdy
variable {own : (P → P) → Prop} {p : P}

theorem onEnd (h : Sturdy own p) (r : Record) : Act.Returns (Sturdy own) (Processor.onEnd r) p := by
  obtain ⟨good, hp, hgood⟩ := h
  obtain ⟨hok, hnext⟩ := (hgood p hp).1 r
  exact ⟨hok, good, hnext, hgood⟩

theorem forceFlush (h : Sturdy own p) : Act.Returns (Sturdy own) Processor.forceFlush p := by
  obtain ⟨good, hp, hgood⟩ := h
  obtain ⟨hok, hnext⟩ := (hgood p hp).2.1
  exact ⟨hok, good, hnext, hgood⟩

theorem work (h : Sturdy own p) {f : P → P} (hf : own f) : Sturdy own (f p) := by
  obtain ⟨good, hp, hgood⟩ := h
  exact ⟨good, (hgood p hp).2.2 f hf, hgood⟩

end Sturdy

/-- No run of calls of the processor, shutdown included, and work of its own ends in a panic. -/
def Processor.NeverPanics (own : (P → P) → Prop) (p : P) : Prop :=
  ∃ good : P → Prop, good p ∧ ∀ p, good p →
    (∀ r, Act.Returns good (onEnd r) p) ∧ Act.Returns good forceFlush p ∧ Act.Returns good shutdown p ∧
      ∀ f, own f → good (f p)

namespace Processor.NeverPanics
variable {own : (P → P) → Prop} {p : P}

theorem onEnd (h : NeverPanics own p) (r : Record) : Act.Returns (NeverPanics own) (Processor.onEnd r) p := by
  obtain ⟨good, hp, hgood⟩ := h
  obtain ⟨hok, hnext⟩ := (hgood p hp).1 r
  exact ⟨hok, good, hnext, hgood⟩

theorem forceFlush (h : NeverPanics own p) : Act.Returns (NeverPanics own) Processor.forceFlush p := by
  obtain ⟨good, hp, hgood⟩ := h
  obtain ⟨hok, hnext⟩ := (hgood p hp).2.1
  exact ⟨hok, good, hnext, hgood⟩

theorem shutdown (h : NeverPanics own p) : Act.Returns (NeverPanics own) Processor.shutdown p := by
  obtain ⟨good, hp, hgood⟩ := h
  obtain ⟨hok, hnext⟩ := (hgood p hp).2.2.1
  exact ⟨hok, good, hnext, hgood⟩

/-- A processor that is not shut down needs less. -/
theorem sturdy (h : NeverPanics own p) : Sturdy own p := by
  obtain ⟨good, hp, hgood⟩ := h
  refine ⟨good, hp, fun p hp => ?_⟩
  obtain ⟨honEnd, hforceFlush, -, hwork⟩ := hgood p hp
  exact ⟨honEnd, hforceFlush, hwork⟩

theorem work (h : NeverPanics own p) {f : P → P} (hf : own f) : NeverPanics own (f p) := by
  obtain ⟨good, hp, hgood⟩ := h
  exact ⟨good, (hgood p hp).2.2.2 f hf, hgood⟩

end Processor.NeverPanics
end

/-! ### All processors of a tracer -/

/-- Where no state panics, each is gone through once, and the events come in the order of the states. -/
theorem Act.forEach_run {σ α : Type} {x : Act σ α} {l : List σ} (h : ∀ s ∈ l, ∃ a, (x s).1 = .ok a) :
    ∃ as, l.map (fun s => (x s).1) = as.map .ok ∧
      Act.forEach x l = (.ok as, l.map fun s => (x s).2.1, l.flatMap fun s => (x s).2.2) := by
  induction l with
  | nil => exact ⟨[], rfl, rfl⟩
  | cons s rest ih =>
    obtain ⟨a, ha⟩ := h s List.mem_cons_self
    obtain ⟨as, has, hrest⟩ := ih fun t ht => h t (List.mem_cons_of_mem _ ht)
    refine ⟨a :: as, ?_, ?_⟩
    · rw [List.map_cons, List.map_cons, ha, has]
    · rcases hrun : x s with ⟨result, next, events⟩
      rw [hrun] at ha
      cases ha
      simp [Act.forEach, hrun, hrest]
      rfl

namespace Processor
variable {P : Type} [Processor P] {ps : List P}

theorem onEndAll_run {r : Record} (h : ∀ p ∈ ps, ∃ u, (onEnd r p).1 = .ok u) :
    onEndAll r ps = (.ok (), ps.map fun p => (onEnd r p).2.1, ps.flatMap fun p => (onEnd r p).2.2) := by
  obtain ⟨as, -, hrun⟩ := Act.forEach_run h
  unfold onEndAll
  rw [Act.bind_run, hrun]
  simp

theorem forceFlushAll_run (h : ∀ p ∈ ps, ∃ r, (forceFlush p).1 = .ok r) :
    ∃ rs, ps.map (fun p => (forceFlush p).1) = rs.map .ok ∧ forceFlushAll ps =
      (.ok (firstFailure rs), ps.map fun p => (forceFlush p).2.1, ps.flatMap fun p => (forceFlush p).2.2) := by
  obtain ⟨rs, hrs, hrun⟩ := Act.forEach_run h
  refine ⟨rs, hrs, ?_⟩
  unfold forceFlushAll
  rw [Act.bind_run, hrun]
  simp

theorem shutdownAll_run (h : ∀ p ∈ ps, ∃ r, (shutdownReported p).1 = .ok r) :
    ∃ rs, ps.map (fun p => (shutdownReported p).1) = rs.map .ok ∧ shutdownAll ps =
      (.ok (lastFailure rs), ps.map fun p => (shutdownReported p).2.1,
        ps.flatMap fun p => (shutdownReported p).2.2) := by
  obtain ⟨rs, hrs, hrun⟩ := Act.forEach_run h
  refine ⟨rs, hrs, ?_⟩
  unfold shutdownAll
  rw [Act.bind_run, hrun]
  simp

end Processor

/-! ### Processors that do not panic -/

theorem Act.Returns.bind {σ α β : Type} {Q R : σ → Prop} {x : Act σ α} {f : α → Act σ β} {s : σ}
    (hx : Act.Returns Q x s) (hf : ∀ a s, Q s → Act.Returns R (f a) s) : Act.Returns R (x >>= f) s := by
  obtain ⟨⟨a, ha⟩, hnext⟩ := hx
  rcases hrun : x s with ⟨result, next, events⟩
  rw [hrun] at ha hnext
  cases ha
  unfold Act.Returns
  rw [Act.bind_run, hrun]
  exact hf a next hnext

section
variable {E : Type} [Exporter E]

namespace DirectProcessor
variable {p : DirectProcessor E}

theorem call_returns {x : Act E ExportResult} (h : NeverPanics p.exporter) (hx : Act.Returns NeverPanics x p.exporter) :
    Act.Returns (fun p : DirectProcessor E => NeverPanics p.exporter) (call x) p := by
  obtain ⟨⟨r, hr⟩, hnext⟩ := hx
  rcases hrun : x p.exporter with ⟨result, next, events⟩
  rw [hrun] at hr hnext
  cases hr
  unfold Act.Returns call
  by_cases hpoisoned : p.poisoned = true
  · rw [if_pos hpoisoned]
    exact ⟨⟨_, rfl⟩, h⟩
  · rw [if_neg hpoisoned, hrun]
    exact ⟨⟨_, rfl⟩, hnext⟩

theorem onEnd_returns (h : NeverPanics p.exporter) (r : Record) :
    Act.Returns (fun p : DirectProcessor E => NeverPanics p.exporter) (onEnd r) p := by
  refine Act.Returns.bind (Q := fun p => NeverPanics p.exporter) ⟨⟨p, rfl⟩, h⟩ fun now q hq => ?_
  split
  · refine Act.Returns.bind (call_returns hq (hq.deliver [r])) fun result q hq => ?_
    split
    · exact ⟨⟨(), rfl⟩, hq⟩
    · exact ⟨⟨(), rfl⟩, hq⟩
  · exact ⟨⟨(), rfl⟩, hq⟩

theorem shutdown_returns (h : NeverPanics p.exporter) :
    Act.Returns (fun p : DirectProcessor E => NeverPanics p.exporter) shutdown p := by
  refine Act.Returns.bind (Q := fun p => NeverPanics p.exporter) ⟨⟨p, rfl⟩, h⟩ fun now q hq => ?_
  split
  · exact ⟨⟨_, rfl⟩, hq⟩
  · exact Act.Returns.bind (Q := fun p => NeverPanics p.exporter) ⟨⟨(), rfl⟩, hq⟩ fun _ q hq =>
      call_returns hq hq.close

theorem neverPanics (h : NeverPanics p.exporter) : Processor.NeverPanics (fun _ => False) p :=
  ⟨fun p => NeverPanics p.exporter, h, fun _ hp =>
    ⟨onEnd_returns hp, ⟨⟨.ok (), rfl⟩, hp⟩, shutdown_returns hp, nofun⟩⟩

/-- A direct processor with a store puts in the store what it takes. -/
theorem records_of_fed {p₀ p : DirectProcessor MemoryStore} (hopen : p₀.isShutdown = false)
    (hclean : p₀.poisoned = false) {rs : List Record} (h : Fed (fun _ => False) p₀ rs p) :
    p.exporter.records.toList = p₀.exporter.records.toList ++ rs := by
  have hall : p.isShutdown = false ∧ p.poisoned = false ∧
      p.exporter.records.toList = p₀.exporter.records.toList ++ rs := by
    induction h with
    | start => exact ⟨hopen, hclean, (List.append_nil _).symm⟩
    | @take rs p h r ih =>
      obtain ⟨hopen, hclean, hrecords⟩ := ih
      have hrun : (Processor.onEnd r p).2.1 = { p with exporter := p.exporter.append [r] } := by
        show (onEnd r p).2.1 = _
        simp [onEnd, call, Exporter.deliver, Act.bind_run, Act.get, Act.modify, hopen, hclean]
      rw [hrun]
      refine ⟨hopen, hclean, ?_⟩
      simp [MemoryStore.append, hrecords]
    | flush h ih => exact ih
    | work h hf ih => exact hf.elim
  exact hall.2.2

end DirectProcessor
end

end Tracing
