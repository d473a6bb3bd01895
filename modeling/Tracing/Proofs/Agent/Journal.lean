import Tracing.Proofs.Agent.Emitting
import Tracing.Proofs.Agent.Reports

/-! # Journals of an agent

A journal keeps the past of an agent beside it, deed by deed. The invariant (`Journal.Sound`) says that the tables of
the agent hold what the past tells, and that every processor of a tracer was fed with just what the tracer had to
report. -/

namespace Tracing

/-- An agent, and what was done with it so far, oldest first. -/
structure Journal (P : Type) where
  agent : Agent P
  past : List Deed := []

namespace Journal

variable {P : Type}

def transactionNotes (j : Journal P) : List (Note Transaction TransactionEdit) := j.past.filterMap Deed.transactionNote

def spanNotes (j : Journal P) : List (Note LiveSpan SpanEdit) := j.past.filterMap Deed.spanNote

/-- The transaction was started. -/
def HasTransaction (j : Journal P) (t : Transaction) : Prop := Note.Started j.transactionNotes t

/-- The span was started. -/
def HasSpan (j : Journal P) (s : LiveSpan) : Prop := Note.Started j.spanNotes s

/-- One deed more. -/
def next (j : Journal P) (a : Agent P) (deed : Deed) : Journal P := ⟨a, j.past ++ [deed]⟩

theorem transactionNotes_next (j : Journal P) (a : Agent P) (deed : Deed) :
    (j.next a deed).transactionNotes = j.transactionNotes ++ deed.transactionNote.toList := filterMap_concat _ _ _

theorem spanNotes_next (j : Journal P) (a : Agent P) (deed : Deed) :
    (j.next a deed).spanNotes = j.spanNotes ++ deed.spanNote.toList := filterMap_concat _ _ _

theorem HasTransaction.next {j : Journal P} {t : Transaction} (h : j.HasTransaction t) (a : Agent P) (deed : Deed) :
    (j.next a deed).HasTransaction t := by
  unfold HasTransaction
  rw [transactionNotes_next]
  exact Note.Started.append h _

def start (j : Journal P) (s : Start) (now : Instant) : Journal P :=
  let (x, a) := s.run j.agent now
  ⟨a, j.past ++ Deed.ofStart s x⟩

def editTransaction (j : Journal P) (t : Transaction) (e : TransactionEdit) : Journal P :=
  j.next (j.agent.editTransaction t e) (.editedTransaction t e)

def editSpan (j : Journal P) (s : LiveSpan) (e : SpanEdit) : Journal P :=
  j.next (j.agent.editSpan (.live s) e) (.editedSpan s e)

variable [Processor P]

def endTransaction (j : Journal P) (t : Transaction) (ending : Ending) (now : Instant) : Journal P :=
  j.next (Agent.endTransaction t ending now j.agent).2.1 (.endedTransaction t ending now (j.agent.spanCount t))

def endSpan (j : Journal P) (s : LiveSpan) (ending : Ending) (now : Instant) : Journal P :=
  j.next (Agent.endSpan (.live s) ending now j.agent).2.1 (.endedSpan s ending now)

/-- An error is captured, if no processor panics over it. -/
def capture (j : Journal P) (tracer : Tracer) (cx : Context) (message : String) (causes : List String) : Journal P :=
  let (result, a, _) := Agent.captureError tracer cx message causes j.agent
  match result with
  | .ok r => j.next a (.captured tracer r)
  | .error _ => { j with agent := a }

/-- One thing more is done. -/
inductive Step (own : (P → P) → Prop) (T : Tracer) : Journal P → Journal P → Prop where
  | start (j : Journal P) (s : Start) (now : Instant) : Step own T j (j.start s now)
  | editTransaction (j : Journal P) {t : Transaction} (ht : j.HasTransaction t) (e : TransactionEdit) :
      Step own T j (j.editTransaction t e)
  | editSpan (j : Journal P) {s : LiveSpan} (hs : j.HasSpan s) (e : SpanEdit) :
      Step own T j (j.editSpan s e)
  | editDropped (j : Journal P) (tc : TraceContext) (t : Option Transaction) (e : SpanEdit) :
      Step own T j { j with agent := j.agent.editSpan (.dropped tc t) e }
  | endTransaction (j : Journal P) {t : Transaction} (ht : j.HasTransaction t) (ending : Ending) (now : Instant) :
      Step own T j (j.endTransaction t ending now)
  | endSpan (j : Journal P) {s : LiveSpan} (hs : j.HasSpan s) (ending : Ending) (now : Instant) :
      Step own T j (j.endSpan s ending now)
  | endDropped (j : Journal P) (tc : TraceContext) (t : Option Transaction) (ending : Ending) (now : Instant) :
      Step own T j { j with agent := (Agent.endSpan (.dropped tc t) ending now j.agent).2.1 }
  | capture (j : Journal P) (tracer : Tracer) (cx : Context) (message : String) (causes : List String) :
      Step own T j (j.capture tracer cx message causes)
  | flush (j : Journal P) : Step own T j { j with agent := (Agent.forceFlush T j.agent).2.1 }
  /-- A processor of the tracer does work of its own. -/
  | work (j : Journal P) (place : Nat) {f : P → P} (hf : own f) :
      Step own T j { j with agent := (Agent.onProcessor T place (Act.modify f) j.agent).2.1 }
  /-- Something is done with another tracer. -/
  | aside (j : Journal P) {a : Agent P} (h : Agent.Aside T j.agent a) : Step own T j { j with agent := a }

/-- The journals that begin with an agent. -/
inductive Reachable (own : (P → P) → Prop) (T : Tracer) (a : Agent P) : Journal P → Prop where
  | init : Reachable own T a { agent := a }
  | next {j j' : Journal P} (h : Reachable own T a j) (step : Step own T j j') : Reachable own T a j'

/-- What holds at every moment. The processors are those of the tracer at the beginning. -/
structure Sound (own : (P → P) → Prop) (T : Tracer) (processors : List P) (j : Journal P) : Prop where
  serving : j.agent.Serving own T
  fed : List.Forall₂ (fun p₀ p => Fed own p₀ (reports T j.past) p) processors (j.agent.tracer T).processors
  transactions : j.agent.TransactionsSound j.transactionNotes
  spans : j.agent.SpansSound j.spanNotes

namespace Sound
variable {own : (P → P) → Prop} {T : Tracer} {ps : List P} {j : Journal P}

theorem init {a : Agent P} (h : a.Serving own T) : Sound own T (a.tracer T).processors { agent := a } where
  serving := h
  fed := List.forall₂_same.mpr fun _ _ => .start
  transactions := Note.Sound.nil
  spans := Note.Sound.nil

/-- Nothing is done that counts. -/
theorem aside (h : j.Sound own T ps) {a : Agent P} (ha : Agent.Aside T j.agent a) :
    Sound own T ps { j with agent := a } where
  serving := ha.takes.serving h.serving
  fed := by
    rw [ha.tracer]
    exact h.fed
  transactions := h.transactions.of_eq ha.transactions
  spans := h.spans.of_eq ha.spans

/-- The processors are flushed or do work of their own. -/
theorem processors (h : j.Sound own T ps) {now : List P}
    (hfed : List.Forall₂ (fun p₀ p => Fed own p₀ (reports T j.past) p) ps now) (hsturdy : ∀ p ∈ now, Sturdy own p) :
    Sound own T ps
      { j with agent := j.agent.setTracer T { j.agent.tracer T with processors := now } } := by
  have htracer : (j.agent.setTracer T { j.agent.tracer T with processors := now }).tracer T =
      { j.agent.tracer T with processors := now } := by
    rw [Agent.tracer_setTracer, if_pos ⟨rfl, h.serving.slot⟩]
  constructor
  case serving =>
    constructor
    case slot => exact Nat.lt_of_lt_of_eq h.serving.slot Array.size_setIfInBounds.symm
    case lenient => rw [htracer]; exact h.serving.lenient
    case isOpen => rw [htracer]; exact h.serving.isOpen
    case sturdy => rw [htracer]; exact hsturdy
  case fed => rw [htracer]; exact hfed
  case transactions => exact h.transactions.of_eq rfl
  case spans => exact h.spans.of_eq rfl

/-- The processors take what a deed has reported. -/
theorem next (h : j.Sound own T ps) {a b : Agent P} {deed : Deed} (hsame : Agent.SameTracer T j.agent a)
    (htakes : Agent.Takes T (reportOf T j.past deed) a b)
    (htransactions : a.TransactionsSound (j.transactionNotes ++ deed.transactionNote.toList))
    (hspans : a.SpansSound (j.spanNotes ++ deed.spanNote.toList)) : (j.next b deed).Sound own T ps where
  serving := htakes.serving (h.serving.of_same hsame)
  fed := by
    show List.Forall₂ (fun p₀ p => Fed own p₀ (reports T (j.past ++ [deed])) p) ps (b.tracer T).processors
    rw [htakes.tracer, reports_concat, hsame.processors]
    refine List.forall₂_map_right_iff.mpr (h.fed.imp fun p₀ p hp => ?_)
    cases reportOf T j.past deed with
    | none => simpa using hp
    | some r => exact hp.take r
  transactions := by
    rw [transactionNotes_next]
    exact htransactions.of_eq htakes.transactions
  spans := by
    rw [spanNotes_next]
    exact hspans.of_eq htakes.spans

/-- Nothing is reported of a deed. -/
theorem silent (h : j.Sound own T ps) {a : Agent P} {deed : Deed} (hsame : Agent.SameTracer T j.agent a)
    (hreport : reportOf T j.past deed = none)
    (htransactions : a.TransactionsSound (j.transactionNotes ++ deed.transactionNote.toList))
    (hspans : a.SpansSound (j.spanNotes ++ deed.spanNote.toList)) : (j.next a deed).Sound own T ps := by
  have htakes : Agent.Takes T none a a := (Agent.Aside.refl T a).takes
  exact h.next hsame (hreport ▸ htakes) htransactions hspans

/-- A record of a deed is handed to the tracer that it belongs to. -/
theorem reported (h : j.Sound own T ps) {a : Agent P} {deed : Deed} {u : Tracer} {r : Record}
    (htracers : a.tracers = j.agent.tracers) (hreport : reportOf T j.past deed = if u = T then some r else none)
    (htransactions : a.TransactionsSound (j.transactionNotes ++ deed.transactionNote.toList))
    (hspans : a.SpansSound (j.spanNotes ++ deed.spanNote.toList)) :
    (j.next (Agent.emit u r a).2.1 deed).Sound own T ps := by
  have hsame : Agent.SameTracer T j.agent a := .of_tracers htracers
  exact h.next hsame (hreport ▸ (h.serving.of_same hsame).emit_takes u r) htransactions hspans

/-! ### Steps -/

theorem start (h : j.Sound own T ps) (s : Start) (now : Instant) : (j.start s now).Sound own T ps := by
  obtain ⟨hadds, hsame⟩ := Start.run_adds j.agent now s
  unfold Journal.start
  rcases hrun : s.run j.agent now with ⟨x, b⟩
  rw [hrun] at hadds hsame
  cases hadds with
  | transaction slot transactions spans =>
    exact h.silent (hsame T) rfl (h.transactions.start slot transactions) (h.spans.of_eq spans).unnoted
  | live slot transactions spans =>
    exact h.silent (hsame T) rfl (h.transactions.congr transactions).unnoted (h.spans.start slot spans)
  | dropped transactions spans =>
    show Sound own T ps ⟨b, j.past ++ []⟩
    rw [List.append_nil]
    constructor
    case serving => exact h.serving.of_same (hsame T)
    case fed => exact (hsame T).processors ▸ h.fed
    case transactions => exact h.transactions.congr transactions
    case spans => exact h.spans.of_eq spans

theorem editTransaction (h : j.Sound own T ps) {t : Transaction} (ht : j.HasTransaction t) (e : TransactionEdit) :
    (j.editTransaction t e).Sound own T ps := by
  have hspans : (j.agent.editTransaction t e).SpansSound j.spanNotes := h.spans.of_eq rfl
  exact h.silent (.of_tracers rfl) rfl (h.transactions.edit ht e) hspans.unnoted

theorem editSpan (h : j.Sound own T ps) {s : LiveSpan} (hs : j.HasSpan s) (e : SpanEdit) :
    (j.editSpan s e).Sound own T ps := by
  have htransactions : (j.agent.editSpan (.live s) e).TransactionsSound j.transactionNotes := h.transactions.of_eq rfl
  exact h.silent (.of_tracers rfl) rfl htransactions.unnoted (h.spans.edit hs e)

theorem endTransaction (h : j.Sound own T ps) {t : Transaction} (ht : j.HasTransaction t) (ending : Ending)
    (now : Instant) : (j.endTransaction t ending now).Sound own T ps := by
  unfold Journal.endTransaction
  have hrow := h.transactions.row t ht
  by_cases hended : .ended t ∈ j.transactionNotes
  · rw [if_pos hended] at hrow
    have htransactions := h.transactions.ended ht hrow
    rw [Agent.setTransaction_transaction] at htransactions
    rw [Agent.endTransaction_of_none hrow, Agent.misuse_state]
    exact h.silent (.of_tracers rfl) (if_neg fun hfirst => hfirst.2 hended) htransactions h.spans.unnoted
  · rw [if_neg hended] at hrow
    have hspans : (j.agent.setTransaction t { j.agent.transaction t with data := none }).SpansSound j.spanNotes :=
      h.spans.of_eq rfl
    rw [Agent.endTransaction_of_some hrow]
    exact h.reported rfl (reportOf_first_end_transaction hended) (h.transactions.ended ht rfl) hspans.unnoted

theorem endSpan (h : j.Sound own T ps) {s : LiveSpan} (hs : j.HasSpan s) (ending : Ending) (now : Instant) :
    (j.endSpan s ending now).Sound own T ps := by
  unfold Journal.endSpan
  have hrow := h.spans.row s hs
  by_cases hended : .ended s ∈ j.spanNotes
  · rw [if_pos hended] at hrow
    have hspans := h.spans.ended hs
    rw [← hrow, Agent.setSpan_span] at hspans
    rw [Agent.endSpan_of_none hrow, Agent.misuse_state]
    exact h.silent (.of_tracers rfl) (if_neg fun hfirst => hfirst.2 hended) h.transactions.unnoted hspans
  · rw [if_neg hended] at hrow
    have htransactions : (j.agent.setSpan s none).TransactionsSound j.transactionNotes := h.transactions.of_eq rfl
    rw [Agent.endSpan_of_some hrow]
    exact h.reported rfl (reportOf_first_end_span hended) htransactions.unnoted (h.spans.ended hs)

theorem capture (h : j.Sound own T ps) (tracer : Tracer) (cx : Context) (message : String) (causes : List String) :
    (j.capture tracer cx message causes).Sound own T ps := by
  obtain ⟨mid, r, htracers, htransactions, hspans, hstate, hresult⟩ :=
    Agent.captureError_run tracer j.agent cx message causes
  unfold Journal.capture
  dsimp only
  rw [hresult, hstate]
  cases hemit : (Agent.emit tracer (.error r) mid).1 with
  | ok => exact h.reported htracers rfl (h.transactions.of_eq htransactions).unnoted (h.spans.of_eq hspans).unnoted
  | error p =>
    have hsame : Agent.SameTracer T j.agent mid := .of_tracers htracers
    have hne : tracer ≠ T := by
      rintro rfl
      obtain ⟨events, hrun⟩ := (h.serving.of_same hsame).emit_run (.error r)
      rw [hrun] at hemit
      cases hemit
    have hmid : Agent.Aside T j.agent mid :=
      ⟨Nat.le_of_eq hsame.tracers.symm, congrArg (fun rows => Array.getD rows T.slot default) htracers, htransactions,
        hspans⟩
    exact h.aside (hmid.trans (Agent.aside_emit hne _))

theorem flush (h : j.Sound own T ps) : Sound own T ps { j with agent := (Agent.forceFlush T j.agent).2.1 } := by
  obtain ⟨r, events, hrun⟩ := h.serving.forceFlush_run
  rw [hrun]
  refine h.processors ?_ fun p hp => ?_
  · exact List.forall₂_map_right_iff.mpr (h.fed.imp fun _ _ => .flush)
  · obtain ⟨q, hq, rfl⟩ := List.mem_map.mp hp
    exact (h.serving.sturdy q hq).forceFlush.2

theorem work (h : j.Sound own T ps) (place : Nat) {f : P → P} (hf : own f) :
    Sound own T ps { j with agent := (Agent.onProcessor T place (Act.modify f) j.agent).2.1 } := by
  rw [Agent.onProcessor_modify]
  refine h.processors (forall₂_modify h.fed (fun _ _ hp => hp.work hf) place) fun p hp => ?_
  obtain ⟨q, hq, heq | heq⟩ := mem_modify hp
  · exact heq ▸ h.serving.sturdy q hq
  · exact heq ▸ (h.serving.sturdy q hq).work hf

theorem step (h : j.Sound own T ps) {j' : Journal P} (step : Step own T j j') : j'.Sound own T ps := by
  cases step with
  | start s now => exact h.start s now
  | editTransaction ht e => exact h.editTransaction ht e
  | editSpan hs e => exact h.editSpan hs e
  | editDropped tc t e => exact h
  | endTransaction ht ending now => exact h.endTransaction ht ending now
  | endSpan hs ending now => exact h.endSpan hs ending now
  | endDropped tc t ending now => exact h
  | capture tracer cx message causes => exact h.capture tracer cx message causes
  | flush => exact h.flush
  | work place hf => exact h.work place hf
  | aside ha => exact h.aside ha

end Sound

theorem Reachable.sound {own : (P → P) → Prop} {T : Tracer} {a : Agent P} {j : Journal P} (h : Reachable own T a j)
    (ha : a.Serving own T) : j.Sound own T (a.tracer T).processors := by
  induction h with
  | init => exact .init ha
  | next _ step ih => exact ih.step step

/-- What a tracer makes of all that was done. The agent is the one at the beginning. -/
structure ReportsOnce (own : (P → P) → Prop) (T : Tracer) (a : Agent P) (j : Journal P) : Prop where
  /-- Each processor took one record for each first end and each capture, in order. -/
  fed : List.Forall₂ (fun p₀ p => Fed own p₀ (reports T j.past) p) (a.tracer T).processors
    (j.agent.tracer T).processors
  number : (reports T j.past).length = toReport T j.past
  tags : ∀ r ∈ reports T j.past, (r.tags.map Prod.fst).Nodup
  /-- After the end setting changes nothing, and ending is a usage error and nothing else. -/
  transaction : ∀ t, .ended t ∈ j.transactionNotes → (∀ e, j.agent.editTransaction t e = j.agent) ∧
    (t.tracer = T → ∀ ending now, Agent.endTransaction t ending now j.agent =
      (.ok (), j.agent, [.misuse (.alreadyEnded .transaction t.id)]))
  span : ∀ s, .ended s ∈ j.spanNotes → (∀ e, j.agent.editSpan (.live s) e = j.agent) ∧
    (s.transaction.tracer = T → ∀ ending now, Agent.endSpan (.live s) ending now j.agent =
      (.ok (), j.agent, [.misuse (.alreadyEnded .span s.traceContext.spanId)]))
  dropped : ∀ tc t, (∀ e, j.agent.editSpan (.dropped tc t) e = j.agent) ∧
    ∀ ending now, Agent.endSpan (.dropped tc t) ending now j.agent = (.ok (), j.agent, [])
  /-- No call panics. -/
  endTransaction : ∀ t, t.tracer = T → ∀ ending now, (Agent.endTransaction t ending now j.agent).1 = .ok ()
  endSpan : ∀ s, s.transaction.tracer = T → ∀ ending now, (Agent.endSpan (.live s) ending now j.agent).1 = .ok ()
  captureError : ∀ cx message causes, ∃ r, (Agent.captureError T cx message causes j.agent).1 = .ok r

section
variable {own : (P → P) → Prop} {T : Tracer} {ps : List P} {j : Journal P}

theorem Sound.transaction_of_ended (h : j.Sound own T ps) {t : Transaction} (ht : .ended t ∈ j.transactionNotes) :
    (j.agent.transaction t).data = none := by
  rw [h.transactions.row t (h.transactions.known _ ht), if_pos ht]

theorem Sound.span_of_ended (h : j.Sound own T ps) {s : LiveSpan} (hs : .ended s ∈ j.spanNotes) :
    j.agent.span s = none := by
  rw [h.spans.row s (h.spans.known _ hs), if_pos hs]

theorem Sound.endTransaction_ok (h : j.Sound own T ps) {t : Transaction} (hT : t.tracer = T) (ending : Ending)
    (now : Instant) : (Agent.endTransaction t ending now j.agent).1 = .ok () := by
  cases hdata : (j.agent.transaction t).data with
  | none =>
    rw [Agent.endTransaction_of_none hdata, Agent.misuse_of_lenient (hT ▸ h.serving.lenient)]
  | some d =>
    have hserving : (j.agent.setTransaction t { j.agent.transaction t with data := none }).Serving own T :=
      h.serving.of_same (.of_tracers rfl)
    rw [Agent.endTransaction_of_some hdata, hT]
    obtain ⟨events, hrun⟩ := hserving.emit_run (.transaction
      (Agent.transactionRecord t d (j.agent.spanCount t) (ending.duration t.start now)))
    rw [hrun]

theorem Sound.endSpan_ok (h : j.Sound own T ps) {s : LiveSpan} (hT : s.transaction.tracer = T) (ending : Ending)
    (now : Instant) : (Agent.endSpan (.live s) ending now j.agent).1 = .ok () := by
  cases hdata : j.agent.span s with
  | none =>
    rw [Agent.endSpan_of_none hdata, Agent.misuse_of_lenient (hT ▸ h.serving.lenient)]
  | some d =>
    have hserving : (j.agent.setSpan s none).Serving own T := h.serving.of_same (.of_tracers rfl)
    rw [Agent.endSpan_of_some hdata, hT]
    obtain ⟨events, hrun⟩ := hserving.emit_run (.span (Agent.spanRecord s d (ending.duration s.start now)))
    rw [hrun]

theorem Sound.captureError_ok (h : j.Sound own T ps) (cx : Context) (message : String) (causes : List String) :
    ∃ r, (Agent.captureError T cx message causes j.agent).1 = .ok r := by
  obtain ⟨mid, r, htracers, -, -, -, hresult⟩ := Agent.captureError_run T j.agent cx message causes
  obtain ⟨events, hrun⟩ := (h.serving.of_same (.of_tracers htracers)).emit_run (.error r)
  rw [hrun] at hresult
  exact ⟨r, hresult⟩

end

/-- Every transaction and every live span of a tracer that has ended makes one record, with the attributes as they
were last set before it first ended, and so does every error; all processors take these records in the order in which
that came about. -/
theorem one_report_per_end {own : (P → P) → Prop} {T : Tracer} {a : Agent P} (ha : a.Serving own T) {j : Journal P}
    (h : Reachable own T a j) : j.ReportsOnce own T a := by
  have hj := h.sound ha
  constructor
  case fed => exact hj.fed
  case number => exact length_reports T j.past
  case tags => exact fun r hr => nodup_tags_of_mem_reports hr
  case transaction =>
    intro t ht
    have hdata := hj.transaction_of_ended ht
    refine ⟨Agent.editTransaction_of_none hdata, fun hT ending now => ?_⟩
    rw [Agent.endTransaction_of_none hdata, Agent.misuse_of_lenient (hT ▸ hj.serving.lenient)]
  case span =>
    intro s hs
    have hdata := hj.span_of_ended hs
    refine ⟨Agent.editSpan_of_none hdata, fun hT ending now => ?_⟩
    rw [Agent.endSpan_of_none hdata, Agent.misuse_of_lenient (hT ▸ hj.serving.lenient)]
  case dropped => exact fun tc t => ⟨fun e => rfl, fun ending now => rfl⟩
  case endTransaction => exact fun t hT => hj.endTransaction_ok hT
  case endSpan => exact fun s hT => hj.endSpan_ok hT
  case captureError => exact hj.captureError_ok

/-! A transaction that ends twice, with one tag before its first end and one after. -/

def sampleAgent : Agent (DirectProcessor MemoryStore) :=
  ((Agent.empty.addGenerator .increment).2.addTracer
    { sampler := ⟨fun _ _ _ => ⟨true, 1.0⟩⟩, generator := 0, processors := [{ exporter := {} }] }).2

def sampleTransaction : Transaction := (sampleAgent.startTransaction ⟨0⟩ "GET /" "request" {} ⟨3⟩).1

def sampleStarted : Journal (DirectProcessor MemoryStore) :=
  Journal.start { agent := sampleAgent } (.transaction ⟨0⟩ "GET /" "request" {}) ⟨3⟩

def sampleEnded : Journal (DirectProcessor MemoryStore) :=
  (sampleStarted.editTransaction sampleTransaction (.tag "user" "1")).endTransaction sampleTransaction .now ⟨5⟩

def sampleJournal : Journal (DirectProcessor MemoryStore) :=
  (sampleEnded.editTransaction sampleTransaction (.tag "user" "2")).endTransaction sampleTransaction .now ⟨9⟩

theorem sampleAgent_serving : sampleAgent.Serving (fun _ => False) ⟨0⟩ where
  slot := by decide
  lenient := rfl
  isOpen := rfl
  sturdy p hp := by
    rw [List.mem_singleton.mp hp]
    exact (DirectProcessor.neverPanics MemoryStore.neverPanics).sturdy

theorem sampleJournal_reachable : Reachable (fun _ => False) ⟨0⟩ sampleAgent sampleJournal := by
  have hstarted : sampleStarted.HasTransaction sampleTransaction := ⟨_, _, List.mem_singleton_self _⟩
  have hedited : (sampleStarted.editTransaction sampleTransaction (.tag "user" "1")).HasTransaction sampleTransaction :=
    hstarted.next _ _
  have hended : sampleEnded.HasTransaction sampleTransaction := hedited.next _ _
  have hagain : (sampleEnded.editTransaction sampleTransaction (.tag "user" "2")).HasTransaction sampleTransaction :=
    hended.next _ _
  have reach : Reachable (fun _ => False) ⟨0⟩ sampleAgent sampleEnded :=
    ((Reachable.init.next (.start _ _ _)).next (.editTransaction _ hstarted _)).next (.endTransaction _ hedited _ _)
  exact (reach.next (.editTransaction _ hended _)).next (.endTransaction _ hagain _ _)

theorem one_report_per_end_in_sampleJournal :
    sampleAgent.Serving (fun _ => False) ⟨0⟩ ∧ Reachable (fun _ => False) ⟨0⟩ sampleAgent sampleJournal ∧
      ∃ p r, (sampleJournal.agent.tracer ⟨0⟩).processors = [p] ∧ p.exporter.records.toList = [.transaction r] ∧
        r.tags = [("user", "1")] ∧ r.duration = ⟨2⟩ := by
  refine ⟨sampleAgent_serving, sampleJournal_reachable, ?_⟩
  have honce := one_report_per_end sampleAgent_serving sampleJournal_reachable
  obtain ⟨p, rest, hp, hrest, hprocessors⟩ := List.forall₂_cons_left_iff.mp honce.fed
  rw [List.forall₂_nil_left_iff.mp hrest] at hprocessors
  have hrecords := DirectProcessor.records_of_fed rfl rfl hp
  obtain ⟨r, hr, htags, hduration⟩ : ∃ r, reports ⟨0⟩ sampleJournal.past = [.transaction r] ∧
      r.tags = [("user", "1")] ∧ r.duration = ⟨2⟩ := by
    obtain ⟨t, c, c', htracer, hstart, hpast⟩ : ∃ t c c', t.tracer = ⟨0⟩ ∧ t.start = ⟨3⟩ ∧
        sampleJournal.past = [.startedTransaction t "GET /" "request", .editedTransaction t (.tag "user" "1"),
          .endedTransaction t .now ⟨5⟩ c, .editedTransaction t (.tag "user" "2"), .endedTransaction t .now ⟨9⟩ c'] :=
      ⟨sampleTransaction, _, _, rfl, rfl, rfl⟩
    have hattributes : Note.attributes TransactionData.lastSet [.started t "GET /" "request",
        .edited t (.tag "user" "1")] t = TransactionData.lastSet "GET /" "request" [.tag "user" "1"] := by
      simp [Note.attributes, Note.start?, Note.edit?, List.filterMap_cons]
    have htags : (TransactionData.lastSet "GET /" "request" [.tag "user" "1"]).tags = [("user", "1")] := rfl
    have hduration : Ending.length t.start ⟨5⟩ .now = ⟨2⟩ := by
      rw [hstart]
      rfl
    rw [hpast]
    simp [reports, reportsAfter, reportOf, Deed.transactionNote, htracer, hattributes, htags, hduration]
  exact ⟨p, r, hprocessors, hrecords.trans hr, htags, hduration⟩

end Journal
end Tracing
