import Tracing.Proofs.Agent.Emitting
import Tracing.Proofs.Agent.Process

/-! # Lenient tracers

An agent made lenient (`Agent.lenient`) is the same but for the strictness of its tracers. Nothing but a misuse asks
for that. So whatever an agent does without a misuse, it does just so when it is lenient. -/

namespace Tracing

/-- A tracer that is not strict, and the same otherwise. -/
def TracerState.lenient {P : Type} (s : TracerState P) : TracerState P :=
  { s with settings := { s.settings with strict := false } }

namespace Agent

variable {P : Type} {a : Agent P}

/-- The agent with tracers that are not strict. -/
def lenient (a : Agent P) : Agent P := { a with tracers := a.tracers.map TracerState.lenient }

theorem tracer_lenient (a : Agent P) (t : Tracer) : a.lenient.tracer t = (a.tracer t).lenient := by
  unfold tracer lenient
  simp only [Array.getD_eq_getD_getElem?, Array.getElem?_map]
  cases a.tracers[t.slot]? <;> rfl

theorem lenient_setTracer (a : Agent P) (t : Tracer) (state : TracerState P) :
    (a.setTracer t state).lenient = a.lenient.setTracer t state.lenient := by
  unfold setTracer lenient
  simp only [Array.map_setIfInBounds]

/-! ### Starts -/

theorem draw_lenient {α : Type} (a : Agent P) (t : Tracer) (next : IdGenerator → α × IdGenerator) :
    a.lenient.draw t next = ((a.draw t next).1, (a.draw t next).2.lenient) := by
  unfold draw
  rw [tracer_lenient]
  rfl

theorem decide_lenient (a : Agent P) (t : Tracer) (rate : Option Float) (traceId : TraceId) (name : String) :
    a.lenient.decide t rate traceId name =
      ((a.decide t rate traceId name).1, (a.decide t rate traceId name).2.lenient) := by
  unfold decide
  rw [tracer_lenient]
  cases rate <;> simp only [lenient_setTracer] <;> rfl

theorem startTransaction_lenient (a : Agent P) (t : Tracer) (name type : String) (options : TransactionOptions)
    (now : Instant) : a.lenient.startTransaction t name type options now =
      ((a.startTransaction t name type options now).1, (a.startTransaction t name type options now).2.lenient) := by
  have hadd : ∀ (b : Agent P) (data : TransactionData), b.lenient.addTransaction data =
      ((b.addTransaction data).1, (b.addTransaction data).2.lenient) := fun _ _ => rfl
  cases hparent : options.parent.filter TraceContext.isValid with
  | some parent =>
    rw [startTransaction_of_parent hparent, startTransaction_of_parent hparent]
    simp only [drawSpanId, draw_lenient, hadd, tracer_lenient]
    rfl
  | none =>
    rw [startTransaction_of_root hparent, startTransaction_of_root hparent]
    simp only [drawSpanId, drawTraceId, draw_lenient, decide_lenient, hadd, tracer_lenient]
    rfl

theorem startSpan_lenient (a : Agent P) (t : Transaction) (name type : String) (options : SpanOptions)
    (now : Instant) : a.lenient.startSpan t name type options now =
      ((a.startSpan t name type options now).1, (a.startSpan t name type options now).2.lenient) := by
  have hended : a.lenient.hasEnded t = a.hasEnded t := rfl
  have hcount : a.lenient.spanCount t = a.spanCount t := rfl
  have hstarted : a.lenient.countStarted t = (a.countStarted t).lenient := rfl
  unfold startSpan
  rw [hended, hcount, hstarted]
  dsimp only
  split
  · rfl
  · split
    · rfl
    · simp only [drawSpanId, draw_lenient]
      rfl

theorem startChild_lenient (a : Agent P) (s : Span) (name type : String) (now : Instant) :
    a.lenient.startChild s name type now =
      ((a.startChild s name type now).1, (a.startChild s name type now).2.lenient) := by
  unfold startChild
  split
  · exact startSpan_lenient a _ name type _ now
  · rfl

theorem startSpanIn_lenient (a : Agent P) (cx : Context) (name type : String) (now : Instant) :
    a.lenient.startSpanIn cx name type now = ((a.startSpanIn cx name type now).1,
      (a.startSpanIn cx name type now).2.1, (a.startSpanIn cx name type now).2.2.lenient) := by
  unfold startSpanIn
  split
  · simp only [startChild_lenient]
  · simp only [startSpan_lenient]
  · rfl

theorem start_lenient (a : Agent P) (s : Start) (now : Instant) :
    s.run a.lenient now = ((s.run a now).1, (s.run a now).2.lenient) := by
  cases s with
  | transaction | transactionFrom => simp only [Start.run, startTransactionFrom, startTransaction_lenient]
  | span => simp only [Start.run, startSpan_lenient]
  | child => simp only [Start.run, startChild_lenient]
  | spanIn => simp only [Start.run, startSpanIn_lenient]

/-! ### Reports -/

theorem mirrors_onProcessors {α : Type} (t : Tracer) (x : Act (List P) α) :
    Act.Mirrors lenient (onProcessors t x) (onProcessors t x) := by
  refine Act.Mirrors.onPart x (fun a => ?_) fun ps a => ?_
  · rw [tracer_lenient]
    rfl
  · rw [lenient_setTracer, tracer_lenient]
    rfl

theorem mirrors_unlessShutdown {t : Tracer} {x : Act (Agent P) ExportResult} (hx : Act.Mirrors lenient x x) :
    Act.Mirrors lenient (do if ((← Act.get).tracer t).isShutdown then return .error .alreadyShutdown else x)
      (do if ((← Act.get).tracer t).isShutdown then return .error .alreadyShutdown else x) := by
  refine Act.Mirrors.get_bind fun a => ?_
  rw [tracer_lenient]
  show Act.Mirrors lenient (if (a.tracer t).isShutdown then _ else _) (if (a.tracer t).isShutdown then _ else _)
  split
  · exact .pure _
  · exact hx

variable [Processor P]

theorem mirrors_emit (t : Tracer) (r : Record) : Act.Mirrors lenient (emit (P := P) t r) (emit t r) := by
  refine Act.Mirrors.get_bind fun a => ?_
  rw [tracer_lenient]
  show Act.Mirrors lenient (if !(a.tracer t).isShutdown then _ else _) (if !(a.tracer t).isShutdown then _ else _)
  split
  · exact mirrors_onProcessors t _
  · exact .pure ()

theorem mirrors_captureError (t : Tracer) (cx : Context) (message : String) (causes : List String) :
    Act.Mirrors lenient (captureError (P := P) t cx message causes) (captureError t cx message causes) := by
  refine .bind (.update fun a => draw_lenient a t _) fun id => .get_bind fun a => ?_
  exact .bind (mirrors_emit t _) fun _ => .pure _

theorem mirrors_forceFlush (t : Tracer) : Act.Mirrors lenient (forceFlush (P := P) t) (forceFlush t) :=
  mirrors_unlessShutdown (mirrors_onProcessors t _)

theorem mirrors_shutdown (t : Tracer) : Act.Mirrors lenient (shutdown (P := P) t) (shutdown t) := by
  refine mirrors_unlessShutdown (.bind (.modify fun a => ?_) fun _ => mirrors_onProcessors t _)
  rw [lenient_setTracer, tracer_lenient]
  rfl

theorem mirrors_releaseAll (held : List Tracer) : ∀ ts : List Tracer,
    Act.Mirrors lenient (releaseAll (P := P) held ts) (releaseAll held ts)
  | [] => .pure ()
  | t :: rest => by
    refine .bind ?_ fun _ => mirrors_releaseAll held rest
    unfold releaseUnheld
    split
    · exact .bind (mirrors_shutdown t) fun _ => .pure ()
    · exact .pure ()

theorem mirrors_release (holders : List Holder) :
    Act.Mirrors lenient (release (P := P) holders) (release holders) := by
  refine Act.Mirrors.get_bind fun a => ?_
  have hsize : a.lenient.tracers.size = a.tracers.size := Array.size_map
  rw [hsize]
  exact mirrors_releaseAll _ _

/-! ### Ends -/

theorem mirrors_endTransaction {t : Transaction} (isOpen : a.hasEnded t = false) (ending : Ending) (now : Instant) :
    Act.MirrorsAt lenient a (endTransaction t ending now) (endTransaction t ending now) := by
  obtain ⟨d, hd⟩ : ∃ d, (a.transaction t).data = some d :=
    Option.isSome_iff_exists.mp (Option.isNone_eq_false_iff.mp isOpen)
  have hd' : (a.lenient.transaction t).data = some d := hd
  rw [Act.MirrorsAt, endTransaction_of_some hd, endTransaction_of_some hd']
  exact mirrors_emit t.tracer _ (a.setTransaction t { a.transaction t with data := none })

theorem mirrors_endSpan {s : LiveSpan} (isOpen : a.isRecording (.live s) = true) (ending : Ending) (now : Instant) :
    Act.MirrorsAt lenient a (endSpan (.live s) ending now) (endSpan (.live s) ending now) := by
  obtain ⟨d, hd⟩ : ∃ d, a.span s = some d := Option.isSome_iff_exists.mp isOpen
  have hd' : a.lenient.span s = some d := hd
  rw [Act.MirrorsAt, endSpan_of_some hd, endSpan_of_some hd']
  exact mirrors_emit s.transaction.tracer _ (a.setSpan s none)

/-- A repeated end is reported, and nothing changes. -/
theorem endTransaction_again {t : Transaction} (ended : a.hasEnded t = true) (ending : Ending) (now : Instant) :
    endTransaction t ending now a = (if (a.tracer t.tracer).settings.strict then
        .error ⟨some (UsageError.alreadyEnded .transaction t.id).message⟩ else .ok (),
      a, [.misuse (.alreadyEnded .transaction t.id)]) := by
  rw [endTransaction_of_none (Option.isNone_iff_eq_none.mp ended), misuse_run]

theorem endSpan_again {s : LiveSpan} (ended : a.isRecording (.live s) = false) (ending : Ending) (now : Instant) :
    endSpan (.live s) ending now a = (if (a.tracer s.transaction.tracer).settings.strict then
        .error ⟨some (UsageError.alreadyEnded .span s.traceContext.spanId).message⟩ else .ok (),
      a, [.misuse (.alreadyEnded .span s.traceContext.spanId)]) := by
  rw [endSpan_of_none (Option.isSome_eq_false_iff.mp ended |> Option.isNone_iff_eq_none.mp), misuse_run]

end Agent
end Tracing
