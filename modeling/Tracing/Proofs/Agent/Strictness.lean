import Tracing.Proofs.Agent.Lenient
import Tracing.Proofs.Registry.Calls

/-! # Strictness only stops callbacks

A library reports what it does through callbacks, each run under a guard. In strict mode a misuse panics, and the guard
turns that into an event and no answer. It makes no other difference: a run in which some tracers and registries are
strict and the same run without strictness go through the same states (`Workplace.lenient`) and report the same. The
panic comes when all is done, and then nothing has changed but for a sweep that was due anyway
(`Operation.settled`). -/

namespace Tracing

/-! ### Registries -/

namespace Registry

variable {κ ν : Type} {r : Registry κ ν} {now : Instant} {key : κ}

/-- A registry that is not strict, and the same otherwise. -/
def lenient (r : Registry κ ν) : Registry κ ν := { r with strict := false }

theorem mirrors_sweep (now : Instant) : Act.Mirrors lenient (sweep now : Act (Registry κ ν) Nat) (sweep now) := by
  have hdiscard : Act.Mirrors lenient (discardExpired now : Act (Registry κ ν) Nat) (discardExpired now) :=
    .update fun _ => rfl
  have hreport : ∀ count, Act.Mirrors lenient (reportSweep count : Act (Registry κ ν) Unit) (reportSweep count) := by
    intro count
    unfold reportSweep
    split
    · exact .get_bind fun _ => .emit _
    · exact .pure ()
  exact hdiscard.bind fun count => .bind (.pure ()) fun _ => .bind (hreport count) fun _ => .pure count

theorem tidied_lenient (r : Registry κ ν) (now : Instant) : r.lenient.tidied now = (r.tidied now).lenient := by
  have hdue : r.lenient.sweepIsDue now = r.sweepIsDue now := rfl
  unfold tidied
  rw [hdue]
  split <;> rfl

theorem tidyEvents_lenient (r : Registry κ ν) (now : Instant) : r.lenient.tidyEvents now = r.tidyEvents now := by
  have hdue : r.lenient.sweepIsDue now = r.sweepIsDue now := rfl
  unfold tidyEvents
  rw [hdue, mirrors_sweep now r]

variable [DecidableEq κ] [KeyText κ]

theorem mirrors_accept (value : ν) (h : ∀ e, r.find? key = some e → r.isLive now e = false) :
    Act.MirrorsAt lenient r (accept now key value) (accept now key value) := by
  -- Only the branch of a live key asks for the strictness, and the key is not live.
  have hfind : r.lenient.find? key = r.find? key := rfl
  have hinsert : r.lenient.insert now key value = (r.insert now key value).lenient := rfl
  cases hf : r.find? key with
  | some e =>
    have hl : r.isLive now e = false := h e hf
    have hl' : r.lenient.isLive now e = false := hl
    simp [Act.MirrorsAt, accept, Act.bind_run, Act.get, hfind, hf, hl, hl', Act.emit, Act.modify, hinsert]
  | none =>
    have hpolicy : r.lenient.policy = r.policy := rfl
    have hsize : r.lenient.size = r.size := rfl
    by_cases hfull : r.policy.capacity ≤ r.size
    · simp [Act.MirrorsAt, accept, Act.bind_run, Act.get, hfind, hf, hpolicy, hsize, hfull, Act.emit]
    · simp [Act.MirrorsAt, accept, Act.bind_run, Act.get, hfind, hf, hpolicy, hsize, hfull, Act.modify, hinsert]

/-- The misuse that a registration under the key is at this point, and whether it is reported to something strict. -/
def misuse? (r : Registry κ ν) (now : Instant) (key : κ) : Option (Bool × UsageError) :=
  if (r.find? key).any (r.isLive now) then some (r.strict, .keyInUse (KeyText.keyText key)) else none

theorem misuse?_lenient (r : Registry κ ν) (now : Instant) (key : κ) :
    r.lenient.misuse? now key = (r.misuse? now key).map fun m => (false, m.2) := by
  unfold misuse?
  show (if (r.find? key).any (r.isLive now) then _ else none) = Option.map _ (if _ then _ else none)
  split <;> rfl

theorem mirrors_register (value : ν) (h : (r.tidied now).misuse? now key = none) :
    Act.MirrorsAt lenient r (register now key value) (register now key value) := by
  have hexpired : ∀ e, (r.tidied now).find? key = some e → (r.tidied now).isLive now e = false := by
    intro e he
    simpa [misuse?, he] using h
  have haccept : accept now key value (r.tidied now).lenient = _ := mirrors_accept value hexpired
  rw [Act.MirrorsAt, register_run, register_run, tidied_lenient, tidyEvents_lenient, haccept]

/-- A registration under a live key reports that after the sweep, and leaves what the sweep has left. -/
theorem register_misuse (value : ν) {strict : Bool} {e : UsageError}
    (h : (r.tidied now).misuse? now key = some (strict, e)) : register now key value r =
      (if strict then .error ⟨some e.message⟩ else .ok (.error (.keyInUse key value)), r.tidied now,
        r.tidyEvents now ++ [.misuse e]) := by
  unfold misuse? at h
  split at h
  · rename_i hlive
    obtain ⟨rfl, rfl⟩ := Prod.mk.inj (Option.some.inj h)
    obtain ⟨e, hfind, hlive⟩ := (Option.any_eq_true _ _).mp hlive
    rw [register_run, accept_live value hfind hlive]
    rfl
  · cases h

end Registry

/-! ### Operations -/

/-- What a library uses: the agent, and its registries under the numbers of their handles. Spans outlive the registries
here, so that nothing follows when a registry discards one. -/
structure Workplace (P κ : Type) where
  agent : Agent P
  registries : Nat → Registry κ Span

/-- What a callback does: it starts something, calls the agent, or uses a registry. -/
inductive Operation (P κ : Type) where
  | start (s : Start) (now : Instant)
  | call (c : Call P)
  | inject (t : Tracer) (cx : Context) (c : Carrier)
  | extract (t : Tracer) (cx : Context) (c : Carrier)
  | openRegistry (n : Nat) (t : Tracer) (now : Instant)
  | openRegistryAlone (n : Nat) (policy : RegistryPolicy) (now : Instant)
  | register (n : Nat) (key : κ) (span : Span) (now : Instant)
  | resolve (n : Nat) (key : κ)
  | sweep (n : Nat) (now : Instant)
  | size (n : Nat)

inductive Answer (κ : Type) where
  | done
  | handle (x : Handle)
  | captured (r : ErrorRecord)
  | exported (r : ExportResult)
  | carrier (c : Carrier)
  | context (cx : Context)
  | registered (r : Except (RegisterError κ Span) Unit)
  | resolved (s : Option Span)
  | count (n : Nat)

variable {P κ : Type}

def Call.act [Processor P] : Call P → Act (Agent P) (Answer κ)
  | editTransaction t e => do
    Act.modify (·.editTransaction t e)
    return .done
  | editSpan s e => do
    Act.modify (·.editSpan s e)
    return .done
  | endTransaction t ending now => do
    Agent.endTransaction t ending now
    return .done
  | endSpan s ending now => do
    Agent.endSpan s ending now
    return .done
  | captureError t cx message causes => do return .captured (← Agent.captureError t cx message causes)
  | forceFlush t => do return .exported (← Agent.forceFlush t)
  | shutdown t => do return .exported (← Agent.shutdown t)
  | release holders => do
    Agent.release holders
    return .done
  | work t place x => do
    let _ ← Agent.onProcessor t place x
    return .done

namespace Workplace

/-- The same without strictness. -/
def lenient (w : Workplace P κ) : Workplace P κ := ⟨w.agent.lenient, fun n => (w.registries n).lenient⟩

/-- The same with another registry under a number. -/
def setRegistry (w : Workplace P κ) (n : Nat) (r : Registry κ Span) : Workplace P κ :=
  { w with registries := Function.update w.registries n r }

def onAgent {α : Type} (x : Act (Agent P) α) : Act (Workplace P κ) α :=
  Act.onPart Workplace.agent (fun a w => { w with agent := a }) x

def onRegistry {α : Type} (n : Nat) (x : Act (Registry κ Span) α) : Act (Workplace P κ) α :=
  Act.onPart (fun w => w.registries n) (fun r w => w.setRegistry n r) x

end Workplace

namespace Operation

open Workplace

variable [DecidableEq κ] [KeyText κ]

def perform [Processor P] : Operation P κ → Act (Workplace P κ) (Answer κ)
  | start s now => do return .handle (← onAgent (Act.update fun a => s.run a now))
  | call c => onAgent c.act
  | inject t cx c => do
    let legacy := ((← Act.get).agent.tracer t).settings.writeLegacy
    return .carrier ((Propagator.agent legacy).inject cx c)
  | extract t cx c => do
    let legacy := ((← Act.get).agent.tracer t).settings.writeLegacy
    let (cx, events) := (Propagator.agent legacy).extract cx c
    events.forM Act.emit
    return .context cx
  | openRegistry n t now => do
    Act.modify fun w =>
      let settings := (w.agent.tracer t).settings
      w.setRegistry n (.empty settings.registry now settings.strict)
    return .done
  | openRegistryAlone n policy now => do
    Act.modify (·.setRegistry n (.empty policy now))
    return .done
  | register n key span now => do return .registered (← onRegistry n (Registry.register now key span))
  | resolve n key => do return .resolved (← onRegistry n (Act.update (·.resolve key)))
  | sweep n now => do return .count (← onRegistry n (Registry.sweep now))
  | size n => do return .count ((← Act.get).registries n).size

/-- The misuse that the operation is at this point, and whether it is reported to something strict: a repeated end, or
a registration under a live key. -/
def misuse? (w : Workplace P κ) : Operation P κ → Option (Bool × UsageError)
  | call (.endTransaction t _ _) =>
    if w.agent.hasEnded t then some ((w.agent.tracer t.tracer).settings.strict, .alreadyEnded .transaction t.id)
    else none
  | call (.endSpan (.live s) _ _) =>
    if w.agent.isRecording (.live s) then none
    else some ((w.agent.tracer s.transaction.tracer).settings.strict, .alreadyEnded .span s.traceContext.spanId)
  | register n key _ now => ((w.registries n).tidied now).misuse? now key
  | _ => none

/-- What a misuse leaves: a registration has swept its registry if that was due, and otherwise nothing changes. -/
def settled (w : Workplace P κ) : Operation P κ → Workplace P κ
  | register n _ _ now => w.setRegistry n ((w.registries n).tidied now)
  | _ => w

/-- What a misuse is answered if it is not stopped. -/
def refusal : Operation P κ → Answer κ
  | register _ key span _ => .registered (.error (.keyInUse key span))
  | _ => .done

/-- What is reported before a misuse. -/
def tidyEvents (w : Workplace P κ) : Operation P κ → List Event
  | register n _ _ now => (w.registries n).tidyEvents now
  | _ => []

end Operation

namespace Workplace

variable {w : Workplace P κ}

theorem lenient_setRegistry (w : Workplace P κ) (n : Nat) (r : Registry κ Span) :
    (w.setRegistry n r).lenient = w.lenient.setRegistry n r.lenient := by
  unfold lenient setRegistry
  rw [Workplace.mk.injEq]
  refine ⟨rfl, funext fun m => ?_⟩
  by_cases hm : m = n
  · subst hm
    simp
  · simp [hm]

theorem mirrors_onAgent {α : Type} {x : Act (Agent P) α} (hx : Act.MirrorsAt Agent.lenient w.agent x x) :
    Act.MirrorsAt lenient w (onAgent x) (onAgent x) := hx.onPart rfl fun _ => rfl

theorem mirrors_onRegistry {α : Type} {n : Nat} {x : Act (Registry κ Span) α}
    (hx : Act.MirrorsAt Registry.lenient (w.registries n) x x) :
    Act.MirrorsAt lenient w (onRegistry n x) (onRegistry n x) := by
  unfold onRegistry
  exact Act.MirrorsAt.onPart hx rfl fun r => (lenient_setRegistry w n r).symm

end Workplace

/-! ### One operation -/

namespace Operation

open Workplace

variable [DecidableEq κ] [KeyText κ] [Processor P] {w : Workplace P κ}

omit [DecidableEq κ] [KeyText κ] [Processor P] in
theorem mirrors_emits : ∀ events : List Event,
    Act.Mirrors lenient (events.forM Act.emit : Act (Workplace P κ) Unit) (events.forM Act.emit)
  | [] => .pure ()
  | e :: rest => (Act.Mirrors.emit e).bind fun _ => mirrors_emits rest

omit [DecidableEq κ] [KeyText κ] in
theorem mirrors_call {a : Agent P} {c : Call P}
    (ends : ∀ t ending now, c = .endTransaction t ending now → a.hasEnded t = false)
    (endsSpan : ∀ s ending now, c = .endSpan (.live s) ending now → a.isRecording (.live s) = true) :
    Act.MirrorsAt Agent.lenient a (c.act : Act (Agent P) (Answer κ)) c.act := by
  have hdone : ∀ _ : Unit, Act.Mirrors Agent.lenient (pure .done : Act (Agent P) (Answer κ)) (pure .done) :=
    fun _ => .pure _
  cases c with
  | editTransaction t e => rfl
  | editSpan s e => cases s <;> rfl
  | endTransaction t ending now => exact (Agent.mirrors_endTransaction (ends _ _ _ rfl) ending now).bind hdone
  | endSpan s ending now =>
    cases s with
    | live s => exact (Agent.mirrors_endSpan (endsSpan _ _ _ rfl) ending now).bind hdone
    | dropped => rfl
  | captureError t cx message causes => exact (Agent.mirrors_captureError t cx message causes).bind (fun _ => .pure _) a
  | forceFlush t => exact (Agent.mirrors_forceFlush t).bind (fun _ => .pure _) a
  | shutdown t => exact (Agent.mirrors_shutdown t).bind (fun _ => .pure _) a
  | release holders => exact (Agent.mirrors_release holders).bind hdone a
  | work t place x => exact (Agent.mirrors_onProcessors t _).bind (fun _ => .pure _) a

/-- What is no misuse does the same without strictness. -/
theorem mirrors_perform {op : Operation P κ} (h : op.misuse? w = none) :
    Act.MirrorsAt lenient w op.perform op.perform := by
  have hlegacy : ∀ (w : Workplace P κ) (t : Tracer), (w.lenient.agent.tracer t).settings.writeLegacy =
      (w.agent.tracer t).settings.writeLegacy := fun w t => congrArg (·.settings.writeLegacy) (w.agent.tracer_lenient t)
  cases op with
  | start s now => exact (mirrors_onAgent (Act.Mirrors.update (fun a => a.start_lenient s now) _)).bind fun _ => .pure _
  | call c =>
    refine mirrors_onAgent (mirrors_call ?_ ?_)
    · rintro t ending now rfl
      simpa [misuse?] using h
    · rintro s ending now rfl
      simpa [misuse?] using h
  | inject t cx c =>
    refine Act.Mirrors.get_bind (fun w => ?_) w
    rw [hlegacy]
    exact .pure _
  | extract t cx c =>
    refine Act.Mirrors.get_bind (fun w => ?_) w
    rw [hlegacy]
    exact (mirrors_emits _).bind fun _ => .pure _
  | openRegistry n t now =>
    refine (Act.Mirrors.modify fun w => ?_).bind (fun _ => .pure _) w
    rw [lenient_setRegistry, show w.lenient.agent = w.agent.lenient from rfl, Agent.tracer_lenient]
    rfl
  | openRegistryAlone n policy now =>
    refine (Act.Mirrors.modify fun w => ?_).bind (fun _ => .pure _) w
    rw [lenient_setRegistry]
    rfl
  | register n key span now =>
    exact (mirrors_onRegistry (Registry.mirrors_register span h)).bind fun _ => .pure _
  | resolve n key => exact (mirrors_onRegistry (Act.Mirrors.update (fun _ => rfl) _)).bind fun _ => .pure _
  | sweep n now => exact (mirrors_onRegistry (Registry.mirrors_sweep now _)).bind fun _ => .pure _
  | size n =>
    refine Act.Mirrors.get_bind (fun w => ?_) w
    exact .pure _

/-- A misuse is reported when all is done, and only then it is stopped, or refused. -/
theorem perform_misuse {op : Operation P κ} {strict : Bool} {e : UsageError} (h : op.misuse? w = some (strict, e)) :
    op.perform w = (if strict then .error ⟨some e.message⟩ else .ok op.refusal, op.settled w,
      op.tidyEvents w ++ [.misuse e]) := by
  unfold misuse? at h
  split at h
  · rename_i t ending now
    split at h
    · rename_i ended
      obtain ⟨rfl, rfl⟩ := Prod.mk.inj (Option.some.inj h)
      have hact := Act.wrapped_run (Agent.endTransaction_again ended ending now) fun _ => Answer.done (κ := κ)
      exact congrArg (fun out => (out.1, { w with agent := out.2.1 }, out.2.2)) hact
    · cases h
  · rename_i s ending now
    split at h
    · cases h
    · rename_i ended
      obtain ⟨rfl, rfl⟩ := Prod.mk.inj (Option.some.inj h)
      have ended : w.agent.isRecording (.live s) = false := Bool.not_eq_true _ |>.mp ended
      have hact := Act.wrapped_run (Agent.endSpan_again ended ending now) fun _ => Answer.done (κ := κ)
      exact congrArg (fun out => (out.1, { w with agent := out.2.1 }, out.2.2)) hact
  · rename_i n key span now
    -- The sweep that was due stays done.
    have hact : onRegistry n (Registry.register now key span) w = _ :=
      congrArg (fun out => (out.1, w.setRegistry n out.2.1, out.2.2)) (Registry.register_misuse span h)
    exact Act.wrapped_run hact Answer.registered
  · cases h

omit [Processor P] in
theorem misuse?_lenient (op : Operation P κ) (w : Workplace P κ) :
    op.misuse? w.lenient = (op.misuse? w).map fun m => (false, m.2) := by
  have htracer : ∀ t, (w.lenient.agent.tracer t).settings.strict = false :=
    fun t => congrArg (·.settings.strict) (w.agent.tracer_lenient t)
  cases op with
  | call c =>
    cases c with
    | endTransaction t ending now =>
      show (if w.agent.hasEnded t then _ else none) = Option.map _ (if w.agent.hasEnded t then _ else none)
      rw [htracer]
      split <;> rfl
    | endSpan s ending now =>
      cases s with
      | live s =>
        show (if w.agent.isRecording (.live s) then none else _) =
          Option.map _ (if w.agent.isRecording (.live s) then none else _)
        rw [htracer]
        split <;> rfl
      | dropped => rfl
    | _ => rfl
  | register n key span now =>
    show ((w.registries n).lenient.tidied now).misuse? now key = _
    rw [Registry.tidied_lenient, Registry.misuse?_lenient]
    rfl
  | _ => rfl

omit [Processor P] [DecidableEq κ] [KeyText κ] in
theorem settled_lenient (op : Operation P κ) (w : Workplace P κ) : op.settled w.lenient = (op.settled w).lenient := by
  cases op with
  | register n key span now =>
    show w.lenient.setRegistry n ((w.registries n).lenient.tidied now) = _
    rw [Registry.tidied_lenient, ← lenient_setRegistry]
    rfl
  | _ => rfl

omit [Processor P] [DecidableEq κ] [KeyText κ] in
theorem tidyEvents_lenient (op : Operation P κ) (w : Workplace P κ) : op.tidyEvents w.lenient = op.tidyEvents w := by
  cases op with
  | register n key span now => exact (w.registries n).tidyEvents_lenient now
  | _ => rfl

end Operation

/-! ### Runs -/

/-- One callback of a run: what it performed under its guard, and where from and where to. -/
structure Moment (P κ : Type) where
  name : String
  operation : Operation P κ
  before : Workplace P κ
  answer : Except Panic (Option (Answer κ))
  after : Workplace P κ
  events : List Event

section Moments
variable [DecidableEq κ] [KeyText κ]

/-- The misuse that the callback was, if it was stopped. -/
def Moment.stopped? (m : Moment P κ) : Option UsageError :=
  (m.operation.misuse? m.before).bind fun x => if x.1 then some x.2 else none

variable [Processor P]

def Workplace.moment (w : Workplace P κ) (name : String) (op : Operation P κ) : Moment P κ :=
  let (answer, after, events) := Act.guard name op.perform w
  { name, operation := op, before := w, answer, after, events }

def Workplace.moments : Workplace P κ → List (String × Operation P κ) → List (Moment P κ)
  | _, [] => []
  | w, (name, op) :: rest => w.moment name op :: (w.moment name op).after.moments rest

end Moments

/-- The processors have exported and hold the same, the same spans were counted, the same has ended, and the registries
hold the same. -/
structure Workplace.Same (v w : Workplace P κ) : Prop where
  processors : ∀ t, (v.agent.tracer t).processors = (w.agent.tracer t).processors
  spanCount : ∀ t, v.agent.spanCount t = w.agent.spanCount t
  hasEnded : ∀ t, v.agent.hasEnded t = w.agent.hasEnded t
  isRecording : ∀ s, v.agent.isRecording s = w.agent.isRecording s
  entries : ∀ n, (v.registries n).entries = (w.registries n).entries

theorem Workplace.lenient_same (w : Workplace P κ) : w.lenient.Same w where
  processors t := congrArg (·.processors) (w.agent.tracer_lenient t)
  spanCount _ := rfl
  hasEnded _ := rfl
  isRecording s := by cases s <;> rfl
  entries _ := rfl

namespace Moment
variable [DecidableEq κ] [KeyText κ]

/-- The second callback is the first one without strictness. They leave the same and report the same, but that the
first one has no answer and reports the panic if it was stopped. Both report a misuse and leave it at that. -/
structure Relaxes (m n : Moment P κ) : Prop where
  operation : n.operation = m.operation
  before : n.before = m.before.lenient
  after : n.after = m.after.lenient
  same : n.after.Same m.after
  answer : m.answer = if m.stopped?.isSome then .ok none else n.answer
  events : m.events = n.events ++ (m.stopped?.map fun e => .callbackPanicked m.name e.message).toList
  misuse : ∀ strict e, m.operation.misuse? m.before = some (strict, e) →
    n.answer = .ok (some n.operation.refusal) ∧ .misuse e ∈ n.events ∧
      m.after = m.operation.settled m.before ∧ n.after = n.operation.settled n.before

variable [Processor P]

theorem relaxes_of_none {w : Workplace P κ} {op : Operation P κ} (hmisuse : op.misuse? w = none) (name : String) :
    (w.moment name op).Relaxes (w.lenient.moment name op) := by
  have hguard : Act.guard name op.perform w.lenient = _ := (Operation.mirrors_perform hmisuse).guard name
  have hlenient : w.lenient.moment name op =
      { w.moment name op with before := w.lenient, after := (w.moment name op).after.lenient } := by
    unfold Workplace.moment
    rw [hguard]
  have hstopped : (w.moment name op).stopped? = none := congrArg (Option.bind · _) hmisuse
  rw [hlenient]
  refine ⟨rfl, rfl, rfl, Workplace.lenient_same _, ?_, ?_, fun strict e h => ?_⟩
  · rw [hstopped]
    rfl
  · rw [hstopped]
    exact (List.append_nil _).symm
  · cases hmisuse.symm.trans h

theorem moment_of_misuse {w : Workplace P κ} {op : Operation P κ} {strict : Bool} {e : UsageError}
    (hmisuse : op.misuse? w = some (strict, e)) (name : String) : w.moment name op =
      { name, operation := op, before := w, answer := .ok (if strict then none else some op.refusal)
        after := op.settled w
        events := op.tidyEvents w ++ [.misuse e] ++ if strict then [.callbackPanicked name e.message] else [] } := by
  unfold Workplace.moment Act.guard
  rw [Operation.perform_misuse hmisuse]
  cases strict with
  | true => rfl
  | false => simp

theorem relaxes_of_misuse {w : Workplace P κ} {op : Operation P κ} {strict : Bool} {e : UsageError}
    (hmisuse : op.misuse? w = some (strict, e)) (name : String) :
    (w.moment name op).Relaxes (w.lenient.moment name op) := by
  have hlenient : op.misuse? w.lenient = some (false, e) := by rw [op.misuse?_lenient, hmisuse]; rfl
  have hstopped : (w.moment name op).stopped? = if strict then some e else none := congrArg (Option.bind · _) hmisuse
  have hsettled := op.settled_lenient w
  have hmoment := moment_of_misuse hmisuse name
  have hmoment' := moment_of_misuse hlenient name
  have hafter : (w.lenient.moment name op).after = (w.moment name op).after.lenient := by
    rw [hmoment, hmoment', hsettled]
  refine ⟨rfl, rfl, hafter, hafter ▸ Workplace.lenient_same _, ?_, ?_, fun strict' e' h => ?_⟩
  · rw [hstopped, hmoment, hmoment']
    cases strict <;> rfl
  · rw [hstopped, hmoment, hmoment', op.tidyEvents_lenient]
    cases strict <;> simp
  · obtain ⟨rfl, rfl⟩ := Prod.mk.inj (Option.some.inj (hmisuse.symm.trans h))
    rw [hmoment, hmoment']
    exact ⟨rfl, by simp, rfl, rfl⟩

theorem relaxes (w : Workplace P κ) (name : String) (op : Operation P κ) :
    (w.moment name op).Relaxes (w.lenient.moment name op) := by
  cases hmisuse : op.misuse? w with
  | none => exact relaxes_of_none hmisuse name
  | some m => exact relaxes_of_misuse (show op.misuse? w = some (m.1, m.2) from hmisuse) name

/-- Take a run of callbacks in which tracers and registries may be strict, and the same run without strictness. After
each callback the same is exported, counted, ended and held, and the same was reported but for the panics. Just those
callbacks have no answer for it that were a misuse reported to something strict. No misuse changes anything, but that
a registration sweeps its registry first if that is due. -/
theorem strictness_only_stops_misuse (w : Workplace P κ) (callbacks : List (String × Operation P κ)) :
    List.Forall₂ Relaxes (w.moments callbacks) (w.lenient.moments callbacks) := by
  induction callbacks generalizing w with
  | nil => exact .nil
  | cons callback rest ih =>
    obtain ⟨name, op⟩ := callback
    have hstep := relaxes w name op
    -- The rest of both runs goes on from states that are the same but for the strictness.
    unfold Workplace.moments
    rw [hstep.after]
    exact .cons hstep (ih _)

/-- A strict registry stops the second registration under its key, and nothing else. -/
example : ((⟨.empty, fun _ => .empty {} ⟨0⟩ true⟩ : Workplace (DirectProcessor MemoryStore) CorrelationKey).moments
    [("begin", .register 0 (.number 7) (.dropped .none none) ⟨1⟩),
      ("begin", .register 0 (.number 7) (.dropped .none none) ⟨2⟩),
      ("end", .resolve 0 (.number 7))]).map (fun m => m.stopped?.isSome) = [false, true, false] := by decide

end Moment
end Tracing
