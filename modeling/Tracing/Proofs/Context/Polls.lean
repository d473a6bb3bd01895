import Tracing.Context.Scoped
import Tracing.Proofs.Context.Guards

/-! # Turns of wrapped work

Futures, streams and sinks with a context around them are polled on one thread, one within another and in any order.
If each drops its own guards before it returns, they do not disturb each other: outside of its own guards every turn
sees the context of its innermost wrapper, and leaves the stack as it found it. A single wrapped turn is one of the
inner work under the context of the wrapper (`Wrapped.turn_run`, `Wrapped.turn_of_kept`).

The code of a thread is a tree (`Routine`) that goes on by what it learns, so that it can poll what it likes when it
likes; a run notes what the code saw at each point and what each poll did to the stack (`Mark`). The invariant
(`Working`) is that of a thread that holds the guards of the outer code, that of the wrapper and those of its own; it
determines the stack (`Thread.Sound.stack_unique`). -/

namespace Tracing

variable {σ κ α : Type}

/-! ### Stacks with the same guards -/

namespace ContextStack

/-- A table determines the stack. -/
theorem Tracks.unique {s u : ContextStack κ} {table : List (Nat × κ)} (hs : s.Tracks table) (hu : u.Tracks table) :
    s = u := by
  obtain ⟨hsize, hcurrent⟩ := Prod.mk.inj (Option.some.inj (hs.top.symm.trans hu.top))
  have hslots : s.slots = u.slots := by
    refine Array.ext hsize fun i hi hi' => ?_
    have hat := (hs.slot i hi).trans (hu.slot i hi').symm
    rw [Array.getElem?_eq_getElem hi, Array.getElem?_eq_getElem hi'] at hat
    exact Option.some.inj hat
  cases s
  cases u
  exact congr (congrArg ContextStack.mk hcurrent) hslots

end ContextStack

/-- The guards of a thread determine its stack. -/
theorem Thread.Sound.stack_unique {base : κ} {s u : ContextStack κ} {held : List (ContextGuard × κ)}
    (hs : Thread.Sound base ⟨s, held⟩) (hu : Thread.Sound base ⟨u, held⟩) : s = u :=
  hs.tracks.unique hu.tracks

/-- Attaching a context and dropping its guard leaves the stack as it was. -/
theorem Thread.Sound.detach_attach {base : κ} {s : ContextStack κ} {held : List (ContextGuard × κ)}
    (h : Thread.Sound base ⟨s, held⟩) (cx : κ) : (s.attach cx).2.1.detach (s.attach cx).1 = (s, []) := by
  cases hroom : s.hasRoom with
  | false =>
    have hrefused : s.attach cx = (⟨ContextStack.overflow⟩, s, [.attachFailed ContextStack.overflow]) := by
      simp [ContextStack.attach, hroom]
    rw [hrefused]
    exact Thread.Sound.detach_refused rfl
  | true =>
    have hattached := h.attach cx
    have hdropped := hattached.drop held.length
    simp only [Thread.after, List.getElem?_concat_length, List.eraseIdx_append_of_length_le (Nat.le_refl _),
      Nat.sub_self, List.eraseIdx_cons_zero, List.append_nil] at hdropped
    have haccepted : (s.attach cx).1.isAccepted = true := (ContextStack.isAccepted_attach s cx).trans hroom
    have hm : ((s.attach cx).1.position, cx) ∈ (Thread.after ⟨s, held⟩ (.attach cx)).live :=
      Thread.Sound.mem_live (e := ((s.attach cx).1, cx)) (List.mem_append_right _ (List.mem_singleton_self _)) haccepted
    exact Prod.ext (hdropped.stack_unique h) (hattached.tracks.detach hattached.fits hm).1

/-! ### Wrapped turns -/

namespace Wrapped
variable {inner : Turn σ κ α} {w : Wrapped κ σ} {stack left : ContextStack κ} {r : Except Panic α} {s : σ}
  {events : List Event}

/-- A wrapped turn is a turn of the inner work on the stack with the context attached. It hands back the state of the
work and its result, and drops the guard of the context. -/
theorem turn_run (hrun : inner (w.inner, (stack.attach w.context).2.1) = (r, (s, left), events)) :
    turn inner (w, stack) = (r, ({ w with inner := s }, (left.detach (stack.attach w.context).1).1),
      (stack.attach w.context).2.2 ++ events ++ (left.detach (stack.attach w.context).1).2) := by
  simp only [turn, Turn.within, hrun]

/-- During the turn the context is current. Where the work leaves the stack as it found it, so does the turn. -/
theorem turn_of_kept {base : κ} {held : List (ContextGuard × κ)} (h : Thread.Sound base ⟨stack, held⟩)
    (hroom : stack.hasRoom = true)
    (hrun : inner (w.inner, (stack.attach w.context).2.1) = (r, (s, (stack.attach w.context).2.1), events)) :
    (stack.attach w.context).2.1.current = w.context ∧
      turn inner (w, stack) = (r, ({ w with inner := s }, stack), events) := by
  have hattach : stack.attach w.context = (⟨stack.slots.size + 1⟩, stack.push w.context, []) := by
    simp [ContextStack.attach, hroom]
  refine ⟨by rw [hattach]; rfl, ?_⟩
  rw [turn_run hrun, h.detach_attach, hattach]
  simp

end Wrapped

/-! ### Code on a thread -/

/-- Code that runs on a thread, as far as contexts are concerned. It has a state, also that of the work it polls, and
it holds guards of its own, which it drops in any order. -/
inductive Routine (σ κ α : Type) where
  /-- Returns or panics. -/
  | done (r : Except Panic α)
  /-- Goes by its state. -/
  | read (next : σ → Routine σ κ α)
  /-- Changes its state. -/
  | write (state : σ) (next : Routine σ κ α)
  /-- Goes by the current context. -/
  | look (next : κ → Routine σ κ α)
  /-- Attaches a context. -/
  | attach (cx : κ) (next : Routine σ κ α)
  /-- Drops one of its own guards, by its place among them, oldest first. -/
  | drop (place : Nat) (next : Routine σ κ α)
  /-- Polls work with a context around it, and goes by what the work returned. -/
  | poll (cx : κ) (inner : Routine σ κ α) (next : Except Panic α → Routine σ κ α)

/-- What a run notes. -/
inductive Mark (κ : Type) where
  /-- A point of the code: the context of the innermost wrapper, if the code is within one, the guards of its own, and
  the stack. -/
  | point (wrapper : Option κ) (own : List (ContextGuard × κ)) (stack : ContextStack κ)
  /-- The end of a poll: the guards that the work did not drop, and the stack before and after the poll. -/
  | polled (left : List (ContextGuard × κ)) (before after : ContextStack κ)
deriving DecidableEq

/-- What code works on, its stack aside: its state, the guards of its own, and what was noted so far. -/
structure Desk (σ κ : Type) where
  state : σ
  own : List (ContextGuard × κ) := []
  marks : List (Mark κ) := []

namespace Desk

/-- Notes something. -/
def note (d : Desk σ κ) (m : Mark κ) : Desk σ κ := { d with marks := d.marks ++ [m] }

/-- The desk with these guards for its own. -/
def holding (d : Desk σ κ) (own : List (ContextGuard × κ)) : Desk σ κ := { d with own }

end Desk

/-- Runs code within a wrapper, if any. A poll is a turn of wrapped work; guards that the work leaves are held by the
code that polled it. -/
def Routine.turn (wrapper : Option κ) (code : Routine σ κ α) : Turn (Desk σ κ) κ α := fun (d, stack) =>
  let d := d.note (.point wrapper d.own stack)
  match code with
  | done r => (r, (d, stack), [])
  | read next => (next d.state).turn wrapper (d, stack)
  | write state next => next.turn wrapper ({ d with state }, stack)
  | look next => (next stack.current).turn wrapper (d, stack)
  | attach cx next =>
    let (g, stack, e₁) := stack.attach cx
    let (r, s, e₂) := next.turn wrapper (d.holding (d.own ++ [(g, cx)]), stack)
    (r, s, e₁ ++ e₂)
  | drop place next =>
    match d.own[place]? with
    | some (g, _) =>
      let (stack, e₁) := stack.detach g
      let (r, s, e₂) := next.turn wrapper (d.holding (d.own.eraseIdx place), stack)
      (r, s, e₁ ++ e₂)
    | none => next.turn wrapper (d, stack)
  | poll cx inner next =>
    let (polled, (work, after), e₁) := Wrapped.turn (inner.turn (some cx)) (⟨cx, d.holding []⟩, stack)
    let left := work.inner.own
    let d := (work.inner.holding (d.own ++ left)).note (.polled left stack after)
    let (r, s, e₂) := (next polled).turn wrapper (d, after)
    (r, s, e₁ ++ e₂)

/-- What the desk and the stack are like when code has run. -/
def Routine.leaves (code : Routine σ κ α) (wrapper : Option κ) (d : Desk σ κ) (stack : ContextStack κ) :
    Desk σ κ × ContextStack κ := (code.turn wrapper (d, stack)).2.1

/-- What is noted of a thread on which nothing is attached at first. -/
def Routine.notes (code : Routine σ κ α) (base : κ) (state : σ) : List (Mark κ) :=
  (code.leaves none { state } (ContextStack.ofBase base)).1.marks

/-- What is asked of the code: the stack is never full, and work has dropped its own guards when it returns. -/
def Mark.IsOrderly : Mark κ → Prop
  | .point _ _ stack => stack.hasRoom = true
  | .polled left _ _ => left = []

instance [DecidableEq κ] : DecidablePred (Mark.IsOrderly (κ := κ))
  | .point _ _ stack => inferInstanceAs (Decidable (stack.hasRoom = true))
  | .polled left _ _ => inferInstanceAs (Decidable (left = []))

/-- What isolates pieces of work: the current context is that of the latest guard of the code's own, or without one
that of the innermost wrapper, and outside of wrappers the first one of the thread; a poll leaves the stack as it
was. -/
def Mark.IsIsolated (base : κ) : Mark κ → Prop
  | .point wrapper own stack => stack.current = (own.getLast?.map Prod.snd).getD (wrapper.getD base)
  | .polled _ before after => after = before

namespace Routine

variable {wrapper : Option κ} {d : Desk σ κ} {stack : ContextStack κ}

theorem leaves_drop_of_some {place : Nat} {next : Routine σ κ α} {e : ContextGuard × κ} (h : d.own[place]? = some e) :
    (drop place next).leaves wrapper d stack =
      next.leaves wrapper ((d.note (.point wrapper d.own stack)).holding (d.own.eraseIdx place))
        (stack.detach e.1).1 := by
  simp only [leaves, turn, Desk.note, Desk.holding, h]

theorem leaves_drop_of_none {place : Nat} {next : Routine σ κ α} (h : d.own[place]? = none) :
    (drop place next).leaves wrapper d stack =
      next.leaves wrapper (d.note (.point wrapper d.own stack)) stack := by
  simp only [leaves, turn, Desk.note, h]

/-- Work is polled with its context attached and without guards; the code goes on with its result and with what it has
left. -/
theorem leaves_poll {cx : κ} {inner : Routine σ κ α} {polled : Except Panic α} {left : Desk σ κ}
    {last : ContextStack κ} {events : List Event}
    (h : inner.turn (some cx) ((d.note (.point wrapper d.own stack)).holding [], (stack.attach cx).2.1) =
      (polled, (left, last), events)) (next : Except Panic α → Routine σ κ α) :
    (poll cx inner next).leaves wrapper d stack =
      (next polled).leaves wrapper ((left.holding (d.own ++ left.own)).note
        (.polled left.own stack (last.detach (stack.attach cx).1).1)) (last.detach (stack.attach cx).1).1 := by
  have hturn := Wrapped.turn_run (w := ⟨cx, (d.note (.point wrapper d.own stack)).holding []⟩) h
  simp only [leaves, turn]
  rw [hturn]
  rfl

theorem mem_note_of_mem {m m' : Mark κ} (h : m ∈ d.marks) : m ∈ (d.note m').marks := List.mem_append_left _ h

theorem mem_note {m : Mark κ} : m ∈ (d.note m).marks := List.mem_append_right _ (List.mem_singleton_self _)

/-- What was noted stays. -/
theorem mem_marks (code : Routine σ κ α) {m : Mark κ} (h : m ∈ d.marks) :
    m ∈ (code.leaves wrapper d stack).1.marks := by
  induction code generalizing wrapper d stack with
  | done r => exact mem_note_of_mem h
  | read next ih => exact ih _ (mem_note_of_mem h)
  | write state next ih => exact ih (d := { d.note _ with state }) (mem_note_of_mem h)
  | look next ih => exact ih _ (mem_note_of_mem h)
  | attach cx next ih => exact ih (d := (d.note _).holding _) (mem_note_of_mem h)
  | drop place next ih =>
    cases hg : d.own[place]? with
    | some e =>
      rw [leaves_drop_of_some hg]
      exact ih (d := (d.note _).holding _) (mem_note_of_mem h)
    | none =>
      rw [leaves_drop_of_none hg]
      exact ih (mem_note_of_mem h)
  | poll cx inner next ihInner ihNext =>
    rcases hinner : inner.turn (some cx) ((d.note (.point wrapper d.own stack)).holding [], (stack.attach cx).2.1) with
      ⟨polled, ⟨left, last⟩, events⟩
    have hleft : m ∈ (inner.leaves (some cx) ((d.note (.point wrapper d.own stack)).holding [])
        (stack.attach cx).2.1).1.marks := ihInner (d := (d.note _).holding []) (mem_note_of_mem h)
    rw [leaves, hinner] at hleft
    rw [leaves_poll hinner next]
    exact ihNext polled (mem_note_of_mem (d := left.holding _) hleft)

end Routine

/-! ### The guards behind the stack -/

/-- With all guards accepted, the latest one tells the current context. -/
theorem Thread.Sound.current_of_accepted {base : κ} {t : Thread κ} (h : Thread.Sound base t)
    (accepted : ∀ e ∈ t.held, e.1.isAccepted = true) :
    t.stack.current = (t.held.getLast?.map Prod.snd).getD base := by
  rw [h.current, Thread.live, List.filter_eq_self.mpr accepted, List.getLast?_map, Option.map_map]
  rfl

/-- The stack belongs to code that holds guards `own` within `wrapper`, if any, above those of the outer code and of
the wrapper (`below`). -/
structure Working (base : κ) (wrapper : Option κ) (below own : List (ContextGuard × κ)) (stack : ContextStack κ) :
    Prop where
  sound : Thread.Sound base ⟨stack, below ++ own⟩
  accepted : ∀ e ∈ below ++ own, e.1.isAccepted = true
  innermost : (below.getLast?.map Prod.snd).getD base = wrapper.getD base

namespace Working
variable {base : κ} {wrapper : Option κ} {below own : List (ContextGuard × κ)} {stack : ContextStack κ}

theorem start (base : κ) : Working base none [] [] (ContextStack.ofBase base) where
  sound := Thread.Sound.start base
  accepted := nofun
  innermost := rfl

theorem current (h : Working base wrapper below own stack) :
    stack.current = (own.getLast?.map Prod.snd).getD (wrapper.getD base) := by
  have hcurrent : stack.current = ((below ++ own).getLast?.map Prod.snd).getD base :=
    h.sound.current_of_accepted h.accepted
  rw [hcurrent, ← h.innermost, List.getLast?_append]
  cases own.getLast? <;> rfl

/-- An attached context, with its guard on top. -/
theorem pushed (h : Working base wrapper below own stack) (hroom : stack.hasRoom = true) (cx : κ) :
    Thread.Sound base ⟨(stack.attach cx).2.1, below ++ own ++ [((stack.attach cx).1, cx)]⟩ ∧
      ∀ e ∈ below ++ own ++ [((stack.attach cx).1, cx)], e.1.isAccepted = true := by
  refine ⟨h.sound.attach cx, fun e he => ?_⟩
  rcases List.mem_append.mp he with he | he
  · exact h.accepted e he
  · rw [List.mem_singleton.mp he, ContextStack.isAccepted_attach, hroom]

theorem attach (h : Working base wrapper below own stack) (hroom : stack.hasRoom = true) (cx : κ) :
    Working base wrapper below (own ++ [((stack.attach cx).1, cx)]) (stack.attach cx).2.1 := by
  obtain ⟨hsound, haccepted⟩ := h.pushed hroom cx
  rw [List.append_assoc] at hsound haccepted
  exact ⟨hsound, haccepted, h.innermost⟩

/-- Work with a context around it starts without guards of its own. -/
theorem enter (h : Working base wrapper below own stack) (hroom : stack.hasRoom = true) (cx : κ) :
    Working base (some cx) (below ++ own ++ [((stack.attach cx).1, cx)]) [] (stack.attach cx).2.1 := by
  obtain ⟨hsound, haccepted⟩ := h.pushed hroom cx
  rw [← List.append_nil (below ++ own ++ _)] at hsound haccepted
  exact ⟨hsound, haccepted, by simp⟩

theorem drop (h : Working base wrapper below own stack) {place : Nat} {e : ContextGuard × κ}
    (he : own[place]? = some e) : Working base wrapper below (own.eraseIdx place) (stack.detach e.1).1 := by
  have hat : (below ++ own)[below.length + place]? = some e := by
    rw [List.getElem?_append_right (Nat.le_add_right _ _), Nat.add_sub_cancel_left, he]
  have herase : (below ++ own).eraseIdx (below.length + place) = below ++ own.eraseIdx place := by
    rw [List.eraseIdx_append_of_length_le (Nat.le_add_right _ _), Nat.add_sub_cancel_left]
  have hsound := h.sound.drop (below.length + place)
  simp only [Thread.after, hat, herase] at hsound
  refine ⟨hsound, fun e' he' => h.accepted e' ?_, h.innermost⟩
  rw [← herase] at he'
  exact List.mem_of_mem_eraseIdx he'

/-- Once work has dropped its own guards, dropping that of its wrapper brings the stack back. -/
theorem leave (h : Working base wrapper below own stack) {cx : κ} {after : ContextStack κ}
    (hinner : Working base (some cx) (below ++ own ++ [((stack.attach cx).1, cx)]) [] after) :
    (after.detach (stack.attach cx).1).1 = stack := by
  have hsound := hinner.sound
  rw [List.append_nil] at hsound
  have hafter : after = (stack.attach cx).2.1 := hsound.stack_unique (h.sound.attach cx)
  rw [hafter, h.sound.detach_attach]

end Working

/-! ### What isolates turns -/

namespace Routine

variable {base : κ} {wrapper : Option κ} {below : List (ContextGuard × κ)} {d : Desk σ κ} {stack : ContextStack κ}

theorem isIsolated_note {m : Mark κ} (hm : m.IsIsolated base) (hd : ∀ m ∈ d.marks, m.IsIsolated base) :
    ∀ m' ∈ (d.note m).marks, m'.IsIsolated base := by
  intro m' hm'
  rcases List.mem_append.mp hm' with hm' | hm'
  · exact hd m' hm'
  · exact List.mem_singleton.mp hm' ▸ hm

/-- Orderly code that works within its wrapper goes on to do so, and all that it notes tells of isolation. -/
theorem isolated (code : Routine σ κ α) (h : Working base wrapper below d.own stack)
    (orderly : ∀ m ∈ (code.leaves wrapper d stack).1.marks, m.IsOrderly) (hd : ∀ m ∈ d.marks, m.IsIsolated base) :
    (∀ m ∈ (code.leaves wrapper d stack).1.marks, m.IsIsolated base) ∧
      Working base wrapper below (code.leaves wrapper d stack).1.own (code.leaves wrapper d stack).2 := by
  induction code generalizing wrapper below d stack with
  | done r => exact ⟨isIsolated_note h.current hd, h⟩
  | read next ih => exact ih _ h orderly (isIsolated_note h.current hd)
  | write state next ih =>
    exact ih (d := { d.note (.point wrapper d.own stack) with state }) h orderly (isIsolated_note h.current hd)
  | look next ih => exact ih _ h orderly (isIsolated_note h.current hd)
  | attach cx next ih =>
    have hroom : (Mark.point wrapper d.own stack).IsOrderly :=
      orderly _ (mem_marks next (d := (d.note _).holding _) mem_note)
    exact ih (d := (d.note _).holding _) (h.attach hroom cx) orderly (isIsolated_note h.current hd)
  | drop place next ih =>
    cases hg : d.own[place]? with
    | some e =>
      rw [leaves_drop_of_some hg] at orderly ⊢
      exact ih (d := (d.note _).holding _) (h.drop hg) orderly (isIsolated_note h.current hd)
    | none =>
      rw [leaves_drop_of_none hg] at orderly ⊢
      exact ih h orderly (isIsolated_note h.current hd)
  | poll cx inner next ihInner ihNext =>
    rcases hinner : inner.turn (some cx) ((d.note (.point wrapper d.own stack)).holding [], (stack.attach cx).2.1) with
      ⟨polled, ⟨left, last⟩, events⟩
    have hleaves : inner.leaves (some cx) ((d.note (.point wrapper d.own stack)).holding []) (stack.attach cx).2.1 =
        (left, last) := by rw [leaves, hinner]
    rw [leaves_poll hinner next] at orderly ⊢
    -- What the work noted, and the end of the poll, stand among the notes of the whole.
    have hwork : ∀ m ∈ left.marks, m.IsOrderly :=
      fun m hm => orderly m (mem_marks _ (mem_note_of_mem (d := left.holding _) hm))
    have hleft : left.own = [] := orderly (.polled _ _ _) (mem_marks _ mem_note)
    have hroom : (Mark.point wrapper d.own stack).IsOrderly := by
      have hpoint : Mark.point wrapper d.own stack ∈ (inner.leaves (some cx)
          ((d.note (.point wrapper d.own stack)).holding []) (stack.attach cx).2.1).1.marks :=
        mem_marks inner (d := (d.note _).holding []) mem_note
      rw [hleaves] at hpoint
      exact hwork _ hpoint
    have hturn := ihInner (d := (d.note (.point wrapper d.own stack)).holding []) (h.enter hroom cx)
    rw [hleaves] at hturn
    obtain ⟨hmarks, hworking⟩ := hturn hwork (isIsolated_note h.current hd)
    have hback : (last.detach (stack.attach cx).1).1 = stack := h.leave (hleft ▸ hworking)
    rw [hback, hleft, List.append_nil] at orderly ⊢
    exact ihNext polled (d := (left.holding d.own).note _) h orderly (isIsolated_note rfl hmarks)

/-- On a thread whose stack is never full, and where work drops its own guards before it returns, polls do not disturb
each other, however they are nested and in whatever order they come. At each point the current context is that of the
latest guard that the code itself holds, and without one that of its innermost wrapper. Each poll leaves the stack as
it was, whatever the work returned. -/
theorem polls_keep_to_their_context (base : κ) (code : Routine σ κ α) (state : σ)
    (orderly : ∀ m ∈ code.notes base state, m.IsOrderly) : ∀ m ∈ code.notes base state, m.IsIsolated base :=
  (code.isolated (Working.start base) orderly nofun).1

/-- What code saw at a point that is directly within the wrapper of a context: the current context, and how many guards
of its own it held. -/
def seenWithin (cx : Nat) : Mark Nat → Option (Nat × Nat)
  | .point wrapper own stack => if wrapper = some cx then some (stack.current, own.length) else none
  | .polled .. => none

/-- Work that attaches two contexts, drops the older one first, and polls other work in between. -/
def sampleWork : Routine Nat Nat Unit :=
  .attach 11 <| .attach 12 <| .drop 0 <| .poll 20 (.attach 21 <| .drop 0 <| .done (.ok ())) fun _ =>
    .drop 0 <| .look fun _ => .done (.ok ())

/-- A thread that polls the work twice with the context 10 around it, under a guard of its own. -/
def sampleThread : Routine Nat Nat Unit :=
  .attach 1 <| .poll 10 sampleWork fun _ => .poll 10 sampleWork fun _ => .drop 0 <| .done (.ok ())

/-- The inner work is run in both turns, and each time it sees its own context outside of its guard. -/
theorem polls_keep_to_their_context_in_sampleThread :
    (∀ m ∈ sampleThread.notes 0 0, m.IsOrderly) ∧ (∀ m ∈ sampleThread.notes 0 0, m.IsIsolated 0) ∧
      (sampleThread.notes 0 0).filterMap (seenWithin 20) =
        [(20, 0), (21, 1), (20, 0), (20, 0), (21, 1), (20, 0)] := by
  have orderly : ∀ m ∈ sampleThread.notes 0 0, m.IsOrderly := by decide +kernel
  exact ⟨orderly, polls_keep_to_their_context 0 sampleThread 0 orderly, by decide +kernel⟩

end Routine
end Tracing
