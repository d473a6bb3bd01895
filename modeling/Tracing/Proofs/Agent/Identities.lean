import Tracing.Proofs.Agent.Runs

/-! # The identifiers that a run draws

Tracers may share a source of identifiers. A start and a captured error draw from it once for each identifier of their
own (`Move.identities`), and nothing else draws. So the source hands out, one after the other, just the identifiers
that a run brings about, and a source that counts names no two things alike until its counter wraps around. -/

namespace Tracing

/-- An identifier that a source hands out. -/
inductive Identity where
  | span (id : SpanId)
  | trace (id : TraceId)

/-- The number of an identifier, whatever it names. -/
def Identity.number : Identity → Nat
  | span id => id.toNat
  | trace id => id.toNat

/-! ### Sources -/

namespace IdGenerator

variable {g g' g'' : IdGenerator} {ids more : List Identity} {n : Nat}

/-- The source hands out just these identifiers, in order, and is the other one afterwards. -/
inductive Yields : IdGenerator → List Identity → IdGenerator → Prop where
  | nothing (g : IdGenerator) : Yields g [] g
  | span {g g' : IdGenerator} {ids : List Identity} (h : Yields g.nextSpan.2 ids g') :
      Yields g (.span g.nextSpan.1 :: ids) g'
  | trace {g g' : IdGenerator} {ids : List Identity} (h : Yields g.nextTrace.2 ids g') :
      Yields g (.trace g.nextTrace.1 :: ids) g'

theorem Yields.append (h : Yields g ids g') (h' : Yields g' more g'') : Yields g (ids ++ more) g'' := by
  induction h with
  | nothing => exact h'
  | span _ ih => exact .span (ih h')
  | trace _ ih => exact .trace (ih h')

/-- The source counts for both kinds together, and has come to the number. -/
structure Counts (g : IdGenerator) (n : Nat) : Prop where
  traceAt : g.traceAt = increment.traceAt
  spanAt : g.spanAt = increment.spanAt
  handed : g.traces + g.spans = n

theorem increment_counts : increment.Counts 0 := ⟨rfl, rfl, rfl⟩

theorem Counts.nextSpan (h : g.Counts n) :
    g.nextSpan.1.toNat = (n + 1) % UInt64.size ∧ g.nextSpan.2.Counts (n + 1) := by
  obtain ⟨htrace, hspan, hn⟩ := h
  refine ⟨?_, htrace, hspan, congrArg (· + 1) hn⟩
  show (g.spanAt g.traces g.spans).toNat = _
  rw [hspan, ← hn]
  exact BitVec.toNat_ofNat _ _

theorem Counts.nextTrace (h : g.Counts n) :
    g.nextTrace.1.toNat = (n + 1) % UInt64.size ∧ g.nextTrace.2.Counts (n + 1) := by
  obtain ⟨htrace, hspan, hn⟩ := h
  refine ⟨?_, htrace, hspan, by rw [← hn]; exact Nat.add_right_comm _ _ _⟩
  show (g.traceAt g.traces g.spans).toNat = _
  rw [htrace, ← hn]
  have hwide : (g.traces + g.spans + 1) % UInt64.size < 2 ^ 128 :=
    Nat.lt_trans (Nat.mod_lt _ (by decide)) (by decide)
  exact (BitVec.toNat_ofNat _ _).trans (Nat.mod_eq_of_lt hwide)

/-- A source that counts hands out the numbers that follow, as far as its counter holds them. -/
theorem Counts.numbers (h : g.Counts n) (hyields : Yields g ids g') :
    ids.map Identity.number = (List.range' (n + 1) ids.length).map (· % UInt64.size) := by
  induction hyields generalizing n with
  | nothing => rfl
  | span _ ih =>
    obtain ⟨hnumber, hnext⟩ := h.nextSpan
    rw [List.map_cons, ih hnext, List.length_cons, List.range'_succ, List.map_cons]
    exact congrArg (· :: _) hnumber
  | trace _ ih =>
    obtain ⟨hnumber, hnext⟩ := h.nextTrace
    rw [List.map_cons, ih hnext, List.length_cons, List.range'_succ, List.map_cons]
    exact congrArg (· :: _) hnumber

theorem increment_numbers (hyields : Yields increment ids g') (hfew : ids.length < UInt64.size - 1) :
    ids.map Identity.number = List.range' 1 ids.length := by
  rw [increment_counts.numbers hyields]
  -- So few draws do not wrap the counter around.
  have hsmall : ∀ k ∈ List.range' 1 ids.length, k % UInt64.size = k := by
    intro k hk
    obtain ⟨-, hk⟩ := List.mem_range'_1.mp hk
    exact Nat.mod_eq_of_lt (by omega)
  rw [Nat.zero_add, List.map_congr_left hsmall, List.map_id']

end IdGenerator

/-! ### Draws -/

namespace Agent

variable {P : Type} {a b c : Agent P} {g : Nat} {ids more : List Identity}

/-- A source of identifiers. -/
def source (a : Agent P) (g : Nat) : IdGenerator := a.generators.getD g default

/-- The identifiers, if the tracer draws from the source. -/
def drawnFrom (a : Agent P) (g : Nat) (t : Tracer) (ids : List Identity) : List Identity :=
  if (a.tracer t).generator = g then ids else []

theorem drawnFrom_append (a : Agent P) (g : Nat) (t : Tracer) (ids more : List Identity) :
    a.drawnFrom g t (ids ++ more) = a.drawnFrom g t ids ++ a.drawnFrom g t more := by
  unfold drawnFrom
  split <;> rfl

/-- From one agent to the other the source is there and hands out just these identifiers. -/
structure Draws (g : Nat) (a : Agent P) (ids : List Identity) (b : Agent P) : Prop where
  yields : (a.source g).Yields ids (b.source g)
  bound : g < b.generators.size

theorem Draws.none (hg : g < a.generators.size) (h : b.generators = a.generators) : Draws g a [] b where
  yields := by
    unfold source
    rw [h]
    exact .nothing _
  bound := h ▸ hg

theorem Draws.trans (h : Draws g a ids b) (h' : Draws g b more c) : Draws g a (ids ++ more) c :=
  ⟨h.yields.append h'.yields, h'.bound⟩

theorem Draws.same (h : Draws g a ids b) (hc : c.generators = b.generators) : Draws g a ids c where
  yields := by
    unfold source
    rw [hc]
    exact h.yields
  bound := hc ▸ h.bound

theorem source_draw {α : Type} (hg : g < a.generators.size) (t : Tracer) (next : IdGenerator → α × IdGenerator) :
    (a.draw t next).2.source g = if (a.tracer t).generator = g then (next (a.source g)).2 else a.source g := by
  show (a.generators.setIfInBounds (a.tracer t).generator (next (a.source (a.tracer t).generator)).2).getD g default = _
  rw [getD_setIfInBounds]
  by_cases hsource : (a.tracer t).generator = g
  · rw [hsource, if_pos ⟨rfl, hg⟩, if_pos rfl]
  · rw [if_neg fun h => hsource h.1.symm, if_neg hsource]
    rfl

theorem draw_draws {α : Type} (hg : g < a.generators.size) (t : Tracer) {next : IdGenerator → α × IdGenerator}
    {name : α → Identity} (hnext : ∀ source, IdGenerator.Yields source [name (next source).1] (next source).2) :
    Draws g a (a.drawnFrom g t [name (a.draw t next).1]) (a.draw t next).2 where
  yields := by
    unfold drawnFrom
    rw [source_draw hg]
    split
    case isTrue hsource =>
      subst hsource
      exact hnext _
    case isFalse => exact .nothing _
  bound := Nat.lt_of_lt_of_eq hg Array.size_setIfInBounds.symm

theorem drawSpanId_draws (hg : g < a.generators.size) (t : Tracer) :
    Draws g a (a.drawnFrom g t [.span (a.drawSpanId t).1]) (a.drawSpanId t).2 :=
  draw_draws hg t fun _ => .span (.nothing _)

theorem drawTraceId_draws (hg : g < a.generators.size) (t : Tracer) :
    Draws g a (a.drawnFrom g t [.trace (a.drawTraceId t).1]) (a.drawTraceId t).2 :=
  draw_draws hg t fun _ => .trace (.nothing _)

end Agent

/-! ### Starts -/

/-- The identifiers of its own that something started has from the source: a transaction its span and, if it is the
root of a trace, the trace; a live span its span. A dropped span goes by the identifiers of its parent. -/
def Handle.identities {P : Type} (a : Agent P) (g : Nat) : Handle → List Identity
  | transaction t =>
    a.drawnFrom g t.tracer (.span t.id :: if t.parentId = none then [.trace t.traceContext.traceId] else [])
  | span (.live s) => a.drawnFrom g s.transaction.tracer [.span s.traceContext.spanId]
  | span (.dropped ..) => []

namespace Agent

variable {P : Type} {a : Agent P} {g : Nat}

theorem decide_generators (a : Agent P) (t : Tracer) (rate : Option Float) (traceId : TraceId) (name : String) :
    (a.decide t rate traceId name).2.generators = a.generators := by
  cases rate <;> rfl

theorem startTransaction_draws (hg : g < a.generators.size) (t : Tracer) (name type : String)
    (options : TransactionOptions) (now : Instant) :
    Draws g a ((Handle.transaction (a.startTransaction t name type options now).1).identities a g)
      (a.startTransaction t name type options now).2 := by
  have hspan := drawSpanId_draws hg t
  cases h : options.parent.filter TraceContext.isValid with
  | some p =>
    rw [startTransaction_of_parent h]
    exact hspan.same rfl
  | none =>
    -- A root draws twice from the same source, its span first.
    have htrace := drawTraceId_draws hspan.bound t
    have hboth := hspan.trans htrace
    rw [show (a.drawSpanId t).2.drawnFrom g t = a.drawnFrom g t from rfl, ← drawnFrom_append] at hboth
    rw [startTransaction_of_root h]
    exact hboth.same (decide_generators _ t _ _ _)

theorem startSpan_draws (hg : g < a.generators.size) (t : Transaction) (name type : String) (options : SpanOptions)
    (now : Instant) : Draws g a ((Handle.span (a.startSpan t name type options now).1).identities a g)
      (a.startSpan t name type options now).2 := by
  unfold startSpan
  dsimp only
  split
  · exact .none hg rfl
  · split
    · exact .none hg rfl
    · -- Counting the span comes before the draw, and does not touch the sources.
      have hdraw := drawSpanId_draws (a := a.countStarted t) hg t.tracer
      exact ⟨hdraw.yields, hdraw.bound⟩

theorem startChild_draws (hg : g < a.generators.size) (s : Span) (name type : String) (now : Instant) :
    Draws g a ((Handle.span (a.startChild s name type now).1).identities a g) (a.startChild s name type now).2 := by
  unfold startChild
  split
  · exact startSpan_draws hg _ name type _ now
  · exact .none hg rfl

theorem start_draws (hg : g < a.generators.size) (s : Start) (now : Instant) :
    Draws g a ((s.run a now).1.identities a g) (s.run a now).2 := by
  cases s with
  | transaction tracer name type options => exact startTransaction_draws hg tracer name type options now
  | transactionFrom tracer name type cx => exact startTransaction_draws hg tracer name type _ now
  | span t name type options => exact startSpan_draws hg t name type options now
  | child parent name type => exact startChild_draws hg parent name type now
  | spanIn cx name type =>
    unfold Start.run
    dsimp only
    unfold startSpanIn
    split
    · exact startChild_draws hg _ name type now
    · exact startSpan_draws hg _ name type {} now
    · exact .none hg rfl

/-! ### Calls -/

variable [Processor P]

theorem captured_of_captureError {t : Tracer} {cx : Context} {message : String} {causes : List String} {r : ErrorRecord}
    (h : (captureError t cx message causes a).1 = .ok r) : r = a.captured t cx message causes := by
  rw [captureError_eq, Act.bind_run] at h
  split at h
  · exact (Except.ok.inj h).symm
  · cases h

theorem captureError_draws (hg : g < a.generators.size) (t : Tracer) (cx : Context) (message : String)
    (causes : List String) : Draws g a (a.drawnFrom g t [.trace (a.captured t cx message causes).id])
      (captureError t cx message causes a).2.1 := by
  rw [captureError_eq]
  have hkeeps : Act.Keeps (fun b : Agent P => b.generators = (a.drawTraceId t).2.generators) (do
      emit t (.error (a.captured t cx message causes))
      return a.captured t cx message causes) :=
    Act.Keeps.bind ((stable_generators _).steady.emit _ _) fun _ => Act.Keeps.pure _
  exact (drawTraceId_draws hg t).same (hkeeps _ rfl)

end Agent

/-! ### Runs -/

section
variable {P : Type} [Processor P]

/-- The identifiers that a call has from the source: a captured error has one, and no other call has any. -/
def Call.identities (a : Agent P) (g : Nat) : Call P → List Identity
  | captureError t cx message causes => a.drawnFrom g t [.trace (a.captured t cx message causes).id]
  | _ => []

theorem Call.draws {a : Agent P} {g : Nat} (hg : g < a.generators.size) (c : Call P) :
    Agent.Draws g a (c.identities a g) (c.run a) := by
  have hstable := Agent.stable_generators (P := P) a.generators
  have hsteady := hstable.steady
  cases c with
  | captureError t cx message causes => exact Agent.captureError_draws hg t cx message causes
  -- All other calls leave the sources alone, also when a panic of a processor cuts them short.
  | editTransaction t e => exact .none hg rfl
  | editSpan s e => cases s <;> exact .none hg rfl
  | endTransaction t ending now => exact .none hg (Agent.keeps_endTransaction hsteady id t ending now a rfl)
  | endSpan s ending now => exact .none hg (Agent.keeps_endSpan hsteady s ending now a rfl)
  | forceFlush t => exact .none hg (hsteady.forceFlush t a rfl)
  | shutdown t => exact .none hg (hsteady.shutdown t a rfl)
  | release holders => exact .none hg (Agent.keeps_release hsteady holders a rfl)
  | work t place x => exact .none hg (hstable.keeps_onProcessors t _ a rfl)

/-- The identifiers that a move brings about and has from the source. -/
def Move.identities (a : Agent P) (g : Nat) : Move P → List Identity
  | start s now => (s.run a now).1.identities a g
  | call c => c.identities a g
  | addGenerator _ | addTracer _ => []

namespace Process

variable {w : Process P} {g : Nat}

/-- The identifiers that moves bring about and have from the source, oldest first. -/
def identities (g : Nat) : Process P → List (Move P) → List Identity
  | _, [] => []
  | w, m :: rest => m.identities w.agent g ++ identities g (w.move m) rest

theorem move_draws (hg : g < w.agent.generators.size) (m : Move P) :
    Agent.Draws g w.agent (m.identities w.agent g) (w.move m).agent := by
  cases m with
  | addTracer state => exact .none hg rfl
  | start s now => exact Agent.start_draws hg s now
  | call c => exact c.draws hg
  | addGenerator added =>
    -- The new source comes behind the others.
    have hsource : ((w.agent.addGenerator added).2).source g = w.agent.source g :=
      (getD_push _ _ _ _).trans (if_neg (Nat.ne_of_lt hg))
    exact ⟨hsource.symm ▸ .nothing _, Nat.lt_of_lt_of_le hg (by simp [move, Agent.addGenerator])⟩

theorem after_draws (moves : List (Move P)) {w : Process P} (hg : g < w.agent.generators.size) :
    Agent.Draws g w.agent (w.identities g moves) (w.after moves).agent := by
  induction moves generalizing w with
  | nil => exact .none hg rfl
  | cons m rest ih =>
    have hmove := move_draws hg m
    exact hmove.trans (ih hmove.bound)

/-- The tracers that share a source which counts from one draw an identifier for each transaction, root, live span and
error of their own, and for nothing else: each move draws just the identifiers that it brings about. As long as there
are fewer than its counter holds, they are distinct as numbers, and none is zero. -/
theorem shared_source_names_apart (fresh : w.agent.generators[g]? = some .increment) (moves : List (Move P)) :
    (∀ m : Move P, ((w.after moves).agent.source g).Yields (m.identities (w.after moves).agent g)
      (((w.after moves).move m).agent.source g)) ∧
    (∀ t cx message causes r, (Agent.captureError t cx message causes (w.after moves).agent).1 = .ok r →
      r = (w.after moves).agent.captured t cx message causes) ∧
    ((w.identities g moves).length < UInt64.size - 1 →
      (∀ id ∈ w.identities g moves, id.number ≠ 0) ∧ ((w.identities g moves).map Identity.number).Nodup) := by
  obtain ⟨hg, -⟩ := Array.getElem?_eq_some_iff.mp fresh
  have hafter := after_draws moves hg
  have hsource : w.agent.source g = .increment := by
    unfold Agent.source
    rw [Array.getD_eq_getD_getElem?, fresh]
    rfl
  refine ⟨fun m => (move_draws hafter.bound m).yields, fun t cx message causes r => Agent.captured_of_captureError,
    fun hfew => ?_⟩
  have hnumbers := IdGenerator.increment_numbers (hsource ▸ hafter.yields) hfew
  refine ⟨fun id hid hzero => ?_, hnumbers ▸ List.nodup_range'⟩
  have hmem := List.mem_map_of_mem (f := Identity.number) hid
  rw [hnumbers, hzero] at hmem
  exact absurd (List.mem_range'_1.mp hmem).1 (by decide)

/-! The run with a transaction and four spans, of which two are dropped, and an error after it. -/

def sampleWork : List (Move (DirectProcessor MemoryStore)) :=
  sampleMoves.drop 2 ++ [.call (.captureError ⟨0⟩ (Context.empty.withTransaction sampleTask) "timed out" [])]

theorem sampleWork_numbers : (sampleSetup.identities 0 sampleWork).map Identity.number = [1, 2, 3, 4, 5] := by
  decide +kernel

theorem shared_source_names_apart_in_sampleWork :
    sampleSetup.agent.generators[0]? = some .increment ∧
      (sampleSetup.identities 0 sampleWork).length < UInt64.size - 1 ∧
      (∀ id ∈ sampleSetup.identities 0 sampleWork, id.number ≠ 0) ∧
      ((sampleSetup.identities 0 sampleWork).map Identity.number).Nodup ∧
      ∃ r, (Agent.captureError ⟨0⟩ .empty "timed out" [] (sampleSetup.after sampleWork).agent).1 = .ok r ∧
        r = (sampleSetup.after sampleWork).agent.captured ⟨0⟩ .empty "timed out" [] := by
  obtain ⟨-, hcaptured, hapart⟩ := shared_source_names_apart (w := sampleSetup) (g := 0) rfl sampleWork
  have hlength : (sampleSetup.identities 0 sampleWork).length = 5 := by
    rw [← List.length_map (f := Identity.number), sampleWork_numbers]
    rfl
  have hfew : (sampleSetup.identities 0 sampleWork).length < UInt64.size - 1 := hlength ▸ by decide
  have hreturned : ∃ r, (Agent.captureError ⟨0⟩ .empty "timed out" [] (sampleSetup.after sampleWork).agent).1 = .ok r :=
    ⟨_, rfl⟩
  obtain ⟨r, hr⟩ := hreturned
  exact ⟨rfl, hfew, (hapart hfew).1, (hapart hfew).2, r, hr, hcaptured _ _ _ _ r hr⟩

end Process
end
end Tracing
