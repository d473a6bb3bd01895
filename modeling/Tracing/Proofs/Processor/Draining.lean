import Tracing.Proofs.Processor.Watched

/-! # Draining a buffer

A buffer is exported by a loop that cuts a batch off its front and hands it over, until nothing is left. The loop comes
to an end for any limit, since a limit of zero counts as one. It hands over the batches of the buffer, all of them
full but the last, and goes on after a failure; of the failures the last one counts. Only a panic of the exporter cuts
the loop short. -/

namespace Tracing

/-! ### Full batches -/

/-- The pieces hold something each and make up the list in order. All are of the size but the last, which may be
shorter. -/
structure CutInto {α : Type} (size : Nat) (l : List α) (pieces : List (List α)) : Prop where
  whole : pieces.flatten = l
  nonempty : ∀ piece ∈ pieces, piece ≠ []
  full : ∀ piece ∈ pieces.dropLast, piece.length = size
  bounded : ∀ piece ∈ pieces, piece.length ≤ size

section
variable {α : Type} {size : Nat} {l : List α}

/-- A piece with another one behind it is full. -/
theorem length_of_mem_dropLast_piecesOf {piece : List α} (h : piece ∈ (piecesOf size l).dropLast) :
    piece.length = size + 1 := by
  fun_induction piecesOf size l with
  | case1 => cases h
  | case2 l hl ih =>
    by_cases hrest : l.drop (size + 1) = []
    · rw [hrest, piecesOf_nil] at h
      cases h
    · have hpieces : piecesOf size (l.drop (size + 1)) ≠ [] := by
        rw [piecesOf_of_ne_nil hrest]
        exact List.cons_ne_nil _ _
      rw [List.dropLast_cons_of_ne_nil hpieces] at h
      rcases List.mem_cons.mp h with rfl | h
      · have hlength : size + 1 < l.length := by simpa using hrest
        rw [List.length_take]
        omega
      · exact ih h

theorem cutInto_batchesOf (limit : Nat) (l : List α) : CutInto (max 1 limit) l (batchesOf limit l) where
  whole := flatten_batchesOf limit l
  nonempty _ h := (length_of_mem_batchesOf h).1
  full _ h := by
    rw [length_of_mem_dropLast_piecesOf h]
    omega
  bounded _ h := (length_of_mem_batchesOf h).2

/-- How many elements the next batch takes. -/
def nextSize (limit : Nat) (l : List α) : Nat := min (max limit 1) l.length

theorem batchesOf_of_ne_nil (h : l ≠ []) (limit : Nat) :
    batchesOf limit l = l.take (nextSize limit l) :: batchesOf limit (l.drop (nextSize limit l)) := by
  have hsize : limit - 1 + 1 = max limit 1 := by omega
  unfold batchesOf nextSize
  rw [piecesOf_of_ne_nil h, hsize, ← List.take_eq_take_min, ← List.drop_eq_drop_min]

end

/-! ### Results one after the other -/

/-- The result after one more: a failure takes the place of what was before. -/
def ExportResult.followedBy (first : ExportResult) : ExportResult → ExportResult
  | .error e => .error e
  | .ok () => first

theorem ok_followedBy (r : ExportResult) : ExportResult.followedBy (.ok ()) r = r := by
  cases r <;> rfl

theorem followedBy_assoc (a b c : ExportResult) : (a.followedBy b).followedBy c = a.followedBy (b.followedBy c) := by
  cases c <;> rfl

theorem lastFailure_cons (r : ExportResult) (rs : List ExportResult) :
    lastFailure (r :: rs) = r.followedBy (lastFailure rs) := by
  cases h : lastFailure rs with
  | error e => exact lastFailure_cons_of_error h r
  | ok => exact lastFailure_cons_of_ok h r

/-! ### The loop -/

section
variable {E : Type} [Exporter E]

/-- Cuts batches off the front of a buffer and exports them, until the buffer is empty. A failure takes the place of
the result so far. Returns the result and what is left of the buffer. -/
def drain (limit : Nat) (result : ExportResult) (buffer : List Record) : Act E (ExportResult × List Record) :=
  if buffer = [] then return (result, buffer)
  else do
    match ← Exporter.deliver (buffer.take (nextSize limit buffer)) with
    | .error e => drain limit (.error e) (buffer.drop (nextSize limit buffer))
    | .ok () => drain limit result (buffer.drop (nextSize limit buffer))
termination_by buffer.length
decreasing_by
  all_goals
    have : buffer.length ≠ 0 := by simpa using ‹¬ buffer = []›
    simp only [nextSize, List.length_drop]
    omega

variable {limit : Nat} {result r : ExportResult} {buffer batch : List Record} {rest : List (List Record)} {e next : E}
  {events : List Event}

/-- A turn of the loop hands over one batch. -/
theorem drain_of_ne_nil (h : buffer ≠ []) (limit : Nat) (result : ExportResult) :
    drain limit result buffer = (do
      let r ← Exporter.deliver (buffer.take (nextSize limit buffer))
      drain (E := E) limit (result.followedBy r) (buffer.drop (nextSize limit buffer))) := by
  rw [drain, if_neg h]
  congr 1
  funext r
  cases r <;> rfl

/-- After a call that came back the rest of the batches decides. -/
theorem deliverAll_cons (hrun : Exporter.deliver batch e = (.ok r, next, events)) :
    deliverAll (batch :: rest) e = ((deliverAll rest next).1.map r.followedBy, (deliverAll rest next).2.1,
      events ++ (deliverAll rest next).2.2) := by
  rw [deliverAll, Act.bind_run, hrun]
  dsimp only
  rw [Act.bind_run]
  rcases deliverAll rest next with ⟨_ | _ | _, last, more⟩ <;> simp [Except.map, ExportResult.followedBy]

theorem deliverAll_cons_of_panic {p : Panic} (hrun : Exporter.deliver batch e = (.error p, next, events)) :
    deliverAll (batch :: rest) e = (.error p, next, events) := by
  rw [deliverAll, Act.bind_run, hrun]

/-- The loop exports the batches of its buffer in order, and leaves nothing behind. -/
theorem drain_run (limit : Nat) (result : ExportResult) (buffer : List Record) (e : E) :
    drain limit result buffer e =
      ((exportBatches limit buffer e).1.map fun r => (result.followedBy r, []), (exportBatches limit buffer e).2) := by
  unfold exportBatches
  induction result, buffer using drain.induct limit generalizing e with
  | case1 result =>
    rw [drain, if_pos rfl, batchesOf, piecesOf_nil]
    rfl
  | case2 result buffer hne failed succeeded =>
    -- Whatever the first batch comes to, the loop goes on with the rest of the buffer.
    have hrest : ∀ r (next : E), drain limit (result.followedBy r) (buffer.drop (nextSize limit buffer)) next =
        ((deliverAll (batchesOf limit (buffer.drop (nextSize limit buffer))) next).1.map fun last =>
            ((result.followedBy r).followedBy last, []),
          (deliverAll (batchesOf limit (buffer.drop (nextSize limit buffer))) next).2) := by
      intro r next
      cases r with
      | error failure => exact failed failure next
      | ok => exact succeeded next
    rw [drain_of_ne_nil hne, batchesOf_of_ne_nil hne, Act.bind_run]
    rcases hrun : Exporter.deliver (buffer.take (nextSize limit buffer)) e with ⟨_ | r, next, events⟩
    · rw [deliverAll_cons_of_panic hrun]
      rfl
    · rw [deliverAll_cons hrun]
      dsimp only
      rw [hrest]
      rcases deliverAll (batchesOf limit (buffer.drop (nextSize limit buffer))) next with ⟨_ | last, final, more⟩
      · rfl
      · simp [Except.map, followedBy_assoc]

/-! ### Attempts -/

/-- The exporter comes back from being handed the batches in order, be it with failures. -/
def ComesBack (batches : List (List Record)) (e : E) : Prop := (outcomes batches e).length = batches.length

theorem NeverPanics.comesBack (h : NeverPanics e) (batches : List (List Record)) : ComesBack batches e :=
  (deliverAll_result batches h).2

theorem outcomes_cons (hrun : Exporter.deliver batch e = (.ok r, next, events)) :
    outcomes (batch :: rest) e = r :: outcomes rest next := by
  rw [outcomes, hrun]

theorem outcomes_cons_of_panic {p : Panic} (hrun : Exporter.deliver batch e = (.error p, next, events)) :
    outcomes (batch :: rest) e = [] := by
  rw [outcomes, hrun]

theorem comesBack_cons (hrun : Exporter.deliver batch e = (.ok r, next, events)) :
    ComesBack (batch :: rest) e ↔ ComesBack rest next := by
  unfold ComesBack
  rw [outcomes_cons hrun, List.length_cons, List.length_cons, Nat.add_right_cancel_iff]

namespace Watched
variable {batches : List (List Record)} {w : Watched E}

/-- A call is noted whatever becomes of it. -/
theorem exists_deliver (batch : List Record) (w : Watched E) :
    ∃ r inner events, Exporter.deliver batch w = (r, w.noted inner [batch] 0, events) :=
  ⟨_, _, _, rfl⟩

/-- All batches are attempted, and the last failure counts. -/
theorem deliverAll_of_comesBack (h : ComesBack batches w) :
    ∃ inner events,
      deliverAll batches w = (.ok (lastFailure (outcomes batches w)), w.noted inner batches 0, events) := by
  induction batches generalizing w with
  | nil =>
    refine ⟨w.inner, [], ?_⟩
    unfold noted
    rw [List.append_nil]
    rfl
  | cons batch rest ih =>
    obtain ⟨result, inner, events, hrun⟩ := exists_deliver batch w
    cases result with
    | error p =>
      unfold ComesBack at h
      rw [outcomes_cons_of_panic hrun] at h
      cases h
    | ok r =>
      obtain ⟨last, more, hrest⟩ := ih ((comesBack_cons hrun).mp h)
      refine ⟨last, events ++ more, ?_⟩
      rw [deliverAll_cons hrun, hrest, noted_noted, outcomes_cons hrun, lastFailure_cons]
      rfl

/-- A panic ends the attempts with the batch that brought it about. -/
theorem deliverAll_of_not_comesBack (h : ¬ComesBack batches w) :
    ∃ p inner events, deliverAll batches w =
      (.error p, w.noted inner (batches.take ((outcomes batches w).length + 1)) 0, events) := by
  induction batches generalizing w with
  | nil => exact absurd rfl h
  | cons batch rest ih =>
    obtain ⟨result, inner, events, hrun⟩ := exists_deliver batch w
    cases result with
    | error p =>
      refine ⟨p, inner, events, ?_⟩
      rw [deliverAll_cons_of_panic hrun, outcomes_cons_of_panic hrun]
      rfl
    | ok r =>
      obtain ⟨p, last, more, hrest⟩ := ih fun hback => h ((comesBack_cons hrun).mpr hback)
      refine ⟨p, last, events ++ more, ?_⟩
      rw [deliverAll_cons hrun, hrest, noted_noted, outcomes_cons hrun, List.length_cons, List.take_succ_cons]
      rfl

end Watched

/-- A buffer is exported in batches that are full but the last, for any limit. If the exporter comes back from all of
them, and one that may fail but never panics does, then all have been attempted in order, the loop leaves nothing in
the buffer, and the result is a success just if all attempts were, and else the last failure. If it does not, its panic
comes through, and the batches up to that one have been attempted. -/
theorem every_batch_is_attempted (limit : Nat) (buffer : List Record) (w : Watched E) :
    CutInto (max 1 limit) buffer (batchesOf limit buffer) ∧
      (NeverPanics w.inner → ComesBack (batchesOf limit buffer) w) ∧
      (ComesBack (batchesOf limit buffer) w → ∃ result inner events,
        exportBatches limit buffer w = (.ok result, w.noted inner (batchesOf limit buffer) 0, events) ∧
        drain limit (.ok ()) buffer w = (.ok (result, []), w.noted inner (batchesOf limit buffer) 0, events) ∧
        (result = .ok () ↔ ∀ r ∈ outcomes (batchesOf limit buffer) w, r = .ok ()) ∧
        ∀ failure, result = .error failure ↔ ∃ before after,
          outcomes (batchesOf limit buffer) w = before ++ .error failure :: after ∧ ∀ r ∈ after, r = .ok ()) ∧
      (¬ComesBack (batchesOf limit buffer) w → ∃ p inner events,
        let attempted := (batchesOf limit buffer).take ((outcomes (batchesOf limit buffer) w).length + 1)
        exportBatches limit buffer w = (.error p, w.noted inner attempted 0, events) ∧
        drain limit (.ok ()) buffer w = (.error p, w.noted inner attempted 0, events)) := by
  refine ⟨cutInto_batchesOf limit buffer, fun h => (Watched.neverPanics h).comesBack _, fun hback => ?_,
    fun hpanic => ?_⟩
  · obtain ⟨inner, events, hrun⟩ := Watched.deliverAll_of_comesBack hback
    refine ⟨_, inner, events, hrun, ?_, lastFailure_eq_ok_iff, fun failure => lastFailure_eq_error_iff⟩
    rw [drain_run, exportBatches, hrun]
    simp [Except.map, ok_followedBy]
  · obtain ⟨p, inner, events, hrun⟩ := Watched.deliverAll_of_not_comesBack hpanic
    refine ⟨p, inner, events, hrun, ?_⟩
    rw [drain_run, exportBatches, hrun]
    rfl

end

/-- Three records, a limit of zero, and failures of the first two calls. -/
def sampleFailing : Watched RehearsedExporter :=
  { inner := { failures := [(0, "unreachable"), (1, "busy")] } }

/-- The last record is exported too, and the second failure counts. -/
theorem every_batch_is_attempted_by_sampleFailing :
    NeverPanics sampleFailing.inner ∧ ∃ inner events,
      exportBatches 0 [default, default, default] sampleFailing =
        (.ok (.error (.internal "busy")), sampleFailing.noted inner [[default], [default], [default]] 0, events) ∧
      drain 0 (.ok ()) [default, default, default] sampleFailing =
        (.ok (.error (.internal "busy"), []), sampleFailing.noted inner [[default], [default], [default]] 0,
          events) := by
  have hsteady : NeverPanics sampleFailing.inner := RehearsedExporter.neverPanics rfl
  have hbatches : batchesOf 0 [(default : Record), default, default] = [[default], [default], [default]] := by
    simp [batchesOf, piecesOf]
  have houtcomes : outcomes [[default], [default], [default]] sampleFailing =
      [.error (.internal "unreachable"), .error (.internal "busy"), .ok ()] := rfl
  obtain ⟨-, hback, hall, -⟩ := every_batch_is_attempted 0 [default, default, default] sampleFailing
  obtain ⟨result, inner, events, hrun, hdrain, -, hfailure⟩ := hall (hback hsteady)
  rw [hbatches] at hrun hdrain hfailure
  obtain rfl := (hfailure (.internal "busy")).mpr ⟨[.error (.internal "unreachable")], [.ok ()], houtcomes, by simp⟩
  exact ⟨hsteady, inner, events, hrun, hdrain⟩

end Tracing
