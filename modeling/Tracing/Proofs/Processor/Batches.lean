import Tracing.Processor.Batches

/-! # Batches of a buffer

The batches of a buffer are its records in order, cut into pieces that hold something and no more than the limit.
After any number of them just the records are left that come behind. Of their results one failure counts, if there is
any. -/

namespace Tracing

variable {α : Type} {size limit : Nat} {l : List α}

@[simp] theorem piecesOf_nil : piecesOf size ([] : List α) = [] := by
  rw [piecesOf, if_pos rfl]

theorem piecesOf_of_ne_nil (h : l ≠ []) :
    piecesOf size l = l.take (size + 1) :: piecesOf size (l.drop (size + 1)) := by
  rw [piecesOf, if_neg h]

theorem flatten_take_piecesOf (size k : Nat) (l : List α) :
    ((piecesOf size l).take k).flatten ++ l.drop (k * (size + 1)) = l := by
  induction k generalizing l with
  | zero => simp
  | succ k ih =>
    by_cases h : l = []
    · simp [h]
    · have hdrop : l.drop ((k + 1) * (size + 1)) = (l.drop (size + 1)).drop (k * (size + 1)) := by
        rw [List.drop_drop, Nat.succ_mul, Nat.add_comm]
      rw [piecesOf_of_ne_nil h, List.take_succ_cons, List.flatten_cons, List.append_assoc, hdrop, ih,
        List.take_append_drop]

theorem flatten_piecesOf (size : Nat) (l : List α) : (piecesOf size l).flatten = l := by
  fun_induction piecesOf size l with
  | case1 => rfl
  | case2 l _ ih => rw [List.flatten_cons, ih, List.take_append_drop]

theorem length_of_mem_piecesOf {piece : List α} (h : piece ∈ piecesOf size l) :
    piece ≠ [] ∧ piece.length ≤ size + 1 := by
  fun_induction piecesOf size l with
  | case1 => cases h
  | case2 l hl ih =>
    rcases List.mem_cons.mp h with rfl | h
    · exact ⟨by simpa using hl, List.length_take_le _ _⟩
    · exact ih h

theorem flatten_take_batchesOf (limit k : Nat) (l : List α) :
    ((batchesOf limit l).take k).flatten ++ l.drop (k * max 1 limit) = l := by
  have hsize : limit - 1 + 1 = max 1 limit := by omega
  rw [← hsize]
  exact flatten_take_piecesOf _ k l

theorem flatten_batchesOf (limit : Nat) (l : List α) : (batchesOf limit l).flatten = l := flatten_piecesOf _ l

theorem length_of_mem_batchesOf {batch : List α} (h : batch ∈ batchesOf limit l) :
    batch ≠ [] ∧ batch.length ≤ max 1 limit := by
  have hsize : limit - 1 + 1 = max 1 limit := by omega
  rw [← hsize]
  exact length_of_mem_piecesOf h

/-! ### Results -/

theorem firstFailure_eq_ok_iff {rs : List ExportResult} : firstFailure rs = .ok () ↔ ∀ r ∈ rs, r = .ok () := by
  induction rs with
  | nil => simp [firstFailure]
  | cons r rest ih => cases r <;> simp [firstFailure, ih]

theorem lastFailure_eq_ok_iff {rs : List ExportResult} : lastFailure rs = .ok () ↔ ∀ r ∈ rs, r = .ok () := by
  unfold lastFailure
  simp [firstFailure_eq_ok_iff]

theorem firstFailure_append_of_ok {rs : List ExportResult} (h : firstFailure rs = .ok ()) (more : List ExportResult) :
    firstFailure (rs ++ more) = firstFailure more := by
  induction rs with
  | nil => rfl
  | cons r rest ih =>
    cases r with
    | error e => cases h
    | ok => exact ih h

theorem firstFailure_append_of_error {rs : List ExportResult} {e : ExportError} (h : firstFailure rs = .error e)
    (more : List ExportResult) : firstFailure (rs ++ more) = .error e := by
  induction rs with
  | nil => cases h
  | cons r rest ih =>
    cases r with
    | error => exact h
    | ok => exact ih h

/-- A failure that comes later counts before the first result. -/
theorem lastFailure_cons_of_error {rs : List ExportResult} {e : ExportError} (h : lastFailure rs = .error e)
    (r : ExportResult) : lastFailure (r :: rs) = .error e := by
  unfold lastFailure
  rw [List.reverse_cons]
  exact firstFailure_append_of_error h [r]

theorem lastFailure_cons_of_ok {rs : List ExportResult} (h : lastFailure rs = .ok ()) (r : ExportResult) :
    lastFailure (r :: rs) = r := by
  unfold lastFailure
  rw [List.reverse_cons, firstFailure_append_of_ok h]
  cases r <;> rfl

/-- The first failure is one with only successes before it. -/
theorem firstFailure_eq_error_iff {rs : List ExportResult} {e : ExportError} :
    firstFailure rs = .error e ↔ ∃ before after, rs = before ++ .error e :: after ∧ ∀ r ∈ before, r = .ok () := by
  constructor
  · intro h
    induction rs with
    | nil => cases h
    | cons r rest ih =>
      cases r with
      | error first =>
        obtain rfl := Except.error.inj h
        exact ⟨[], rest, rfl, nofun⟩
      | ok =>
        obtain ⟨before, after, rfl, hbefore⟩ := ih h
        exact ⟨.ok () :: before, after, rfl, List.forall_mem_cons.mpr ⟨rfl, hbefore⟩⟩
  · rintro ⟨before, after, rfl, hbefore⟩
    rw [firstFailure_append_of_ok (firstFailure_eq_ok_iff.mpr hbefore)]
    rfl

/-- The last failure is one with only successes behind it. -/
theorem lastFailure_eq_error_iff {rs : List ExportResult} {e : ExportError} :
    lastFailure rs = .error e ↔ ∃ before after, rs = before ++ .error e :: after ∧ ∀ r ∈ after, r = .ok () := by
  unfold lastFailure
  rw [firstFailure_eq_error_iff]
  constructor
  · rintro ⟨after, before, hrs, hafter⟩
    rw [List.reverse_eq_iff] at hrs
    exact ⟨before.reverse, after.reverse, by simpa using hrs, fun r hr => hafter r (List.mem_reverse.mp hr)⟩
  · rintro ⟨before, after, rfl, hafter⟩
    exact ⟨after.reverse, before.reverse, by simp, fun r hr => hafter r (List.mem_reverse.mp hr)⟩

end Tracing
