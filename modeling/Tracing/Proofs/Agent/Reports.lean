import Tracing.Proofs.Agent.Notes

/-! # What is to be reported

Transactions and live spans are started, edited and ended in any order, through any copies of their handles, and errors
are captured. The list of these deeds alone decides what a tracer reports (`reports`): the first end of each of its
transactions and live spans, with the attributes as they were last set before, and each error that it captured. -/

namespace Tracing

/-- Something that was done with an agent. -/
inductive Deed where
  | startedTransaction (t : Transaction) (name type : String)
  | startedSpan (s : LiveSpan) (name type : String)
  | editedTransaction (t : Transaction) (e : TransactionEdit)
  | editedSpan (s : LiveSpan) (e : SpanEdit)
  /-- With the count of its spans at that moment. -/
  | endedTransaction (t : Transaction) (ending : Ending) (now : Instant) (count : SpanCount)
  | endedSpan (s : LiveSpan) (ending : Ending) (now : Instant)
  | captured (tracer : Tracer) (r : ErrorRecord)

namespace Deed

def transactionNote : Deed → Option (Note Transaction TransactionEdit)
  | startedTransaction t name type => some (.started t name type)
  | editedTransaction t e => some (.edited t e)
  | endedTransaction t _ _ _ => some (.ended t)
  | _ => none

def spanNote : Deed → Option (Note LiveSpan SpanEdit)
  | startedSpan s name type => some (.started s name type)
  | editedSpan s e => some (.edited s e)
  | endedSpan s _ _ => some (.ended s)
  | _ => none

def capturedBy (T : Tracer) : Deed → Bool
  | captured tracer _ => tracer = T
  | _ => false

/-- A dropped span is nothing to speak of. -/
def ofStart (s : Start) : Handle → List Deed
  | .transaction t => [startedTransaction t s.name s.type]
  | .span (.live r) => [startedSpan r s.name s.type]
  | .span (.dropped ..) => []

end Deed

/-- The duration as given, or from the start to the end, but never less than zero. -/
def Ending.length (start now : Instant) : Ending → Duration
  | .now => ⟨(max 0 (now.nanos - start.nanos)).toNat⟩
  | .at time => ⟨(max 0 (time.nanos - start.nanos)).toNat⟩
  | .after d => d

theorem Ending.duration_eq (ending : Ending) (start now : Instant) :
    ending.duration start now = ending.length start now := by
  cases ending with
  | now =>
    simp only [duration, length, Instant.elapsed]
    congr 1
    omega
  | «at» time =>
    simp only [duration, length, Instant.elapsed]
    congr 1
    omega
  | after d => rfl

/-- What a tracer reports of a deed after those before. -/
def reportOf (T : Tracer) (before : List Deed) : Deed → Option Record
  | .endedTransaction t ending now count =>
    let notes := before.filterMap Deed.transactionNote
    if t.tracer = T ∧ .ended t ∉ notes then
      let d := Note.attributes TransactionData.lastSet notes t
      some (.transaction {
        name := d.name, type := d.type, result := d.result, outcome := d.outcome, tags := d.tags
        traceContext := t.traceContext, parentId := t.parentId, sampleRate := t.sampleRate, start := t.start
        duration := ending.length t.start now, spanCount := count })
    else none
  | .endedSpan s ending now =>
    let notes := before.filterMap Deed.spanNote
    if s.transaction.tracer = T ∧ .ended s ∉ notes then
      let d := Note.attributes SpanData.lastSet notes s
      some (.span {
        name := d.name, type := d.type, subtype := d.subtype, action := d.action, tags := d.tags
        traceContext := s.traceContext, parentId := s.parentId, transactionId := s.transaction.id, start := s.start
        duration := ending.length s.start now })
    else none
  | .captured tracer r => if tracer = T then some (.error r) else none
  | _ => none

def reportsAfter (T : Tracer) (before : List Deed) : List Deed → List Record
  | [] => []
  | deed :: rest => (reportOf T before deed).toList ++ reportsAfter T (before ++ [deed]) rest

/-- What a tracer reports of the past, in order. -/
def reports (T : Tracer) (past : List Deed) : List Record := reportsAfter T [] past

theorem reports_concat (T : Tracer) (past : List Deed) (deed : Deed) :
    reports T (past ++ [deed]) = reports T past ++ (reportOf T past deed).toList := by
  have hafter : ∀ rest before, reportsAfter T before (rest ++ [deed]) =
      reportsAfter T before rest ++ (reportOf T (before ++ rest) deed).toList := by
    intro rest
    induction rest with
    | nil => intro before; simp [reportsAfter]
    | cons first rest ih => intro before; simp [reportsAfter, ih]
  exact hafter past []

section
variable {T : Tracer} {before : List Deed} {ending : Ending} {now : Instant}

theorem reportOf_first_end_transaction {t : Transaction} {count : SpanCount}
    (h : .ended t ∉ before.filterMap Deed.transactionNote) :
    reportOf T before (.endedTransaction t ending now count) = if t.tracer = T then some (.transaction
      (Agent.transactionRecord t (Note.attributes TransactionData.lastSet (before.filterMap Deed.transactionNote) t)
        count (ending.duration t.start now))) else none := by
  rw [Ending.duration_eq]
  simp only [reportOf, h, not_false_eq_true, and_true]
  rfl

theorem reportOf_first_end_span {s : LiveSpan} (h : .ended s ∉ before.filterMap Deed.spanNote) :
    reportOf T before (.endedSpan s ending now) = if s.transaction.tracer = T then some (.span
      (Agent.spanRecord s (Note.attributes SpanData.lastSet (before.filterMap Deed.spanNote) s)
        (ending.duration s.start now))) else none := by
  rw [Ending.duration_eq]
  simp only [reportOf, h, not_false_eq_true, and_true]
  rfl

end

/-- The tags of a record. An error has none. -/
def Record.tags : Record → Tags
  | .transaction r => r.tags
  | .span r => r.tags
  | .error _ => []

theorem nodup_tags_of_mem_reportOf {T : Tracer} {before : List Deed} {deed : Deed} {r : Record}
    (h : reportOf T before deed = some r) : (r.tags.map Prod.fst).Nodup := by
  cases deed with
  | endedTransaction t ending now count =>
    simp only [reportOf, Option.ite_none_right_eq_some, Option.some.injEq] at h
    rw [← h.2]
    exact Tags.nodup_names_ofSets _
  | endedSpan s ending now =>
    simp only [reportOf, Option.ite_none_right_eq_some, Option.some.injEq] at h
    rw [← h.2]
    exact Tags.nodup_names_ofSets _
  | captured tracer error =>
    simp only [reportOf, Option.ite_none_right_eq_some, Option.some.injEq] at h
    rw [← h.2]
    exact List.nodup_nil
  | startedTransaction | startedSpan | editedTransaction | editedSpan => cases h

theorem nodup_tags_of_mem_reports {T : Tracer} {past : List Deed} {r : Record} (h : r ∈ reports T past) :
    (r.tags.map Prod.fst).Nodup := by
  induction past using List.reverseRecOn with
  | nil => cases h
  | append_singleton past deed ih =>
    rw [reports_concat] at h
    rcases List.mem_append.mp h with h | h
    · exact ih h
    · exact nodup_tags_of_mem_reportOf (Option.mem_toList.mp h)

/-- How much a tracer has to report: what has ended, however often, and each error. -/
def toReport (T : Tracer) (past : List Deed) : Nat :=
  (Note.allEnded (past.filterMap Deed.transactionNote)).countP (·.tracer = T) +
    (Note.allEnded (past.filterMap Deed.spanNote)).countP (·.transaction.tracer = T) +
    past.countP fun deed => deed.capturedBy T

theorem length_reports (T : Tracer) (past : List Deed) : (reports T past).length = toReport T past := by
  induction past using List.reverseRecOn with
  | nil => rfl
  | append_singleton past deed ih =>
    unfold toReport at ih ⊢
    rw [reports_concat, List.length_append, ih, filterMap_concat, filterMap_concat, List.countP_append]
    cases deed with
    | endedTransaction t ending now count =>
      simp only [Deed.transactionNote, Deed.spanNote, Option.toList_some, Option.toList_none, List.append_nil,
        Note.allEnded_ended]
      by_cases hended : .ended t ∈ past.filterMap Deed.transactionNote
      · simp [reportOf, Deed.capturedBy, hended]
      · by_cases hT : t.tracer = T
        · simp [reportOf, Deed.capturedBy, hended, hT]
          omega
        · simp [reportOf, Deed.capturedBy, hended, hT]
    | endedSpan s ending now =>
      simp only [Deed.transactionNote, Deed.spanNote, Option.toList_some, Option.toList_none, List.append_nil,
        Note.allEnded_ended]
      by_cases hended : .ended s ∈ past.filterMap Deed.spanNote
      · simp [reportOf, Deed.capturedBy, hended]
      · by_cases hT : s.transaction.tracer = T
        · simp [reportOf, Deed.capturedBy, hended, hT]
          omega
        · simp [reportOf, Deed.capturedBy, hended, hT]
    | captured tracer r =>
      by_cases hT : tracer = T
      · simp [reportOf, Deed.transactionNote, Deed.spanNote, Deed.capturedBy, hT]
        omega
      · simp [reportOf, Deed.transactionNote, Deed.spanNote, Deed.capturedBy, hT]
    | startedTransaction | editedTransaction | startedSpan | editedSpan =>
      simp [reportOf, Deed.transactionNote, Deed.spanNote, Deed.capturedBy]

end Tracing
