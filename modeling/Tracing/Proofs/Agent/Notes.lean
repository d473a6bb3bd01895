import Tracing.Proofs.Agent.Attributes
import Tracing.Proofs.Agent.Tables

/-! # Notes about things with attributes

Something with attributes is started, edited and ended. A table keeps one row for it, which ending empties. The notes
of what was done tell what stands in the row (`Note.Sound`): nothing once the thing has ended, and until then its
attributes as they were last set. -/

namespace Tracing

/-- One thing that was done with something that has attributes. -/
inductive Note (X E : Type) where
  | started (x : X) (name type : String)
  | edited (x : X) (e : E)
  | ended (x : X)
deriving DecidableEq

namespace Note

variable {X E D : Type}

def subject : Note X E → X
  | started x _ _ | edited x _ | ended x => x

/-- The notes tell how it was started. -/
def Started (notes : List (Note X E)) (x : X) : Prop := ∃ name type, .started x name type ∈ notes

theorem Started.append {notes : List (Note X E)} {x : X} (h : Started notes x) (more : List (Note X E)) :
    Started (notes ++ more) x := by
  obtain ⟨name, type, hmem⟩ := h
  exact ⟨name, type, List.mem_append_left _ hmem⟩

variable [DecidableEq X]

def start? (x : X) : Note X E → Option (String × String)
  | started y name type => if y = x then some (name, type) else none
  | _ => none

def edit? (x : X) : Note X E → Option E
  | edited y e => if y = x then some e else none
  | _ => none

def ended? : Note X E → Option X
  | ended x => some x
  | _ => none

/-- What has ended, each once, in the order of the first ends. -/
def allEnded (notes : List (Note X E)) : List X := (notes.filterMap ended?).eraseDups

theorem allEnded_ended [DecidableEq E] (notes : List (Note X E)) (x : X) :
    allEnded (notes ++ [.ended x]) = if .ended x ∈ notes then allEnded notes else allEnded notes ++ [x] := by
  have hmem : x ∈ notes.filterMap ended? ↔ .ended x ∈ notes := by
    rw [List.mem_filterMap]
    constructor
    · rintro ⟨note, hnote, hended⟩
      cases note with
      | ended y => cases hended; exact hnote
      | started | edited => cases hended
    · intro h
      exact ⟨_, h, rfl⟩
  unfold allEnded
  rw [filterMap_concat]
  show (notes.filterMap ended? ++ [x]).eraseDups = _
  rw [eraseDups_concat]
  simp only [hmem]

@[simp] theorem allEnded_started (notes : List (Note X E)) (x : X) (name type : String) :
    allEnded (notes ++ [.started x name type]) = allEnded notes := by
  unfold allEnded
  rw [filterMap_concat]
  exact congrArg List.eraseDups (List.append_nil _)

@[simp] theorem allEnded_edited (notes : List (Note X E)) (x : X) (e : E) :
    allEnded (notes ++ [.edited x e]) = allEnded notes := by
  unfold allEnded
  rw [filterMap_concat]
  exact congrArg List.eraseDups (List.append_nil _)

theorem start?_of_ne {note : Note X E} {x : X} (h : note.subject ≠ x) : note.start? x = none := by
  cases note with
  | started y name type => exact if_neg h
  | edited | ended => rfl

theorem edit?_of_ne {note : Note X E} {x : X} (h : note.subject ≠ x) : note.edit? x = none := by
  cases note with
  | edited y e => exact if_neg h
  | started | ended => rfl

/-- The attributes as they were last set. -/
def attributes (lastSet : String → String → List E → D) (notes : List (Note X E)) (x : X) : D :=
  let (name, type) := (notes.findSome? (start? x)).getD ("", "")
  lastSet name type (notes.filterMap (edit? x))

section
variable {lastSet : String → String → List E → D} {notes : List (Note X E)} {x : X}

/-- A note about something else. -/
theorem attributes_of_ne {note : Note X E} (h : note.subject ≠ x) :
    attributes lastSet (notes ++ [note]) x = attributes lastSet notes x := by
  unfold attributes
  rw [List.findSome?_append, filterMap_concat]
  simp [start?_of_ne h, edit?_of_ne h]

theorem attributes_edited {apply : E → D → D} {e : E}
    (happly : ∀ name type edits, apply e (lastSet name type edits) = lastSet name type (edits ++ [e])) :
    attributes lastSet (notes ++ [.edited x e]) x = apply e (attributes lastSet notes x) := by
  unfold attributes
  rw [List.findSome?_append, filterMap_concat]
  simp [start?, edit?, happly]

/-- The first note about something that is started. -/
theorem attributes_started (h : ∀ note ∈ notes, note.subject ≠ x) (name type : String) :
    attributes lastSet (notes ++ [.started x name type]) x = lastSet name type [] := by
  have hstart : notes.findSome? (start? x) = none :=
    List.findSome?_eq_none_iff.mpr fun note hnote => start?_of_ne (h note hnote)
  have hedits : notes.filterMap (edit? x) = [] :=
    List.filterMap_eq_nil_iff.mpr fun note hnote => edit?_of_ne (h note hnote)
  unfold attributes
  rw [List.findSome?_append, filterMap_concat, hstart, hedits]
  simp [start?, edit?]

end

variable [DecidableEq E]

/-- The rows of a table are what the notes tell. -/
structure Sound (slot : X → Nat) (lastSet : String → String → List E → D) (size : Nat) (row : X → Option D)
    (notes : List (Note X E)) : Prop where
  bound : ∀ x, Started notes x → slot x < size
  unique : ∀ x y, Started notes x → Started notes y → slot x = slot y → x = y
  known : ∀ note ∈ notes, Started notes note.subject
  row : ∀ x, Started notes x → row x = if .ended x ∈ notes then none else some (attributes lastSet notes x)

namespace Sound
variable {slot : X → Nat} {lastSet : String → String → List E → D} {size : Nat} {row row' : X → Option D}
  {notes : List (Note X E)} {x : X}

theorem nil : Sound slot lastSet size row ([] : List (Note X E)) where
  bound x h := by
    obtain ⟨name, type, hmem⟩ := h
    cases hmem
  unique x y h := by
    obtain ⟨name, type, hmem⟩ := h
    cases hmem
  known note hnote := by cases hnote
  row x h := by
    obtain ⟨name, type, hmem⟩ := h
    cases hmem

theorem congr (h : Sound slot lastSet size row notes) (hrow : ∀ y, row' y = row y) :
    Sound slot lastSet size row' notes where
  bound := h.bound
  unique := h.unique
  known := h.known
  row y hy := by rw [hrow, h.row y hy]

/-- Something new takes the first free slot. -/
theorem start (h : Sound slot lastSet size row notes) {name type : String} (hslot : slot x = size)
    (hnew : row' x = some (lastSet name type [])) (hrow : ∀ y, slot y ≠ size → row' y = row y) :
    Sound slot lastSet (size + 1) row' (notes ++ [.started x name type]) := by
  have hcases : ∀ y, Started (notes ++ [.started x name type]) y → y = x ∨ Started notes y := by
    intro y hy
    obtain ⟨name', type', hmem⟩ := hy
    rcases List.mem_append.mp hmem with hmem | hmem
    · exact .inr ⟨name', type', hmem⟩
    · cases List.mem_singleton.mp hmem
      exact .inl rfl
  have hnot : ∀ y, Started notes y → slot y ≠ slot x := fun y hy => Nat.ne_of_lt (hslot ▸ h.bound y hy)
  have hother : ∀ note ∈ notes, note.subject ≠ x := fun note hnote heq =>
    hnot _ (h.known note hnote) (congrArg slot heq)
  constructor
  case bound =>
    intro y hy
    rcases hcases y hy with rfl | hy
    · rw [hslot]
      exact Nat.lt_succ_self _
    · exact Nat.lt_succ_of_lt (h.bound y hy)
  case unique =>
    intro y z hy hz hyz
    rcases hcases y hy with heq | hy' <;> rcases hcases z hz with heq' | hz'
    · rw [heq, heq']
    · exact absurd (heq ▸ hyz.symm) (hnot z hz')
    · exact absurd (heq' ▸ hyz) (hnot y hy')
    · exact h.unique y z hy' hz' hyz
  case known =>
    intro note hnote
    rcases List.mem_append.mp hnote with hnote | hnote
    · exact (h.known note hnote).append _
    · rw [List.mem_singleton.mp hnote]
      exact ⟨name, type, by simp [subject]⟩
  case row =>
    intro y hy
    rcases hcases y hy with rfl | hy
    · have hended : .ended y ∉ notes ++ [Note.started y name type] := by
        intro hmem
        rcases List.mem_append.mp hmem with hmem | hmem
        · exact hother _ hmem rfl
        · cases List.mem_singleton.mp hmem
      rw [hnew, if_neg hended, attributes_started hother]
    · have hne : (Note.started (E := E) x name type).subject ≠ y := fun heq => hnot y hy (congrArg slot heq.symm)
      rw [hrow y (Nat.ne_of_lt (h.bound y hy)), h.row y hy, attributes_of_ne hne]
      simp

/-- Something known is edited or ended; the row of anything else stays. -/
theorem touch (h : Sound slot lastSet size row notes) {note : Note X E} (hx : Started notes note.subject)
    (hold : ∀ y name type, note ≠ .started y name type)
    (hself : row' note.subject =
      if .ended note.subject ∈ notes ++ [note] then none else some (attributes lastSet (notes ++ [note]) note.subject))
    (hrow : ∀ y, slot y ≠ slot note.subject → row' y = row y) : Sound slot lastSet size row' (notes ++ [note]) := by
  have hback : ∀ y, Started (notes ++ [note]) y → Started notes y := by
    intro y hy
    obtain ⟨name, type, hmem⟩ := hy
    rcases List.mem_append.mp hmem with hmem | hmem
    · exact ⟨name, type, hmem⟩
    · exact absurd (List.mem_singleton.mp hmem).symm (hold y name type)
  refine ⟨fun y hy => h.bound y (hback y hy), fun y z hy hz => h.unique y z (hback y hy) (hback z hz), ?_, ?_⟩
  · intro other hother
    rcases List.mem_append.mp hother with hother | hother
    · exact (h.known other hother).append _
    · rw [List.mem_singleton.mp hother]
      exact hx.append _
  · intro y hy
    by_cases hyx : y = note.subject
    · rw [hyx]
      exact hself
    · have hslot : slot y ≠ slot note.subject := fun heq => hyx (h.unique y _ (hback y hy) hx heq)
      have hended : .ended y ∈ notes ++ [note] ↔ .ended y ∈ notes := by
        refine ⟨fun hmem => ?_, fun hmem => List.mem_append_left _ hmem⟩
        rcases List.mem_append.mp hmem with hmem | hmem
        · exact hmem
        · exact absurd (congrArg subject (List.mem_singleton.mp hmem)) hyx
      rw [hrow y hslot, h.row y (hback y hy), attributes_of_ne (Ne.symm hyx)]
      simp only [hended]

theorem edit (h : Sound slot lastSet size row notes) {apply : E → D → D} {e : E}
    (happly : ∀ name type edits, apply e (lastSet name type edits) = lastSet name type (edits ++ [e]))
    (hx : Started notes x) (hself : row' x = (row x).map (apply e)) (hrow : ∀ y, slot y ≠ slot x → row' y = row y) :
    Sound slot lastSet size row' (notes ++ [.edited x e]) := by
  refine h.touch hx nofun ?_ hrow
  show row' x = if .ended x ∈ notes ++ [.edited x e] then none else some (attributes lastSet (notes ++ [.edited x e]) x)
  rw [hself, h.row x hx, attributes_edited happly]
  by_cases hended : .ended x ∈ notes <;> simp [hended]

theorem ended (h : Sound slot lastSet size row notes) (hx : Started notes x) (hself : row' x = none)
    (hrow : ∀ y, slot y ≠ slot x → row' y = row y) : Sound slot lastSet size row' (notes ++ [.ended x]) := by
  refine h.touch hx nofun ?_ hrow
  show row' x = if .ended x ∈ notes ++ [.ended x] then none else some (attributes lastSet (notes ++ [.ended x]) x)
  rw [hself, if_pos (by simp)]

end Sound
end Note

/-! ### The tables of an agent -/

namespace Agent

variable {P : Type} {a b : Agent P} {transactionNotes : List (Note Transaction TransactionEdit)}
  {spanNotes : List (Note LiveSpan SpanEdit)} {t : Transaction} {s : LiveSpan}

/-- The table of transactions holds what the notes tell. -/
def TransactionsSound (a : Agent P) (notes : List (Note Transaction TransactionEdit)) : Prop :=
  Note.Sound Transaction.slot TransactionData.lastSet a.transactions.size (fun t => (a.transaction t).data) notes

/-- The table of live spans holds what the notes tell. -/
def SpansSound (a : Agent P) (notes : List (Note LiveSpan SpanEdit)) : Prop :=
  Note.Sound LiveSpan.slot SpanData.lastSet a.spans.size a.span notes

theorem TransactionsSound.congr (h : TransactionsSound a transactionNotes) (hb : Agent.SameAttributes a b) :
    TransactionsSound b transactionNotes := by
  unfold TransactionsSound
  rw [hb.size]
  exact Note.Sound.congr h hb.data

theorem TransactionsSound.of_eq (h : TransactionsSound a transactionNotes) (hb : b.transactions = a.transactions) :
    TransactionsSound b transactionNotes :=
  h.congr ⟨congrArg Array.size hb, fun t => congrArg (fun rows => (Array.getD rows t.slot default).data) hb⟩

theorem SpansSound.of_eq (h : SpansSound a spanNotes) (hb : b.spans = a.spans) : SpansSound b spanNotes := by
  unfold SpansSound
  rw [hb]
  exact Note.Sound.congr h fun s => congrArg (Array.getD · s.slot none) hb

/-- A deed of which there is no note. -/
theorem TransactionsSound.unnoted (h : TransactionsSound a transactionNotes) :
    TransactionsSound a (transactionNotes ++ Option.toList none) := by
  rwa [Option.toList_none, List.append_nil]

theorem TransactionsSound.start (h : TransactionsSound a transactionNotes) {name type : String}
    (hslot : t.slot = a.transactions.size)
    (hb : b.transactions = a.transactions.push { data := some { name, type } }) :
    TransactionsSound b (transactionNotes ++ [.started t name type]) := by
  have hrow := transaction_of_push hb
  unfold TransactionsSound
  rw [hb, Array.size_push]
  refine Note.Sound.start h hslot ?_ fun y hy => ?_
  · rw [hrow, if_pos hslot, TransactionData.lastSet_nil]
  · rw [hrow, if_neg hy]

theorem TransactionsSound.edit (h : TransactionsSound a transactionNotes) (ht : Note.Started transactionNotes t)
    (e : TransactionEdit) : TransactionsSound (a.editTransaction t e) (transactionNotes ++ [.edited t e]) := by
  unfold TransactionsSound Agent.editTransaction
  rw [show (a.setTransaction t _).transactions.size = _ from Array.size_setIfInBounds]
  refine Note.Sound.edit h (TransactionEdit.apply_lastSet · · · e) ht ?_ fun y hy => ?_
  · rw [Agent.transaction_setTransaction, if_pos ⟨rfl, h.bound t ht⟩]
  · rw [Agent.transaction_setTransaction, if_neg fun hslot => hy hslot.1]

theorem TransactionsSound.ended (h : TransactionsSound a transactionNotes) (ht : Note.Started transactionNotes t)
    {state : TransactionState} (hdata : state.data = none) :
    TransactionsSound (a.setTransaction t state) (transactionNotes ++ [.ended t]) := by
  unfold TransactionsSound
  rw [show (a.setTransaction t _).transactions.size = _ from Array.size_setIfInBounds]
  refine Note.Sound.ended h ht ?_ fun y hy => ?_
  · rw [Agent.transaction_setTransaction, if_pos ⟨rfl, h.bound t ht⟩, hdata]
  · rw [Agent.transaction_setTransaction, if_neg fun hslot => hy hslot.1]

theorem SpansSound.unnoted (h : SpansSound a spanNotes) : SpansSound a (spanNotes ++ Option.toList none) := by
  rwa [Option.toList_none, List.append_nil]

theorem SpansSound.start (h : SpansSound a spanNotes) {name type : String} (hslot : s.slot = a.spans.size)
    (hb : b.spans = a.spans.push (some (.ofType name type))) :
    SpansSound b (spanNotes ++ [.started s name type]) := by
  have hrow : ∀ y, b.span y = if y.slot = a.spans.size then some (.ofType name type) else a.span y := by
    intro y
    unfold span
    rw [hb, getD_push]
  unfold SpansSound
  rw [hb, Array.size_push]
  refine Note.Sound.start h hslot ?_ fun y hy => ?_
  · rw [hrow, if_pos hslot, SpanData.lastSet_nil]
  · rw [hrow, if_neg hy]

theorem SpansSound.edit (h : SpansSound a spanNotes) (hs : Note.Started spanNotes s) (e : SpanEdit) :
    SpansSound (a.editSpan (.live s) e) (spanNotes ++ [.edited s e]) := by
  unfold SpansSound Agent.editSpan
  rw [show (a.setSpan s _).spans.size = _ from Array.size_setIfInBounds]
  refine Note.Sound.edit h (SpanEdit.apply_lastSet · · · e) hs ?_ fun y hy => ?_
  · rw [Agent.span_setSpan, if_pos ⟨rfl, h.bound s hs⟩]
  · rw [Agent.span_setSpan, if_neg fun hslot => hy hslot.1]

theorem SpansSound.ended (h : SpansSound a spanNotes) (hs : Note.Started spanNotes s) :
    SpansSound (a.setSpan s none) (spanNotes ++ [.ended s]) := by
  unfold SpansSound
  rw [show (a.setSpan s _).spans.size = _ from Array.size_setIfInBounds]
  refine Note.Sound.ended h hs ?_ fun y hy => ?_
  · rw [Agent.span_setSpan, if_pos ⟨rfl, h.bound s hs⟩]
  · rw [Agent.span_setSpan, if_neg fun hslot => hy hslot.1]

end Agent
end Tracing
