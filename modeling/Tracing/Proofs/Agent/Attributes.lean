import Tracing.Agent.Finish
import Tracing.Agent.Start
import Tracing.Proofs.Lists

/-! # Attributes as they were last set

Setting an attribute replaces it and leaves the others alone, so after any number of edits each attribute is as it
was last set, or else as it was at the start. Tags keep the order in which their names were first set. -/

namespace Tracing

/-- What the edits set last, or else the first value. -/
def lastSet {ε α : Type} (select : ε → Option α) (edits : List ε) (first : α) : α :=
  (edits.filterMap select).getLast?.getD first

theorem lastSet_concat {ε α : Type} (select : ε → Option α) (edits : List ε) (e : ε) (first : α) :
    lastSet select (edits ++ [e]) first = (select e).getD (lastSet select edits first) := by
  unfold lastSet
  rw [filterMap_concat]
  cases select e <;> simp

/-! ### Tags -/

namespace Tags

/-- The text that is set under a name, if it is this name. -/
def under (key : String) (set : String × String) : Option String := if set.1 = key then some set.2 else none

/-- Each name once, in the order in which they were first set, with the text that was set last. -/
def ofSets (sets : List (String × String)) : Tags :=
  (sets.map Prod.fst).eraseDups.map fun key =>
    (key, lastSet (under key) sets "")

theorem nodup_names_ofSets (sets : List (String × String)) : ((ofSets sets).map Prod.fst).Nodup := by
  have hnames : (ofSets sets).map Prod.fst = (sets.map Prod.fst).eraseDups := by
    simp [ofSets, Function.comp_def]
  rw [hnames]
  exact nodup_eraseDups _

theorem put_of_not_mem {names : List String} {text : String → String} {key : String} (h : key ∉ names)
    (value : String) :
    put key value (names.map fun n => (n, text n)) = names.map (fun n => (n, text n)) ++ [(key, value)] := by
  induction names with
  | nil => rfl
  | cons n names ih =>
    rw [List.mem_cons, not_or] at h
    rw [List.map_cons, put, if_neg (Ne.symm h.1), ih h.2, List.cons_append]

theorem put_of_mem {names : List String} {text : String → String} {key : String} (hnodup : names.Nodup)
    (h : key ∈ names) (value : String) :
    put key value (names.map fun n => (n, text n)) = names.map fun n => (n, if n = key then value else text n) := by
  induction names with
  | nil => cases h
  | cons n names ih =>
    rw [List.nodup_cons] at hnodup
    by_cases hn : n = key
    · subst hn
      have hrest : names.map (fun m => (m, text m)) = names.map fun m => (m, if m = n then value else text m) := by
        refine List.map_congr_left fun m hm => ?_
        have hne : m ≠ n := fun heq => hnodup.1 (heq ▸ hm)
        rw [if_neg hne]
      rw [List.map_cons, put, if_pos rfl, hrest, List.map_cons, if_pos rfl]
    · have hmem : key ∈ names := (List.mem_cons.mp h).resolve_left (Ne.symm hn)
      rw [List.map_cons, put, if_neg hn, ih hnodup.2 hmem, List.map_cons, if_neg hn]

/-- Setting one tag more. -/
theorem put_ofSets (key value : String) (sets : List (String × String)) :
    put key value (ofSets sets) = ofSets (sets ++ [(key, value)]) := by
  have htext : ∀ n, lastSet (under n) (sets ++ [(key, value)]) "" =
      if n = key then value else lastSet (under n) sets "" := by
    intro n
    rw [lastSet_concat]
    by_cases hn : n = key
    · simp [under, hn]
    · simp [under, hn, Ne.symm hn]
  unfold ofSets
  simp only [List.map_append, List.map_singleton, eraseDups_concat, htext]
  by_cases h : key ∈ sets.map Prod.fst
  · rw [if_pos h, put_of_mem (nodup_eraseDups _) (List.mem_eraseDups.mpr h)]
  · have hnot : key ∉ (sets.map Prod.fst).eraseDups := fun hmem => h (List.mem_eraseDups.mp hmem)
    rw [if_neg h, put_of_not_mem hnot, List.map_append, List.map_singleton, if_pos rfl]
    congr 1
    refine List.map_congr_left fun n hn => ?_
    have hne : n ≠ key := fun heq => hnot (heq ▸ hn)
    rw [if_neg hne]

end Tags

/-! ### Transactions -/

namespace TransactionEdit

def name? : TransactionEdit → Option String
  | .name s => some s
  | _ => none

def type? : TransactionEdit → Option String
  | .type s => some s
  | _ => none

def result? : TransactionEdit → Option (Option String)
  | .result s => some (some s)
  | _ => none

def outcome? : TransactionEdit → Option Outcome
  | .outcome o => some o
  | _ => none

def tag? : TransactionEdit → Option (String × String)
  | .tag key value => some (key, value)
  | _ => none

end TransactionEdit

/-- The attributes of a transaction as they were last set. -/
def TransactionData.lastSet (name type : String) (edits : List TransactionEdit) : TransactionData where
  name := Tracing.lastSet TransactionEdit.name? edits name
  type := Tracing.lastSet TransactionEdit.type? edits type
  result := Tracing.lastSet TransactionEdit.result? edits none
  outcome := Tracing.lastSet TransactionEdit.outcome? edits .unknown
  tags := .ofSets (edits.filterMap TransactionEdit.tag?)

theorem TransactionData.lastSet_nil (name type : String) : TransactionData.lastSet name type [] = { name, type } := rfl

theorem TransactionEdit.apply_lastSet (name type : String) (edits : List TransactionEdit) (e : TransactionEdit) :
    e.apply (.lastSet name type edits) = .lastSet name type (edits ++ [e]) := by
  unfold TransactionData.lastSet
  simp only [lastSet_concat, filterMap_concat]
  cases e with
  | tag key value =>
    simp only [apply, name?, type?, result?, outcome?, tag?, Tags.put_ofSets]
    rfl
  | name s => simp [apply, name?, type?, result?, outcome?, tag?]
  | type s => simp [apply, name?, type?, result?, outcome?, tag?]
  | result s => simp [apply, name?, type?, result?, outcome?, tag?]
  | outcome o => simp [apply, name?, type?, result?, outcome?, tag?]

/-! ### Spans -/

namespace SpanEdit

def name? : SpanEdit → Option String
  | .name s => some s
  | _ => none

def subtype? : SpanEdit → Option (Option String)
  | .subtype s => some (some s)
  | _ => none

def action? : SpanEdit → Option (Option String)
  | .action s => some (some s)
  | _ => none

def tag? : SpanEdit → Option (String × String)
  | .tag key value => some (key, value)
  | _ => none

end SpanEdit

/-- The attributes of a span as they were last set. Its dotted type gives the first ones. -/
def SpanData.lastSet (name type : String) (edits : List SpanEdit) : SpanData where
  name := Tracing.lastSet SpanEdit.name? edits name
  type := (ofType name type).type
  subtype := Tracing.lastSet SpanEdit.subtype? edits (ofType name type).subtype
  action := Tracing.lastSet SpanEdit.action? edits (ofType name type).action
  tags := .ofSets (edits.filterMap SpanEdit.tag?)

theorem SpanData.lastSet_nil (name type : String) : SpanData.lastSet name type [] = ofType name type := by
  have hfixed : (ofType name type).name = name ∧ (ofType name type).tags = [] := by
    unfold ofType
    dsimp only
    split
    · exact ⟨rfl, rfl⟩
    · split <;> exact ⟨rfl, rfl⟩
  rcases h : ofType name type with ⟨name', type', subtype, action, tags⟩
  rw [h] at hfixed
  obtain ⟨rfl, rfl⟩ := hfixed
  unfold SpanData.lastSet
  rw [h]
  rfl

theorem SpanEdit.apply_lastSet (name type : String) (edits : List SpanEdit) (e : SpanEdit) :
    e.apply (.lastSet name type edits) = .lastSet name type (edits ++ [e]) := by
  unfold SpanData.lastSet
  simp only [lastSet_concat, filterMap_concat]
  cases e with
  | tag key value =>
    simp only [apply, name?, subtype?, action?, tag?, Tags.put_ofSets]
    rfl
  | name s => simp [apply, name?, subtype?, action?, tag?]
  | subtype s => simp [apply, name?, subtype?, action?, tag?]
  | action s => simp [apply, name?, subtype?, action?, tag?]

end Tracing
