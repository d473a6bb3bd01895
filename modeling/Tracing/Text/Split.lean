/-!
# Splitting a text at a separator

`split sep` cuts a text at every separator, so that joining the pieces with the separator gives the text
back; `splitTerminated sep` lets a separator end each piece, and so leaves out an empty last one; `splitOnce sep`
cuts at the first separator only. `trimBy` drops a class of characters at both ends, and `trim` white space, which
header values and settings may carry there.
-/

namespace Tracing.Text

/-- The pieces of a text between its separators; a text without separator is one piece. -/
def split (sep : Char) : List Char → List (List Char)
  | [] => [[]]
  | c :: cs =>
    if c = sep then [] :: split sep cs
    else match split sep cs with
      | [] => [[c]]
      | piece :: rest => (c :: piece) :: rest

/-- The pieces with a separator between neighbours. -/
def join (sep : Char) : List (List Char) → List Char
  | [] => []
  | [piece] => piece
  | piece :: rest => piece ++ sep :: join sep rest

theorem split_ne_nil (sep : Char) (cs : List Char) : split sep cs ≠ [] := by
  cases cs with
  | nil => simp [split]
  | cons c cs =>
    by_cases h : c = sep
    · simp [split, h]
    · simp only [split, h, if_false]
      split <;> simp

/-- Nothing is lost by splitting. -/
theorem join_split (sep : Char) (cs : List Char) : join sep (split sep cs) = cs := by
  induction cs with
  | nil => rfl
  | cons c cs ih =>
    cases hp : split sep cs with
    | nil => exact absurd hp (split_ne_nil sep cs)
    | cons piece rest =>
      rw [hp] at ih
      by_cases h : c = sep
      · simp [split, h, hp, join, ih]
      · cases rest with
        | nil => simpa [split, h, hp, join] using ih
        | cons p ps => simpa [split, h, hp, join] using ih

/-- No piece holds the separator. -/
theorem not_mem_of_mem_split {sep : Char} {cs piece : List Char} (h : piece ∈ split sep cs) :
    sep ∉ piece := by
  induction cs generalizing piece with
  | nil => simp [split] at h; simp [h]
  | cons c cs ih =>
    by_cases hc : c = sep
    · simp only [split, hc, if_true, List.mem_cons] at h
      rcases h with rfl | h
      · simp
      · exact ih h
    · cases hp : split sep cs with
      | nil => exact absurd hp (split_ne_nil sep cs)
      | cons first rest =>
        simp only [split, hc, if_false, hp, List.mem_cons] at h
        rcases h with rfl | h
        · simp only [List.mem_cons, not_or]
          exact ⟨fun e => hc e.symm, ih (by simp [hp])⟩
        · exact ih (by simp [hp, h])

/-- Every piece is a part of the text. -/
theorem mem_of_mem_split {sep : Char} {cs piece : List Char} (h : piece ∈ split sep cs) {c : Char} (hc : c ∈ piece) :
    c ∈ cs := by
  induction cs generalizing piece with
  | nil =>
    rw [split, List.mem_singleton] at h
    exact h ▸ hc
  | cons d ds ih =>
    by_cases hd : d = sep
    · rw [split, if_pos hd, List.mem_cons] at h
      rcases h with rfl | h
      · cases hc
      · exact List.mem_cons_of_mem _ (ih h hc)
    · obtain ⟨first, rest, hpieces⟩ := List.exists_cons_of_ne_nil (split_ne_nil sep ds)
      simp only [split, if_neg hd, hpieces, List.mem_cons] at h
      rcases h with rfl | h
      · rcases List.mem_cons.mp hc with rfl | hc
        · exact List.mem_cons_self
        · exact List.mem_cons_of_mem _ (ih (by simp [hpieces]) hc)
      · exact List.mem_cons_of_mem _ (ih (by simp [hpieces, h]) hc)

/-- A text without the separator is its only piece. -/
theorem split_of_not_mem {sep : Char} {cs : List Char} (h : sep ∉ cs) : split sep cs = [cs] := by
  induction cs with
  | nil => rfl
  | cons c cs ih =>
    simp only [List.mem_cons, not_or] at h
    simp [split, Ne.symm h.1, ih h.2]

/-- A separator between two texts cuts there. -/
theorem split_append (sep : Char) (cs ds : List Char) :
    split sep (cs ++ sep :: ds) = split sep cs ++ split sep ds := by
  induction cs with
  | nil => simp [split]
  | cons c cs ih =>
    by_cases h : c = sep
    · simp [split, h, ih]
    · obtain ⟨piece, rest, hpieces⟩ := List.exists_cons_of_ne_nil (split_ne_nil sep cs)
      rw [hpieces, List.cons_append] at ih
      simp [split, h, hpieces, ih]

/-- A separator after a text without one ends the first piece. -/
theorem split_append_cons {sep : Char} {cs : List Char} (h : sep ∉ cs) (ds : List Char) :
    split sep (cs ++ sep :: ds) = cs :: split sep ds := by
  rw [split_append, split_of_not_mem h, List.singleton_append]

/-- Joined pieces are found again if none of them holds the separator. -/
theorem split_join {sep : Char} {pieces : List (List Char)} (hne : pieces ≠ []) (h : ∀ piece ∈ pieces, sep ∉ piece) :
    split sep (join sep pieces) = pieces := by
  induction pieces with
  | nil => exact absurd rfl hne
  | cons piece rest ih =>
    have hpiece := h piece List.mem_cons_self
    cases rest with
    | nil => exact split_of_not_mem hpiece
    | cons next rest =>
      rw [join, split_append_cons hpiece, ih (by simp) fun p hp => h p (List.mem_cons_of_mem _ hp)]
      simp

theorem join_append (sep : Char) {pieces more : List (List Char)} (hpieces : pieces ≠ []) (hmore : more ≠ []) :
    join sep (pieces ++ more) = join sep pieces ++ sep :: join sep more := by
  induction pieces with
  | nil => exact absurd rfl hpieces
  | cons piece rest ih =>
    cases rest with
    | nil =>
      obtain ⟨next, more, rfl⟩ := List.exists_cons_of_ne_nil hmore
      rfl
    | cons next rest =>
      have hrest := ih (by simp)
      show piece ++ sep :: join sep ((next :: rest) ++ more) = _
      rw [hrest]
      simp [join]

/-- The pieces of a text in which a separator ends each piece; the last piece may go without if it is not empty. -/
def splitTerminated (sep : Char) : List Char → List (List Char)
  | [] => []
  | c :: cs =>
    if c = sep then [] :: splitTerminated sep cs
    else match splitTerminated sep cs with
      | [] => [[c]]
      | piece :: rest => (c :: piece) :: rest

/-- Both ways to split differ by an empty last piece at most. -/
theorem split_eq_splitTerminated (sep : Char) (cs : List Char) :
    split sep cs = splitTerminated sep cs ∨ split sep cs = splitTerminated sep cs ++ [[]] := by
  induction cs with
  | nil => exact .inr rfl
  | cons c cs ih =>
    by_cases h : c = sep
    · simpa [split, splitTerminated, h] using ih
    · cases hended : splitTerminated sep cs with
      | nil =>
        have hlast : split sep cs = [[]] := by simpa [hended, split_ne_nil] using ih
        exact .inl (by simp [split, splitTerminated, h, hended, hlast])
      | cons piece rest =>
        rw [hended] at ih
        rcases ih with ih | ih
        · exact .inl (by simp [split, splitTerminated, h, hended, ih])
        · exact .inr (by simp [split, splitTerminated, h, hended, ih])

/-- The parts before and after the first separator. -/
def splitOnce (sep : Char) : List Char → Option (List Char × List Char)
  | [] => none
  | c :: cs =>
    if c = sep then some ([], cs)
    else (splitOnce sep cs).map fun (before, after) => (c :: before, after)

theorem splitOnce_eq_some_iff {sep : Char} {cs before after : List Char} :
    splitOnce sep cs = some (before, after) ↔ cs = before ++ sep :: after ∧ sep ∉ before := by
  induction cs generalizing before with
  | nil => simp [splitOnce]
  | cons c cs ih =>
    by_cases hc : c = sep
    · subst hc
      simp only [splitOnce, if_true, Option.some.injEq, Prod.mk.injEq]
      constructor
      · rintro ⟨rfl, rfl⟩; simp
      · rintro ⟨h, hb⟩
        cases before with
        | nil => simpa using h
        | cons b bs =>
          simp only [List.cons_append, List.cons.injEq] at h
          simp [h.1] at hb
    · simp only [splitOnce, hc, if_false, Option.map_eq_some_iff, Prod.mk.injEq, Prod.exists]
      constructor
      · rintro ⟨b, a, h, rfl, rfl⟩
        obtain ⟨rfl, hb⟩ := ih.1 h
        simp [Ne.symm hc, hb]
      · rintro ⟨h, hb⟩
        cases before with
        | nil => simp [hc] at h
        | cons b bs =>
          simp only [List.cons_append, List.cons.injEq] at h
          obtain ⟨rfl, h⟩ := h
          simp only [List.mem_cons, not_or] at hb
          exact ⟨bs, after, ih.2 ⟨h, hb.2⟩, rfl, rfl⟩

theorem splitOnce_eq_none_iff {sep : Char} {cs : List Char} : splitOnce sep cs = none ↔ sep ∉ cs := by
  induction cs with
  | nil => simp [splitOnce]
  | cons c cs ih =>
    by_cases hc : c = sep
    · simp [splitOnce, hc]
    · simp [splitOnce, hc, ih, Ne.symm hc]

/-- A text without the characters of a class at its end. -/
def trimEndBy (p : Char → Bool) (cs : List Char) : List Char := (cs.reverse.dropWhile p).reverse

/-- A text without the characters of a class at either end. -/
def trimBy (p : Char → Bool) (cs : List Char) : List Char := trimEndBy p (cs.dropWhile p)

theorem dropWhile_eq_self {p : Char → Bool} {cs : List Char} (h : ∀ c ∈ cs.head?, p c = false) :
    cs.dropWhile p = cs := by
  cases cs with
  | nil => rfl
  | cons c cs => exact List.dropWhile_cons_of_neg (by simp [h c rfl])

/-- A text whose ends are not of the class is trimmed already. -/
theorem trimBy_eq_self {p : Char → Bool} {cs : List Char} (hhead : ∀ c ∈ cs.head?, p c = false)
    (hlast : ∀ c ∈ cs.getLast?, p c = false) : trimBy p cs = cs := by
  have hreverse : ∀ c ∈ cs.reverse.head?, p c = false := by rwa [List.head?_reverse]
  unfold trimBy trimEndBy
  rw [dropWhile_eq_self hhead, dropWhile_eq_self hreverse, List.reverse_reverse]

/-! ### Blanks -/

/-- White space of the Unicode standard. -/
def isBlank (c : Char) : Bool :=
  let n := c.toNat
  (0x09 ≤ n && n ≤ 0x0D) || n == 0x20 || n == 0x85 || n == 0xA0 || n == 0x1680 ||
    (0x2000 ≤ n && n ≤ 0x200A) || n == 0x2028 || n == 0x2029 || n == 0x202F || n == 0x205F || n == 0x3000

/-- A text without white space at either end. -/
def trim (cs : List Char) : List Char := trimBy isBlank cs

end Tracing.Text
