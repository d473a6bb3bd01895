import Tracing.Text.LowerCase.Table
import Tracing.Text.Visible

/-!
# Lower case

Names of headers compare without regard to case. A list of headers folds the letters of the seven-bit code
only (`foldAscii`); a map of headers stores names in the lower case of the whole Unicode repertoire
(`lowerCase`), where one letter becomes two characters and a sigma has a form of its own at the end of a
word. On names of the seven-bit code the two agree.
-/

namespace Tracing.Text

/-- The lower case of a letter of the seven-bit code; other characters stay. -/
def foldAsciiChar (c : Char) : Char :=
  if 'A' ≤ c ∧ c ≤ 'Z' then Char.ofNat (c.toNat + 32) else c

/-- A text with the letters of the seven-bit code in lower case. -/
def foldAscii (cs : List Char) : List Char := cs.map foldAsciiChar

/-- The letter belongs to the run. -/
def CaseRun.contains (run : CaseRun) (n : Nat) : Bool :=
  run.first ≤ n && n ≤ run.last && (n - run.first) % run.stride == 0

/-- The lower case of a character on its own. -/
def lowerCaseChar (c : Char) : List Char :=
  if c.toNat < 128 then [foldAsciiChar c]
  else if c = '\u0130' then ['i', '\u0307']
  else match caseRuns.find? (·.contains c.toNat) with
    | some run => [Char.ofNat ((c.toNat : Int) + run.shift).toNat]
    | none => [c]

/-- The nearest character that counts for the case of a word is a cased letter. -/
def meetsCased (cs : List Char) : Bool :=
  match cs.dropWhile fun c => inIntervals c.toNat caseIgnorableIntervals with
  | [] => false
  | c :: _ => inIntervals c.toNat casedIntervals

/-- The lower case of the rest of a text, given the characters before it, nearest first. -/
def lowerCaseAfter (before : List Char) : List Char → List Char
  | [] => []
  | c :: cs =>
    (if c = 'Σ' then [if meetsCased before && !meetsCased cs then 'ς' else 'σ'] else lowerCaseChar c) ++
      lowerCaseAfter (c :: before) cs

/-- A text in lower case. A capital sigma that ends a word becomes the final form. -/
def lowerCase (cs : List Char) : List Char := lowerCaseAfter [] cs

/-- On the seven-bit code, lower case is a map over the characters. -/
theorem lowerCaseAfter_of_ascii {before cs : List Char} (h : ∀ c ∈ cs, c.toNat < 128) :
    lowerCaseAfter before cs = foldAscii cs := by
  induction cs generalizing before with
  | nil => rfl
  | cons c cs ih =>
    have hc : c.toNat < 128 := h c (by simp)
    have hs : c ≠ 'Σ' := by rintro rfl; exact absurd hc (by decide)
    simp [lowerCaseAfter, hs, lowerCaseChar, hc, foldAscii, ih fun d hd => h d (List.mem_cons_of_mem _ hd)]

/-- Both ways to fold case agree on the seven-bit code. -/
theorem lowerCase_of_ascii {cs : List Char} (h : ∀ c ∈ cs, c.toNat < 128) : lowerCase cs = foldAscii cs :=
  lowerCaseAfter_of_ascii h

end Tracing.Text
