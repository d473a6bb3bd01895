import Mathlib.Data.List.Induction
import Mathlib.Data.String.Basic
import Tracing.Proofs.Lists
import Tracing.Proofs.Propagator.Fields

/-! # Both forms of carrier

A map keeps its headers apart by their names in lower case; a list drops all headers of a name before it writes one.
Written alike from the start, under names of the seven-bit code, both come to hold the same headers
(`SameHeaders`), the map in ascending order of the names and the list in the order of the last writes. So they
answer alike, and whatever reads them reads the same. -/

namespace Tracing

open Propagator Text

/-! ### Writing into a map -/

namespace HeaderMap

/-- The headers stand in ascending order of their names. -/
def Ascending (headers : List Header) : Prop := headers.Pairwise fun h h' => h.1 < h'.1

variable {headers : List Header} {name value : String}

theorem Ascending.nodup (h : Ascending headers) : (headers.map Prod.fst).Nodup :=
  List.pairwise_map.mpr (h.imp ne_of_lt)

theorem filter_ne_of_lt (h : ∀ e ∈ headers, name < e.1) : headers.filter (fun e => e.1 ≠ name) = headers :=
  List.filter_eq_self.mpr fun e he => by simpa using (ne_of_lt (h e he)).symm

/-- A header takes the place of the one of its name. -/
theorem put_perm (h : Ascending headers) (name value : String) :
    (put name value headers).Perm ((name, value) :: headers.filter fun e => e.1 ≠ name) := by
  induction headers with
  | nil => exact .refl _
  | cons e headers ih =>
    obtain ⟨n, v⟩ := e
    obtain ⟨hfirst, hrest⟩ := List.pairwise_cons.mp h
    unfold put
    split
    · rename_i hname
      subst hname
      rw [List.filter_cons_of_neg (by simp), filter_ne_of_lt hfirst]
    · rename_i hname
      rw [List.filter_cons_of_pos (by simpa using fun heq : n = name => hname heq.symm)]
      split
      · rename_i hlt
        rw [filter_ne_of_lt fun e he => lt_trans hlt (hfirst e he)]
      · exact ((ih hrest).cons (n, v)).trans (.swap _ _ _)

theorem Ascending.put (h : Ascending headers) (name value : String) : Ascending (put name value headers) := by
  induction headers with
  | nil => exact List.pairwise_singleton _ _
  | cons e headers ih =>
    obtain ⟨n, v⟩ := e
    obtain ⟨hfirst, hrest⟩ := List.pairwise_cons.mp h
    unfold HeaderMap.put
    split
    · rename_i hname
      subst hname
      exact List.pairwise_cons.mpr ⟨hfirst, hrest⟩
    · rename_i hname
      split
      · rename_i hlt
        refine List.pairwise_cons.mpr ⟨fun e he => ?_, h⟩
        rcases List.mem_cons.mp he with rfl | he
        · exact hlt
        · exact lt_trans hlt (hfirst e he)
      · rename_i hlt
        refine List.pairwise_cons.mpr ⟨fun e he => ?_, ih hrest⟩
        rcases List.mem_cons.mp ((put_perm hrest name value).mem_iff.mp he) with rfl | he
        · exact lt_of_le_of_ne (not_lt.mp hlt) fun heq => hname heq.symm
        · exact hfirst e (List.mem_filter.mp he).1

end HeaderMap

/-! ### The same headers in both forms -/

/-- A map and a list hold the same headers, under distinct names in lower case. -/
structure SameHeaders (m : HeaderMap) (l : HeaderList) : Prop where
  perm : l.headers.Perm m.headers
  ascending : HeaderMap.Ascending m.headers
  lower : ∀ e ∈ l.headers, IsAsciiName e.1 ∧ lowerName e.1 = e.1

theorem isAscii_foldAsciiChar {c : Char} (h : isAscii c = true) : isAscii (foldAsciiChar c) = true := by
  have hcode : ∀ n, n < 128 → isAscii (foldAsciiChar (Char.ofNat n)) = true := by decide
  rw [← Char.ofNat_toNat c]
  exact hcode _ (of_decide_eq_true h)

theorem isAsciiName_lowerName {name : String} (h : IsAsciiName name) : IsAsciiName (lowerName name) := by
  unfold IsAsciiName
  rw [toList_lowerName h]
  intro c hc
  obtain ⟨d, hd, rfl⟩ := List.mem_map.mp hc
  exact isAscii_foldAsciiChar (h d hd)

theorem lowerName_idem {name : String} (h : IsAsciiName name) : lowerName (lowerName name) = lowerName name :=
  (lowerName_eq_iff (isAsciiName_lowerName h) h).mpr ((sameName_lowerName h name).trans (sameName_iff.mpr rfl))

namespace SameHeaders
variable {m : HeaderMap} {l : HeaderList}

theorem set (h : SameHeaders m l) {name : String} (hname : IsAsciiName name) (value : String) :
    SameHeaders (m.set name value) (l.set name value) where
  perm := by
    -- A name in lower case is the same as `name` just if it is that name in lower case.
    have hsame : l.headers.filter (fun e => !sameName e.1 name) = l.headers.filter fun e => e.1 ≠ lowerName name := by
      refine List.filter_congr fun e he => ?_
      obtain ⟨hascii, hlower⟩ := h.lower e he
      have hiff := lowerName_eq_iff hascii hname
      rw [hlower] at hiff
      cases hs : sameName e.1 name with
      | true => simp [hiff.mpr hs]
      | false => simpa using fun heq : e.1 = lowerName name => by simp [hiff.mp heq] at hs
    unfold HeaderList.set HeaderMap.set
    dsimp only
    rw [hsame]
    exact (List.perm_append_singleton _ _).trans
      (((h.perm.filter _).cons _).trans (HeaderMap.put_perm h.ascending _ _).symm)
  ascending := h.ascending.put _ _
  lower := by
    intro e he
    rcases List.mem_append.mp he with he | he
    · exact h.lower e (List.mem_filter.mp he).1
    · obtain rfl := List.mem_singleton.mp he
      exact ⟨isAsciiName_lowerName hname, lowerName_idem hname⟩

/-- No two headers of the list have the same name, in whatever case. -/
theorem distinct (h : SameHeaders m l) : l.headers.Pairwise fun e e' => sameName e.1 e'.1 = false := by
  have hnodup : (l.headers.map Prod.fst).Nodup := (h.perm.map Prod.fst).nodup_iff.mpr h.ascending.nodup
  refine (List.pairwise_map.mp hnodup).imp_of_mem fun {e e'} he he' hne => Bool.eq_false_iff.mpr fun hsame => hne ?_
  obtain ⟨hascii, hlower⟩ := h.lower e he
  obtain ⟨hascii', hlower'⟩ := h.lower e' he'
  rw [← hlower, ← hlower', (lowerName_eq_iff hascii hascii').mpr hsame]

end SameHeaders

/-! ### Many headers -/

namespace Carrier

/-- Writes headers one after the other. -/
def write (c : Carrier) (headers : List Header) : Carrier := headers.foldl (fun c e => c.set e.1 e.2) c

theorem write_concat (c : Carrier) (headers : List Header) (e : Header) :
    c.write (headers ++ [e]) = (c.write headers).set e.1 e.2 := by
  simp [write, List.foldl_append]

end Carrier

/-- The value that was written last under a name, in whatever case. -/
def lastWritten (headers : List Header) (key : String) : Option String :=
  (headers.reverse.find? fun e => sameName e.1 key).map Prod.snd

theorem lastWritten_concat (headers : List Header) (e : Header) (key : String) :
    lastWritten (headers ++ [e]) key = if sameName e.1 key then some e.2 else lastWritten headers key := by
  unfold lastWritten
  rw [List.reverse_append, List.reverse_singleton, List.singleton_append, List.find?_cons]
  cases sameName e.1 key <;> rfl

namespace Carrier
variable {c : Carrier} {headers : List Header}

/-- A carrier that was empty answers with the last value that was written. -/
theorem answers_write (hempty : c.headers = []) (h : ∀ e ∈ headers, IsAsciiName e.1) {key : String}
    (hkey : IsAsciiName key) :
    (c.write headers).get? key = lastWritten headers key ∧
      (c.write headers).getAll? key = (lastWritten headers key).map fun value => [value] := by
  induction headers using List.reverseRecOn with
  | nil => exact ⟨get?_eq_none_of_empty hempty key, getAll?_eq_none_of_empty hempty key⟩
  | append_singleton headers e ih =>
    obtain ⟨hget, hall⟩ := ih fun e' he' => h e' (List.mem_append_left _ he')
    have he : IsAsciiName e.1 := h e (List.mem_append_right _ (List.mem_singleton_self e))
    rw [write_concat, get?_set _ _ he hkey, getAll?_set _ _ he hkey, lastWritten_concat, hget, hall]
    split <;> exact ⟨rfl, rfl⟩

/-- A map and a list that were empty come to hold the same headers. -/
theorem sameHeaders_write (h : ∀ e ∈ headers, IsAsciiName e.1) :
    ∃ m l, write (map {}) headers = map m ∧ write (list {}) headers = list l ∧ SameHeaders m l := by
  induction headers using List.reverseRecOn with
  | nil => exact ⟨{}, {}, rfl, rfl, ⟨.refl _, List.Pairwise.nil, nofun⟩⟩
  | append_singleton headers e ih =>
    obtain ⟨m, l, hmap, hlist, hsame⟩ := ih fun e' he' => h e' (List.mem_append_left _ he')
    have he : IsAsciiName e.1 := h e (List.mem_append_right _ (List.mem_singleton_self e))
    refine ⟨m.set e.1 e.2, l.set e.1 e.2, ?_, ?_, hsame.set he e.2⟩
    · rw [write_concat, hmap]
      rfl
    · rw [write_concat, hlist]
      rfl

/-- A map and a list into which the same headers are written answer alike for every name in whatever case, with the
value that was written last under it. The names of the list are those of the map, each once in whatever case, and every
propagator reads the same context from both. -/
theorem forms_written_alike (h : ∀ e ∈ headers, IsAsciiName e.1) :
    let m := write (map {}) headers
    let l := write (list {}) headers
    (∀ key, IsAsciiName key →
        m.get? key = lastWritten headers key ∧ l.get? key = lastWritten headers key ∧
          m.getAll? key = (lastWritten headers key).map (fun value => [value]) ∧
          l.getAll? key = (lastWritten headers key).map fun value => [value]) ∧
      l.headers.Pairwise (fun e e' => sameName e.1 e'.1 = false) ∧
      l.keys.Perm m.keys ∧
      ∀ (p : Propagator) (base : Context), (extract p base m).1 = (extract p base l).1 := by
  intro m l
  have hm : ∀ {key}, IsAsciiName key → m.get? key = lastWritten headers key ∧
      m.getAll? key = (lastWritten headers key).map fun value => [value] := answers_write rfl h
  have hl : ∀ {key}, IsAsciiName key → l.get? key = lastWritten headers key ∧
      l.getAll? key = (lastWritten headers key).map fun value => [value] := answers_write rfl h
  have halike : ∀ {key}, IsAsciiName key → m.Alike l key := fun hkey =>
    ⟨(hm hkey).1.trans (hl hkey).1.symm, (hm hkey).2.trans (hl hkey).2.symm⟩
  obtain ⟨m', l', hmap, hlist, hsame⟩ := sameHeaders_write h
  refine ⟨fun key hkey => ⟨(hm hkey).1, (hl hkey).1, (hm hkey).2, (hl hkey).2⟩, ?_, ?_, fun p base => ?_⟩
  · rw [show l = list l' from hlist]
    exact hsame.distinct
  · rw [show l = list l' from hlist, show m = map m' from hmap]
    exact hsame.perm.map Prod.fst
  · refine extract_congr (fun header hmem => ?_) (fun _ => halike isAsciiName_stateHeader) base
    exact halike (isAsciiName_of_mem_parentHeaders (mem_parentHeaders_of_mem_leaves p hmem))

/-- A parent header that is written twice, with a state in between. -/
def sampleWrites : List Header :=
  [("Traceparent", "00-00000000000000000000000000000001-0000000000000001-00"), ("TraceState", "a=1"),
    ("TRACEPARENT", "00-00000000000000000000000000000002-0000000000000003-01")]

theorem forms_written_alike_of_sampleWrites :
    let m := write (map {}) sampleWrites
    let l := write (list {}) sampleWrites
    (∀ e ∈ sampleWrites, IsAsciiName e.1) ∧ IsAsciiName "traceParent" ∧
      m.get? "traceParent" = some "00-00000000000000000000000000000002-0000000000000003-01" ∧
      l.get? "traceParent" = some "00-00000000000000000000000000000002-0000000000000003-01" ∧
      l.keys.Perm m.keys ∧ (extract (.agent true) .empty m).1 = (extract (.agent true) .empty l).1 := by
  intro m l
  have hascii : ∀ e ∈ sampleWrites, IsAsciiName e.1 := by decide
  have hkey : IsAsciiName "traceParent" := by decide
  have hlast : lastWritten sampleWrites "traceParent" =
      some "00-00000000000000000000000000000002-0000000000000003-01" := by decide
  obtain ⟨hanswers, -, hkeys, hextract⟩ := forms_written_alike hascii
  obtain ⟨hm, hl, -, -⟩ := hanswers "traceParent" hkey
  exact ⟨hascii, hkey, hm.trans hlast, hl.trans hlast, hkeys, hextract (.agent true) .empty⟩

end Carrier
end Tracing
