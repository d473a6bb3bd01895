import Tracing.Proofs.Carrier.Forms

/-! # Writing over headers

A header that is written takes the place of all headers of its name. What was written under a name makes no difference
once the name is written again, so writing the same headers twice comes to the same as writing them once. Headers of
other names stay as they are, in order. -/

namespace Tracing

open Text

/-! ### Maps -/

namespace HeaderMap
variable {name value n v a b x y : String} {headers : List Header}

theorem put_self (name value earlier : String) (headers : List Header) :
    put name value ((name, earlier) :: headers) = (name, value) :: headers := by
  simp [put]

theorem put_of_lt (h : name < n) : put name value ((n, v) :: headers) = (name, value) :: (n, v) :: headers := by
  simp [put, h.ne, h]

theorem put_of_gt (h : n < name) : put name value ((n, v) :: headers) = (n, v) :: put name value headers := by
  simp [put, h.ne', h.not_gt]

theorem put_put (name value earlier : String) (headers : List Header) :
    put name value (put name earlier headers) = put name value headers := by
  induction headers with
  | nil => exact put_self _ _ _ _
  | cons e headers ih =>
    obtain ⟨n, v⟩ := e
    rcases lt_trichotomy name n with hlt | rfl | hgt
    · rw [put_of_lt hlt, put_of_lt hlt, put_self]
    · rw [put_self, put_self, put_self]
    · rw [put_of_gt hgt, put_of_gt hgt, put_of_gt hgt, ih]

theorem put_comm_of_lt (h : a < b) (headers : List Header) :
    put a x (put b y headers) = put b y (put a x headers) := by
  induction headers with
  | nil => simp only [put, put_of_lt h, put_of_gt h]
  | cons e headers ih =>
    obtain ⟨n, v⟩ := e
    rcases lt_trichotomy a n with ha | rfl | ha
    · rcases lt_trichotomy b n with hb | rfl | hb
      · rw [put_of_lt hb, put_of_lt ha, put_of_lt h, put_of_gt h, put_of_lt hb]
      · rw [put_self, put_of_lt ha, put_of_lt ha, put_of_gt h, put_self]
      · rw [put_of_gt hb, put_of_lt ha, put_of_lt ha, put_of_gt h, put_of_gt hb]
    · rw [put_of_gt h, put_self, put_self, put_of_gt h]
    · rw [put_of_gt (ha.trans h), put_of_gt ha, put_of_gt ha, put_of_gt (ha.trans h), ih]

/-- Headers of different names may be written in any order. -/
theorem put_comm (h : a ≠ b) (headers : List Header) :
    put a x (put b y headers) = put b y (put a x headers) := by
  rcases lt_or_gt_of_ne h with hlt | hgt
  · exact put_comm_of_lt hlt headers
  · exact (put_comm_of_lt hgt headers).symm

/-- What leaves out the name does not see what is written under it. -/
theorem filter_put {p : Header → Bool} (h : ∀ value, p (name, value) = false) (value : String) (headers : List Header) :
    (put name value headers).filter p = headers.filter p := by
  induction headers with
  | nil => simp [put, h]
  | cons e headers ih =>
    obtain ⟨n, v⟩ := e
    rcases lt_trichotomy name n with hlt | rfl | hgt
    · simp [put_of_lt hlt, h]
    · simp [put_self, h]
    · rw [put_of_gt hgt, List.filter_cons, List.filter_cons, ih]

end HeaderMap

/-! ### Writing a name again -/

namespace Carrier
variable {c c' : Carrier} {name : String} {headers : List Header}

theorem write_append (c : Carrier) (headers more : List Header) :
    c.write (headers ++ more) = (c.write headers).write more := List.foldl_append

theorem set_set (c : Carrier) (hname : IsAsciiName name) (earlier value : String) :
    (c.set name earlier).set name value = c.set name value := by
  cases c with
  | map m => exact congrArg (fun headers => map ⟨headers⟩) (HeaderMap.put_put (lowerName name) value earlier m.headers)
  | list l =>
    have hsame : sameName (lowerName name) name = true := (sameName_lowerName hname name).trans (sameName_iff.mpr rfl)
    simp [set, HeaderList.set, List.filter_append, hsame]

/-- The carriers come to the same when a header of the name is written. -/
def SameOnceWritten (name : String) (c c' : Carrier) : Prop := ∀ value, c.set name value = c'.set name value

theorem SameOnceWritten.set (h : SameOnceWritten name c c') {other : String} (value : String) :
    SameOnceWritten name (c.set other value) (c'.set other value) := by
  intro again
  have hagain := h again
  cases c with
  | map m =>
    cases c' with
    | list l' => cases hagain
    | map m' =>
      unfold Carrier.set HeaderMap.set at hagain ⊢
      rw [map.injEq, HeaderMap.mk.injEq] at hagain ⊢
      by_cases hother : lowerName name = lowerName other
      · rw [← hother, HeaderMap.put_put, HeaderMap.put_put, hagain]
      · rw [HeaderMap.put_comm hother, HeaderMap.put_comm hother, hagain]
  | list l =>
    cases c' with
    | map m' => cases hagain
    | list l' =>
      unfold Carrier.set HeaderList.set at hagain ⊢
      rw [list.injEq, HeaderList.mk.injEq, List.append_cancel_right_eq] at hagain
      have hswap : ∀ headers : List Header,
          (headers.filter fun e => !sameName e.1 other).filter (fun e => !sameName e.1 name) =
            (headers.filter fun e => !sameName e.1 name).filter fun e => !sameName e.1 other := fun headers => by
        rw [List.filter_filter, List.filter_filter]
        exact List.filter_congr fun e _ => Bool.and_comm _ _
      simp only [List.filter_append, hswap, hagain]

/-- A name that is written makes good for a difference in it. -/
theorem SameOnceWritten.write (h : SameOnceWritten name c c') (hwritten : ∃ e ∈ headers, e.1 = name) :
    c.write headers = c'.write headers := by
  induction headers generalizing c c' with
  | nil =>
    obtain ⟨e, he, -⟩ := hwritten
    cases he
  | cons e headers ih =>
    show (c.set e.1 e.2).write headers = (c'.set e.1 e.2).write headers
    by_cases hname : e.1 = name
    · rw [hname, h e.2]
    · refine ih (h.set e.2) ?_
      obtain ⟨e', he', rfl⟩ := hwritten
      rcases List.mem_cons.mp he' with rfl | he'
      · exact absurd rfl hname
      · exact ⟨e', he', rfl⟩

/-- Headers whose names are all written again make no difference. -/
theorem write_write {earlier : List Header} (hascii : ∀ e ∈ earlier, IsAsciiName e.1)
    (hagain : ∀ e ∈ earlier, ∃ e' ∈ headers, e'.1 = e.1) (c : Carrier) :
    (c.write earlier).write headers = c.write headers := by
  induction earlier generalizing c with
  | nil => rfl
  | cons e earlier ih =>
    obtain ⟨hfirst, hrest⟩ := List.forall_mem_cons.mp hascii
    obtain ⟨hagain, hothers⟩ := List.forall_mem_cons.mp hagain
    show ((c.set e.1 e.2).write earlier).write headers = _
    -- The rest is made good for on any carrier, also on the one that the first header has been written to.
    rw [ih hrest hothers]
    exact SameOnceWritten.write (fun value => set_set c hfirst e.2 value) hagain

theorem write_idem (hascii : ∀ e ∈ headers, IsAsciiName e.1) (c : Carrier) :
    (c.write headers).write headers = c.write headers :=
  write_write hascii (fun e he => ⟨e, he, rfl⟩) c

/-! ### Headers of other names -/

/-- The headers of other names: in a map of names that are none of these, in a list not even but for their case. -/
def others : Carrier → List String → List Header
  | map m, names => m.headers.filter fun e => !names.contains e.1
  | list l, names => l.headers.filter fun e => !names.any (sameName e.1)

theorem others_set {names : List String} (hascii : IsAsciiName name) (hname : lowerName name ∈ names) (value : String) :
    (c.set name value).others names = c.others names := by
  cases c with
  | map m => exact HeaderMap.filter_put (fun _ => by simpa using hname) value m.headers
  | list l =>
    have hkeep : ∀ e : Header, (!names.any (sameName e.1) && !sameName e.1 name) = !names.any (sameName e.1) := by
      intro e
      cases hother : names.any (sameName e.1) with
      | true => rfl
      | false =>
        have hlower := List.any_eq_false.mp hother _ hname
        rw [sameName_comm, sameName_lowerName hascii, sameName_comm] at hlower
        simp [hlower]
    have hsame : names.any (sameName (lowerName name)) = true :=
      List.any_eq_true.mpr ⟨lowerName name, hname, sameName_iff.mpr rfl⟩
    simp [others, Carrier.set, HeaderList.set, List.filter_append, hkeep, hsame]

theorem others_write {names : List String} (hascii : ∀ e ∈ headers, IsAsciiName e.1)
    (hnames : ∀ e ∈ headers, lowerName e.1 ∈ names) (c : Carrier) :
    (c.write headers).others names = c.others names := by
  induction headers generalizing c with
  | nil => rfl
  | cons e headers ih =>
    obtain ⟨hfirst, hascii⟩ := List.forall_mem_cons.mp hascii
    obtain ⟨hname, hnames⟩ := List.forall_mem_cons.mp hnames
    show ((c.set e.1 e.2).write headers).others names = _
    rw [ih hascii hnames, others_set hfirst hname]

end Carrier

/-! ### Headers of one name -/

/-- Where every header of its name is the same, one that is written stands just once. -/
theorem Carrier.write_list_named {e : Header} {headers : List Header} (hascii : ∀ e' ∈ headers, IsAsciiName e'.1)
    (hlower : lowerName e.1 = e.1) (honly : ∀ e' ∈ headers, sameName e'.1 e.1 = true → e' = e) (l : HeaderList)
    (h : e ∈ headers ∨ l.named e.1 = [e]) : ∃ l', (list l).write headers = list l' ∧ l'.named e.1 = [e] := by
  induction headers generalizing l with
  | nil => exact ⟨l, rfl, h.resolve_left List.not_mem_nil⟩
  | cons first headers ih =>
    obtain ⟨hfirst, hascii⟩ := List.forall_mem_cons.mp hascii
    obtain ⟨hone, honly⟩ := List.forall_mem_cons.mp honly
    refine ih hascii honly (l.set first.1 first.2) ?_
    rw [HeaderList.named_set l first.2 e.1 hfirst]
    by_cases hsame : sameName first.1 e.1 = true
    · obtain rfl := hone hsame
      rw [if_pos hsame, hlower]
      exact .inr rfl
    · rw [if_neg hsame]
      refine h.imp_left fun hmem => ?_
      rcases List.mem_cons.mp hmem with rfl | hmem
      · exact absurd (sameName_iff.mpr rfl) hsame
      · exact hmem

end Tracing
