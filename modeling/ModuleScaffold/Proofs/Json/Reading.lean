import ModuleScaffold.Proofs.Json.Single

/-! # Reading trees

Main statement: from a text of a tree a reader gets just what the tree says at the shape that is expected, however its parts
are spaced and whatever stands in the members that are passed over, if what is read is nested no deeper than there is room
for. The readers of lists and objects have one law each; three steps are enough for each character of a text and of the
blanks before it. -/

namespace ModuleScaffold.Json

variable {ρ : Type}

namespace Tree

section Laws

variable (v : Vocabulary ρ)

/-- From every text of the tree a reader gets what the tree says at the shape. -/
def Reads (shape : Shape ρ) (t : Tree) : Prop :=
  ∀ (depth steps : Nat) (gap s rest tail : List Char) (j : Json), t.IsText s → IsGap gap → Ends rest →
    3 * (gap.length + s.length) + shape.layers ≤ steps + 2 →
      (readValue v shape depth (gap ++ (s ++ rest)) steps = .ok (j, tail) ↔
        tail = rest ∧ t.Fits v shape depth ∧ t.read? v shape = some j)

def ReadsAll (shape : Shape ρ) (es : List Tree) : Prop :=
  ∀ (i depth steps : Nat) (s rest tail : List Char) (js : List Json), AreElements (i == 0) es s → 3 * s.length ≤ steps →
    (readElements v shape i depth (s ++ rest) steps = .ok (js, tail) ↔
      tail = rest ∧ (∀ e ∈ es, e.Fits v shape depth) ∧ readAll? v shape es = some js)

def ReadsEach (shape : Shape ρ) (ms : List (Literal × Tree)) : Prop :=
  ∀ (first : Bool) (depth steps : Nat) (s rest tail : List Char) (js : List (String × Json)), AreMembers first ms s →
    3 * s.length ≤ steps →
      (readTable v shape first depth (s ++ rest) steps = .ok (js, tail) ↔
        tail = rest ∧ (∀ m ∈ ms, m.2.Fits v shape depth) ∧ readEach? v shape ms = some js)

/-- What the members of a record say; those that have been read before may not stand again. -/
structure Say (fields : List (String × Shape ρ)) (depth : Nat) (seen : List String) (ms : List (Literal × Tree))
    (js : List (String × Json)) : Prop where
  fits : ∀ part ∈ ms.filterMap (known? fields), part.2.Fits v part.1 depth
  read : readMembers? v fields ms = some js
  fresh : ∀ j ∈ js, j.1 ∉ seen

def ReadsMembers (fields : List (String × Shape ρ)) (ms : List (Literal × Tree)) : Prop :=
  ∀ (seen : List String) (first : Bool) (depth steps : Nat) (s rest tail : List Char) (js : List (String × Json)),
    AreMembers first ms s → 3 * s.length ≤ steps →
      (readMembers v fields seen first depth (s ++ rest) steps = .ok (js, tail) ↔
        tail = rest ∧ Say v fields depth seen ms js)

def ReadsFields (fields : List (String × Shape ρ)) (es : List Tree) : Prop :=
  ∀ (i depth steps : Nat) (s rest tail : List Char) (js : List (String × Json)), AreElements (i == 0) es s →
    3 * s.length ≤ steps →
      (readFields v fields i depth (s ++ rest) steps = .ok (js, tail) ↔
        tail = rest ∧ (∀ part ∈ fields.zipWith (fun field e => (field.2, e)) es, part.2.Fits v part.1 depth) ∧
          readFields? v fields es = some js)

end Laws

section Any

variable {v : Vocabulary ρ} {shape : Shape ρ} {fields : List (String × Shape ρ)} {depth m : Nat}
  {gap s rest tail : List Char} {j : Json} {t : Tree}

theorem IsText.length_pos (h : t.IsText s) : 0 < s.length := by
  obtain ⟨c, tail, rfl, -⟩ := h.front
  exact Nat.succ_pos _

/-! ### Values -/

theorem reads_of_scalar (ht : t.isScalar = true)
    (h : ∀ (depth m : Nat) (gap s rest tail : List Char) (j : Json), t.IsText s → IsGap gap → Ends rest →
      (readValue v shape depth (gap ++ (s ++ rest)) (m + 1) = .ok (j, tail) ↔ tail = rest ∧ t.read? v shape = some j)) :
    t.Reads v shape := by
  intro depth steps gap s rest tail j hs hg hr hsteps
  have hlength := hs.length_pos
  obtain ⟨m, rfl⟩ : ∃ m, steps = m + 1 := ⟨steps - 1, by omega⟩
  rw [h depth m gap s rest tail j hs hg hr]
  simp [Fits.scalar ht]

/-- Where `null` may stand too, the same is read as where it may not, but for `null`. -/
theorem Reads.optional {inner : Shape ρ} (hinner : inner.layers = 0) (h : t.Reads v inner) :
    t.Reads v (.optional inner) := by
  intro depth steps gap s rest tail j hs hg hr hsteps
  have hlength := hs.length_pos
  obtain ⟨m, rfl⟩ : ∃ m, steps = m + 1 := ⟨steps - 1, by omega⟩
  have hlayers : (Shape.optional inner).layers = inner.layers + 1 := rfl
  have hvalue := h depth m [] s rest tail j hs .nil hr (by rw [List.length_nil]; omega)
  rw [List.nil_append] at hvalue
  have hfits : t.Fits v (.optional inner) depth ↔ t.Fits v inner depth := by
    rw [fits_iff, fits_iff]
    cases t <;> rfl
  rw [readValue_optional_eq_ok_iff, hs.skipSpaces hg _, hs.null_iff, hfits]
  by_cases hnull : t = .null
  · subst hnull
    obtain rfl := hs
    simp [read?, Fits.scalar (t := .null) rfl, and_comm, eq_comm]
  · have hfront : (s ++ rest).head? ≠ some 'n' := by
      intro hhead
      obtain ⟨more, hmore⟩ := List.head?_eq_some_iff.mp hhead
      exact hnull (hs.eq_null hmore)
    have hread : t.read? v (.optional inner) = t.read? v inner := by
      cases t <;> first | rfl | exact (hnull rfl).elim
    simp only [hnull, false_and, and_false, false_or, exists_eq_left', hfront, ne_eq, not_false_eq_true, true_and,
      hvalue, hread]

theorem Reads.of_plain (h : ∀ plain : Shape ρ, plain.layers = 0 → plain.isFlat = true → t.Reads v plain)
    (hshape : shape.isFlat = true) : t.Reads v shape := by
  cases shape with
  | optional inner =>
    have hinner : inner.layers = 0 ∧ inner.isFlat = true := by simpa [Shape.isFlat] using hshape
    exact Reads.optional hinner.1 (h inner hinner.1 hinner.2)
  | text | flag | count | word | any | list | table | record => exact h _ rfl hshape

theorem say_iff {ms : List (Literal × Tree)} {js : List (String × Json)} : Say v fields depth [] ms js ↔
    (∀ part ∈ ms.filterMap (known? fields), part.2.Fits v part.1 depth) ∧ readMembers? v fields ms = some js := by
  constructor
  · exact fun h => ⟨h.fits, h.read⟩
  · rintro ⟨hfits, hread⟩
    exact ⟨hfits, hread, by simp⟩

theorem bracketed_iff {α : Type} {f : α → Json} {P F : Prop} {o : Option α} {R : α → Prop} (D : Prop)
    (h : ∀ a, R a ↔ P ∧ F ∧ o = some a) : (∃ a, f a = j ∧ D ∧ R a) ↔ P ∧ (D ∧ F) ∧ o.map f = some j := by
  simp only [h, Option.map_eq_some_iff]
  constructor
  · rintro ⟨a, hj, hd, hp, hf, ho⟩
    exact ⟨hp, ⟨hd, hf⟩, a, ho, hj⟩
  · rintro ⟨hp, ⟨hd, hf⟩, a, ho, hj⟩
    exact ⟨a, hj, hd, hp, hf, ho⟩

theorem reads_array {es : List Tree} (hall : ∀ element : Shape ρ, element.isFlat = true → ReadsAll v element es)
    (hfields : ∀ name, ReadsFields v (v.members name) es) (hshape : shape.layers = 0) (hflat : shape.isFlat = true) :
    (array es).Reads v shape := by
  intro depth steps gap s rest tail j hs hg hr hsteps
  obtain ⟨body, rfl, hbody⟩ := hs
  rw [List.length_cons] at hsteps
  obtain ⟨m, rfl⟩ : ∃ m, steps = m + 1 := ⟨steps - 1, by omega⟩
  have hspaces : skipSpaces (gap ++ ('[' :: body ++ rest)) = '[' :: (body ++ rest) := skipSpaces_gap hg (by decide)
  have hscalar : isScalar (array es) = false := rfl
  rw [fits_iff, hscalar]
  simp only [Bool.false_eq_true, false_or]
  cases shape with
  | optional => cases hshape
  | any =>
    have hiff := bracketed_iff (f := Json.array) (j := j) (depth ≠ 0) fun js =>
      hall .any rfl 0 (depth - 1) m body rest tail js hbody (by omega)
    simpa only [readValue_any_list hspaces, read?, parts, Shape.plain, List.forall_mem_map] using hiff
  | list element =>
    have hiff := bracketed_iff (f := Json.array) (j := j) (depth ≠ 0) fun js =>
      hall element hflat 0 (depth - 1) m body rest tail js hbody (by omega)
    simpa only [readValue_list hspaces, read?, parts, Shape.plain, List.forall_mem_map] using hiff
  | record name =>
    have hiff := bracketed_iff (f := Json.object) (j := j) (depth ≠ 0) fun js =>
      hfields name 0 (depth - 1) m body rest tail js hbody (by omega)
    simpa only [readValue_record_list hspaces, read?, parts, Shape.plain] using hiff
  | text | flag | count | word | table =>
    exact iff_of_false (readValue_ne_ok hspaces rfl) (by simp [read?, Shape.plain])

theorem reads_object {ms : List (Literal × Tree)} (heach : ∀ value : Shape ρ, value.isFlat = true → ReadsEach v value ms)
    (hmembers : ∀ name, ReadsMembers v (v.members name) ms) (hshape : shape.layers = 0) (hflat : shape.isFlat = true) :
    (object ms).Reads v shape := by
  intro depth steps gap s rest tail j hs hg hr hsteps
  obtain ⟨body, rfl, hbody⟩ := hs
  rw [List.length_cons] at hsteps
  obtain ⟨m, rfl⟩ : ∃ m, steps = m + 1 := ⟨steps - 1, by omega⟩
  have hspaces : skipSpaces (gap ++ ('\x7b' :: body ++ rest)) = '\x7b' :: (body ++ rest) := skipSpaces_gap hg (by decide)
  have hscalar : isScalar (object ms) = false := rfl
  rw [fits_iff, hscalar]
  simp only [Bool.false_eq_true, false_or]
  cases shape with
  | optional => cases hshape
  | word =>
    rw [readWord_object hspaces, readWordObject_text hbody]
    simp [read?, parts, Shape.plain, and_left_comm]
  | any =>
    have hiff := bracketed_iff (f := Json.object) (j := j) (depth ≠ 0) fun js =>
      heach .any rfl true (depth - 1) m body rest tail js hbody (by omega)
    simpa only [readValue_any_object hspaces, read?, parts, Shape.plain, List.forall_mem_map] using hiff
  | table value =>
    have hiff := bracketed_iff (f := Json.object) (j := j) (depth ≠ 0) fun js =>
      heach value hflat true (depth - 1) m body rest tail js hbody (by omega)
    simpa only [readValue_table hspaces, read?, parts, Shape.plain, List.forall_mem_map] using hiff
  | record name =>
    have hread (js : List (String × Json)) :
        readMembers v (v.members name) [] true (depth - 1) (body ++ rest) m = .ok (js, tail) ↔
          tail = rest ∧ (∀ part ∈ ms.filterMap (known? (v.members name)), part.2.Fits v part.1 (depth - 1)) ∧
            readMembers? v (v.members name) ms = some js := by
      rw [hmembers name [] true (depth - 1) m body rest tail js hbody (by omega), say_iff]
    have hiff := bracketed_iff (f := Json.object) (j := j) (depth ≠ 0) hread
    simpa only [readValue_record_object hspaces, read?, parts, Shape.plain] using hiff
  | text | flag | count | list =>
    exact iff_of_false (readValue_ne_ok hspaces rfl) (by simp [read?, Shape.plain])

/-! ### Lists and objects -/

theorem readsAll_nil : ReadsAll v shape [] := by
  intro i depth steps s rest tail js hs hsteps
  obtain ⟨gap, hg, rfl⟩ := hs
  rw [List.length_append, List.length_singleton] at hsteps
  obtain ⟨m, rfl⟩ : ∃ m, steps = m + 1 := ⟨steps - 1, by omega⟩
  rw [List.append_assoc, List.singleton_append, readElements_eq_ok_iff, nextElement_close hg]
  simp [readAll?, and_comm, eq_comm]

/-- The value of a part, where something follows it that ends it. -/
theorem Reads.part (h : t.Reads v shape) (hflat : shape.isFlat = true) (ht : t.IsText s) (hg : IsGap gap)
    (hr : Ends rest) (depth steps : Nat) (hsteps : 3 * (gap.length + s.length) ≤ steps + 1) (j : Json)
    (tail : List Char) : readValue v shape depth (gap ++ (s ++ rest)) steps = .ok (j, tail) ↔
      tail = rest ∧ t.Fits v shape depth ∧ t.read? v shape = some j := by
  have hlayers := Shape.layers_le_one hflat
  exact h depth steps gap s rest tail j ht hg hr (by omega)

theorem readsAll_cons {es : List Tree} (hflat : shape.isFlat = true) (ht : t.Reads v shape) (hes : ReadsAll v shape es) :
    ReadsAll v shape (t :: es) := by
  intro i depth steps s rest tail js hs hsteps
  obtain ⟨lead, text, more, hl, htext, hmore, rfl⟩ := hs
  have hlength := htext.length_pos
  simp only [List.length_append] at hsteps
  obtain ⟨m, rfl⟩ : ∃ m, steps = m + 1 := ⟨steps - 1, by omega⟩
  have hvalue := ht.part hflat htext .nil (ends_elements hmore rest) depth m (by rw [List.length_nil]; omega)
  have hothers (js : List Json) := hes (i + 1) depth m more rest tail js hmore (by omega)
  rw [List.append_assoc, List.append_assoc, readElements_eq_ok_iff, nextElement_lead hl (htext.begins _)]
  constructor
  · rintro (⟨-, hend⟩ | ⟨j, js, rfl, begun, hbegun, middle, hread, hrest⟩)
    · cases hend
    · obtain rfl := (Prod.mk.inj (Except.ok.inj hbegun)).2
      obtain ⟨rfl, hfits, hj⟩ := (hvalue _ _).mp hread
      obtain ⟨htail, hall, hjs⟩ := (hothers js).mp hrest
      exact ⟨htail, List.forall_mem_cons.mpr ⟨hfits, hall⟩, by rw [readAll?, hj, Option.bind_some, hjs, Option.map_some]⟩
  · rintro ⟨rfl, hall, hread⟩
    obtain ⟨hfits, hall⟩ := List.forall_mem_cons.mp hall
    obtain ⟨j, hj, hread⟩ := Option.bind_eq_some_iff.mp hread
    obtain ⟨js, hjs, rfl⟩ := Option.map_eq_some_iff.mp hread
    exact .inr ⟨j, js, rfl, _, rfl, _, (hvalue _ _).mpr ⟨rfl, hfits, hj⟩, (hothers js).mpr ⟨rfl, hall, hjs⟩⟩

theorem readsEach_nil : ReadsEach v shape [] := by
  intro first depth steps s rest tail js hs hsteps
  obtain ⟨gap, hg, rfl⟩ := hs
  rw [List.length_append, List.length_singleton] at hsteps
  obtain ⟨m, rfl⟩ : ∃ m, steps = m + 1 := ⟨steps - 1, by omega⟩
  rw [List.append_assoc, List.singleton_append, readTable_eq_ok_iff, nextKey_close hg]
  simp [readEach?, and_comm, eq_comm]

theorem readsEach_cons {l : Literal} {ms : List (Literal × Tree)} (hflat : shape.isFlat = true) (ht : t.Reads v shape)
    (hms : ReadsEach v shape ms) : ReadsEach v shape ((l, t) :: ms) := by
  intro first depth steps s rest tail js hs hsteps
  obtain ⟨lead, colon, gap, text, more, hl, hcolon, hg, htext, hmore, rfl⟩ := hs
  have hlength := htext.length_pos
  simp only [List.length_append, List.length_cons] at hsteps
  obtain ⟨m, rfl⟩ : ∃ m, steps = m + 1 := ⟨steps - 1, by omega⟩
  have hvalue := ht.part hflat htext hg (ends_members hmore rest) depth m (by omega)
  have hothers (js : List (String × Json)) := hms false depth m more rest tail js hmore (by omega)
  simp only [List.append_assoc, List.cons_append]
  rw [readTable_eq_ok_iff]
  constructor
  · rintro (⟨-, hend⟩ | ⟨key, j, js, rfl, behind, hkey, begun, hbegun, middle, hread, hrest⟩)
    · exact (nextKey_lead_ne_none hl l hend).elim
    · obtain ⟨rfl, hname⟩ := (nextKey_lead hl l).mp hkey
      rw [expectColon_gap hcolon] at hbegun
      obtain rfl := Except.ok.inj hbegun
      obtain ⟨rfl, hfits, hj⟩ := (hvalue _ _).mp hread
      obtain ⟨htail, hall, hjs⟩ := (hothers js).mp hrest
      refine ⟨htail, List.forall_mem_cons.mpr ⟨hfits, hall⟩, ?_⟩
      rw [readEach?, hname, Option.bind_some, hj, Option.bind_some, hjs, Option.map_some]
  · rintro ⟨rfl, hall, hread⟩
    obtain ⟨hfits, hall⟩ := List.forall_mem_cons.mp hall
    obtain ⟨key, hname, hread⟩ := Option.bind_eq_some_iff.mp hread
    obtain ⟨j, hj, hread⟩ := Option.bind_eq_some_iff.mp hread
    obtain ⟨js, hjs, rfl⟩ := Option.map_eq_some_iff.mp hread
    exact .inr ⟨key, j, js, rfl, _, (nextKey_lead hl l).mpr ⟨rfl, hname⟩, _, expectColon_gap hcolon, _,
      (hvalue _ _).mpr ⟨rfl, hfits, hj⟩, (hothers js).mpr ⟨rfl, hall, hjs⟩⟩

theorem readsMembers_nil : ReadsMembers v fields [] := by
  intro seen first depth steps s rest tail js hs hsteps
  obtain ⟨gap, hg, rfl⟩ := hs
  rw [List.length_append, List.length_singleton] at hsteps
  obtain ⟨m, rfl⟩ : ∃ m, steps = m + 1 := ⟨steps - 1, by omega⟩
  rw [List.append_assoc, List.singleton_append, readMembers_eq_ok_iff, nextKey_close hg]
  constructor
  · rintro (⟨rfl, hend⟩ | ⟨key, -, colon, hkey, -⟩ | ⟨key, shape, -, j, js, -, colon, hkey, -⟩)
    · obtain rfl := (Prod.mk.inj (Except.ok.inj hend)).2
      exact ⟨rfl, by simp, rfl, by simp⟩
    · cases hkey
    · cases hkey
  · rintro ⟨rfl, -, hjs, -⟩
    exact .inl ⟨Option.some.inj hjs, rfl⟩

section Lead

variable {first : Bool} {lead colon : List Char} {l : Literal} {key : String} {seen : List String}
  {js : List (String × Json)} {ms : List (Literal × Tree)}

theorem readMembers_unnamed (hl : Leads first lead) (hname : l.value? = none) :
    readMembers v fields seen first depth (lead ++ (l.quoted ++ s)) (m + 1) ≠ .ok (js, tail) := by
  rw [Ne, readMembers_eq_ok_iff]
  rintro (⟨-, hend⟩ | ⟨key, -, behind, hkey, -⟩ | ⟨key, shape, -, j, js, -, behind, hkey, -⟩)
  · exact nextKey_lead_ne_none hl l hend
  · obtain ⟨-, hkey⟩ := (nextKey_lead hl l).mp hkey
    rw [hname] at hkey
    cases hkey
  · obtain ⟨-, hkey⟩ := (nextKey_lead hl l).mp hkey
    rw [hname] at hkey
    cases hkey

theorem readMembers_named (hl : Leads first lead) (hcolon : IsGap colon) (hname : l.value? = some key) :
    readMembers v fields seen first depth (lead ++ (l.quoted ++ (colon ++ ':' :: s))) (m + 1) = .ok (js, tail) ↔
      (memberShape? key fields = none ∧
        ∃ middle, skipValue s = .ok middle ∧ readMembers v fields seen false depth middle m = .ok (js, tail)) ∨
      ∃ shape, memberShape? key fields = some shape ∧ key ∉ seen ∧ ∃ j more, (key, j) :: more = js ∧
        ∃ middle, readValue v shape depth s m = .ok (j, middle) ∧
          readMembers v fields (key :: seen) false depth middle m = .ok (more, tail) := by
  have hkey {behind : List Char} {key' : String} (h : nextKey first (lead ++ (l.quoted ++ (colon ++ ':' :: s))) =
      .ok (some key', behind)) : key' = key ∧ expectColon behind = .ok s := by
    obtain ⟨rfl, hname'⟩ := (nextKey_lead hl l).mp h
    exact ⟨Option.some.inj (hname'.symm.trans hname), expectColon_gap hcolon⟩
  have hlead : nextKey first (lead ++ (l.quoted ++ (colon ++ ':' :: s))) = .ok (some key, colon ++ ':' :: s) :=
    (nextKey_lead hl l).mpr ⟨rfl, hname⟩
  rw [readMembers_eq_ok_iff]
  constructor
  · rintro (⟨-, hend⟩ | ⟨key', hk, behind, hnext, begun, hbegun, hvalue⟩ |
      ⟨key', shape, ⟨hk, hnew⟩, j, more, hjs, behind, hnext, begun, hbegun, hvalue⟩)
    · exact (nextKey_lead_ne_none hl l hend).elim
    · obtain ⟨rfl, hbehind⟩ := hkey hnext
      obtain rfl := Except.ok.inj (hbehind.symm.trans hbegun)
      exact .inl ⟨hk, hvalue⟩
    · obtain ⟨rfl, hbehind⟩ := hkey hnext
      obtain rfl := Except.ok.inj (hbehind.symm.trans hbegun)
      exact .inr ⟨shape, hk, hnew, j, more, hjs, hvalue⟩
  · rintro (⟨hk, hvalue⟩ | ⟨shape, hk, hnew, j, more, hjs, hvalue⟩)
    · exact .inr (.inl ⟨key, hk, _, hlead, _, expectColon_gap hcolon, hvalue⟩)
    · exact .inr (.inr ⟨key, shape, ⟨hk, hnew⟩, j, more, hjs, _, hlead, _, expectColon_gap hcolon, hvalue⟩)

theorem say_unknown (hname : l.value? = some key) (hk : memberShape? key fields = none) :
    Say v fields depth seen ((l, t) :: ms) js ↔ Say v fields depth seen ms js := by
  have hknown : known? fields (l, t) = none := by rw [known?, hname, Option.bind_some, hk, Option.map_none]
  constructor
  · rintro ⟨hfits, hread, hfresh⟩
    rw [List.filterMap_cons_none hknown] at hfits
    rw [readMembers?_unknown hname hk] at hread
    exact ⟨hfits, hread, hfresh⟩
  · rintro ⟨hfits, hread, hfresh⟩
    rw [← List.filterMap_cons_none hknown] at hfits
    rw [← readMembers?_unknown hname hk] at hread
    exact ⟨hfits, hread, hfresh⟩

theorem say_known (hname : l.value? = some key) (hk : memberShape? key fields = some shape) :
    Say v fields depth seen ((l, t) :: ms) js ↔ key ∉ seen ∧ ∃ j more, (key, j) :: more = js ∧
      (t.Fits v shape depth ∧ t.read? v shape = some j) ∧ Say v fields depth (key :: seen) ms more := by
  have hknown : known? fields (l, t) = some (shape, t) := by
    rw [known?, hname, Option.bind_some, hk, Option.map_some]
  constructor
  · rintro ⟨hfits, hread, hfresh⟩
    rw [List.filterMap_cons_some hknown] at hfits
    rw [readMembers?_known hname hk] at hread
    obtain ⟨hfirst, hfits⟩ := List.forall_mem_cons.mp hfits
    obtain ⟨j, hj, hread⟩ := Option.bind_eq_some_iff.mp hread
    obtain ⟨more, hmore, hread⟩ := Option.bind_eq_some_iff.mp hread
    split at hread
    · cases hread
    · next hkeys =>
      obtain rfl := Option.some.inj hread
      obtain ⟨hnew, hfresh⟩ := List.forall_mem_cons.mp hfresh
      refine ⟨hnew, j, more, rfl, ⟨hfirst, hj⟩, hfits, hmore, fun e he => ?_⟩
      rw [List.mem_cons, not_or]
      exact ⟨fun heq => hkeys (List.mem_map.mpr ⟨e, he, heq⟩), hfresh e he⟩
  · rintro ⟨hnew, j, more, rfl, ⟨hfirst, hj⟩, hfits, hmore, hfresh⟩
    simp only [List.mem_cons, not_or] at hfresh
    have hkeys : key ∉ more.map (·.1) := by
      intro hmem
      obtain ⟨e, he, heq⟩ := List.mem_map.mp hmem
      exact (hfresh e he).1 heq
    refine ⟨?_, ?_, List.forall_mem_cons.mpr ⟨hnew, fun e he => (hfresh e he).2⟩⟩
    · rw [List.filterMap_cons_some hknown]
      exact List.forall_mem_cons.mpr ⟨hfirst, hfits⟩
    · rw [readMembers?_known hname hk, hj, Option.bind_some, hmore, Option.bind_some, if_neg hkeys]

theorem readsMembers_cons (hflat : ∀ field ∈ fields, field.2.isFlat = true)
    (ht : ∀ shape : Shape ρ, shape.isFlat = true → t.Reads v shape) (hms : ReadsMembers v fields ms) :
    ReadsMembers v fields ((l, t) :: ms) := by
  intro seen first depth steps s rest tail js hs hsteps
  obtain ⟨lead, colon, gap, text, more, hl, hcolon, hg, htext, hmore, rfl⟩ := hs
  have hlength := htext.length_pos
  simp only [List.length_append, List.length_cons] at hsteps
  obtain ⟨m, rfl⟩ : ∃ m, steps = m + 1 := ⟨steps - 1, by omega⟩
  have hends := ends_members hmore rest
  have hothers (seen : List String) (js : List (String × Json)) :=
    hms seen false depth m more rest tail js hmore (by omega)
  simp only [List.append_assoc, List.cons_append]
  cases hname : l.value? with
  | none =>
    refine iff_of_false (readMembers_unnamed hl hname) ?_
    rintro ⟨-, hsay⟩
    have hread := hsay.read
    rw [readMembers?, hname] at hread
    cases hread
  | some key =>
    rw [readMembers_named hl hcolon hname]
    cases hk : memberShape? key fields with
    | none =>
      rw [say_unknown hname hk, ← hothers seen js, skipValue_text htext hg hends]
      simp
    | some shape =>
      have hshape : shape.isFlat = true := hflat _ (mem_of_memberShape? hk)
      have hvalue := (ht shape hshape).part hshape htext hg hends depth m (by omega)
      rw [say_known hname hk]
      constructor
      · rintro (⟨hnone, -⟩ | ⟨_, hshape', hnew, j, js, rfl, middle, hread, hrest⟩)
        · cases hnone
        · obtain rfl := Option.some.inj hshape'
          obtain ⟨rfl, hsays⟩ := (hvalue _ _).mp hread
          obtain ⟨htail, hsay⟩ := (hothers (key :: seen) js).mp hrest
          exact ⟨htail, hnew, j, js, rfl, hsays, hsay⟩
      · rintro ⟨htail, hnew, j, js, rfl, hsays, hsay⟩
        exact .inr ⟨shape, rfl, hnew, j, js, rfl, _, (hvalue _ _).mpr ⟨rfl, hsays⟩,
          (hothers (key :: seen) js).mpr ⟨htail, hsay⟩⟩

end Lead

theorem readsFields_nil : ReadsFields v fields [] := by
  intro i depth steps s rest tail js hs hsteps
  obtain ⟨gap, hg, rfl⟩ := hs
  rw [List.length_append, List.length_singleton] at hsteps
  obtain ⟨m, rfl⟩ : ∃ m, steps = m + 1 := ⟨steps - 1, by omega⟩
  rw [List.append_assoc, List.singleton_append]
  cases fields with
  | nil =>
    rw [readFields_nil_eq_ok_iff, endList_eq_ok_iff, skipSpaces_gap hg (by decide)]
    simp [readFields?, and_comm, eq_comm]
  | cons field fields =>
    rw [readFields_cons_eq_ok_iff, nextElement_close hg]
    simp [readFields?, and_comm, eq_comm]

theorem readsFields_cons {es : List Tree} (hflat : ∀ field ∈ fields, field.2.isFlat = true)
    (ht : ∀ shape : Shape ρ, shape.isFlat = true → t.Reads v shape)
    (hes : ∀ others : List (String × Shape ρ), (∀ field ∈ others, field.2.isFlat = true) → ReadsFields v others es) :
    ReadsFields v fields (t :: es) := by
  intro i depth steps s rest tail js hs hsteps
  obtain ⟨lead, text, more, hl, htext, hmore, rfl⟩ := hs
  have hlength := htext.length_pos
  simp only [List.length_append] at hsteps
  obtain ⟨m, rfl⟩ : ∃ m, steps = m + 1 := ⟨steps - 1, by omega⟩
  rw [List.append_assoc, List.append_assoc]
  cases fields with
  | nil =>
    -- A list has no more elements than the record has members.
    have hclose : skipSpaces (lead ++ (text ++ (more ++ rest))) ≠ ']' :: tail := by
      generalize (i == 0) = first at hl
      cases hl with
      | first hg =>
        obtain ⟨c, behind, hs, hspace, hne, -⟩ := htext.begins (more ++ rest)
        rw [hs, skipSpaces_gap hg hspace]
        simp [hne]
      | next hg _ =>
        rw [List.append_assoc, List.cons_append, skipSpaces_gap hg (by decide)]
        simp
    rw [readFields_nil_eq_ok_iff, endList_eq_ok_iff]
    simp [hclose, readFields?]
  | cons field others =>
    obtain ⟨name, shape⟩ := field
    obtain ⟨hshape, hothersFlat⟩ := List.forall_mem_cons.mp hflat
    have hvalue := (ht shape hshape).part hshape htext .nil (ends_elements hmore rest) depth m
      (by rw [List.length_nil]; omega)
    have hothers (js : List (String × Json)) := hes others hothersFlat (i + 1) depth m more rest tail js hmore (by omega)
    rw [readFields_cons_eq_ok_iff, nextElement_lead hl (htext.begins _)]
    constructor
    · rintro (⟨-, hend⟩ | ⟨j, js, rfl, begun, hbegun, middle, hread, hrest⟩)
      · cases hend
      · obtain rfl := (Prod.mk.inj (Except.ok.inj hbegun)).2
        obtain ⟨rfl, hfits, hj⟩ := (hvalue _ _).mp hread
        obtain ⟨htail, hall, hjs⟩ := (hothers js).mp hrest
        refine ⟨htail, List.forall_mem_cons.mpr ⟨hfits, hall⟩, ?_⟩
        rw [readFields?, hj, Option.bind_some, hjs, Option.map_some]
    · rintro ⟨rfl, hall, hread⟩
      obtain ⟨hfits, hall⟩ := List.forall_mem_cons.mp hall
      obtain ⟨j, hj, hread⟩ := Option.bind_eq_some_iff.mp hread
      obtain ⟨js, hjs, rfl⟩ := Option.map_eq_some_iff.mp hread
      exact .inr ⟨j, js, rfl, _, rfl, _, (hvalue _ _).mpr ⟨rfl, hfits, hj⟩, (hothers js).mpr ⟨rfl, hall, hjs⟩⟩

/-! ### Trees -/

mutual

/-- A reader gets from the text of a tree what the tree says at the shape. -/
theorem reads_plain (hv : v.IsFlat) : ∀ (t : Tree) (shape : Shape ρ), shape.layers = 0 → shape.isFlat = true →
    t.Reads v shape
  | null, shape, hshape, _ => reads_of_scalar rfl fun _ _ _ _ _ _ _ hs hg _ => by
      obtain rfl := hs
      exact readValue_null hshape (skipSpaces_gap hg (by decide))
  | bool b, shape, hshape, _ => reads_of_scalar rfl fun _ _ _ _ _ _ _ hs hg _ =>
      readValue_bool hshape hs (hs.skipSpaces hg _)
  | number n, shape, hshape, _ => reads_of_scalar rfl fun _ _ _ _ rest _ _ hs hg hr => by
      have hspaces := hs.skipSpaces hg rest
      obtain rfl := hs
      exact readValue_number n hshape hspaces hr
  | string l, shape, hshape, _ => reads_of_scalar rfl fun _ _ _ _ rest _ _ hs hg _ => by
      have hspaces := hs.skipSpaces hg rest
      obtain rfl := hs
      exact readValue_string l hshape (hspaces.trans (by simp [Literal.quoted]))
  | array es, shape, hshape, hflat =>
    reads_array (readsAll hv es) (fun name => readsFields hv es (v.members name) (hv name)) hshape hflat
  | object ms, shape, hshape, hflat =>
    reads_object (readsEach hv ms) (fun name => readsMembers hv ms (v.members name) (hv name)) hshape hflat
termination_by structural t => t

theorem readsAll (hv : v.IsFlat) : ∀ (es : List Tree) (shape : Shape ρ), shape.isFlat = true → ReadsAll v shape es
  | [], _, _ => readsAll_nil
  | e :: es, shape, hflat => readsAll_cons hflat (.of_plain (reads_plain hv e) hflat) (readsAll hv es shape hflat)
termination_by structural es => es

theorem readsEach (hv : v.IsFlat) : ∀ (ms : List (Literal × Tree)) (shape : Shape ρ), shape.isFlat = true →
    ReadsEach v shape ms
  | [], _, _ => readsEach_nil
  | (_, t) :: ms, shape, hflat => readsEach_cons hflat (.of_plain (reads_plain hv t) hflat) (readsEach hv ms shape hflat)
termination_by structural ms => ms

theorem readsMembers (hv : v.IsFlat) : ∀ (ms : List (Literal × Tree)) (fields : List (String × Shape ρ)),
    (∀ field ∈ fields, field.2.isFlat = true) → ReadsMembers v fields ms
  | [], _, _ => readsMembers_nil
  | (_, t) :: ms, fields, hflat =>
    readsMembers_cons hflat (fun _ hshape => .of_plain (reads_plain hv t) hshape) (readsMembers hv ms fields hflat)
termination_by structural ms => ms

theorem readsFields (hv : v.IsFlat) : ∀ (es : List Tree) (fields : List (String × Shape ρ)),
    (∀ field ∈ fields, field.2.isFlat = true) → ReadsFields v fields es
  | [], _, _ => readsFields_nil
  | e :: es, _, hflat =>
    readsFields_cons hflat (fun _ hshape => .of_plain (reads_plain hv e) hshape) (readsFields hv es)
termination_by structural es => es

end

/-- A text that holds a tree is read just when the tree fits the shape and the room that there is. -/
theorem read_eq_ok_iff (hv : v.IsFlat) (hflat : shape.isFlat = true) {input : String} (h : t.IsWritten input) :
    Json.read v shape input = .ok j ↔ t.Fits v shape maxDepth ∧ t.read? v shape = some j := by
  obtain ⟨before, text, after, hbefore, htext, hafter, hinput⟩ := h
  have hends : Ends after := by simpa using ends_gap hafter .nil
  have hsteps : 3 * (before.length + text.length) + shape.layers ≤ 3 * input.toList.length + 3 + 2 := by
    have hlayers := Shape.layers_le_one hflat
    rw [hinput, List.length_append, List.length_append]
    omega
  have hfront (j : Json) (tail : List Char) : readFront v shape input.toList = .ok (j, tail) ↔
      tail = after ∧ t.Fits v shape maxDepth ∧ t.read? v shape = some j := by
    have hvalue := Reads.of_plain (reads_plain hv t) hflat maxDepth _ before text after tail j htext hbefore hends hsteps
    rwa [← hinput] at hvalue
  constructor
  · intro hread
    unfold Json.read at hread
    split at hread
    · next value tail hvalue =>
      obtain rfl := Except.ok.inj hread
      exact ((hfront value tail).mp hvalue).2
    · cases hread
  · intro hsays
    rw [Json.read, (hfront j after).mpr ⟨rfl, hsays⟩]

end Any

end Tree

end ModuleScaffold.Json
