import ModuleScaffold.Proofs.Json.Document
import ModuleScaffold.Proofs.Json.Literal

/-! # Documents as trees

A tree is a document without the blanks between its parts. Main statement: a value that is passed over is passed over to its
end, `skipValue_text`, however its parts are spaced and however deep it is nested. -/

namespace ModuleScaffold.Json

open Passage

/-! ## Trees and their texts -/

/-- A document; strings and numbers are as they are written. -/
inductive Tree where
  | null
  | bool (b : Bool)
  | number (n : Numeral)
  | string (l : Literal)
  | array (elements : List Tree)
  | object (members : List (Literal × Tree))

/-- Blanks between the parts of a document. -/
def IsGap (s : List Char) : Prop := ∀ c ∈ s, isSpace c = true

/-- What stands before an element or a member: a comma among blanks, and only blanks before the first one. -/
inductive Leads : Bool → List Char → Prop
  | first {gap : List Char} (h : IsGap gap) : Leads true gap
  | next {gap more : List Char} (h : IsGap gap) (hm : IsGap more) : Leads false (gap ++ ',' :: more)

namespace Tree

mutual

/-- A text of a tree. -/
def IsText : Tree → List Char → Prop
  | null, s => s = ['n', 'u', 'l', 'l']
  | bool true, s => s = ['t', 'r', 'u', 'e']
  | bool false, s => s = ['f', 'a', 'l', 's', 'e']
  | number n, s => s = n.chars
  | string l, s => s = l.quoted
  | array es, s => ∃ body, s = '[' :: body ∧ AreElements true es body
  | object ms, s => ∃ body, s = '\x7b' :: body ∧ AreMembers true ms body

/-- A text of the remaining elements of a list, and its end. -/
def AreElements : Bool → List Tree → List Char → Prop
  | _, [], s => ∃ gap, IsGap gap ∧ s = gap ++ [']']
  | first, e :: es, s => ∃ lead text rest, Leads first lead ∧ e.IsText text ∧ AreElements false es rest ∧
    s = lead ++ (text ++ rest)

/-- A text of the remaining members of an object, and its end. -/
def AreMembers : Bool → List (Literal × Tree) → List Char → Prop
  | _, [], s => ∃ gap, IsGap gap ∧ s = gap ++ ['\x7d']
  | first, (l, t) :: ms, s => ∃ lead colon gap text rest, Leads first lead ∧ IsGap colon ∧ IsGap gap ∧ t.IsText text ∧
    AreMembers false ms rest ∧ s = lead ++ (l.quoted ++ (colon ++ ':' :: (gap ++ (text ++ rest))))

end

/-- A text that holds a tree and blanks around it. -/
def IsWritten (t : Tree) (s : String) : Prop :=
  ∃ before text after, IsGap before ∧ t.IsText text ∧ IsGap after ∧ s.toList = before ++ (text ++ after)

mutual

/-- The text of a tree without blanks. -/
def compact : Tree → List Char
  | null => ['n', 'u', 'l', 'l']
  | bool true => ['t', 'r', 'u', 'e']
  | bool false => ['f', 'a', 'l', 's', 'e']
  | number n => n.chars
  | string l => l.quoted
  | array es => '[' :: compactElements true es
  | object ms => '\x7b' :: compactMembers true ms

/-- The text of the remaining elements of a list without blanks. -/
def compactElements : Bool → List Tree → List Char
  | _, [] => [']']
  | true, e :: es => e.compact ++ compactElements false es
  | false, e :: es => ',' :: (e.compact ++ compactElements false es)

/-- The text of the remaining members of an object without blanks. -/
def compactMembers : Bool → List (Literal × Tree) → List Char
  | _, [] => ['\x7d']
  | true, (l, t) :: ms => l.quoted ++ ':' :: (t.compact ++ compactMembers false ms)
  | false, (l, t) :: ms => ',' :: (l.quoted ++ ':' :: (t.compact ++ compactMembers false ms))

end

end Tree

section Gaps

variable {gap lead s rest : List Char} {c : Char} {first : Bool}

theorem skipSpaces_gap (hg : IsGap gap) (hc : isSpace c = false) : skipSpaces (gap ++ c :: s) = c :: s := by
  rw [skipSpaces, List.dropWhile_append_of_pos hg, List.dropWhile_cons_of_neg (by simp [hc])]

theorem IsGap.nil : IsGap [] := by simp [IsGap]

/-- A text goes on with something other than a blank, a comma or a closing bracket. -/
def Begins (s : List Char) : Prop :=
  ∃ c tail, s = c :: tail ∧ isSpace c = false ∧ c ≠ ']' ∧ c ≠ '\x7d'

theorem Literal.begins (l : Literal) (rest : List Char) : Begins (l.quoted ++ rest) :=
  ⟨'"', _, rfl, by decide, by decide, by decide⟩

theorem ends_of_isSpace (h : isSpace c = true) : Ends (c :: s) := by
  simp only [isSpace, Bool.or_eq_true, beq_iff_eq] at h
  rcases h with ((rfl | rfl) | rfl) | rfl <;> exact ⟨rfl, by simp, by simp, by simp⟩

theorem ends_gap (hg : IsGap gap) (hr : Ends rest) : Ends (gap ++ rest) := by
  cases gap with
  | nil => exact hr
  | cons c gap => exact ends_of_isSpace (hg c List.mem_cons_self)

theorem ends_mark (hg : IsGap gap) (hc : c ∈ [',', ']', '\x7d']) : Ends (gap ++ c :: rest) := by
  simp only [List.mem_cons, List.not_mem_nil, or_false] at hc
  refine ends_gap hg ?_
  rcases hc with rfl | rfl | rfl <;> exact ⟨by rfl, by simp, by simp, by simp⟩

theorem nextElement_lead (h : Leads first lead) (hs : Begins s) : nextElement first (lead ++ s) = .ok (some (), s) := by
  obtain ⟨c, tail, rfl, hspace, hclose, -⟩ := hs
  have hbegins : BeginsElement (c :: tail) := ⟨by simp, by simpa using hclose⟩
  cases h with
  | first hg => exact nextElement_eq_first_iff.mpr ⟨skipSpaces_gap hg hspace, hbegins⟩
  | next hg hm =>
    rw [List.append_assoc, List.cons_append]
    exact nextElement_eq_next_iff.mpr ⟨_, skipSpaces_gap hg (by decide), skipSpaces_gap hm hspace, hbegins⟩

theorem nextElement_close (hg : IsGap gap) : nextElement first (gap ++ ']' :: rest) = .ok (none, rest) :=
  nextElement_eq_end_iff.mpr (skipSpaces_gap hg (by decide))

theorem nextKey_close (hg : IsGap gap) : nextKey first (gap ++ '\x7d' :: rest) = .ok (none, rest) :=
  nextKey_eq_end_iff.mpr (skipSpaces_gap hg (by decide))

theorem expectColon_gap (hg : IsGap gap) : expectColon (gap ++ ':' :: rest) = .ok rest :=
  expectColon_eq_ok_iff.mpr (skipSpaces_gap hg (by decide))

theorem nextKey_lead_ne_none (h : Leads first lead) (l : Literal) {tail : List Char} :
    nextKey first (lead ++ (l.quoted ++ rest)) ≠ .ok (none, tail) := by
  rw [Ne, nextKey_eq_end_iff, Literal.quoted]
  cases h with
  | first hg => simp [skipSpaces_gap hg (c := '"') (by decide)]
  | next hg hm => simp [skipSpaces_gap hg (c := ',') (by decide)]

theorem nextKey_lead (h : Leads first lead) (l : Literal) {key : String} {tail : List Char} :
    nextKey first (lead ++ (l.quoted ++ rest)) = .ok (some key, tail) ↔ tail = rest ∧ l.value? = some key := by
  have hquoted : l.quoted ++ rest = '"' :: (l.chars ++ '"' :: rest) := by simp [Literal.quoted]
  rw [hquoted, ← l.exists_stringBody_iff]
  cases h with
  | first hg =>
    rw [nextKey_eq_first_iff]
    simp [skipSpaces_gap hg (c := '"') (by decide)]
  | next hg hm =>
    rw [nextKey_eq_next_iff, List.append_assoc, List.cons_append]
    simp [skipSpaces_gap hg (c := ',') (by decide), skipSpaces_gap hm (c := '"') (by decide)]

end Gaps

namespace Tree

mutual

theorem isText_compact : ∀ t : Tree, t.IsText t.compact
  | null => rfl
  | bool true => rfl
  | bool false => rfl
  | number _ => rfl
  | string _ => rfl
  | array es => ⟨_, rfl, areElements_compact es true⟩
  | object ms => ⟨_, rfl, areMembers_compact ms true⟩

theorem areElements_compact : ∀ (es : List Tree) (first : Bool), AreElements first es (compactElements first es)
  | [], _ => ⟨[], .nil, rfl⟩
  | e :: es, true => ⟨[], _, _, .first .nil, isText_compact e, areElements_compact es false, rfl⟩
  | e :: es, false => ⟨[','], _, _, .next .nil .nil, isText_compact e, areElements_compact es false, rfl⟩

theorem areMembers_compact : ∀ (ms : List (Literal × Tree)) (first : Bool), AreMembers first ms (compactMembers first ms)
  | [], _ => ⟨[], .nil, rfl⟩
  | (_, t) :: ms, true =>
    ⟨[], [], [], _, _, .first .nil, .nil, .nil, isText_compact t, areMembers_compact ms false, rfl⟩
  | (_, t) :: ms, false =>
    ⟨[','], [], [], _, _, .next .nil .nil, .nil, .nil, isText_compact t, areMembers_compact ms false, rfl⟩

end

theorem isWritten_compact (t : Tree) : t.IsWritten (String.ofList t.compact) :=
  ⟨[], t.compact, [], .nil, isText_compact t, .nil, by simp⟩

/-- The characters that a value may begin with. -/
def fronts : Tree → Char → Bool
  | null, c => c == 'n'
  | bool true, c => c == 't'
  | bool false, c => c == 'f'
  | number _, c => c == '-' || Text.isDigit c
  | string _, c => c == '"'
  | array _, c => c == '['
  | object _, c => c == '\x7b'

variable {t : Tree} {s gap rest : List Char} {c : Char}

theorem IsText.front (h : t.IsText s) : ∃ c tail, s = c :: tail ∧ t.fronts c = true := by
  cases t with
  | null => exact ⟨_, _, h, rfl⟩
  | bool b => cases b <;> exact ⟨_, _, h, rfl⟩
  | number n =>
    obtain ⟨c, tail, hs, hc⟩ := n.front
    exact ⟨c, tail, h.trans hs, hc⟩
  | string l => exact ⟨_, _, h, rfl⟩
  | array es =>
    obtain ⟨body, hs, -⟩ := h
    exact ⟨_, _, hs, rfl⟩
  | object ms =>
    obtain ⟨body, hs, -⟩ := h
    exact ⟨_, _, hs, rfl⟩

/-- Blanks and the marks between values. -/
def separators : List Char := [' ', '\n', '\t', '\r', ',', ':', ']', '\x7d']

theorem not_fronts (hc : c ∈ separators) : t.fronts c = false := by
  simp only [separators, List.mem_cons, List.not_mem_nil, or_false] at hc
  cases t with
  | bool b => cases b <;> rcases hc with rfl | rfl | rfl | rfl | rfl | rfl | rfl | rfl <;> rfl
  | null | number | string | array | object => rcases hc with rfl | rfl | rfl | rfl | rfl | rfl | rfl | rfl <;> rfl

theorem IsText.begins (h : t.IsText s) (rest : List Char) : Begins (s ++ rest) := by
  obtain ⟨c, tail, rfl, hc⟩ := h.front
  have hne {d : Char} (hd : d ∈ separators) : c ≠ d := ne_of_holds hc (not_fronts hd)
  refine ⟨c, tail ++ rest, rfl, ?_, hne (by decide), hne (by decide)⟩
  simp [isSpace, hne (d := ' ') (by decide), hne (d := '\n') (by decide), hne (d := '\t') (by decide),
    hne (d := '\r') (by decide)]

theorem Leads.ends {lead : List Char} (h : Leads false lead) : Ends (lead ++ rest) := by
  cases h with
  | next hg hm =>
    rw [List.append_assoc]
    exact ends_mark hg (by decide)

theorem ends_elements {es : List Tree} (h : AreElements false es s) (rest : List Char) : Ends (s ++ rest) := by
  cases es with
  | nil =>
    obtain ⟨gap, hg, rfl⟩ := h
    rw [List.append_assoc]
    exact ends_mark hg (by decide)
  | cons e es =>
    obtain ⟨lead, text, more, hl, -, -, rfl⟩ := h
    rw [List.append_assoc]
    exact Leads.ends hl

theorem ends_members {ms : List (Literal × Tree)} (h : AreMembers false ms s) (rest : List Char) :
    Ends (s ++ rest) := by
  cases ms with
  | nil =>
    obtain ⟨gap, hg, rfl⟩ := h
    rw [List.append_assoc]
    exact ends_mark hg (by decide)
  | cons m ms =>
    obtain ⟨lead, colon, gap, text, more, hl, -, -, -, -, rfl⟩ := h
    rw [List.append_assoc]
    exact Leads.ends hl

theorem IsText.skipSpaces (h : t.IsText s) (hg : IsGap gap) (rest : List Char) :
    Json.skipSpaces (gap ++ (s ++ rest)) = s ++ rest := by
  obtain ⟨c, tail, hs, hspace, -⟩ := h.begins rest
  rw [hs, skipSpaces_gap hg hspace]

end Tree

/-! ## Passing over the text of a tree -/

/-- Goes on inside a frame that has just been opened, or behind one of its values. -/
def skipInside (first : Bool) (frame : Frame) (frames : List Frame) (s : List Char) (steps : Nat) :
    Except Fault (List Char) :=
  if first then skipOpened frame frames s steps else skipAfter (frame :: frames) s steps

section Frames

variable {frame : Frame} {frames : List Frame} {gap lead s rest out : List Char} {first : Bool} {m : Nat}

theorem skipInside_close (hg : IsGap gap) (h : skipAfter frames rest m = .ok out) :
    skipInside first frame frames (gap ++ frame.close :: rest) (m + 1) = .ok out := by
  have hspaces : skipSpaces (gap ++ frame.close :: rest) = frame.close :: rest :=
    skipSpaces_gap hg (by cases frame <;> decide)
  cases first with
  | true => exact skipOpened_eq_ok_iff.mpr (.inl ⟨rest, hspaces, h⟩)
  | false => exact skipAfter_eq_ok_iff.mpr (.inr ⟨rest, hspaces, h⟩)

theorem skipInside_lead (hl : Leads first lead) (hs : Begins s)
    (h : ∀ gap, IsGap gap → ∃ m, skipElement frame frames (gap ++ s) m = .ok out) :
    ∃ m, skipInside first frame frames (lead ++ s) m = .ok out := by
  obtain ⟨c, tail, rfl, hspace, hlist, hobject⟩ := hs
  have hclose : c ≠ frame.close := by cases frame <;> assumption
  cases hl with
  | first hg =>
    obtain ⟨m, hm⟩ := h [] .nil
    refine ⟨m + 1, skipOpened_eq_ok_iff.mpr (.inr ⟨c :: tail, skipSpaces_gap hg hspace, ?_, hm⟩)⟩
    exact ⟨by simp, by simpa using hclose⟩
  | next hg hmore =>
    obtain ⟨m, hm⟩ := h _ hmore
    rw [List.append_assoc, List.cons_append]
    exact ⟨m + 1, skipAfter_eq_ok_iff.mpr (.inl ⟨_, skipSpaces_gap hg (by decide), hm⟩)⟩

theorem skipKey_gap {colon : List Char} (hg : IsGap gap) (l : Literal) (hc : IsGap colon) :
    skipKey (gap ++ (l.quoted ++ (colon ++ ':' :: rest))) = .ok rest := by
  have hquoted : l.quoted ++ (colon ++ ':' :: rest) = '"' :: (l.chars ++ '"' :: (colon ++ ':' :: rest)) := by
    simp [Literal.quoted]
  rw [hquoted]
  exact skipKey_eq_ok_iff.mpr
    ⟨_, skipSpaces_gap hg (by decide), _, l.skipString _, skipSpaces_gap hc (by decide)⟩

theorem skipScalar_number (n : Numeral) (hr : Ends rest) : ∃ c tail, n.chars = c :: tail ∧
    skipScalar c (tail ++ rest) = .ok rest := by
  rw [Numeral.chars]
  split
  · exact ⟨_, _, rfl, n.skipNumber hr⟩
  · obtain ⟨c, tail, hs, hc⟩ := n.unsigned_front
    have hskip := n.skipNumber hr
    rw [hs, List.cons_append] at hskip
    have hne {d : Char} (hd : Text.isDigit d = false) : c ≠ d := ne_of_holds hc hd
    refine ⟨c, tail, hs, ?_⟩
    rw [skipScalar, if_neg (hne (by decide)), if_neg (hne (by decide)), if_neg (hne (by decide)),
      if_neg (hne (by decide)), if_pos hc, hskip]

end Frames

namespace Tree

theorem skipFrom_scalar {t : Tree} {frames : List Frame} {gap s rest out : List Char} {m : Nat} (ht : t.IsText s)
    (hg : IsGap gap) (h : ∃ c tail, s = c :: tail ∧ skipScalar c (tail ++ rest) = .ok rest)
    (hafter : skipAfter frames rest m = .ok out) : skipFrom frames (gap ++ (s ++ rest)) (m + 1) = .ok out := by
  obtain ⟨c, tail, hs, hscalar⟩ := h
  have hspaces := ht.skipSpaces hg rest
  rw [hs, List.cons_append] at hspaces
  rw [hs, List.cons_append]
  exact skipFrom_eq_ok_iff.mpr (.inr (.inr ⟨c, tail ++ rest, hspaces, rest, hscalar, hafter⟩))

theorem expectWord_append (word rest : List Char) : expectWord word (word ++ rest) = .ok rest :=
  (expectWord_eq_ok_iff word).mpr rfl

mutual

/-- A value is passed over to its end, whatever the frames around it. -/
theorem skipFrom_text : ∀ (t : Tree) {frames : List Frame} {gap s rest out : List Char} {m : Nat}, t.IsText s →
    IsGap gap → Ends rest → skipAfter frames rest m = .ok out → ∃ m, skipFrom frames (gap ++ (s ++ rest)) m = .ok out
  | null, _, _, _, rest, _, _, ht, hg, _, h => ⟨_, skipFrom_scalar ht hg ⟨_, _, ht, expectWord_append _ rest⟩ h⟩
  | bool true, _, _, _, rest, _, _, ht, hg, _, h => ⟨_, skipFrom_scalar ht hg ⟨_, _, ht, expectWord_append _ rest⟩ h⟩
  | bool false, _, _, _, rest, _, _, ht, hg, _, h => ⟨_, skipFrom_scalar ht hg ⟨_, _, ht, expectWord_append _ rest⟩ h⟩
  | number n, _, _, _, rest, _, _, ht, hg, hr, h => by
    obtain ⟨c, tail, hs, hscalar⟩ := skipScalar_number n hr
    exact ⟨_, skipFrom_scalar ht hg ⟨c, tail, ht.trans hs, hscalar⟩ h⟩
  | string l, _, _, _, rest, _, _, ht, hg, _, h => by
    refine ⟨_, skipFrom_scalar ht hg ⟨_, _, ht, ?_⟩ h⟩
    rw [List.append_assoc]
    exact l.skipString rest
  | array es, frames, gap, s, rest, out, m, ht, hg, _, h => by
    obtain ⟨body, rfl, hbody⟩ := ht
    obtain ⟨m, hm⟩ := skipInside_elements es hbody h
    exact ⟨m + 1, skipFrom_eq_ok_iff.mpr (.inl ⟨_, skipSpaces_gap hg (by decide), hm⟩)⟩
  | object ms, frames, gap, s, rest, out, m, ht, hg, _, h => by
    obtain ⟨body, rfl, hbody⟩ := ht
    obtain ⟨m, hm⟩ := skipInside_members ms hbody h
    exact ⟨m + 1, skipFrom_eq_ok_iff.mpr (.inr (.inl ⟨_, skipSpaces_gap hg (by decide), hm⟩))⟩
termination_by structural t => t

theorem skipInside_elements : ∀ (es : List Tree) {first : Bool} {frames : List Frame} {s rest out : List Char} {m : Nat},
    AreElements first es s → skipAfter frames rest m = .ok out →
      ∃ m, skipInside first .list frames (s ++ rest) m = .ok out
  | [], _, _, _, rest, _, _, hs, h => by
    obtain ⟨gap, hg, rfl⟩ := hs
    rw [List.append_assoc]
    exact ⟨_, skipInside_close hg h⟩
  | e :: es, first, frames, s, rest, out, m, hs, h => by
    obtain ⟨lead, text, more, hl, ht, hmore, rfl⟩ := hs
    obtain ⟨k, hk⟩ := skipInside_elements es hmore h
    rw [List.append_assoc, List.append_assoc]
    refine skipInside_lead hl (ht.begins _) fun gap hg => ?_
    obtain ⟨n, hn⟩ := skipFrom_text e ht hg (ends_elements hmore rest) hk
    exact ⟨n + 1, skipElement_eq_ok_iff.mpr (.inl ⟨rfl, hn⟩)⟩
termination_by structural es => es

theorem skipInside_members : ∀ (ms : List (Literal × Tree)) {first : Bool} {frames : List Frame}
    {s rest out : List Char} {m : Nat}, AreMembers first ms s → skipAfter frames rest m = .ok out →
      ∃ m, skipInside first .object frames (s ++ rest) m = .ok out
  | [], _, _, _, rest, _, _, hs, h => by
    obtain ⟨gap, hg, rfl⟩ := hs
    rw [List.append_assoc]
    exact ⟨_, skipInside_close hg h⟩
  | (l, t) :: ms, first, frames, s, rest, out, m, hs, h => by
    obtain ⟨lead, colon, before, text, more, hl, hcolon, hbefore, ht, hmore, rfl⟩ := hs
    obtain ⟨k, hk⟩ := skipInside_members ms hmore h
    obtain ⟨n, hn⟩ := skipFrom_text t ht hbefore (ends_members hmore rest) hk
    simp only [List.append_assoc, List.cons_append]
    refine skipInside_lead hl (l.begins _) fun gap hg => ?_
    exact ⟨n + 1, skipElement_eq_ok_iff.mpr (.inr ⟨rfl, _, skipKey_gap hg l hcolon, hn⟩)⟩
termination_by structural ms => ms

end

theorem skipValue_text {t : Tree} {gap s rest : List Char} (ht : t.IsText s) (hg : IsGap gap) (hr : Ends rest) :
    skipValue (gap ++ (s ++ rest)) = .ok rest := by
  have hend : skipAfter [] rest 1 = .ok rest := rfl
  obtain ⟨m, hm⟩ := skipFrom_text t ht hg hr hend
  refine skipFrom_of_steps hm ?_
  omega

end Tree

end ModuleScaffold.Json
