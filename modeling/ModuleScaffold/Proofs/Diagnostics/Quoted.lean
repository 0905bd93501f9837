import ModuleScaffold.Diagnostics
import ModuleScaffold.Proofs.Text.Search

/-! # Names that a summary quotes

A summary may say that a field cannot be set, with the name of the field in quotes before these words. Main
statement: the name that is found begins behind the first quote of that line, which need not be its own. -/

namespace ModuleScaffold

/-! ## Quotes before a mark -/

namespace Diagnostics.Pattern

theorem quotedAfter?_eq_none {lead s : List Char} (h : Text.occurrences lead s = 0) : quotedAfter? lead s = none := by
  apply Text.firstFrom_eq_none
  intro t ht
  rw [Text.after?_of_occurrences h ht]
  rfl

/-- The quote that is taken leads to the first mark on its own line, and every quote before it stands on a line that
ends before that mark. -/
theorem quotedBefore?_of_isFirst {tail before inner right : List Char}
    (hfirst : Text.IsFirst tail (before ++ '"' :: inner) right)
    (hbefore : ∀ x y, before = x ++ '"' :: y → '\n' ∈ y) (hinner : '\n' ∉ inner) :
    quotedBefore? tail (before ++ '"' :: inner ++ (tail ++ right)) = some inner := by
  unfold quotedBefore?
  induction before with
  | nil =>
    apply Text.firstFrom_of_some
    simp only [List.nil_append, List.cons_append, Text.after?, if_true, Option.bind_some,
      Text.untilOnLine?_of_isFirst hfirst.tail, if_neg hinner, Option.map_some]
  | cons c before ih =>
    have hrest := ih hfirst.tail fun x y hxy => hbefore (c :: x) y (by rw [hxy]; rfl)
    rw [List.cons_append, List.cons_append, Text.firstFrom_cons, hrest]
    by_cases hc : '"' = c
    · have hfeed : '\n' ∈ before ++ '"' :: inner := List.mem_append_left _ (hbefore [] before (by rw [← hc]; rfl))
      have hnone : Text.untilOnLine? tail (before ++ '"' :: inner ++ (tail ++ right)) = none :=
        (Text.untilOnLine?_of_isFirst hfirst.tail).trans (if_pos hfeed)
      simp only [Text.after?, if_pos hc, Option.bind_some]
      rw [hnone]
      rfl
    · simp only [Text.after?, if_neg hc, Option.bind_none]

/-- What stands on a line behind its first quote. -/
def behindQuote (line : List Char) : List Char := (line.dropWhile (· ≠ '"')).tail

/-- The last line of a text, which no line feed ends. -/
def lastLine (s : List Char) : List Char := s.rtakeWhile (· ≠ '\n')

theorem not_feed_mem_lastLine (s : List Char) : '\n' ∉ lastLine s := by
  intro h
  simpa using List.mem_rtakeWhile_imp h

/-- What stands before the last line ends with a line feed, if there is anything. -/
theorem exists_eq_lastLine (s : List Char) :
    ∃ above, s = above ++ lastLine s ∧ ∀ h : above ≠ [], above.getLast h = '\n' := by
  refine ⟨s.rdropWhile (· ≠ '\n'), (List.rdropWhile_append_rtakeWhile ..).symm, fun h => ?_⟩
  simpa using List.rdropWhile_last_not _ _ h

theorem feed_mem_of_getLast {above x y : List Char} {c : Char} (h : ∀ h : above ≠ [], above.getLast h = '\n')
    (habove : above = x ++ c :: y) (hc : c ≠ '\n') : '\n' ∈ y := by
  subst habove
  have hlast := h (by simp)
  rw [List.getLast_append_of_ne_nil _ (by simp)] at hlast
  cases y with
  | nil => exact absurd hlast hc
  | cons d y =>
    rw [List.getLast_cons_cons] at hlast
    rw [← hlast]
    exact List.getLast_mem _

theorem behindQuote_append {front : List Char} (h : '"' ∉ front) (rest : List Char) :
    behindQuote (front ++ '"' :: rest) = rest := by
  have hall : ∀ c ∈ front, decide (c ≠ '"') = true := fun c hc => decide_eq_true fun heq => h (heq ▸ hc)
  rw [behindQuote, List.dropWhile_append_of_pos hall]
  rfl

theorem eq_behindQuote {line : List Char} (h : '"' ∈ line) :
    ∃ front, line = front ++ '"' :: behindQuote line ∧ '"' ∉ front := by
  obtain ⟨front, rest, hline, hfront⟩ := List.eq_append_cons_of_mem h
  exact ⟨front, by rw [hline, behindQuote_append hfront], hfront⟩

/-- Where the first mark stands behind a quoted name, all of its line behind the first quote is found. -/
theorem quotedBefore?_of_line {tail before name right : List Char}
    (hfirst : Text.IsFirst tail (before ++ '"' :: name) right) (hname : '\n' ∉ name) :
    quotedBefore? tail (before ++ '"' :: name ++ (tail ++ right))
      = some (behindQuote (lastLine before ++ '"' :: name)) := by
  have hline : '\n' ∉ lastLine before ++ '"' :: name := by
    simpa [hname] using not_feed_mem_lastLine before
  obtain ⟨above, habove, hends⟩ := exists_eq_lastLine before
  have hquote : '"' ∈ lastLine before ++ '"' :: name := List.mem_append_right _ List.mem_cons_self
  obtain ⟨front, hfront, hquotes⟩ := eq_behindQuote hquote
  have hwhole : before ++ '"' :: name = above ++ front ++ '"' :: behindQuote (lastLine before ++ '"' :: name) := by
    rw [List.append_assoc, ← hfront, ← List.append_assoc, ← habove]
  rw [hwhole] at hfirst ⊢
  apply quotedBefore?_of_isFirst hfirst
  · -- A quote before this line has the end of its own line behind it.
    intro x y hxy
    rcases List.append_eq_append_iff.mp hxy with ⟨more, -, hmore⟩ | ⟨more, hmore, hy⟩
    · exact absurd (by rw [hmore]; simp) hquotes
    · cases more with
      | nil => exact absurd (by rw [← hy.trans (List.nil_append front)]; simp) hquotes
      | cons c more =>
        obtain ⟨rfl, rfl⟩ := List.cons.inj hy
        exact List.mem_append_left _ (feed_mem_of_getLast hends hmore (by decide))
  · rw [hfront] at hline
    exact fun h => hline (by simp [h])

end Diagnostics.Pattern

/-! ## Refused names -/

namespace Diagnostic

open Diagnostics.Pattern (behindQuote lastLine)

theorem refusedName?_of_summary {d : Diagnostic} {before name after : List Char}
    (hdetail : Text.occurrences "Can't configure a value for \"".toList d.detail.toList = 0)
    (honce : Text.occurrences "\": this field cannot be set".toList d.summary.toList = 1)
    (hsummary : d.summary.toList = before ++ '"' :: name ++ ("\": this field cannot be set".toList ++ after))
    (hname : '\n' ∉ name) :
    d.refusedName? = some (String.ofList (behindQuote (lastLine before ++ '"' :: name))) := by
  rw [hsummary] at honce
  have hquoted := Diagnostics.Pattern.quotedBefore?_of_line (Text.isFirst_of_occurrences honce) hname
  rw [refusedName?, namedAttribute?, Diagnostics.Pattern.quotedAfter?_eq_none hdetail, hsummary, hquoted]

/-- Where the words that a field cannot be set stand once in a summary, with a name in quotes directly before them, the
name that is found is what stands between the first quote of that line and these words, whatever the snippet holds and
whatever stands on other lines. So it is the quoted name exactly when no other quote stands before it on its line. -/
theorem quoted_name_found_iff (d : Diagnostic) (before name after : List Char)
    (hdetail : Text.occurrences "Can't configure a value for \"".toList d.detail.toList = 0)
    (honce : Text.occurrences "\": this field cannot be set".toList d.summary.toList = 1)
    (hsummary : d.summary.toList = before ++ '"' :: name ++ ("\": this field cannot be set".toList ++ after))
    (hname : '\n' ∉ name) :
    d.refusedName? = some (String.ofList (behindQuote (lastLine before ++ '"' :: name))) ∧
      (d.refusedName? = some (String.ofList name) ↔ '"' ∉ lastLine before) := by
  have hfound := refusedName?_of_summary hdetail honce hsummary hname
  refine ⟨hfound, ?_⟩
  rw [hfound, Option.some.injEq, String.ofList_inj]
  constructor
  · intro heq hquote
    -- Behind an earlier quote stands more than the name.
    obtain ⟨front, hline, hfront⟩ := Diagnostics.Pattern.eq_behindQuote hquote
    have hbehind : behindQuote (lastLine before ++ '"' :: name) = behindQuote (lastLine before) ++ '"' :: name := by
      conv_lhs => rw [hline, List.append_assoc, List.cons_append]
      exact Diagnostics.Pattern.behindQuote_append hfront _
    have hlength := congrArg List.length (hbehind.symm.trans heq)
    rw [List.length_append, List.length_cons] at hlength
    omega
  · exact fun hquote => Diagnostics.Pattern.behindQuote_append hquote name

/-- A summary of two lines with quoted words, the last of which is the name of the field. -/
def unsettable : Diagnostic :=
  ⟨"error", "vm.this", "Value for \"vm\" refused\nby the provider, \"disk\": this field cannot be set (see \"size\")", "",
    some ⟨some "resource \"vm\" \"this\" \x7b", "  size = var.size"⟩⟩

theorem quoted_name_found_iff_unsettable :
    Text.occurrences "\": this field cannot be set".toList unsettable.summary.toList = 1 ∧
      unsettable.refusedName? = some "disk" := by
  have honce : Text.occurrences "\": this field cannot be set".toList unsettable.summary.toList = 1 := by decide
  have hsummary : unsettable.summary.toList = "Value for \"vm\" refused\nby the provider, ".toList ++ '"' :: "disk".toList
      ++ ("\": this field cannot be set".toList ++ " (see \"size\")".toList) := by decide
  have hfound := quoted_name_found_iff unsettable _ _ _ (by decide) honce hsummary (by decide)
  refine ⟨honce, ?_⟩
  simpa using hfound.2.mpr (by decide)

/-- Another word in quotes on its line may keep the quoted name from being found. -/
theorem quoted_name_may_be_missed :
    ¬ ∀ (d : Diagnostic) (before name after : List Char),
      Text.occurrences "Can't configure a value for \"".toList d.detail.toList = 0 →
      Text.occurrences "\": this field cannot be set".toList d.summary.toList = 1 →
      d.summary.toList = before ++ '"' :: name ++ ("\": this field cannot be set".toList ++ after) →
      name ≠ [] → '"' ∉ name → '\n' ∉ name → d.refusedName? = some (String.ofList name) := by
  intro h
  have hfound := h ⟨"error", "vm.this", "\"disk\" \"size\": this field cannot be set", "", none⟩ "\"disk\" ".toList
    "size".toList [] (by decide) (by decide) rfl (by decide) (by decide) (by decide)
  exact absurd hfound (by decide)

end Diagnostic

end ModuleScaffold
