import ModuleScaffold.Proofs.Syntax.Body

/-! # Lines in any layout

A layout moves lines apart and together but keeps them and their order. Main statement: a text that adds its names
line by line is accepted in the layout of a file exactly where the brackets that it needs may be nested. -/

namespace ModuleScaffold.Hcl.Syntax

open Reading (IsPad)
open Layout (fullLines)

/-! ## Lines with feeds between them -/

/-- A text of these lines in their order, with line feeds of its own before, between and behind them. -/
inductive Spaced : List (List Char) → List Char → Prop where
  | nil : Spaced [] []
  | feed {ls : List (List Char)} {t : List Char} : Spaced ls t → Spaced ls ('\n' :: t)
  | line {ls : List (List Char)} {t : List Char} (l : List Char) : Spaced ls t → Spaced (l :: ls) (l ++ '\n' :: t)

namespace Spaced

variable {ls ks : List (List Char)} {l t u : List Char}

theorem append (ht : Spaced ls t) (hu : Spaced ks u) : Spaced (ls ++ ks) (t ++ u) := by
  induction ht with
  | nil => exact hu
  | feed _ ih => exact ih.feed
  | line l _ ih =>
    rw [List.append_assoc]
    exact ih.line l

theorem of_append (h : Spaced (ls ++ ks) t) : ∃ u v, t = u ++ v ∧ Spaced ls u ∧ Spaced ks v := by
  generalize hms : ls ++ ks = ms at h
  induction h generalizing ls with
  | nil =>
    obtain ⟨rfl, rfl⟩ := List.append_eq_nil_iff.mp hms
    exact ⟨[], [], rfl, .nil, .nil⟩
  | feed _ ih =>
    obtain ⟨u, v, rfl, hu, hv⟩ := ih hms
    exact ⟨'\n' :: u, v, rfl, hu.feed, hv⟩
  | @line ms t l h ih =>
    cases ls with
    | nil =>
      obtain rfl : ks = l :: ms := hms
      exact ⟨[], l ++ '\n' :: t, rfl, .nil, h.line l⟩
    | cons k ls =>
      obtain ⟨rfl, htail⟩ := List.cons.inj hms
      obtain ⟨u, v, rfl, hu, hv⟩ := ih htail
      exact ⟨k ++ '\n' :: u, v, by simp, hu.line k, hv⟩

theorem of_singleton (h : Spaced [l] t) : ∃ u v, t = u ++ (l ++ '\n' :: v) ∧ Spaced [] u ∧ Spaced [] v := by
  generalize hls : [l] = ls at h
  induction h with
  | nil => cases hls
  | feed _ ih =>
    obtain ⟨u, v, rfl, hu, hv⟩ := ih hls
    exact ⟨'\n' :: u, v, rfl, hu.feed, hv⟩
  | line k h _ =>
    cases hls
    exact ⟨[], _, rfl, .nil, h⟩

/-- A line that stands before others and one that stands behind them. -/
theorem of_group {k : List Char} (h : Spaced (l :: (ls ++ [k])) t) :
    ∃ u v w, t = u ++ (l ++ '\n' :: (v ++ (k ++ '\n' :: w))) ∧ Spaced [] u ∧ Spaced ls v ∧ Spaced [] w := by
  have hcut : Spaced ([l] ++ (ls ++ [k])) t := h
  obtain ⟨first, others, rfl, hfirst, hothers⟩ := hcut.of_append
  obtain ⟨inner, last, rfl, hinner, hlast⟩ := of_append hothers
  obtain ⟨u, before, rfl, hu, hbefore⟩ := hfirst.of_singleton
  obtain ⟨behind, w, rfl, hbehind, hw⟩ := hlast.of_singleton
  refine ⟨u, before ++ (inner ++ behind), w, by simp, hu, ?_, hw⟩
  have hv := hbefore.append (hinner.append hbehind)
  rwa [List.append_nil] at hv

theorem unlines (h : ∀ l ∈ ls, Text.allBlank l = true → l = []) : Spaced (fullLines ls) (Text.unlines ls) := by
  induction ls with
  | nil => exact .nil
  | cons l ls ih =>
    have hls := ih fun k hk => h k (List.mem_cons_of_mem _ hk)
    rw [fullLines, List.filter_cons, Text.unlines]
    cases hl : Text.allBlank l with
    | true =>
      obtain rfl := h l List.mem_cons_self hl
      exact hls.feed
    | false => exact hls.line l

/-- The layout of a file keeps the lines that are not blank. -/
theorem keptLines (ls : List (List Char)) : Spaced (fullLines ls) (Text.unlines (Layout.keptLines ls)) := by
  rw [← Layout.fullLines_keptLines]
  apply unlines
  intro l hl hblank
  rcases Layout.mem_keptLines hl with h | ⟨-, hfull⟩
  · exact h
  · rw [hfull] at hblank
    cases hblank

end Spaced

/-! ## Texts that add names in any layout -/

/-- A text of whole lines that adds these names, also when other line feeds stand between its lines. -/
def Spells (R : Sequence) (need : Nat) (new : List (List Char)) (s : List Char) : Prop :=
  ∃ ls, s = Text.unlines ls ∧ (∀ l ∈ ls, Text.IsLine l) ∧ ∀ t, Spaced (fullLines ls) t → Adds R need new t

section

variable {R : Sequence} {need : Nat} {new : List (List Char)}

theorem adds_feeds (hR : IsSequence R) {t : List Char} (h : Spaced [] t) : Adds R 0 [] t := by
  generalize hls : [] = ls at h
  induction h with
  | nil => exact .nil
  | feed _ ih => exact (hR.silent breaks_feed (s := ['\n'])).append (ih hls)
  | line => cases hls

/-- Blanks and line feeds around a text change nothing. -/
theorem adds_apart (hR : IsSequence R) {pad s t u : List Char} (hp : IsPad pad) (ht : Spaced [] t)
    (h : Adds R need new s) (hu : Spaced [] u) : Adds R need new (t ++ (pad ++ s ++ u)) := by
  have hall := (adds_feeds hR ht).append (((hR.silent (breaks_pad hp)).append h).append (adds_feeds hR hu))
  simpa using hall

theorem Spells.nil (hR : IsSequence R) : Spells R 0 [] [] :=
  ⟨[], rfl, by simp, fun _ ht => adds_feeds hR ht⟩

theorem Spells.append {more : List (List Char)} {m n : Nat} {s t : List Char} (hs : Spells R m new s)
    (ht : Spells R n more t) : Spells R (max m n) (new ++ more) (s ++ t) := by
  obtain ⟨ls, rfl, hls, hnew⟩ := hs
  obtain ⟨ks, rfl, hks, hmore⟩ := ht
  refine ⟨ls ++ ks, (Text.unlines_append ls ks).symm, ?_, fun t ht => ?_⟩
  · intro l hl
    rcases List.mem_append.mp hl with hl | hl
    · exact hls l hl
    · exact hks l hl
  · rw [Layout.fullLines_append] at ht
    obtain ⟨u, v, rfl, hu, hv⟩ := ht.of_append
    exact (hnew u hu).append (hmore v hv)

theorem Spells.flatMap (hR : IsSequence R) {β : Type} {es : List β} {write : β → List String} {count : β → Nat}
    (h : ∀ e ∈ es, Spells R (count e) [] (Text.charsOf (write e))) :
    Spells R ((es.map count).foldr max 0) [] (Text.charsOf (es.flatMap write)) := by
  induction es with
  | nil => exact .nil hR
  | cons e es ih =>
    rw [List.flatMap_cons, Text.charsOf_append]
    exact (h e List.mem_cons_self).append (ih fun d hd => h d (List.mem_cons_of_mem _ hd))

theorem Spells.blank (hR : IsSequence R) : Spells R 0 [] ['\n'] :=
  ⟨[[]], rfl, by simp [Text.IsLine], fun _ ht => adds_feeds hR ht⟩

theorem allBlank_append {text : List Char} (h : Text.allBlank text = false) (pad : List Char) :
    Text.allBlank (pad ++ text) = false := by
  unfold Text.allBlank at h ⊢
  rw [List.all_append, h, Bool.and_false]

theorem ne_nil_of_allBlank {text : List Char} (h : Text.allBlank text = false) : text ≠ [] := by
  rintro rfl
  cases h

theorem fullLines_singleton {l : List Char} (h : Text.allBlank l = false) : fullLines [l] = [l] := by
  simp [fullLines, h]

theorem Spells.line (hR : IsSequence R) {pad text : List Char} (hp : IsPad pad) (ht : Text.IsLine text)
    (hb : Text.allBlank text = false) (h : Adds R need new (text ++ ['\n'])) :
    Spells R need new (pad ++ text ++ ['\n']) := by
  refine ⟨[pad ++ text], rfl, ?_, fun t hspaced => ?_⟩
  · intro l hl
    rw [List.mem_singleton.mp hl]
    exact hp.isLine (ne_nil_of_allBlank hb) ht
  · rw [fullLines_singleton (allBlank_append hb pad)] at hspaced
    obtain ⟨u, v, rfl, hu, hv⟩ := hspaced.of_singleton
    simpa using adds_apart hR hp hu h hv

theorem Spells.group {R' : Sequence} (hR : IsSequence R) {pad opening inner pad' closing : List Char}
    {m : Nat} {inside : List (List Char)} (hp : IsPad pad) (ho : Text.IsLine opening)
    (hob : Text.allBlank opening = false) (hi : Spells R' m inside inner) (hp' : IsPad pad') (hc : Text.IsLine closing)
    (hcb : Text.allBlank closing = false)
    (h : ∀ t, Adds R' m inside t → Adds R need new (opening ++ ['\n'] ++ t ++ (pad' ++ closing ++ ['\n']))) :
    Spells R need new (pad ++ opening ++ ['\n'] ++ inner ++ (pad' ++ closing ++ ['\n'])) := by
  obtain ⟨ls, rfl, hls, hinside⟩ := hi
  refine ⟨(pad ++ opening) :: (ls ++ [pad' ++ closing]), ?_, ?_, fun t hspaced => ?_⟩
  · simp [Text.unlines, Text.unlines_append]
  · intro l hl
    rcases List.mem_cons.mp hl with rfl | hl
    · exact hp.isLine (ne_nil_of_allBlank hob) ho
    · rcases List.mem_append.mp hl with hl | hl
      · exact hls l hl
      · rw [List.mem_singleton.mp hl]
        exact hp'.isLine (ne_nil_of_allBlank hcb) hc
  · have hfull : fullLines ((pad ++ opening) :: (ls ++ [pad' ++ closing]))
        = (pad ++ opening) :: (fullLines ls ++ [pad' ++ closing]) := by
      rw [← List.singleton_append, Layout.fullLines_append, Layout.fullLines_append,
        fullLines_singleton (allBlank_append hob pad), fullLines_singleton (allBlank_append hcb pad')]
      rfl
    rw [hfull] at hspaced
    obtain ⟨u, v, w, rfl, hu, hv, hw⟩ := hspaced.of_group
    simpa using adds_apart hR hp hu (h v (hinside v hv)) hw

/-- A comment says nothing, if its line does not end before the comment does. -/
theorem Spells.comment (hR : IsSequence R) {pad : List Char} (text : List Char) (hp : IsPad pad) (hf : '\n' ∉ text)
    (hr : '\r' ∉ text) : Spells R 0 [] (pad ++ '/' :: '/' :: text ++ ['\n']) := by
  refine Spells.line hR hp ⟨by simp [hf], ?_⟩ rfl (hR.silent fun tail => ?_)
  · intro h
    exact absurd (List.mem_of_getLast? h) (by simp [hr])
  · have htext : ('/' :: '/' :: text ++ ['\n']) ++ tail = '/' :: '/' :: (text ++ '\n' :: tail) := by simp
    rw [htext]
    exact breaks_comment hf hr tail

theorem isLine_labelText {ls : List (List Char)} (hls : ∀ label ∈ ls, Text.IsName label) : '\n' ∉ labelText ls := by
  induction ls with
  | nil => simp [labelText]
  | cons label ls ih =>
    have hlabel := (hls label List.mem_cons_self).not_mem '\n' (by decide)
    simp [labelText, hlabel, ih fun other ho => hls other (List.mem_cons_of_mem _ ho)]

theorem Spells.block (kind : List Char) (ls : List (List Char)) {pad inner pad' : List Char}
    (hk : Text.isIdentifier kind = true) (hls : ∀ label ∈ ls, Text.IsName label) (hp : IsPad pad)
    (hi : Spells BodyReads need new inner) (hnew : new.Nodup) (hp' : IsPad pad') :
    Spells BodyReads (need + 1) []
      (pad ++ (kind ++ ' ' :: (labelText ls ++ ['\x7b'])) ++ ['\n'] ++ inner ++ (pad' ++ ['\x7d'] ++ ['\n'])) := by
  have hname := Text.IsName.of_isIdentifier hk
  have hworded : Reading.IsWorded (kind ++ ' ' :: (labelText ls ++ ['\x7b'])) := by
    refine ⟨⟨?_, ?_⟩, ?_⟩
    · simp [hname.not_mem '\n' (by decide), isLine_labelText hls]
    · simp [List.getLast?_append, List.getLast?_cons]
    · obtain ⟨c, more, rfl⟩ := List.exists_cons_of_ne_nil hname.ne_nil
      exact ⟨c, rfl, hname.all c List.mem_cons_self⟩
  exact Spells.group isSequence_body hp hworded.isLine (hworded.not_blank []) hi hp' ⟨by decide, by decide⟩
    rfl fun t ht => adds_block hk hls ht hnew hp'

theorem Spells.attribute (hR : IsSequence R) {pad name value : List Char} (hp : IsPad pad)
    (hn : Text.isIdentifier name = true) (hfor : name ≠ ['f', 'o', 'r']) (hv : IsExpression need value)
    (hl : Text.IsLine value) : Spells R need [name] (pad ++ Reading.assigning name value ++ ['\n']) := by
  have hne : value ≠ [] := by
    obtain ⟨c, more, rfl, -⟩ := hv.head
    exact List.cons_ne_nil _ _
  have hworded := Reading.isWorded_assigning (.of_isIdentifier hn) hne hl
  exact .line hR hp hworded.isLine (hworded.not_blank []) (hR.assigns hn hfor hv)

end

/-! ## Files -/

/-- Whether a text is a configuration in which so many brackets may be nested. -/
def acceptsWithin (level : Nat) (s : String) : Bool :=
  body level [] s.toList (8 * s.toList.length + 8) == some []

theorem accepts_eq (s : String) : accepts s = acceptsWithin maxLevel s := rfl

/-- A text of blocks and comments is accepted in the layout of a file where the brackets that it needs may be nested. -/
theorem Spells.accepts_tidy_iff {need : Nat} {s : String} (h : Spells BodyReads need [] s.toList) (level : Nat) :
    acceptsWithin level (Layout.tidy s) = true ↔ need ≤ level := by
  obtain ⟨ls, hs, hls, hadds⟩ := h
  have htidy : (Layout.tidy s).toList = Text.unlines (Layout.keptLines ls) := by
    rw [Layout.tidy, String.toList_ofList, hs, Text.lines_unlines hls]
  have hread := hadds _ (.keptLines ls) level [] [] _ .nil (bodyReads_end level _)
  rw [List.append_nil] at hread
  rw [acceptsWithin, htidy, hread _ (Nat.le_refl _)]
  rcases Nat.lt_or_ge level need with hl | hl
  · rw [within_of_lt hl]
    simp [hl]
  · rw [within_of_le hl]
    simp [hl]

end ModuleScaffold.Hcl.Syntax
