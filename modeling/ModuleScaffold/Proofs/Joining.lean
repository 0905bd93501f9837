import ModuleScaffold.Proofs.Reading.Module

/-! # Modules of several resources

A file is laid out as a whole, and the layout looks back at the lines it has kept. Main statement: a module for two
lists of requests is made of the modules for either list, with an empty line between them. -/

namespace ModuleScaffold

namespace Layout

/-! ## Passages -/

/-- Lines that begin with one that opens something and end with a closing brace and an empty line. What stands before
or behind such lines cannot be told from their layout. -/
structure IsPassage (ls : List (List Char)) : Prop where
  opening : ∃ first rest, ls = first :: rest ∧ opens first = true
  ending : ∃ before, ls = before ++ [['\x7d'], []]

theorem IsPassage.append {ls ks : List (List Char)} (hl : IsPassage ls) (hk : IsPassage ks) :
    IsPassage (ls ++ ks) := by
  obtain ⟨first, rest, rfl, hfirst⟩ := hl.opening
  obtain ⟨before, rfl⟩ := hk.ending
  exact ⟨⟨first, _, rfl, hfirst⟩, ⟨first :: rest ++ before, by simp⟩⟩

/-- No lines at all, or a passage. -/
def IsSequence (ls : List String) : Prop := ls = [] ∨ IsPassage (Text.lines (Text.charsOf ls))

/-- Strings are a passage if the first begins with a word and the last ones close a brace. -/
theorem IsSequence.of_ends {ls : List String} {first : String} {front rest : List Char} (middle : List String)
    (hls : ls = first :: middle ++ ["\x7d", ""]) (hfirst : first.toList = front ++ rest) (hline : Text.IsLine front)
    (hopens : opens front = true) : IsSequence ls := by
  right
  constructor
  · obtain ⟨row, rows, hrows⟩ := Text.lines_first hline (ne_nil_of_opens hopens)
      (rest ++ '\n' :: Text.charsOf (middle ++ ["\x7d", ""]))
    refine ⟨front ++ row, rows, ?_, opens_append hopens row⟩
    rw [hls, List.cons_append, Text.charsOf_cons, hfirst, List.append_assoc]
    exact hrows
  · refine ⟨Text.lines (Text.charsOf (first :: middle)), ?_⟩
    rw [hls]
    exact Text.lines_charsOf_append _ _

theorem IsSequence.append {ls ks : List String} (hl : IsSequence ls) (hk : IsSequence ks) : IsSequence (ls ++ ks) := by
  rcases hl with rfl | hl
  · exact hk
  · rcases hk with rfl | hk
    · rw [List.append_nil]
      exact Or.inr hl
    · right
      rw [Text.lines_charsOf_append]
      exact hl.append hk

theorem IsSequence.flatMap {α : Type} {f : α → List String} (h : ∀ a, IsSequence (f a)) (as : List α) :
    IsSequence (as.flatMap f) := by
  induction as with
  | nil => exact Or.inl rfl
  | cons a as ih =>
    rw [List.flatMap_cons]
    exact (h a).append ih

/-! ## The seam between two passages -/

/-- Whether one of the lines is not empty. The layout looks back as far as to such a line. -/
def HasFull (kept : List (List Char)) : Prop := ∃ l ∈ kept, l.isEmpty = false

theorem HasFull.dropWhile_append {kept : List (List Char)} (h : HasFull kept) (base : List (List Char)) :
    (kept ++ base).dropWhile (·.isEmpty) = kept.dropWhile (·.isEmpty) ++ base := by
  obtain ⟨l, hl, hfull⟩ := h
  induction kept with
  | nil => cases hl
  | cons k kept ih =>
    rw [List.cons_append, List.dropWhile_cons, List.dropWhile_cons]
    cases hk : k.isEmpty with
    | false => rfl
    | true =>
      rcases List.mem_cons.mp hl with rfl | hl
      · rw [hk] at hfull
        cases hfull
      · exact ih hl

theorem HasFull.step_append {kept : List (List Char)} (h : HasFull kept) (base : List (List Char))
    (line : List Char) : step (kept ++ base) line = step kept line ++ base := by
  unfold step
  rw [h.dropWhile_append]
  obtain ⟨l, hl, -⟩ := h
  split
  · cases kept with
    | nil => cases hl
    | cons k kept => cases k <;> rfl
  · split <;> rfl

theorem HasFull.step {kept : List (List Char)} (h : HasFull kept) (line : List Char) : HasFull (step kept line) := by
  obtain ⟨l, hl, hfull⟩ := h
  unfold Layout.step
  split
  · split
    · exact ⟨l, hl, hfull⟩
    · exact ⟨l, List.mem_cons_of_mem _ hl, hfull⟩
  · next hblank =>
    have hline : line.isEmpty = false := by
      cases line with
      | nil => exact absurd rfl hblank
      | cons c line => rfl
    split <;> exact ⟨line, List.mem_cons_self, hline⟩

theorem HasFull.foldl_step (ls : List (List Char)) {kept : List (List Char)} (h : HasFull kept) :
    HasFull (ls.foldl Layout.step kept) := by
  induction ls generalizing kept with
  | nil => exact h
  | cons line ls ih => exact ih (h.step line)

theorem HasFull.foldl_step_append (ls : List (List Char)) {kept : List (List Char)} (h : HasFull kept)
    (base : List (List Char)) : ls.foldl Layout.step (kept ++ base) = ls.foldl Layout.step kept ++ base := by
  induction ls generalizing kept with
  | nil => rfl
  | cons line ls ih =>
    rw [List.foldl_cons, List.foldl_cons, h.step_append]
    exact ih (h.step line)

/-- A passage is laid out alike behind another one and by itself. -/
theorem IsPassage.keptLines_append {ls ks : List (List Char)} (hl : IsPassage ls) (hk : IsPassage ks) :
    keptLines (ls ++ ks) = keptLines ls ++ [] :: keptLines ks := by
  obtain ⟨before, rfl⟩ := hl.ending
  obtain ⟨first, rest, rfl, hfirst⟩ := hk.opening
  have hbefore : (before ++ [['\x7d'], []]).foldl step []
      = [] :: ['\x7d'] :: (before.foldl step []).dropWhile (·.isEmpty) := by
    rw [List.foldl_append]
    rfl
  have hfull : HasFull [first] :=
    ⟨first, List.mem_singleton_self first, List.isEmpty_eq_false_iff.mpr (ne_nil_of_opens hfirst)⟩
  -- The first line of the second passage is kept as it is, and the layout never looks back past it.
  unfold keptLines
  rw [List.foldl_append, hbefore, List.foldl_cons, List.foldl_cons, step_of_opens hfirst, step_of_opens hfirst,
    ← List.singleton_append, hfull.foldl_step_append, (hfull.foldl_step rest).dropWhile_append]
  simp

example : keptLines ([['a'], []] ++ [['\x7d']]) = [['a'], ['\x7d']] := by decide

/-- Two texts with an empty line between them, or the one that is not empty. -/
def join (a b : String) : String := if b = "" then a else if a = "" then b else a ++ "\n" ++ b

@[simp] theorem join_empty (a : String) : join a "" = a := rfl

@[simp] theorem empty_join (b : String) : join "" b = b := by
  unfold join
  split
  · next h => exact h.symm
  · rfl

theorem tidy_ofLines (ls : List String) :
    tidy (Text.ofLines ls) = String.ofList (Text.unlines (keptLines (Text.lines (Text.charsOf ls)))) := by
  rw [tidy, Text.toList_ofLines]

theorem IsPassage.tidy_ne {ls : List String} (h : IsPassage (Text.lines (Text.charsOf ls))) :
    tidy (Text.ofLines ls) ≠ "" := by
  obtain ⟨before, hls⟩ := h.ending
  have hkept : keptLines (Text.lines (Text.charsOf ls))
      = ((before.foldl step []).dropWhile (·.isEmpty)).reverse ++ [['\x7d']] := by
    rw [hls, keptLines, List.foldl_append]
    exact List.reverse_cons
  rw [tidy_ofLines, hkept, Text.unlines_append]
  intro hempty
  have hchars := congrArg String.toList hempty
  simp [Text.unlines] at hchars

theorem tidy_append {ls ks : List String} (hl : IsSequence ls) (hk : IsSequence ks) :
    tidy (Text.ofLines (ls ++ ks)) = join (tidy (Text.ofLines ls)) (tidy (Text.ofLines ks)) := by
  rcases hl with rfl | hl
  · exact (empty_join _).symm
  · rcases hk with rfl | hk
    · rw [List.append_nil]
      exact (join_empty _).symm
    · rw [join, if_neg hk.tidy_ne, if_neg hl.tidy_ne, tidy_ofLines, tidy_ofLines, tidy_ofLines,
        Text.lines_charsOf_append, hl.keptLines_append hk, Text.unlines_append, Text.unlines, List.nil_append]
      apply String.toList_injective
      simp

end Layout

/-! ## The lines of a request -/

theorem Body.isSequence_resourceLines (type : String) (block : Block) (mode : Mode) (variableName : String) :
    Layout.IsSequence (resourceLines type block mode variableName) := by
  have hfirst : ("resource \"" ++ type ++ "\" \"this\" \x7b").toList
      = "resource".toList ++ (" \"" ++ type ++ "\" \"this\" \x7b").toList := by simp
  unfold resourceLines
  rw [List.append_assoc ["resource \"" ++ type ++ "\" \"this\" \x7b"]]
  exact .of_ends _ rfl hfirst ⟨by decide, by decide⟩ (by decide)

namespace Inputs

/-- The lines of a variable are a passage whether or not a comment stands above it. -/
theorem isSequence_commented (comment : Option String) (name : String) (middle : List String) :
    Layout.IsSequence (commentLines "" comment ++ header name :: middle ++ ["\x7d", ""]) := by
  cases comment with
  | none =>
    exact .of_ends middle rfl (toList_header name) ⟨by decide, by decide⟩ (by decide)
  | some comment =>
    have hfirst : ("" ++ "// " ++ comment).toList = "//".toList ++ (" " ++ comment).toList := by simp
    exact .of_ends (header name :: middle) rfl hfirst ⟨by decide, by decide⟩ (by decide)

theorem isSequence_variable (v : Variable) : Layout.IsSequence v.lines := by
  cases v with
  | value name comment description type nullable =>
    have hlines := isSequence_commented comment name (descriptionLines description
      ++ ["  type = " ++ AttributeType.renderOptional 1 type] ++ defaultLines nullable)
    simpa [Variable.lines] using hlines
  | object name comment holder nullable inner =>
    have hlines := isSequence_commented comment name (("  type = " ++ holder.opening) :: fieldLines 2 inner
      ++ ["  " ++ holder.closing] ++ defaultLines nullable)
    simpa [Variable.lines] using hlines
  | collection name inner =>
    have hlines := isSequence_commented none name (("  type = " ++ Holder.list.opening) :: fieldLines 2 inner
      ++ ["  " ++ Holder.list.closing] ++ defaultLines true)
    simpa [Variable.lines, commentLines] using hlines
  | skipped name reason => exact Or.inl rfl

theorem isSequence_resourceLines (comments : Bool) (block : Block) (mode : Mode) (variableName : String) :
    Layout.IsSequence (resourceLines comments block mode variableName) :=
  .flatMap isSequence_variable _

end Inputs

/-! ## Modules -/

/-- The module whose files are those of one module and then those of another. -/
def ModuleFiles.join (a b : ModuleFiles) : ModuleFiles := ⟨Layout.join a.main b.main, Layout.join a.inputs b.inputs⟩

/-- The module without any text. -/
def ModuleFiles.blank : ModuleFiles := ⟨"", ""⟩

namespace Plan

variable {p : Plan} {s : SchemaSet}

/-- The plan for other requests, with the same registry and the same comments. -/
def asking (requests : List Request) (p : Plan) : Plan := { p with requests }

theorem isSequence_mainLines (p : Plan) (s : SchemaSet) (r : Request) : Layout.IsSequence (p.mainLines s r) := by
  unfold mainLines
  split
  · exact Body.isSequence_resourceLines ..
  · exact Or.inl rfl

theorem isSequence_variableLines (p : Plan) (s : SchemaSet) (r : Request) :
    Layout.IsSequence (p.variableLines s r) := by
  unfold variableLines
  split
  · exact Inputs.isSequence_resourceLines ..
  · exact Or.inl rfl

theorem generate_append (p : Plan) (s : SchemaSet) (first second : List Request) :
    (p.asking (first ++ second)).generate s = ((p.asking first).generate s).join ((p.asking second).generate s) := by
  have hmain := Layout.tidy_append (.flatMap (p.isSequence_mainLines s) first)
    (.flatMap (p.isSequence_mainLines s) second)
  have hinputs := Layout.tidy_append (.flatMap (p.isSequence_variableLines s) first)
    (.flatMap (p.isSequence_variableLines s) second)
  rw [← List.flatMap_append] at hmain hinputs
  exact (ModuleFiles.mk.injEq ..).mpr ⟨hmain, hinputs⟩

theorem generate_eq_foldr (p : Plan) (s : SchemaSet) (requests : List Request) :
    (p.asking requests).generate s
      = (requests.map fun r => (p.asking [r]).generate s).foldr ModuleFiles.join .blank := by
  induction requests with
  | nil => rfl
  | cons r rest ih =>
    have happend := generate_append p s [r] rest
    rw [ih] at happend
    exact happend

/-- Requests whose schemas are not known leave nothing behind. -/
theorem generate_asking_found (p : Plan) (s : SchemaSet) :
    p.generate s = (p.asking ((p.found s).map (·.1))).generate s := by
  have hmain : p.requests.flatMap (p.mainLines s) = (p.found s).flatMap fun e => p.mainLines s e.1 :=
    flatMap_found (fun _ _ _ => rfl) fun _ _ => mainLines_of_error
  have hinputs : p.requests.flatMap (p.variableLines s) = (p.found s).flatMap fun e => p.variableLines s e.1 :=
    flatMap_found (fun _ _ _ => rfl) fun _ _ => variableLines_of_error
  unfold generate
  rw [hmain, hinputs, asking, List.flatMap_map, List.flatMap_map]
  rfl

/-- A module is made of parts: for two lists of requests one after the other it is the two modules, joined. It is
the module of each request whose schema is known, joined in the order of the requests, and the other requests leave
nothing behind. -/
theorem generate_joins_parts (p : Plan) (s : SchemaSet) :
    (∀ first second, (p.asking (first ++ second)).generate s
      = ((p.asking first).generate s).join ((p.asking second).generate s)) ∧
    p.generate s = (p.asking ((p.found s).map (·.1))).generate s ∧
    p.generate s = ((p.found s).map fun e => (p.asking [e.1]).generate s).foldr ModuleFiles.join .blank := by
  refine ⟨generate_append p s, generate_asking_found p s, ?_⟩
  calc p.generate s
    _ = (p.asking ((p.found s).map (·.1))).generate s := generate_asking_found p s
    _ = (((p.found s).map (·.1)).map fun r => (p.asking [r]).generate s).foldr ModuleFiles.join .blank :=
        generate_eq_foldr p s _
    _ = ((p.found s).map fun e => (p.asking [e.1]).generate s).foldr ModuleFiles.join .blank := by
        rw [List.map_map]
        rfl

end Plan

end ModuleScaffold
