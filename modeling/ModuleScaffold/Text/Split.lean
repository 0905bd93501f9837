/-! # Cutting a text

Cutting at one character, behind a word, or at the first place that answers a question. -/

namespace ModuleScaffold.Text

/-- The parts before and after the first `mark`. -/
def splitAt? (mark : Char) : List Char → Option (List Char × List Char)
  | [] => none
  | c :: rest =>
    if c = mark then some ([], rest)
    else (splitAt? mark rest).map fun (left, right) => (c :: left, right)

/-- The parts of a text between all its `mark`s. -/
def splitAll (mark : Char) : List Char → List (List Char)
  | [] => [[]]
  | c :: rest =>
    if c = mark then [] :: splitAll mark rest
    else
      match splitAll mark rest with
      | [] => [[c]]
      | part :: parts => (c :: part) :: parts

/-- What follows `word`, when the text begins with it. -/
def after? : List Char → List Char → Option (List Char)
  | [], s => some s
  | _ :: _, [] => none
  | w :: ws, c :: rest => if w = c then after? ws rest else none

/-- Whether the text begins with `word`. -/
def beginsWith (word s : List Char) : Bool := (after? word s).isSome

/-- The characters of `s` before the first of `mark`, and what follows that `mark`; none when a line ends
first. -/
def untilOnLine? (mark : List Char) : List Char → Option (List Char × List Char)
  | [] => (after? mark []).map fun rest => ([], rest)
  | c :: rest =>
    match after? mark (c :: rest) with
    | some right => some ([], right)
    | none =>
      if c = '\n' then none
      else (untilOnLine? mark rest).map fun (left, right) => (c :: left, right)

/-- The first answer that `f` gives at a suffix of the text, longest suffix first. -/
def firstFrom (f : List Char → Option α) : List Char → Option α
  | [] => f []
  | c :: rest => (f (c :: rest)).orElse fun _ => firstFrom f rest

/-! ## Laws -/

theorem splitAt?_eq_some {mark : Char} {s left right : List Char}
    (h : splitAt? mark s = some (left, right)) : s = left ++ mark :: right ∧ mark ∉ left := by
  induction s generalizing left right with
  | nil => simp [splitAt?] at h
  | cons c rest ih =>
    rw [splitAt?] at h
    split at h
    · next hc => simp at h; obtain ⟨rfl, rfl⟩ := h; simp [hc]
    · next hc =>
      obtain ⟨⟨l, r⟩, hl, hr⟩ := Option.map_eq_some_iff.1 h
      simp at hr
      obtain ⟨rfl, rfl⟩ := hr
      obtain ⟨hs, hm⟩ := ih hl
      refine ⟨by simp [hs], ?_⟩
      simp only [List.mem_cons, not_or]
      exact ⟨fun h => hc h.symm, hm⟩

theorem after?_eq_some_iff {word s rest : List Char} : after? word s = some rest ↔ s = word ++ rest := by
  induction word generalizing s with
  | nil => simp [after?, eq_comm]
  | cons w ws ih =>
    cases s with
    | nil => simp [after?]
    | cons c cs =>
      rw [after?]
      by_cases h : w = c
      · simp [h, ih]
      · simp [h, Ne.symm h]

end ModuleScaffold.Text
