import ModuleScaffold.Proofs.Reading.Part

/-! # Tokens of a configuration

A text falls apart into words, quoted texts and marks. Blanks only stand between them, and a line feed is a mark
of its own. The laws say which tokens a text has that is written piece by piece. -/

namespace ModuleScaffold.Reading

inductive Token where
  | word (text : String)
  /-- What stands between two quotes, escapes included. -/
  | quoted (text : String)
  | mark (c : Char)
  deriving DecidableEq, Repr

namespace Token

def marks : List Char := ['(', ')', '\x7b', '\x7d', '=', '\n']

theorem of_mem_marks {c : Char} (h : c ∈ marks) : Text.isIdentifierChar c = false ∧ c ≠ '"' ∧ c ≠ ' ' := by
  have hall : (marks.all fun c => !Text.isIdentifierChar c && c != '"' && c != ' ') = true := by decide
  simpa [and_assoc] using List.all_eq_true.mp hall c h

/-- The word that was collected up to here, last character first, if there is one. -/
def ended (before : List Char) : List Token :=
  if before.isEmpty then [] else [word (String.ofList before.reverse)]

mutual

/-- The tokens of a text, with the characters of a word before it, last character first. -/
def readFrom (before : List Char) : List Char → Option (List Token)
  | [] => some (ended before)
  | c :: rest =>
    if Text.isIdentifierChar c then readFrom (c :: before) rest
    else if c = '"' then (readQuoted [] rest).map (ended before ++ ·)
    else if c = ' ' then (readFrom [] rest).map (ended before ++ ·)
    else if c ∈ marks then (readFrom [] rest).map fun ts => ended before ++ mark c :: ts
    else none

/-- The tokens from inside a quoted text on, whose characters up to here are given last character first. -/
def readQuoted (before : List Char) : List Char → Option (List Token)
  | [] => none
  | c :: rest =>
    if c = '"' then (readFrom [] rest).map (quoted (String.ofList before.reverse) :: ·)
    else if c = '\\' then
      match rest with
      | [] => none
      | d :: rest => readQuoted (d :: c :: before) rest
    else readQuoted (c :: before) rest

end

/-- The tokens of a text. -/
def read (s : String) : Option (List Token) := readFrom [] s.toList

/-- What follows the expected tokens, if they stand at the front. -/
def expect : List Token → List Token → Option (List Token)
  | [], ts => some ts
  | _ :: _, [] => none
  | w :: ws, t :: ts => if w = t then expect ws ts else none

end Token

/-! ## Pieces of a text -/

/-- A text has these tokens, whatever follows it. -/
def Lexes (s : List Char) (ts : List Token) : Prop :=
  ∀ rest, Token.readFrom [] (s ++ rest) = (Token.readFrom [] rest).map (ts ++ ·)

namespace Lexes

theorem nil : Lexes [] [] := by
  intro rest
  simp

theorem append {s t : List Char} {ts us : List Token} (hs : Lexes s ts) (ht : Lexes t us) :
    Lexes (s ++ t) (ts ++ us) := by
  intro rest
  rw [List.append_assoc, hs, ht, Option.map_map]
  congr 1
  funext vs
  exact (List.append_assoc ts us vs).symm

theorem read {s : String} {ts : List Token} (h : Lexes s.toList ts) : Token.read s = some ts := by
  have hread := h []
  rw [List.append_nil] at hread
  rw [Token.read, hread]
  simp [Token.readFrom, Token.ended]

theorem unique {s : List Char} {ts us : List Token} (ht : Lexes s ts) (hu : Lexes s us) : ts = us := by
  have htokens := (ht []).symm.trans (hu [])
  simpa [Token.readFrom, Token.ended] using htokens

theorem mark {c : Char} (h : c ∈ Token.marks) : Lexes [c] [.mark c] := by
  intro rest
  obtain ⟨hname, hquote, hspace⟩ := Token.of_mem_marks h
  rw [List.singleton_append, Token.readFrom, if_neg (by simp [hname]), if_neg hquote, if_neg hspace, if_pos h]
  rfl

theorem blank : Lexes [' '] [] := by
  intro rest
  have hname : Text.isIdentifierChar ' ' = false := by decide
  rw [List.singleton_append, Token.readFrom, if_neg (by simp [hname]), if_neg (by decide), if_pos rfl]
  rfl

theorem pad {pad : List Char} (h : IsPad pad) : Lexes pad [] := by
  induction pad with
  | nil => exact nil
  | cons c pad ih =>
    have hc : c = ' ' := h c List.mem_cons_self
    subst hc
    exact blank.append (ih fun d hd => h d (List.mem_cons_of_mem _ hd))

/-- A word ends before a character that cannot stand in it. -/
theorem readFrom_word {w before rest : List Char} (hw : ∀ c ∈ w, Text.isIdentifierChar c = true) :
    Token.readFrom before (w ++ rest) = Token.readFrom (w.reverse ++ before) rest := by
  induction w generalizing before with
  | nil => rfl
  | cons c w ih =>
    rw [List.cons_append, Token.readFrom, if_pos (hw c List.mem_cons_self),
      ih fun d hd => hw d (List.mem_cons_of_mem _ hd)]
    simp

theorem readFrom_ended {before : List Char} {c : Char} (hc : Text.isIdentifierChar c = false) (rest : List Char) :
    Token.readFrom before (c :: rest) = (Token.readFrom [] (c :: rest)).map (Token.ended before ++ ·) := by
  have hnil : Token.ended [] = [] := rfl
  have hif : ¬ Text.isIdentifierChar c = true := by simp [hc]
  unfold Token.readFrom
  rw [if_neg hif, if_neg hif]
  split
  · simp [hnil]
  · split
    · simp [hnil]
    · split
      · rw [Option.map_map]
        rfl
      · rfl

theorem word {w : List Char} (hw : Text.IsName w) {c : Char} {s : List Char} {ts : List Token}
    (hc : Text.isIdentifierChar c = false) (hs : Lexes (c :: s) ts) :
    Lexes (w ++ c :: s) (.word (String.ofList w) :: ts) := by
  intro rest
  have hended : Token.ended w.reverse = [.word (String.ofList w)] := by simp [Token.ended, hw.ne_nil]
  have hrest : (w ++ c :: s) ++ rest = w ++ c :: (s ++ rest) := by simp
  have hread := hs rest
  rw [List.cons_append] at hread
  rw [hrest, readFrom_word hw.all, List.append_nil, readFrom_ended hc, hread, hended, Option.map_map]
  rfl

end Lexes

/-! ## Quoted texts -/

/-- A text that may stand between quotes: no quote in it ends it. -/
def IsQuotable (s : List Char) : Prop :=
  ∀ before rest, Token.readQuoted before (s ++ rest) = Token.readQuoted (s.reverse ++ before) rest

namespace IsQuotable

theorem nil : IsQuotable [] := fun _ _ => rfl

theorem append {s t : List Char} (hs : IsQuotable s) (ht : IsQuotable t) : IsQuotable (s ++ t) := by
  intro before rest
  rw [List.append_assoc, hs, ht, List.reverse_append, List.append_assoc]

theorem char {c : Char} (hq : c ≠ '"') (hb : c ≠ '\\') : IsQuotable [c] := by
  intro before rest
  rw [List.singleton_append, Token.readQuoted.eq_def]
  simp only [if_neg hq, if_neg hb]
  rfl

theorem escape (c : Char) : IsQuotable ['\\', c] := by
  intro before rest
  rw [List.cons_append, List.singleton_append, Token.readQuoted.eq_def]
  rfl

theorem of_not_mem {s : List Char} (hq : '"' ∉ s) (hb : '\\' ∉ s) : IsQuotable s := by
  induction s with
  | nil => exact nil
  | cons c s ih =>
    simp only [List.mem_cons, not_or] at hq hb
    exact (char (Ne.symm hq.1) (Ne.symm hb.1)).append (ih hq.2 hb.2)

theorem flatMap {f : Char → List Char} (hf : ∀ c, IsQuotable (f c)) (s : List Char) :
    IsQuotable (s.flatMap f) := by
  induction s with
  | nil => exact nil
  | cons c s ih =>
    rw [List.flatMap_cons]
    exact (hf c).append ih

theorem lexes {s : List Char} (h : IsQuotable s) :
    Lexes ('"' :: (s ++ ['"'])) [.quoted (String.ofList s)] := by
  intro rest
  have hname : Text.isIdentifierChar '"' = false := by decide
  have hread := h [] ('"' :: rest)
  rw [List.append_nil] at hread
  rw [List.cons_append, List.append_assoc, List.singleton_append, Token.readFrom, if_neg (by simp [hname]),
    if_pos rfl, hread, Token.readQuoted.eq_def]
  simp only [if_true, Option.map_map, List.reverse_reverse]
  rfl

end IsQuotable

end ModuleScaffold.Reading
