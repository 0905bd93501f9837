import ModuleScaffold.Proofs.Layout
import ModuleScaffold.Proofs.Syntax.Literal
import Mathlib.Data.List.Nodup

/-! # Bodies that are read as a whole

A body and the members of an object are sequences of lines that are read one after the other, each with the names
that are taken so far. Main statements: what stands between lines is skipped, and each kind of line adds its names if
the brackets that it needs may be nested, and stops the reader if not. -/

namespace ModuleScaffold.Hcl.Syntax

open Reading (IsPad assigning)

/-! ## Sequences -/

/-- What a sequence of lines is answered: where so many brackets may be nested, with these names taken, this text has
this answer. -/
abbrev Sequence := Nat → List (List Char) → List Char → Option (List Char) → Prop

def BodyReads : Sequence := fun level names s answer => Answers (body level names s) (8 * s.length + 8) answer

/-- The members of an object that cannot be taken for a loop. -/
def MembersRead : Sequence := fun level keys s answer =>
  Answers (members level keys s) (8 * s.length + 3) answer ∧ keyword? ['f', 'o', 'r'] (breaks s) = none

/-- Reading this text takes the new names and leaves everything behind it, if the brackets that it needs may be
nested. -/
def Adds (R : Sequence) (need : Nat) (new : List (List Char)) (s : List Char) : Prop :=
  ∀ level names tail answer, (new.reverse ++ names).Nodup → R level (new.reverse ++ names) tail answer →
    R level names (s ++ tail) (within need level answer)

/-- A sequence does not see what stands between its lines, and a value may be assigned on a line of it. -/
structure IsSequence (R : Sequence) : Prop where
  skips : ∀ {level names s t answer}, breaks s = breaks t → t.length ≤ s.length → R level names t answer →
    R level names s answer
  assigns : ∀ {need name value}, Text.isIdentifier name = true → name ≠ ['f', 'o', 'r'] → IsExpression need value →
    Adds R need [name] (assigning name value ++ ['\n'])

theorem body_congr {s t : List Char} (h : breaks s = breaks t) (level : Nat) (names : List (List Char)) (n : Nat) :
    body level names s n = body level names t n := by
  cases n with
  | zero => rfl
  | succ n => rw [body, body, h]

theorem members_congr {s t : List Char} (h : breaks s = breaks t) (level : Nat) (keys : List (List Char)) (n : Nat) :
    members level keys s n = members level keys t n := by
  cases n with
  | zero => rfl
  | succ n => rw [members, members, h]

section

variable {level : Nat} {names : List (List Char)} {s t : List Char} {answer : Option (List Char)}

theorem bodyReads_skips (h : breaks s = breaks t) (hl : t.length ≤ s.length) (ht : BodyReads level names t answer) :
    BodyReads level names s answer := by
  intro n hn
  rw [body_congr h]
  exact ht n (by omega)

theorem membersRead_skips (h : breaks s = breaks t) (hl : t.length ≤ s.length) (ht : MembersRead level names t answer) :
    MembersRead level names s answer := by
  refine ⟨fun n hn => ?_, by rw [h]; exact ht.2⟩
  rw [members_congr h]
  exact ht.1 n (by omega)

end

/-! ## Assignments -/

section

variable {level : Nat} {name value : List Char}

theorem breaks_name (hn : Text.isIdentifier name = true) (rest : List Char) : breaks (name ++ rest) = name ++ rest := by
  obtain ⟨c, more, rfl, hc, -⟩ := isIdentifier_cons hn
  exact breaks_solid (isSolid_of_opens (opens_of_isIdentifierStart hc)) _

theorem body_name (hn : Text.isIdentifier name = true) {rest : List Char} (hr : EndsWord rest)
    (names : List (List Char)) (n : Nat) :
    body level names (name ++ rest) (n + 1) = match equals? (gap rest) with
      | some value =>
        if name ∈ names then none
        else
          match expression false level (gap value) n with
          | none => none
          | some rest =>
            match lineRest? rest with
            | some rest => body level (name :: names) rest n
            | none => none
      | none =>
        match labels level (gap rest) n with
        | none => none
        | some rest =>
          match lineRest? rest with
          | some rest => body level names rest n
          | none => none := by
  have hname := identifier?_append hn hr
  have htext := identifierText_append hn hr
  have hbreaks := breaks_name hn rest
  obtain ⟨c, more, rfl, hc, -⟩ := isIdentifier_cons hn
  have hclose : c ≠ '\x7d' := ne_of_opens (opens_of_isIdentifierStart hc) (by decide)
  rw [body, hbreaks]
  split
  · next h => cases h
  · next h => cases h; exact absurd rfl hclose
  · generalize identifier? (c :: more ++ rest) = behind at hname ⊢
    generalize identifierText (c :: more ++ rest) = front at htext ⊢
    subst hname htext
    rfl

theorem lineRest?_feed (rest : List Char) : lineRest? ('\n' :: rest) = some rest := by
  have hgap : gap ('\n' :: rest) = '\n' :: rest := gap_cons (by decide) (by decide) rest
  have hcomment : lineComment? ('\n' :: rest) = none := rfl
  simp only [lineRest?, hgap, hcomment, Option.getD_none]
  rfl

theorem adds_attribute {need : Nat} (hn : Text.isIdentifier name = true) (hv : IsExpression need value) :
    Adds BodyReads need [name] (assigning name value ++ ['\n']) := by
  intro level names tail answer hnodup htail
  have hfresh : name ∉ names := (List.nodup_cons.mp hnodup).1
  have htext : assigning name value ++ ['\n'] ++ tail = name ++ ' ' :: '=' :: ' ' :: (value ++ '\n' :: tail) := by
    simp [assigning]
  rw [BodyReads, htext]
  refine .of_succ fun n hsteps => ?_
  have hread := hv.reads false level ('\n' :: tail) (.feed tail) n
  simp only [List.length_append, List.length_cons] at hsteps hread
  have hequals : equals? (gap (' ' :: '=' :: ' ' :: (value ++ '\n' :: tail))) = some (' ' :: (value ++ '\n' :: tail)) := by
    rw [gap_blank _ (by decide) (by decide)]
    rfl
  have hgap : gap (' ' :: (value ++ '\n' :: tail)) = value ++ '\n' :: tail := hv.head.between_blank false _
  rw [body_name hn (.cons (by decide) _), hequals]
  simp only [if_neg hfresh, hgap]
  rw [hread (by omega)]
  rcases Nat.lt_or_ge level need with hl | hl
  · rw [within_of_lt hl, within_of_lt hl]
  · rw [within_of_le hl, within_of_le hl]
    simp only [lineRest?_feed]
    exact htail n (by omega)

theorem consumed_append (hn : Text.IsName name) (rest : List Char) : consumed (name ++ rest) rest = name := by
  have hlength : (name ++ rest).length - rest.length = name.length := by simp
  have hlast : ∀ c ∈ name.reverse, isGap c = false := by
    intro c hc
    have hsolid := isSolid_of_isIdentifierChar (hn.all c (List.mem_reverse.mp hc))
    simp only [isSolid, isBreak, Bool.and_eq_true, Bool.not_eq_true', Bool.or_eq_false_iff] at hsolid
    exact hsolid.1.1.1.1
  have hdrop : name.reverse.dropWhile isGap = name.reverse := by
    cases hr : name.reverse with
    | nil => rfl
    | cons c more => rw [List.dropWhile_cons, if_neg (by simp [hlast c (by rw [hr]; exact List.mem_cons_self)])]
  rw [consumed, hlength, List.take_left, hdrop, List.reverse_reverse]

theorem members_name (hn : Text.isIdentifier name = true) (rest : List Char) (keys : List (List Char)) {n : Nat}
    (hsteps : 8 * (name ++ ' ' :: '=' :: ' ' :: rest).length + 2 ≤ n) :
    members level keys (name ++ ' ' :: '=' :: ' ' :: rest) (n + 1) =
      if name ∈ keys then none
      else
        match expression false level (gap (' ' :: rest)) n with
        | none => none
        | some rest =>
          match gap rest with
          | '\x7d' :: rest => some rest
          | ',' :: rest => members level (name :: keys) rest n
          | other =>
            if (newline? other).isSome || (lineComment? other).isSome then
              members level (name :: keys) other n
            else none := by
  have hkey := (isOperand_name hn).isExpression.reads false level (' ' :: '=' :: ' ' :: rest)
    (.blank false (by decide) (by decide) rfl) n
  have hconsumed := consumed_append (.of_isIdentifier hn) (' ' :: '=' :: ' ' :: rest)
  have hbreaks := breaks_name hn (' ' :: '=' :: ' ' :: rest)
  rw [members, hbreaks]
  split
  · next h =>
    obtain ⟨c, more, rfl, hc, -⟩ := isIdentifier_cons hn
    cases h
    exact absurd hc (by decide)
  · rw [hkey hsteps, within_zero]
    simp only [hconsumed, gap_blank '=' (by decide) (by decide)]
    rfl

theorem adds_member {need : Nat} (hn : Text.isIdentifier name = true) (hfor : name ≠ ['f', 'o', 'r'])
    (hv : IsExpression need value) : Adds MembersRead need [name] (assigning name value ++ ['\n']) := by
  intro level keys tail answer hnodup htail
  have hfresh : name ∉ keys := (List.nodup_cons.mp hnodup).1
  have htext : assigning name value ++ ['\n'] ++ tail = name ++ ' ' :: '=' :: ' ' :: (value ++ '\n' :: tail) := by
    simp [assigning]
  have hbreaks := breaks_name hn (' ' :: '=' :: ' ' :: (value ++ '\n' :: tail))
  rw [MembersRead, htext, hbreaks]
  refine ⟨.of_succ fun n hsteps => ?_, keyword?_append hn (by decide) hfor (.cons (by decide) _)⟩
  have hread := hv.reads false level ('\n' :: tail) (.feed tail) n
  have hgap : gap (' ' :: (value ++ '\n' :: tail)) = value ++ '\n' :: tail := hv.head.between_blank false _
  have hfeed : gap ('\n' :: tail) = '\n' :: tail := gap_cons (by decide) (by decide) tail
  rw [members_name hn _ keys hsteps, if_neg hfresh, hgap]
  simp only [List.length_append, List.length_cons] at hsteps hread
  rw [hread (by omega)]
  rcases Nat.lt_or_ge level need with hl | hl
  · rw [within_of_lt hl, within_of_lt hl]
  · rw [within_of_le hl, within_of_le hl]
    simp only [hfeed]
    rw [← htail.1 n (by omega), ← members_congr (breaks_feed tail)]
    rfl

end

theorem isSequence_body : IsSequence BodyReads := ⟨bodyReads_skips, fun hn _ hv => adds_attribute hn hv⟩

theorem isSequence_members : IsSequence MembersRead := ⟨membersRead_skips, adds_member⟩

section

variable {R : Sequence} {m n : Nat} {new more : List (List Char)} {s t : List Char}

theorem Adds.nil : Adds R 0 [] [] := by
  intro level names tail answer _ h
  rwa [within_zero]

theorem Adds.append (hs : Adds R m new s) (ht : Adds R n more t) : Adds R (max m n) (new ++ more) (s ++ t) := by
  intro level names tail answer hnodup htail
  rw [List.reverse_append, List.append_assoc] at hnodup htail
  rw [List.append_assoc, within_max]
  exact hs level names _ _ (hnodup.sublist (List.sublist_append_right _ _)) (ht level _ tail answer hnodup htail)

/-- What only stands between lines. -/
theorem IsSequence.silent (hR : IsSequence R) (h : ∀ tail, breaks (s ++ tail) = breaks tail) : Adds R 0 [] s := by
  intro level names tail answer _ htail
  rw [within_zero]
  exact hR.skips (h tail) (by rw [List.length_append]; omega) htail

end

/-! ## Braces -/

theorem bodyReads_end (level : Nat) (names : List (List Char)) : BodyReads level names [] (some []) :=
  .of_succ fun n _ => by rw [body]; rfl

theorem breaks_brace {pad : List Char} (hp : IsPad pad) (rest : List Char) :
    breaks (pad ++ '\x7d' :: rest) = '\x7d' :: rest :=
  (breaks_pad hp _).trans (breaks_solid (by decide) _)

theorem bodyReads_brace (level : Nat) (names : List (List Char)) {pad : List Char} (hp : IsPad pad)
    (rest : List Char) : BodyReads level names (pad ++ '\x7d' :: rest) (some ('\x7d' :: rest)) :=
  .of_succ fun n _ => by rw [body, breaks_brace hp]; rfl

theorem membersRead_brace (level : Nat) (keys : List (List Char)) {pad : List Char} (hp : IsPad pad)
    (rest : List Char) : MembersRead level keys (pad ++ '\x7d' :: rest) (some rest) :=
  ⟨.of_succ fun n _ => by rw [members, breaks_brace hp]; rfl, by rw [breaks_brace hp]; exact keyword?_cons (by decide) _ _⟩

theorem Adds.isMembers {need : Nat} {new : List (List Char)} {s pad : List Char} (h : Adds MembersRead need new s)
    (hnew : new.Nodup) (hp : IsPad pad) : IsMembers need ('\n' :: (s ++ (pad ++ ['\x7d']))) := by
  have hread : ∀ level rest,
      MembersRead level [] ('\n' :: (s ++ (pad ++ ['\x7d'])) ++ rest) (within need level (some rest)) := by
    intro level rest
    have htext : '\n' :: (s ++ (pad ++ ['\x7d'])) ++ rest = '\n' :: (s ++ (pad ++ '\x7d' :: rest)) := by simp
    rw [htext]
    refine membersRead_skips (breaks_feed _) (Nat.le_succ _) (h level [] _ _ ?_ (membersRead_brace level _ hp rest))
    rw [List.append_nil]
    exact List.nodup_reverse.mpr hnew
  exact ⟨fun rest => (hread 0 rest).2, fun level rest => (hread level rest).1⟩

/-- Members on lines of their own, as the object that a type is made of. -/
theorem Adds.isTerm_object {need : Nat} {new : List (List Char)} {s pad : List Char} (h : Adds MembersRead need new s)
    (hnew : new.Nodup) (hp : IsPad pad) :
    IsTerm (need + 2) ("object(\x7b".toList ++ '\n' :: (s ++ (pad ++ "\x7d)".toList))) := by
  have hobject := isTerm_call "object".toList (by decide) (h.isMembers hnew hp).isTerm.isExpression.last
  simpa using hobject

/-- The labels of a block, a blank behind each. -/
def labelText : List (List Char) → List Char
  | [] => []
  | label :: labels => '"' :: (label ++ '"' :: ' ' :: labelText labels)

theorem gap_labelText (ls : List (List Char)) (tail : List Char) :
    gap (' ' :: (labelText ls ++ '\x7b' :: tail)) = labelText ls ++ '\x7b' :: tail := by
  cases ls with
  | nil => exact gap_blank _ (by decide) (by decide) tail
  | cons label ls => exact gap_blank _ (by decide) (by decide) _

theorem labels_labelText {ls : List (List Char)} (hls : ∀ label ∈ ls, Text.IsName label) (level : Nat)
    {tail : List Char} {need : Nat} {answer : Option (List Char)}
    (h : ∀ inner, Answers (braces inner tail) (8 * tail.length + 9) (within need inner answer)) :
    Answers (labels level (labelText ls ++ '\x7b' :: tail))
      (8 * (labelText ls ++ '\x7b' :: tail).length + 9) (within (need + 1) level answer) := by
  induction ls with
  | nil =>
    refine .of_succ fun n hn => ?_
    rw [labelText, List.nil_append, List.length_cons] at hn
    rw [labelText, List.nil_append, labels]
    cases level with
    | zero => rw [if_pos rfl, within_succ_zero]
    | succ inner =>
      rw [if_neg (Nat.succ_ne_zero inner), within_succ]
      exact h inner n (by omega)
  | cons label ls ih =>
    refine .of_succ fun n hn => ?_
    have hrest := ih fun other ho => hls other (List.mem_cons_of_mem _ ho)
    have htext : labelText (label :: ls) ++ '\x7b' :: tail
        = '"' :: (label ++ '"' :: (' ' :: (labelText ls ++ '\x7b' :: tail))) := by simp [labelText]
    rw [htext] at hn ⊢
    simp only [List.length_cons, List.length_append] at hn hrest
    rw [labels, plainString?_name (hls label List.mem_cons_self)]
    simp only [gap_labelText]
    exact hrest n (by omega)

theorem braces_feed (level : Nat) (s : List Char) (n : Nat) :
    braces level ('\n' :: s) (n + 1) = match body level [] ('\n' :: s) n with
      | some ('\x7d' :: rest) => some rest
      | _ => none := by
  rw [braces, gap_cons (by decide) (by decide)]
  rfl

/-- A block adds no name to the body around it. -/
theorem adds_block {need : Nat} {kind s pad : List Char} {ls new : List (List Char)}
    (hk : Text.isIdentifier kind = true) (hls : ∀ label ∈ ls, Text.IsName label) (h : Adds BodyReads need new s)
    (hnew : new.Nodup) (hp : IsPad pad) :
    Adds BodyReads (need + 1) []
      (kind ++ ' ' :: (labelText ls ++ ['\x7b']) ++ ['\n'] ++ s ++ (pad ++ ['\x7d'] ++ ['\n'])) := by
  intro level names tail answer _ htail
  have htext : (kind ++ ' ' :: (labelText ls ++ ['\x7b']) ++ ['\n'] ++ s ++ (pad ++ ['\x7d'] ++ ['\n'])) ++ tail
      = kind ++ ' ' :: (labelText ls ++ '\x7b' :: '\n' :: (s ++ (pad ++ '\x7d' :: '\n' :: tail))) := by simp
  have hinner : ∀ inner, BodyReads inner [] ('\n' :: (s ++ (pad ++ '\x7d' :: '\n' :: tail)))
      (within need inner (some ('\x7d' :: '\n' :: tail))) := by
    intro inner
    refine bodyReads_skips (breaks_feed _) (Nat.le_succ _) (h inner [] _ _ ?_ (bodyReads_brace inner _ hp _))
    rw [List.append_nil]
    exact List.nodup_reverse.mpr hnew
  have hbraces : ∀ inner, Answers (braces inner ('\n' :: (s ++ (pad ++ '\x7d' :: '\n' :: tail))))
      (8 * ('\n' :: (s ++ (pad ++ '\x7d' :: '\n' :: tail))).length + 9) (within need inner (some ('\n' :: tail))) := by
    refine fun inner => .of_succ fun n hn => ?_
    rw [braces_feed, hinner inner n (by omega)]
    rcases Nat.lt_or_ge inner need with hl | hl
    · rw [within_of_lt hl, within_of_lt hl]
    · rw [within_of_le hl, within_of_le hl]
      rfl
  have hlabels := labels_labelText hls level hbraces
  have hequals : equals? (gap (' ' :: (labelText ls ++ '\x7b' :: '\n' :: (s ++ (pad ++ '\x7d' :: '\n' :: tail))))) = none := by
    rw [gap_labelText]
    cases ls <;> rfl
  rw [BodyReads, htext]
  refine .of_succ fun n hn => ?_
  simp only [List.length_append, List.length_cons] at hn hlabels
  rw [body_name hk (.cons (by decide) _), hequals]
  simp only [gap_labelText]
  rw [hlabels n (by omega)]
  rcases Nat.lt_or_ge level (need + 1) with hl | hl
  · rw [within_of_lt hl, within_of_lt hl]
  · rw [within_of_le hl, within_of_le hl]
    simp only [lineRest?_feed]
    exact htail n (by omega)

end ModuleScaffold.Hcl.Syntax
