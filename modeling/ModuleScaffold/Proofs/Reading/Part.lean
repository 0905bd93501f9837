import ModuleScaffold.AttributeType
import ModuleScaffold.Proofs.Text.Identifier
import ModuleScaffold.Proofs.Text.Lines

/-! # Reading a configuration back

A file of the configuration language falls apart into lines and into groups of lines between braces. Blank
lines and comments say nothing. The laws say what the reader makes of a text that is written piece by piece. -/

namespace ModuleScaffold.Reading

/-- A line of a file, or what stands between a line that opens a brace and the line that closes it. -/
inductive Part where
  | line (text : List Char)
  | group (opening : List Char) (inner : List Part)

def isSilent (text : List Char) : Bool := text.isEmpty || Text.beginsWith ['/', '/'] text

/-- Where reading has come to: the parts before this place in the innermost open group, last part first, and for
every open group, innermost first, the line that opened it and the parts before it. -/
structure Cursor where
  before : List Part
  around : List (List Char × List Part)

namespace Cursor

def next (c : Cursor) (l : List Char) : Option Cursor :=
  let text := Text.trimLeft l
  if isSilent text then some c
  else if text.head? = some '\x7d' then
    match c.around with
    | [] => none
    | (opening, outer) :: around => some ⟨.group opening c.before.reverse :: outer, around⟩
  else if text.getLast? = some '\x7b' then some ⟨[], (text, c.before) :: c.around⟩
  else some ⟨.line text :: c.before, c.around⟩

def run (c : Cursor) : List (List Char) → Option Cursor
  | [] => some c
  | l :: rest => (c.next l).bind fun c => c.run rest

end Cursor

def parts (s : String) : Option (List Part) :=
  match Cursor.run ⟨[], []⟩ (Text.lines s.toList) with
  | some ⟨before, []⟩ => some before.reverse
  | _ => none

/-! ## Pieces of a line -/

def assignment? (text : List Char) : Option (String × String) :=
  (Text.splitAt? '=' text).map fun (left, right) =>
    (String.ofList (Text.trim left), String.ofList (Text.trim right))

/-- The first label of a line that opens a block of this kind. -/
def label? (kind : String) (opening : List Char) : Option String :=
  (Text.after? (kind.toList ++ [' ', '"']) opening).bind fun rest =>
    (Text.splitAt? '"' rest).map fun (label, _) => String.ofList label

/-! ## What a text reads as -/

/-- A text that consists of whole lines, the reading of which adds these parts wherever it stands. -/
def Reads (s : List Char) (ps : List Part) : Prop :=
  ∃ ls, s = Text.unlines ls ∧ (∀ l ∈ ls, Text.IsLine l) ∧
    ∀ before around, Cursor.run ⟨before, around⟩ ls = some ⟨ps.reverse ++ before, around⟩

theorem Cursor.run_append (c : Cursor) (ls ks : List (List Char)) :
    c.run (ls ++ ks) = (c.run ls).bind fun c => c.run ks := by
  induction ls generalizing c with
  | nil => rfl
  | cons l ls ih =>
    rw [List.cons_append, run, run]
    cases c.next l with
    | none => rfl
    | some c => exact ih c

theorem Reads.nil : Reads [] [] := ⟨[], rfl, by simp, fun _ _ => rfl⟩

theorem Reads.append {s t : List Char} {ps qs : List Part} (hs : Reads s ps) (ht : Reads t qs) :
    Reads (s ++ t) (ps ++ qs) := by
  obtain ⟨ls, rfl, hls, hps⟩ := hs
  obtain ⟨ks, rfl, hks, hqs⟩ := ht
  refine ⟨ls ++ ks, (Text.unlines_append ls ks).symm, ?_, ?_⟩
  · intro l hl
    rcases List.mem_append.mp hl with hl | hl
    · exact hls l hl
    · exact hks l hl
  · intro before around
    rw [Cursor.run_append, hps, Option.bind_some, hqs, List.reverse_append, List.append_assoc]

theorem Reads.parts {s : String} {ps : List Part} (h : Reads s.toList ps) : parts s = some ps := by
  obtain ⟨ls, hs, hls, hps⟩ := h
  rw [Reading.parts, hs, Text.lines_unlines hls, hps]
  simp

/-- A text whose parts, read one by one, give these answers. -/
def Yields {α : Type} (read? : Part → Option α) (s : List Char) (as : List α) : Prop :=
  ∃ ps, Reads s ps ∧ ps.mapM read? = some as

section

variable {α β : Type} {read? : Part → Option α} {s t : List Char} {as bs : List α}

theorem Yields.of_silent (h : Reads s []) : Yields read? s [] := ⟨[], h, rfl⟩

theorem Yields.append (hs : Yields read? s as) (ht : Yields read? t bs) : Yields read? (s ++ t) (as ++ bs) := by
  obtain ⟨ps, hps, has⟩ := hs
  obtain ⟨qs, hqs, hbs⟩ := ht
  refine ⟨ps ++ qs, hps.append hqs, ?_⟩
  rw [List.mapM_append, has, hbs]
  rfl

theorem Yields.flatMap {es : List β} {write : β → List String} {value : β → List α}
    (h : ∀ e ∈ es, Yields read? (Text.charsOf (write e)) (value e)) :
    Yields read? (Text.charsOf (es.flatMap write)) (es.flatMap value) := by
  induction es with
  | nil => exact .of_silent .nil
  | cons e es ih =>
    rw [List.flatMap_cons, List.flatMap_cons, Text.charsOf_append]
    exact (h e List.mem_cons_self).append (ih fun d hd => h d (List.mem_cons_of_mem _ hd))

end

theorem Reads.blank : Reads ['\n'] [] := ⟨[[]], rfl, by simp [Text.IsLine], fun _ _ => rfl⟩

def IsPad (pad : List Char) : Prop := ∀ c ∈ pad, c = ' '

theorem IsPad.nil : IsPad [] := by
  intro c hc
  cases hc

theorem IsPad.isBlank {pad : List Char} (h : IsPad pad) : ∀ c ∈ pad, Text.isBlank c = true := by
  intro c hc
  rw [h c hc]
  decide

theorem IsPad.append {pad more : List Char} (h : IsPad pad) (hm : IsPad more) : IsPad (pad ++ more) := by
  intro c hc
  rcases List.mem_append.mp hc with hc | hc
  · exact h c hc
  · exact hm c hc

theorem IsPad.isLine {pad text : List Char} (h : IsPad pad) (hne : text ≠ []) (ht : Text.IsLine text) :
    Text.IsLine (pad ++ text) := by
  constructor
  · intro hm
    rcases List.mem_append.mp hm with hm | hm
    · exact absurd (h _ hm) (by decide)
    · exact ht.1 hm
  · rw [List.getLast?_append, List.getLast?_eq_some_getLast hne, Option.some_or,
      ← List.getLast?_eq_some_getLast hne]
    exact ht.2

theorem Reads.comment {pad text : List Char} (hp : IsPad pad) (ht : Text.IsLine ('/' :: '/' :: text)) :
    Reads (pad ++ '/' :: '/' :: text ++ ['\n']) [] := by
  have htrim : Text.trimLeft (pad ++ '/' :: '/' :: text) = '/' :: '/' :: text := by
    rw [Text.trimLeft_append _ _ hp.isBlank, Text.trimLeft_eq_self]
    intro c hc
    cases hc
    decide
  refine ⟨[pad ++ '/' :: '/' :: text], rfl, ?_, ?_⟩
  · intro l hl
    rw [List.mem_singleton.mp hl]
    exact hp.isLine (by simp) ht
  · intro before around
    rw [Cursor.run, Cursor.next, htrim]
    rfl

/-- A line that says something: it begins with a word. -/
structure IsWorded (text : List Char) : Prop where
  isLine : Text.IsLine text
  word : ∃ c, text.head? = some c ∧ Text.isIdentifierChar c = true

namespace IsWorded

variable {text : List Char}

theorem ne_nil (h : IsWorded text) : text ≠ [] := by
  obtain ⟨c, hc, -⟩ := h.word
  intro he
  rw [he] at hc
  cases hc

theorem head_ne (h : IsWorded text) (mark : Char) (hm : Text.isIdentifierChar mark = false) :
    text.head? ≠ some mark := by
  obtain ⟨c, hc, hid⟩ := h.word
  rw [hc]
  intro he
  cases he
  rw [hid] at hm
  cases hm

theorem trimLeft (h : IsWorded text) {pad : List Char} (hp : IsPad pad) :
    Text.trimLeft (pad ++ text) = text := by
  obtain ⟨c, hc, hid⟩ := h.word
  rw [Text.trimLeft_append _ _ hp.isBlank, Text.trimLeft_eq_self]
  intro x hx
  rw [hc] at hx
  cases hx
  exact Text.isBlank_of_isIdentifierChar c hid

theorem not_blank (h : IsWorded text) (pad : List Char) : Text.allBlank (pad ++ text) = false := by
  obtain ⟨c, hc, hid⟩ := h.word
  have hm : c ∈ pad ++ text := List.mem_append_right _ (List.mem_of_mem_head? hc)
  unfold Text.allBlank
  rw [List.all_eq_false]
  exact ⟨c, hm, by simp [Text.isBlank_of_isIdentifierChar c hid]⟩

theorem not_silent (h : IsWorded text) : isSilent text = false := by
  have hslash := h.head_ne '/' (by decide)
  cases text with
  | nil => exact absurd rfl h.ne_nil
  | cons c rest =>
    have hc : '/' ≠ c := fun he => hslash (by rw [he]; rfl)
    simp [isSilent, Text.beginsWith, Text.after?, hc]

end IsWorded

theorem Reads.line {pad text : List Char} (hp : IsPad pad) (ht : IsWorded text)
    (hlast : text.getLast? ≠ some '\x7b') : Reads (pad ++ text ++ ['\n']) [.line text] := by
  refine ⟨[pad ++ text], rfl, ?_, ?_⟩
  · intro l hl
    rw [List.mem_singleton.mp hl]
    exact hp.isLine ht.ne_nil ht.isLine
  · intro before around
    rw [Cursor.run, Cursor.next]
    simp only [ht.trimLeft hp, ht.not_silent, if_neg (ht.head_ne '\x7d' (by decide)), if_neg hlast]
    rfl

structure IsClosing (text : List Char) : Prop where
  isLine : Text.IsLine text
  head : text.head? = some '\x7d'

theorem IsClosing.brace : IsClosing ['\x7d'] := ⟨⟨by decide, by decide⟩, rfl⟩

theorem IsClosing.ne_nil {text : List Char} (h : IsClosing text) : text ≠ [] := by
  intro he
  have := h.head
  rw [he] at this
  cases this

theorem Reads.group {pad opening inner closing : List Char} {ps : List Part} (hp : IsPad pad)
    (ho : IsWorded opening) (hlast : opening.getLast? = some '\x7b') (hi : Reads inner ps) {pad' : List Char}
    (hp' : IsPad pad') (hc : IsClosing closing) :
    Reads (pad ++ opening ++ ['\n'] ++ inner ++ (pad' ++ closing ++ ['\n'])) [.group opening ps] := by
  have htrim : Text.trimLeft (pad' ++ closing) = closing := by
    rw [Text.trimLeft_append _ _ hp'.isBlank, Text.trimLeft_eq_self]
    intro c hc'
    rw [hc.head] at hc'
    cases hc'
    decide
  have hsilent : isSilent closing = false := by
    obtain ⟨t, ht⟩ := List.head?_eq_some_iff.mp hc.head
    rw [ht]
    rfl
  obtain ⟨ls, rfl, hls, hps⟩ := hi
  refine ⟨(pad ++ opening) :: (ls ++ [pad' ++ closing]), ?_, ?_, ?_⟩
  · simp [Text.unlines, Text.unlines_append]
  · intro l hl
    rcases List.mem_cons.mp hl with rfl | hl
    · exact hp.isLine ho.ne_nil ho.isLine
    · rcases List.mem_append.mp hl with hl | hl
      · exact hls l hl
      · rw [List.mem_singleton.mp hl]
        exact hp'.isLine hc.ne_nil hc.isLine
  · intro before around
    rw [Cursor.run, Cursor.next]
    simp only [ho.trimLeft hp, ho.not_silent, if_neg (ho.head_ne '\x7d' (by decide)), if_pos hlast,
      Bool.false_eq_true, if_false, Option.bind_some]
    rw [Cursor.run_append, hps, Option.bind_some, Cursor.run, Cursor.next]
    simp only [htrim, hsilent, if_pos hc.head, Bool.false_eq_true, if_false, Option.bind_some]
    simp [Cursor.run]

/-! ## Lines of an assignment -/

theorem isPad_indent (depth : Nat) : IsPad (AttributeType.indent depth).toList := by
  intro c hc
  rw [AttributeType.indent, String.toList_ofList] at hc
  exact List.eq_of_mem_replicate hc

theorem isPad_two : IsPad [' ', ' '] := by
  intro c hc
  simpa using hc

structure IsTrimmed (s : List Char) : Prop where
  ne_nil : s ≠ []
  head : ∀ c ∈ s.head?, Text.isBlank c = false
  last : ∀ c ∈ s.getLast?, Text.isBlank c = false

theorem IsTrimmed.of_ends {s : List Char} {a b : Char} (ha : s.head? = some a) (hb : s.getLast? = some b)
    (hna : Text.isBlank a = false) (hnb : Text.isBlank b = false) : IsTrimmed s := by
  refine ⟨?_, ?_, ?_⟩
  · intro he
    rw [he] at ha
    cases ha
  · rw [ha]
    intro c hc
    cases hc
    exact hna
  · rw [hb]
    intro c hc
    cases hc
    exact hnb

theorem IsTrimmed.of_not_blank {s : List Char} (hne : s ≠ []) (h : ∀ c ∈ s, Text.isBlank c = false) : IsTrimmed s :=
  ⟨hne, fun c hc => h c (List.mem_of_mem_head? hc), fun c hc => h c (List.mem_of_getLast? hc)⟩

theorem isLine_of_not_blank {s : List Char} (h : ∀ c ∈ s, Text.isBlank c = false) : Text.IsLine s := by
  constructor
  · intro hm
    exact absurd (h _ hm) (by decide)
  · intro hl
    exact absurd (h _ (List.mem_of_getLast? hl)) (by decide)

structure IsPath (s : List Char) : Prop where
  ne_nil : s ≠ []
  all : ∀ c ∈ s, Text.isIdentifierChar c = true ∨ c = '.'

namespace IsPath

variable {s : List Char}

theorem of_isName (h : Text.IsName s) : IsPath s := ⟨h.ne_nil, fun c hc => Or.inl (h.all c hc)⟩

theorem append_name (h : IsPath s) {name : List Char} (hn : Text.IsName name) :
    IsPath (s ++ '.' :: name) := by
  refine ⟨by simp, ?_⟩
  intro c hc
  rcases List.mem_append.mp hc with hc | hc
  · exact h.all c hc
  · rcases List.mem_cons.mp hc with rfl | hc
    · exact Or.inr rfl
    · exact Or.inl (hn.all c hc)

theorem not_blank (h : IsPath s) : ∀ c ∈ s, Text.isBlank c = false := by
  intro c hc
  rcases h.all c hc with hc | rfl
  · exact Text.isBlank_of_isIdentifierChar c hc
  · decide

theorem not_mem (h : IsPath s) (mark : Char) (hm : Text.isIdentifierChar mark = false) (hp : mark ≠ '.') :
    mark ∉ s := by
  intro hs
  rcases h.all mark hs with hc | hc
  · rw [hc] at hm
    cases hm
  · exact hp hc

theorem isTrimmed (h : IsPath s) : IsTrimmed s := .of_not_blank h.ne_nil h.not_blank

theorem isLine (h : IsPath s) : Text.IsLine s := isLine_of_not_blank h.not_blank

theorem getLast?_ne (h : IsPath s) (mark : Char) (hm : Text.isIdentifierChar mark = false) (hp : mark ≠ '.') :
    s.getLast? ≠ some mark :=
  fun hl => h.not_mem mark hm hp (List.mem_of_getLast? hl)

end IsPath

def assigning (name value : List Char) : List Char := name ++ [' ', '=', ' '] ++ value

theorem assignment?_assigning {name value : List Char} (hn : Text.IsName name) (hv : IsTrimmed value) :
    assignment? (assigning name value) = some (String.ofList name, String.ofList value) := by
  have heq : '=' ∉ name ++ [' '] := by
    intro hm
    rcases List.mem_append.mp hm with hm | hm
    · exact hn.not_mem '=' (by decide) hm
    · simp at hm
  have hcut : Text.splitAt? '=' (assigning name value) = some (name ++ [' '], [' '] ++ value) := by
    rw [← Text.splitAt?_append '=' _ _ heq]
    simp [assigning]
  have hname : Text.trim (name ++ [' ']) = name :=
    Text.trim_between [] name [' '] (by simp) (by simp [Text.isBlank]) hn.ne_nil
      (fun c hc => hn.not_blank c (List.mem_of_mem_head? hc))
      (fun c hc => hn.not_blank c (List.mem_of_getLast? hc))
  have hvalue : Text.trim ([' '] ++ value) = value := by
    have h := Text.trim_between [' '] value [] (by simp [Text.isBlank]) (by simp) hv.ne_nil hv.head hv.last
    rwa [List.append_nil] at h
  rw [assignment?, hcut, Option.map_some]
  simp only [hname, hvalue]

theorem isWorded_assigning {name value : List Char} (hn : Text.IsName name) (hne : value ≠ [])
    (hv : Text.IsLine value) : IsWorded (assigning name value) := by
  constructor
  · constructor
    · unfold assigning
      intro hm
      simp only [List.mem_append] at hm
      rcases hm with (hm | hm) | hm
      · exact hn.not_mem '\n' (by decide) hm
      · simp at hm
      · exact hv.1 hm
    · rw [assigning, List.getLast?_append, List.getLast?_eq_some_getLast hne, Option.some_or,
        ← List.getLast?_eq_some_getLast hne]
      exact hv.2
  · cases name with
    | nil => exact absurd rfl hn.ne_nil
    | cons c name => exact ⟨c, rfl, hn.all c List.mem_cons_self⟩

theorem getLast?_assigning {name value : List Char} (hne : value ≠ []) :
    (assigning name value).getLast? = value.getLast? := by
  rw [assigning, List.getLast?_append, List.getLast?_eq_some_getLast hne, Option.some_or]

theorem isTrimmed_assigning {name value : List Char} (hn : Text.IsName name) (hv : IsTrimmed value) :
    IsTrimmed (assigning name value) := by
  refine ⟨by simp [assigning], ?_, ?_⟩
  · cases name with
    | nil => exact absurd rfl hn.ne_nil
    | cons c name =>
      intro x hx
      cases hx
      exact hn.not_blank c List.mem_cons_self
  · rw [getLast?_assigning hv.ne_nil]
    exact hv.last

/-! ## Lines that open a block -/

def blockOpening (kind : String) (label rest : List Char) : List Char :=
  kind.toList ++ [' ', '"'] ++ label ++ '"' :: rest

theorem getLast?_blockOpening (kind : String) (label : List Char) {rest : List Char} (hne : rest ≠ []) :
    (blockOpening kind label rest).getLast? = rest.getLast? := by
  rw [blockOpening, List.getLast?_append, List.getLast?_cons_of_ne_nil hne,
    List.getLast?_eq_some_getLast hne, Option.some_or]

theorem isWorded_blockOpening (kind : String) {label : List Char} (rest : List Char) (hk : Text.IsName kind.toList)
    (hl : '\n' ∉ label) (hne : rest ≠ []) (hr : Text.IsLine rest) :
    IsWorded (blockOpening kind label rest) := by
  constructor
  · constructor
    · unfold blockOpening
      intro hm
      simp only [List.mem_append, List.mem_cons] at hm
      rcases hm with ((hm | hm) | hm) | hm | hm
      · exact hk.not_mem '\n' (by decide) hm
      · simp at hm
      · exact hl hm
      · cases hm
      · exact hr.1 hm
    · rw [getLast?_blockOpening kind label hne]
      exact hr.2
  · obtain ⟨c, more, hc⟩ := List.exists_cons_of_ne_nil hk.ne_nil
    refine ⟨c, ?_, hk.all c (by rw [hc]; exact List.mem_cons_self)⟩
    rw [blockOpening, hc]
    rfl

theorem label?_blockOpening (kind : String) (label rest : List Char) (h : '"' ∉ label) :
    label? kind (blockOpening kind label rest) = some (String.ofList label) := by
  unfold label? blockOpening
  rw [List.append_assoc, Text.after?_append, Option.bind_some, Text.splitAt?_append '"' label rest h]
  rfl

end ModuleScaffold.Reading
