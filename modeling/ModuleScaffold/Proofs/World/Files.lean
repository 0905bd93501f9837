import ModuleScaffold.World
import ModuleScaffold.Proofs.Text.Cut

/-! # Files that are written

What is written into a file is read from it again, and nothing else in its directory changes. Whether a file can
be written does not depend on what is written. -/

namespace ModuleScaffold

namespace FileTree

variable {name : String} {rest : Location} {es : Table FileTree} {inner t t' : FileTree}

theorem withContent_some (content : List UInt8) (h : Table.find? name es = some inner) :
    (directory es).withContent (name :: rest) content
      = (inner.withContent rest content).map fun inner => directory (Table.insert name inner es) := by
  rw [withContent.eq_def]
  simp only [h]
  cases inner.withContent rest content <;> rfl

theorem withContent_none (content : List UInt8) (h : Table.find? name es = none) :
    (directory es).withContent (name :: rest) content
      = if rest = [] then .ok (directory (Table.insert name (file content) es)) else .error .notFound := by
  rw [withContent.eq_def]
  simp only [h]
  cases rest <;> rfl

/-- Writing below a directory changes one entry of it, or adds one. -/
theorem withContent_cons {content : List UInt8} (h : t.withContent (name :: rest) content = .ok t') :
    ∃ es inner', t = directory es ∧ t' = directory (Table.insert name inner' es) ∧
      ((∃ inner, Table.find? name es = some inner ∧ inner.withContent rest content = .ok inner') ∨
        (Table.find? name es = none ∧ rest = [] ∧ inner' = file content)) := by
  cases t with
  | file _ => cases h
  | directory es =>
    cases hfind : Table.find? name es with
    | none =>
      rw [withContent_none content hfind] at h
      split at h
      · next hrest =>
        cases h
        exact ⟨es, _, rfl, rfl, Or.inr ⟨hfind, hrest, rfl⟩⟩
      · cases h
    | some inner =>
      rw [withContent_some content hfind] at h
      cases hinner : inner.withContent rest content with
      | error _ =>
        rw [hinner] at h
        cases h
      | ok inner' =>
        rw [hinner] at h
        cases h
        exact ⟨es, inner', rfl, rfl, Or.inl ⟨inner, hfind, hinner⟩⟩

theorem find_cons (h : Table.find? name es = some inner) : (directory es).find (name :: rest) = inner.find rest := by
  simp only [find, h]

theorem contentAt_withContent {location : Location} {content : List UInt8}
    (h : t.withContent location content = .ok t') : t'.contentAt location = .ok content := by
  have hfound : t'.find location = .ok (file content) := by
    induction location generalizing t t' with
    | nil =>
      cases t with
      | file _ =>
        cases h
        rfl
      | directory _ => cases h
    | cons name rest ih =>
      obtain ⟨es, inner', rfl, rfl, hentry⟩ := withContent_cons h
      rw [find_cons (Table.find?_insert_self _ _ _)]
      rcases hentry with ⟨inner, -, hinner⟩ | ⟨-, rfl, rfl⟩
      · exact ih hinner
      · rfl
  rw [contentAt, hfound]

/-- Nothing changes at places that part from the written one at the name of its file. -/
theorem find_withContent_of_ne (place : Location) {a b : String} (hab : b ≠ a) {content : List UInt8}
    (h : t.withContent (place ++ [a]) content = .ok t') : t'.find (place ++ [b]) = t.find (place ++ [b]) := by
  induction place generalizing t t' with
  | nil =>
    obtain ⟨es, inner', rfl, rfl, -⟩ := withContent_cons h
    simp only [List.nil_append, find, Table.find?_insert_of_ne hab]
  | cons name rest ih =>
    obtain ⟨es, inner', rfl, rfl, hentry⟩ := withContent_cons h
    rcases hentry with ⟨inner, hfind, hinner⟩ | ⟨-, hrest, -⟩
    · rw [List.cons_append, find_cons (Table.find?_insert_self _ _ _), find_cons hfind]
      exact ih hinner
    · simp at hrest

def accepts : Location → FileTree → Bool
  | [], file _ => true
  | [], directory _ => false
  | _ :: _, file _ => false
  | name :: rest, directory es =>
    match Table.find? name es with
    | some inner => inner.accepts rest
    | none => rest.isEmpty

theorem accepts_some (h : Table.find? name es = some inner) :
    (directory es).accepts (name :: rest) = inner.accepts rest := by
  simp only [accepts, h]

theorem accepts_none (h : Table.find? name es = none) : (directory es).accepts (name :: rest) = rest.isEmpty := by
  simp only [accepts, h]

theorem exists_withContent_iff (location : Location) (content : List UInt8) :
    (∃ t', t.withContent location content = .ok t') ↔ t.accepts location = true := by
  induction location generalizing t with
  | nil => cases t <;> simp [withContent, accepts]
  | cons name rest ih =>
    cases t with
    | file _ => simp [withContent, accepts]
    | directory es =>
      cases hfind : Table.find? name es with
      | none =>
        rw [withContent_none content hfind, accepts_none hfind]
        cases rest <;> simp
      | some inner =>
        rw [withContent_some content hfind, accepts_some hfind, ← ih]
        cases inner.withContent rest content <;> simp [Except.map]

theorem accepts_withContent (place : Location) {a b : String} {content : List UInt8}
    (h : t.withContent (place ++ [a]) content = .ok t') (hb : t.accepts (place ++ [b]) = true) :
    t'.accepts (place ++ [b]) = true := by
  induction place generalizing t t' with
  | nil =>
    obtain ⟨es, inner', rfl, rfl, hentry⟩ := withContent_cons h
    -- The other file may be the written one, which is then a file already.
    by_cases hba : b = a
    · rw [List.nil_append, hba, accepts_some (Table.find?_insert_self _ _ _)]
      rcases hentry with ⟨inner, -, hinner⟩ | ⟨-, -, rfl⟩
      · cases inner with
        | file _ =>
          cases hinner
          rfl
        | directory _ => cases hinner
      · rfl
    · simpa only [List.nil_append, accepts, Table.find?_insert_of_ne hba] using hb
  | cons name rest ih =>
    obtain ⟨es, inner', rfl, rfl, hentry⟩ := withContent_cons h
    rcases hentry with ⟨inner, hfind, hinner⟩ | ⟨-, hrest, -⟩
    · rw [List.cons_append, accepts_some hfind] at hb
      rw [List.cons_append, accepts_some (Table.find?_insert_self _ _ _)]
      exact ih hinner hb
    · simp at hrest

end FileTree

/-! ## Paths -/

namespace Path

theorem follow_append (place : FileTree.Location) (parts more : List (List Char)) :
    follow place (parts ++ more) = follow (follow place parts) more := by
  induction parts generalizing place with
  | nil => rfl
  | cons part rest ih =>
    rw [List.cons_append, follow, follow]
    split
    · exact ih place
    · split
      · exact ih _
      · exact ih _

/-- A name that leads one step down. -/
structure IsPlain (name : List Char) : Prop where
  ne_nil : name ≠ []
  ne_here : name ≠ ['.']
  ne_above : name ≠ ['.', '.']
  no_slash : '/' ∉ name

theorem follow_plain (place : FileTree.Location) {name : List Char} (h : IsPlain name) :
    follow place [name] = place ++ [String.ofList name] := by
  rw [follow, if_neg (by simp [h.ne_nil, h.ne_here]), if_neg h.ne_above, follow]

theorem follow_nil_last (place : FileTree.Location) (parts : List (List Char)) :
    follow place (parts ++ [[]]) = follow place parts := by
  rw [follow_append]
  rfl

theorem locate_join (here : FileTree.Location) (directory name : String) (h : IsPlain name.toList) :
    locate here (join directory name) = locate here directory ++ [name] := by
  have hlast : Text.splitAll '/' name.toList = [name.toList] := Text.splitAll_of_not_mem '/' _ h.no_slash
  have hstep : ∀ place, follow place [name.toList] = place ++ [name] := by
    intro place
    rw [follow_plain place h, String.ofList_toList]
  unfold join
  split
  · next hd =>
    have hstart : Text.beginsWith ['/'] name.toList = false := by
      cases hn : name.toList with
      | nil => rfl
      | cons c cs =>
        have hc : '/' ≠ c := by
          intro he
          exact h.no_slash (by rw [hn, he]; exact List.mem_cons_self)
        simp [Text.beginsWith, Text.after?, hc]
    rw [hd, locate, hstart, hlast]
    exact hstep here
  · next hd =>
    have hne : directory.toList ≠ [] := fun he => hd (String.toList_inj.mp he)
    split
    · next hslash =>
      obtain ⟨before, hbefore⟩ := List.getLast?_eq_some_iff.mp hslash
      have hsplit : Text.splitAll '/' (directory ++ name).toList = Text.splitAll '/' before ++ [name.toList] := by
        rw [String.toList_append, hbefore, List.append_assoc, List.singleton_append, Text.splitAll_join, hlast]
      have hplace : Text.splitAll '/' directory.toList = Text.splitAll '/' before ++ [[]] := by
        rw [hbefore, Text.splitAll_join]
        rfl
      rw [locate, locate, hsplit, hplace, follow_append, follow_nil_last, hstep, String.toList_append,
        Text.beginsWith_append '/' hne]
    · have hsplit : Text.splitAll '/' (directory ++ "/" ++ name).toList
          = Text.splitAll '/' directory.toList ++ [name.toList] := by
        have hjoin := Text.splitAll_join '/' directory.toList name.toList
        rw [hlast] at hjoin
        simpa using hjoin
      rw [locate, locate, hsplit, follow_append, hstep, String.toList_append, String.toList_append,
        List.append_assoc, Text.beginsWith_append '/' hne]

end Path

end ModuleScaffold
