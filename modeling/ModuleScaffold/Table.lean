/-! # Tables

A table holds one value per name and lists its names in increasing order of code points, which is also the
order of their UTF-8 bytes. -/

namespace ModuleScaffold

/-- Names with their values, in increasing order of names. -/
abbrev Table (α : Type u) := List (String × α)

namespace Table

/-- Every name is smaller than all later ones. -/
def Sorted (t : Table α) : Prop := t.Pairwise fun a b => a.1 < b.1

/-- The value of a name. -/
def find? (name : String) : Table α → Option α
  | [] => none
  | (n, a) :: rest => if n = name then some a else find? name rest

/-- Whether a name has a value. -/
def has (name : String) (t : Table α) : Bool := (t.find? name).isSome

/-- The table with `name` set to `value`, in place of its old value if it had one. -/
def insert (name : String) (value : α) : Table α → Table α
  | [] => [(name, value)]
  | (n, a) :: rest =>
    if name < n then (name, value) :: (n, a) :: rest
    else if n = name then (name, value) :: rest
    else (n, a) :: insert name value rest

/-- The table without `name`. -/
def erase (name : String) (t : Table α) : Table α := t.filter fun e => e.1 ≠ name

/-- The table of a list in which a later value replaces an earlier one of the same name. -/
def ofList (entries : List (String × α)) : Table α :=
  entries.foldl (fun t e => t.insert e.1 e.2) []

/-- The values in the order of their names. -/
def values (t : Table α) : List α := t.map (·.2)

/-- The table with `f` applied to the value of `name`, or to `start` when it has none. -/
def update (name : String) (start : α) (f : α → α) (t : Table α) : Table α :=
  t.insert name (f ((t.find? name).getD start))

/-! ## Laws -/

@[simp] theorem find?_nil (name : String) : find? name ([] : Table α) = none := rfl

theorem find?_insert_self (name : String) (value : α) (t : Table α) :
    (t.insert name value).find? name = some value := by
  induction t with
  | nil => simp [insert, find?]
  | cons e rest ih =>
    obtain ⟨n, a⟩ := e
    rw [insert]
    split
    · simp [find?]
    · split
      · simp [find?]
      · next h => simp [find?, h, ih]

theorem find?_insert_of_ne {name other : String} (h : other ≠ name) (value : α) (t : Table α) :
    (t.insert name value).find? other = t.find? other := by
  induction t with
  | nil => simp [insert, find?, Ne.symm h]
  | cons e rest ih =>
    obtain ⟨n, a⟩ := e
    rw [insert]
    split
    · simp [find?, Ne.symm h]
    · split
      · next hn => subst hn; simp [find?, Ne.symm h]
      · simp [find?, ih]

theorem find?_erase_self (name : String) (t : Table α) : (t.erase name).find? name = none := by
  induction t with
  | nil => rfl
  | cons e rest ih =>
    obtain ⟨n, a⟩ := e
    by_cases h : n = name
    · simpa [erase, h] using ih
    · simpa [erase, h, find?] using ih

theorem find?_erase_of_ne {name other : String} (h : other ≠ name) (t : Table α) :
    (t.erase name).find? other = t.find? other := by
  induction t with
  | nil => rfl
  | cons e rest ih =>
    obtain ⟨n, a⟩ := e
    by_cases hn : n = name
    · subst hn; simpa [erase, find?, Ne.symm h] using ih
    · by_cases ho : n = other
      · simp [erase, find?, ho, h]
      · simpa [erase, hn, find?, ho] using ih

end Table
end ModuleScaffold
