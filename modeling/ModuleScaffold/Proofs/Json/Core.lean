import ModuleScaffold.Proofs.Json.Meaning
import ModuleScaffold.Proofs.Table

/-! # What a value says at its shape

The core of a value is what is left of it when members that hold their default, members that a record does not have and the
order of members are left out. Main statement: a member of the core of a record is the core of the member, unless that is
the default, `find?_arranged_record`. -/

namespace ModuleScaffold.Json

variable {ρ : Type}

/-- The shape of the value of a member. -/
def Shape.member? (v : Vocabulary ρ) (shape : Shape ρ) (key : String) : Option (Shape ρ) :=
  match shape.plain with
  | .any => some .any
  | .table value => some value
  | .record name => memberShape? key (v.members name)
  | _ => none

/-- The shape of the element at a place of a list. -/
def Shape.element? (v : Vocabulary ρ) (shape : Shape ρ) (place : Nat) : Option (Shape ρ) :=
  match shape.plain with
  | .any => some .any
  | .list element => some element
  | .record name => ((v.members name)[place]?).map (·.2)
  | _ => none

section Definitions

variable (v : Vocabulary ρ) (words : List String)

/-- Whether a value means what an absent member means; of all words only the given ones have a meaning of their own. -/
def isDefault : Shape ρ → Json → Bool
  | .text, string s => s == ""
  | .flag, bool b => !b
  | .count, number n => n == .whole 0
  | .word, string word => !words.contains word
  | .optional _, null => true
  | .table _, object js => js.isEmpty
  | .record _, object js => js.isEmpty
  | _, _ => false

/-- The member of a record, unless it is the default. -/
def kept? (fields : List (String × Shape ρ)) (js : List (String × Json)) (name : String) : Option Json :=
  (memberShape? name fields).bind fun shape => (Table.find? name js).filter fun j => !isDefault words shape j

/-- The members of an object in a fixed order, of a record only those that are not the default. -/
def arranged (shape : Shape ρ) (js : List (String × Json)) : List (String × Json) :=
  match shape.plain with
  | .record name =>
    ((v.members name).map (·.1)).filterMap fun n => (kept? words (v.members name) js n).map (n, ·)
  | _ => Table.ofList js

mutual

/-- What is left of a value at its shape without members that say nothing and without the order of members. -/
def core (shape : Shape ρ) : Json → Json
  | array es =>
    match shape.plain with
    | .any => array (coreAll .any es)
    | .list element => array (coreAll element es)
    | _ => array es
  | object js => object (arranged v words shape (coreEach shape js))
  | j => j

/-- The cores of the elements of a list. -/
def coreAll (shape : Shape ρ) : List Json → List Json
  | [] => []
  | j :: js => core shape j :: coreAll shape js

/-- The cores of the members of an object. -/
def coreEach (shape : Shape ρ) : List (String × Json) → List (String × Json)
  | [] => []
  | (key, j) :: js =>
    (key, match shape.member? v key with
      | some inner => core inner j
      | none => j) :: coreEach shape js

end

end Definitions

/-! ## The cores of members -/

theorem Shape.member?_record {v : Vocabulary ρ} {shape : Shape ρ} {name : ρ} (h : shape.plain = .record name)
    (key : String) : shape.member? v key = memberShape? key (v.members name) := by
  rw [Shape.member?, h]

variable {v : Vocabulary ρ} {words : List String} {shape inner : Shape ρ} {key : String} {j : Json}
  {js others : List (String × Json)}

theorem coreEach_cons (h : shape.member? v key = some inner) :
    coreEach v words shape ((key, j) :: js) = (key, core v words inner j) :: coreEach v words shape js := by
  rw [coreEach, h]

theorem coreEach_eq_map : coreEach v words shape js = js.map fun (key, j) => (key, match shape.member? v key with
    | some inner => core v words inner j
    | none => j) := by
  induction js with
  | nil => rfl
  | cons e js ih =>
    obtain ⟨key, j⟩ := e
    rw [coreEach, ih, List.map_cons]

theorem coreAll_eq_map {es : List Json} : coreAll v words shape es = es.map (core v words shape) := by
  induction es with
  | nil => rfl
  | cons e es ih => rw [coreAll, ih, List.map_cons]

@[simp] theorem names_coreEach : (coreEach v words shape js).map (·.1) = js.map (·.1) := by
  rw [coreEach_eq_map, List.map_map]
  rfl

theorem find?_coreEach (h : shape.member? v key = some inner) :
    Table.find? key (coreEach v words shape js) = (Table.find? key js).map (core v words inner) := by
  have hfind := Table.find?_map (fun name j => match shape.member? v name with
    | some inner => core v words inner j
    | none => j) key js
  rw [coreEach_eq_map, hfind, h]

theorem arranged_record {name : ρ} (h : shape.plain = .record name) : arranged v words shape js =
    ((v.members name).map (·.1)).filterMap fun n => (kept? words (v.members name) js n).map (n, ·) := by
  rw [arranged, h]

/-- An object says the same in whatever order its members stand. -/
theorem core_object_of_perm (hn : (js.map (·.1)).Nodup) (h : js.Perm others) :
    core v words shape (object js) = core v words shape (object others) := by
  have hcores : (coreEach v words shape js).Perm (coreEach v words shape others) := by
    rw [coreEach_eq_map, coreEach_eq_map]
    exact h.map _
  rw [core, core]
  unfold arranged
  split
  · simp only [kept?, Table.find?_eq_of_perm (by simpa using hn) hcores]
  · rw [Table.ofList_eq_of_perm (by simpa using hn) hcores]

/-- A record says the same with a member that holds the default. -/
theorem core_object_cons_of_isDefault {name : ρ} (hshape : shape.plain = .record name)
    (hkey : memberShape? key (v.members name) = some inner) (hj : isDefault words inner (core v words inner j) = true)
    (hnew : key ∉ js.map (·.1)) :
    core v words shape (object ((key, j) :: js)) = core v words shape (object js) := by
  have hmember : shape.member? v key = some inner := by rw [Shape.member?_record hshape, hkey]
  have habsent : Table.find? key (coreEach v words shape js) = none :=
    Table.find?_eq_none_of_not_mem (by rwa [names_coreEach])
  have hkept : kept? words (v.members name) (coreEach v words shape ((key, j) :: js)) =
      kept? words (v.members name) (coreEach v words shape js) := by
    funext n
    rw [kept?, kept?, coreEach_cons hmember, Table.find?]
    by_cases hn : key = n
    · subst hn
      rw [if_pos rfl, habsent, hkey]
      simp [Option.filter, hj]
    · rw [if_neg hn]
  rw [core, core, arranged_record hshape, arranged_record hshape, hkept]

theorem core_optional : core v words (.optional shape) j = core v words shape j := by
  cases j with
  | object js =>
    rw [core, core, coreEach_eq_map, coreEach_eq_map]
    rfl
  | array | null | bool | number | string => rfl

/-- What is found in the core of a record is the core of what is found in the record, unless it is the default. -/
theorem find?_arranged_record {name : ρ} (hshape : shape.plain = .record name)
    (hkey : memberShape? key (v.members name) = some inner) :
    Table.find? key (arranged v words shape (coreEach v words shape js)) =
      ((Table.find? key js).map (core v words inner)).filter fun j => !isDefault words inner j := by
  have hmem : key ∈ (v.members name).map (·.1) := List.mem_map.mpr ⟨_, mem_of_memberShape? hkey, rfl⟩
  have hmember : shape.member? v key = some inner := by rw [Shape.member?_record hshape, hkey]
  rw [arranged_record hshape, Table.find?_filterMap, if_pos hmem, kept?, hkey, Option.bind_some, find?_coreEach hmember]

end ModuleScaffold.Json
