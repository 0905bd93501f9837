import ModuleScaffold.Json.Fault

/-! # Shapes of documents

What a reader expects at a place of a document. Records have names, so that a shape may contain itself. -/

namespace ModuleScaffold.Json

/-- What is expected at a place; `ρ` names the records. -/
inductive Shape (ρ : Type) where
  /-- A string. -/
  | text
  /-- `true` or `false`. -/
  | flag
  /-- A whole number that fits 64 bits. -/
  | count
  /-- A word out of some list, as a string or as the only key of an object with `null` behind it. -/
  | word
  /-- Any value. -/
  | any
  /-- The inner shape or `null`. -/
  | optional (inner : Shape ρ)
  /-- A list of elements of one shape. -/
  | list (element : Shape ρ)
  /-- An object with any keys and values of one shape. -/
  | table (value : Shape ρ)
  /-- An object with the members of a record, or a list of their values in the order of the record. -/
  | record (name : ρ)

/-- The records of a family of documents. -/
structure Vocabulary (ρ : Type) where
  /-- The name of a record in messages. -/
  title : ρ → String
  /-- The members of a record, each of which may be absent. -/
  members : ρ → List (String × Shape ρ)

/-- The shape of a member, if the record has it. -/
def memberShape? (name : String) : List (String × Shape ρ) → Option (Shape ρ)
  | [] => none
  | (n, shape) :: rest => if n = name then some shape else memberShape? name rest

end ModuleScaffold.Json
