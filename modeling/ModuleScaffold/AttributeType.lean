import ModuleScaffold.Json
import ModuleScaffold.Table

/-! # Attribute types

A schema encodes a type as JSON; a variable writes it as text. Whatever the encoding does not fit is the
type that admits everything. -/

namespace ModuleScaffold

/-- The type of an attribute. -/
inductive AttributeType where
  | string
  | number
  | bool
  | any
  | list (element : AttributeType)
  | set (element : AttributeType)
  | map (element : AttributeType)
  | object (fields : List (String × AttributeType))

namespace AttributeType

/-! ## The encoding in a schema -/

/-- The type that a bare word stands for. -/
def ofWord (word : String) : AttributeType :=
  if word = "string" then string
  else if word = "number" then number
  else if word = "bool" then bool
  else any

mutual

/-- The type that a value of a schema stands for. -/
def ofJson : Json → AttributeType
  | .string word => ofWord word
  | .array [.string kind, inner] =>
    if kind = "list" then list (ofJson inner)
    else if kind = "set" then set (ofJson inner)
    else if kind = "map" then map (ofJson inner)
    else if kind = "object" then
      match inner with
      | .object members => object (Table.ofList (fieldsOfJson members))
      | _ => any
    else any
  | _ => any

/-- The fields of an object type in the order of the document. -/
def fieldsOfJson : List (String × Json) → List (String × AttributeType)
  | [] => []
  | (name, value) :: rest => (name, ofJson value) :: fieldsOfJson rest

end

/-! ## The text of a variable -/

/-- The blanks before a line that is nested `depth` levels deep. -/
def indent (depth : Nat) : String := String.ofList (List.replicate (2 * depth) ' ')

mutual

/-- A type as it is declared `depth` levels deep: the fields of an object stand on lines of their own, one
level deeper. -/
def renderAt (depth : Nat) : AttributeType → String
  | string => "string"
  | number => "number"
  | bool => "bool"
  | any => "any"
  | list element => "list(" ++ renderAt depth element ++ ")"
  | set element => "set(" ++ renderAt depth element ++ ")"
  | map element => "map(" ++ renderAt depth element ++ ")"
  | object fields => "object(\x7b\n" ++ renderFields depth fields ++ indent depth ++ "\x7d)"

/-- The lines of the fields of an object that is declared `depth` levels deep. -/
def renderFields (depth : Nat) : List (String × AttributeType) → String
  | [] => ""
  | (name, type) :: rest =>
    indent (depth + 1) ++ name ++ " = " ++ renderAt (depth + 1) type ++ "\n" ++ renderFields depth rest

end

/-- A type that may be missing; a missing one admits everything. -/
def renderOptional (depth : Nat) (type : Option AttributeType) : String := (type.getD any).renderAt depth

end AttributeType
end ModuleScaffold
