import ModuleScaffold.Table
import ModuleScaffold.Text.Split

/-! # Files

A tree of directories and files, with the faults that its operations meet. -/

namespace ModuleScaffold

/-- Why an operation on files fails. -/
inductive FileFault where
  | notFound | alreadyExists | notDirectory | isDirectory | notAllowed | notText
  deriving DecidableEq, Repr

/-- The words of the system for a fault. -/
def FileFault.describe : FileFault → String
  | notFound => "No such file or directory (os error 2)"
  | alreadyExists => "File exists (os error 17)"
  | notDirectory => "Not a directory (os error 20)"
  | isDirectory => "Is a directory (os error 21)"
  | notAllowed => "Permission denied (os error 13)"
  | notText => "stream did not contain valid UTF-8"

/-- A file with its bytes, or a directory with its entries. -/
inductive FileTree where
  | file (content : List UInt8)
  | directory (entries : List (String × FileTree))

namespace FileTree

/-- The names on the way from the root to a place. -/
abbrev Location := List String

/-- The entries of a directory. -/
def entries : FileTree → Table FileTree
  | file _ => []
  | directory es => es

/-- What stands at a place. -/
def find (location : Location) (t : FileTree) : Except FileFault FileTree :=
  match location, t with
  | [], t => .ok t
  | _ :: _, file _ => .error .notDirectory
  | name :: rest, directory es =>
    match Table.find? name es with
    | none => .error .notFound
    | some inner => inner.find rest

/-- Whether something stands at a place. -/
def has (location : Location) (t : FileTree) : Bool :=
  match t.find location with
  | .ok _ => true
  | .error _ => false

/-- The bytes of a file. -/
def contentAt (location : Location) (t : FileTree) : Except FileFault (List UInt8) :=
  match t.find location with
  | .ok (file content) => .ok content
  | .ok (directory _) => .error .isDirectory
  | .error f => .error f

/-- The tree with these bytes in a file of an existing directory. -/
def withContent (location : Location) (content : List UInt8) (t : FileTree) : Except FileFault FileTree :=
  match location, t with
  | [], file _ => .ok (file content)
  | [], directory _ => .error .isDirectory
  | _ :: _, file _ => .error .notDirectory
  | name :: rest, directory es =>
    match Table.find? name es with
    | some inner =>
      match inner.withContent rest content with
      | .ok inner => .ok (directory (Table.insert name inner es))
      | .error f => .error f
    | none =>
      match rest with
      | [] => .ok (directory (Table.insert name (file content) es))
      | _ :: _ => .error .notFound

/-- The tree with a directory at a place and at every place on the way to it. -/
def makeDirectories (location : Location) (t : FileTree) : Except FileFault FileTree :=
  match location, t with
  | [], directory es => .ok (directory es)
  | [], file _ => .error .alreadyExists
  | _ :: _, file _ => .error .notDirectory
  | name :: rest, directory es =>
    match ((Table.find? name es).getD (directory [])).makeDirectories rest with
    | .ok inner => .ok (directory (Table.insert name inner es))
    | .error f => .error f

/-- The names and bytes of the files directly in a directory. -/
def filesAt (location : Location) (t : FileTree) : List (String × List UInt8) :=
  match t.find location with
  | .ok (directory es) => es.filterMap fun
    | (name, file content) => some (name, content)
    | (_, directory _) => none
  | _ => []

mutual

/-- Everything in a tree that stands at a place, each directory before its entries: directories without and
files with their bytes. -/
def listing (place : Location) : FileTree → List (Location × Option (List UInt8))
  | file content => [(place, some content)]
  | directory es => (place, none) :: listingOf place es

/-- Everything in the entries of a directory that stands at a place. -/
def listingOf (place : Location) : List (String × FileTree) → List (Location × Option (List UInt8))
  | [] => []
  | (name, t) :: rest => t.listing (place ++ [name]) ++ listingOf place rest

end

end FileTree

/-! ## Paths -/

namespace Path

/-- Follows the parts of a path from a place. -/
def follow (place : FileTree.Location) : List (List Char) → FileTree.Location
  | [] => place
  | part :: rest =>
    if part = [] || part = ['.'] then follow place rest
    else if part = ['.', '.'] then follow place.dropLast rest
    else follow (place ++ [String.ofList part]) rest

/-- The place that a path leads to from a current directory. -/
def locate (here : FileTree.Location) (path : String) : FileTree.Location :=
  let start := if Text.beginsWith ['/'] path.toList then [] else here
  follow start (Text.splitAll '/' path.toList)

/-- The path of an entry of the directory at a path. -/
def join (directory name : String) : String :=
  if directory = "" then name
  else if directory.toList.getLast? = some '/' then directory ++ name
  else directory ++ "/" ++ name

/-- The path of a place from the root. -/
def ofLocation (location : FileTree.Location) : String := "/" ++ String.intercalate "/" location

/-- Whether a path ends in a slash, so that only a directory can stand there. -/
def endsInSlash (path : String) : Bool := path.toList.getLast? == some '/'

end Path
end ModuleScaffold
