import AgentMesh.Dict
import AgentMesh.Text.Pieces

/-!
Paths and the files that they lead to. Directories are there because files lie in them; a relative
path starts in a directory that holds nothing.
-/

namespace AgentMesh

namespace Path

def isAbsolute (path : String) : Bool := path.toList.head? == some '/'

def join (directory name : String) : String :=
  if directory.isEmpty || directory.toList.getLast? == some '/' then directory ++ name
  else directory ++ "/" ++ name

end Path

/-- Files by their places, that is the names on the way from the root, with their texts. -/
structure Files where
  entries : List (List String × String)

inductive ReadFault
  | notFound
  | tooLong
  | forbiddenNul
  | notDirectory
  | isDirectory
deriving DecidableEq

def ReadFault.message : ReadFault → String
  | notFound => "No such file or directory (os error 2)"
  | tooLong => "File name too long (os error 36)"
  | forbiddenNul => "file name contained an unexpected NUL byte"
  | notDirectory => "Not a directory (os error 20)"
  | isDirectory => "Is a directory (os error 21)"

namespace Files

def names (path : String) : List String :=
  (Text.pieces '/' path.toList).map String.ofList

/-- The place where relative paths start: a directory whose name no path can hold. -/
def start : List String := ["\x00"]

def origin (path : String) : List String := if Path.isAbsolute path then [] else start

def place (path : String) : List String := origin path ++ (names path).filter (!·.isEmpty)

def ofTable (table : Dict String) : Files :=
  ⟨table.entries.map fun e => (place e.1, e.2)⟩

def text? (files : Files) (place : List String) : Option String :=
  (files.entries.find? (·.1 = place)).map (·.2)

def isDirectory (files : Files) (place : List String) : Bool :=
  place.isEmpty ||
    files.entries.any fun e => e.1.take place.length = place && place.length < e.1.length

def maxNameLength : Nat := 255

def maxPathLength : Nat := 4095

/-- Follow the names of a path from a directory, whose names are given from the last to the first.
What follows a file cannot be a name, not even an empty one. -/
def follow (files : Files) (place : List String) : List String → Except ReadFault String
  | [] => .error .isDirectory
  | "" :: r => follow files place r
  | "." :: r => follow files place r
  | ".." :: r => follow files place.tail r
  | name :: r =>
    let next := name :: place
    if maxNameLength < name.utf8ByteSize then .error .tooLong
    else match files.text? next.reverse with
      | some text => if r.isEmpty then .ok text else .error .notDirectory
      | none =>
        if files.isDirectory next.reverse then follow files next r else .error .notFound

def read (files : Files) (path : String) : Except ReadFault String :=
  if path.toList.contains '\x00' then .error .forbiddenNul
  else if path.isEmpty then .error .notFound
  else if maxPathLength < path.utf8ByteSize then .error .tooLong
  else follow files (origin path) (names path)

def isFile (files : Files) (path : String) : Bool := (files.read path).toBool

end Files

end AgentMesh
