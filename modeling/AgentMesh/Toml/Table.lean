import AgentMesh.Dict
import AgentMesh.Number.Binary64

/-!
Values of a TOML document, and how a table grows entry by entry. A table remembers how it came to
be, for that decides who may still add to it; nothing that stands in a table is ever replaced.
-/

namespace AgentMesh.Toml

/-- How a table came to be: by a header of its own, on the way to the table of a header, on the way to the
entry of a dotted key, or in braces. -/
inductive Origin
  | header
  | way
  | dotted
  | braces
deriving DecidableEq

inductive Value
  | text (s : String)
  | integer (i : Int)
  | real (x : Binary64)
  | boolean (b : Bool)
  /-- A date, a time of day, or both, as it is written. -/
  | moment (written : String)
  | list (items : List Value)
  | table (origin : Origin) (entries : List (String × Value))
  | tables (items : List (List (String × Value)))

abbrev Entries := List (String × Value)

/-- A dotted key: the names of the tables on the way, and that of the entry. -/
structure Key where
  way : List String
  name : String

namespace Entries

/-- Change the table that a row of names leads to, if every table on the way is `passable`. A table
that is not there yet comes into being as `fresh`; in an array of tables the last one counts. -/
def change (fresh : Origin) (passable : Origin → Bool)
    (f : Origin → Entries → Option Entries) : Origin → List String → Entries → Option Entries
  | origin, [], t => f origin t
  | _, k :: ks, t => do
    let next ← match Dict.lookup k t with
      | none => (change fresh passable f fresh ks []).map (Value.table fresh)
      | some (.table origin u) =>
        if passable origin then (change fresh passable f origin ks u).map (Value.table origin)
        else none
      | some (.tables items) =>
        match items.getLast? with
        | some u =>
          (change fresh passable f .header ks u).map fun u => .tables (items.dropLast ++ [u])
        | none => none
      | some _ => none
    return Dict.insertEntry k next t

def atHeader (f : Origin → Entries → Option Entries) (names : List String) (t : Entries) :
    Option Entries :=
  change .way (· != .braces) f .header names t

/-- Open the table of a header; one that is there already may only lie on a way. -/
def openTable (key : Key) (t : Entries) : Option Entries :=
  t.atHeader (fun _ t =>
    match Dict.lookup key.name t with
    | none => some (Dict.insertEntry key.name (.table .header []) t)
    | some (.table .way u) => some (Dict.insertEntry key.name (.table .header u) t)
    | some _ => none) key.way

def openItem (key : Key) (t : Entries) : Option Entries :=
  t.atHeader (fun _ t =>
    match Dict.lookup key.name t with
    | none => some (Dict.insertEntry key.name (.tables [[]]) t)
    | some (.tables items) => some (Dict.insertEntry key.name (.tables (items ++ [[]])) t)
    | some _ => none) key.way

/-- Add an entry under a dotted key to a table. A dotted key may not add to a table that has a
header, or that lies on the way to one. -/
def assign (origin : Origin) (key : Key) (v : Value) (t : Entries) : Option Entries :=
  t.change .dotted (fun o => o == .dotted || o == .way) (fun o t =>
    if (o == .dotted) == key.way.isEmpty || (Dict.lookup key.name t).isSome then none
    else some (Dict.insertEntry key.name v t)) origin key.way

end Entries

end AgentMesh.Toml
