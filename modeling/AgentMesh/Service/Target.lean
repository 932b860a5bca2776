import AgentMesh.Text.Pieces

/-!
Request targets. One that starts with a slash is a path, with a query after a question mark and a
fragment after a number sign; the fragment is for the client alone. The same may follow a scheme and
an authority.
-/

namespace AgentMesh

/-- What a service sees of a target. The path and the query are still encoded. -/
structure Target where
  path : List Char
  query : List Char
deriving DecidableEq

namespace Target

def withoutFragment (s : List Char) : List Char := s.takeWhile (· ≠ '#')

def ofPath (s : List Char) : Target :=
  let (path, query) := (Text.cutAt '?' s).getD (s, [])
  ⟨path, query⟩

def afterScheme? (s : List Char) : Option (List Char) :=
  match Text.cutAt ':' s with
  | some (_, '/' :: '/' :: r) => some r
  | _ => none

def afterAuthority (s : List Char) : List Char := s.dropWhile fun c => c ≠ '/' && c ≠ '?'

/-- The target that a text stands for. An authority alone, or an asterisk, has no path that starts
with a slash. -/
def ofText (text : String) : Target :=
  let s := withoutFragment text.toList
  if s.head? = some '/' then ofPath s
  else match afterScheme? s with
    | some r => ofPath (afterAuthority r)
    | none => ⟨s, []⟩

def segments? (t : Target) : Option (List String) :=
  match t.path with
  | '/' :: path => some ((Text.pieces '/' path).map String.ofList)
  | _ => none

end Target

end AgentMesh
