/-!
Media types: `type/subtype` and parameters, in visible ASCII. All that matters here is whether one
says JSON.
-/

namespace AgentMesh.MediaType

def isTokenChar (c : Char) : Bool := c.isAlphanum || "!#$%&\x27*+-.^_\x60|~".toList.contains c

def isVisible (c : Char) : Bool := c = '\t' || (0x20 ≤ c.toNat && c.toNat < 0x7F)

/-- What follows a quoted value, whose first character is part of it in any case. -/
def afterQuoted? (first : Bool) : List Char → Option (List Char)
  | [] => none
  | c :: r =>
    if c = '"' && !first then some r
    else if 0x20 ≤ c.toNat && c.toNat ≠ 0x7F then afterQuoted? false r
    else none

def afterValue? (s : List Char) : Option (List Char) :=
  match s with
  | '"' :: r => do
    let rest ← afterQuoted? true r
    match rest.dropWhile (· = ' ') with
    | [] => some []
    | ';' :: r => some r
    | _ => none
  | _ =>
    match s.dropWhile isTokenChar with
    | [] => some []
    | ';' :: r => if s.head? = some ';' then none else some r
    | _ => none

def parametersValid : Nat → List Char → Bool
  | 0, _ => false
  | count + 1, s =>
    let s := s.dropWhile (· = ' ')
    let name := s.takeWhile isTokenChar
    s.isEmpty ||
      match s.dropWhile isTokenChar with
      | '=' :: r => !name.isEmpty && (afterValue? r).any (parametersValid count)
      | _ => false

/-- A subtype without its suffix, and the suffix: what follows the last plus sign that is not in
front. -/
def splitSuffix (subtype : List Char) : List Char × Option (List Char) :=
  let suffix := (subtype.drop 1).reverse.takeWhile (· ≠ '+')
  if suffix.length < subtype.length - 1 then
    (subtype.take (subtype.length - suffix.length - 1), some suffix.reverse)
  else (subtype, none)

def json : List Char := ['j', 's', 'o', 'n']

/-- Whether a media type says JSON: `application` with the subtype or the suffix `json`. -/
def isJson (text : String) : Bool :=
  let s := text.toList.map Char.toLower
  let mainType := s.takeWhile isTokenChar
  match s.dropWhile isTokenChar with
  | '/' :: r =>
    let (subtype, suffix) := splitSuffix (r.takeWhile isTokenChar)
    let parameters := r.dropWhile isTokenChar
    s.all isVisible && mainType = "application".toList && (subtype = json || suffix = some json) &&
      match parameters with
      | [] => true
      | ';' :: p => parametersValid (p.length + 1) p
      | _ => false
  | _ => false

end AgentMesh.MediaType
