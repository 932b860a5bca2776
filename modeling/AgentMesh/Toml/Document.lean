import AgentMesh.Toml.Bare
import AgentMesh.Toml.Quoted

/-!
Reading a TOML document: its lines are headers and entries, which add to the table of the document
one after the other.
-/

namespace AgentMesh.Toml

def skipSpace (s : List Char) : List Char := s.dropWhile isSpace

def skipFiller (inComment : Bool) : List Char → List Char
  | [] => []
  | c :: r =>
    if c = '\n' then skipFiller false r
    else if startsLineEnd (c :: r) then skipFiller inComment r
    else if inComment then (if isPlain c then skipFiller true r else c :: r)
    else if isSpace c then skipFiller false r
    else if c = '#' then skipFiller true r
    else c :: r

/-- Go on to the next line: nothing but blanks and a comment may be left on this one. -/
def endLine? (s : List Char) : Option (List Char) :=
  let rest := match skipSpace s with
    | '#' :: r => r.dropWhile isPlain
    | r => r
  if rest.isEmpty then some []
  else if startsLineEnd rest then some (dropLineEnd rest)
  else none

def isNameChar (c : Char) : Bool := c.isAlphanum || c = '-' || c = '_'

def readName : Reader String := fun s =>
  match s with
  | '"' :: _ => readShortText s
  | '\x27' :: _ => readShortText s
  | _ =>
    let name := s.takeWhile isNameChar
    if name.isEmpty then none else some (String.ofList name, s.dropWhile isNameChar)

/-- A dotted key of so many names at most, with blanks around the names. -/
def readKey : Nat → Reader Key
  | 0, _ => none
  | count + 1, s => do
    let (name, rest) ← readName (skipSpace s)
    match skipSpace rest with
    | '.' :: r =>
      let (key, rest) ← readKey count r
      return (⟨name :: key.way, key.name⟩, rest)
    | rest => return (⟨[], name⟩, rest)

/-- How many names a key may have, and how deep brackets and braces may be nested. -/
def depthLimit : Nat := 79

/-- The items of an array after its bracket. The count bounds the number of items. -/
def readItems (value : Reader Value) : Nat → Reader (List Value)
  | 0, _ => none
  | count + 1, s =>
    match skipFiller false s with
    | ']' :: r => some ([], r)
    | s => do
      let (v, rest) ← value s
      match skipFiller false rest with
      | ']' :: r => return ([v], r)
      | ',' :: r =>
        let (vs, rest) ← readItems value count r
        return (v :: vs, rest)
      | _ => none

def readEntry (value : Reader Value) : Reader (Key × Value) := fun s => do
  let (key, rest) ← readKey depthLimit s
  match skipSpace rest with
  | '=' :: r =>
    let (v, rest) ← value (skipSpace r)
    return ((key, v), rest)
  | _ => none

/-- The entries of a table after its brace; there is one at least. The count bounds their number. -/
def readEntries (value : Reader Value) : Nat → Reader (List (Key × Value))
  | 0, _ => none
  | count + 1, s => do
    let (entry, rest) ← readEntry value s
    match skipSpace rest with
    | '}' :: r => return ([entry], r)
    | ',' :: r =>
      let (entries, rest) ← readEntries value count r
      return (entry :: entries, rest)
    | _ => none

def bracesTable? (entries : List (Key × Value)) : Option Value :=
  (entries.foldlM (fun t e => Entries.assign .braces e.1 e.2 t) []).map (Value.table .braces)

def isBareChar (c : Char) : Bool := isNameChar c || c = '+' || c = '.' || c = ':'

/-- A value without quotes and brackets. A blank may stand between a date and a time of day. -/
def readBare : Reader Value := fun s =>
  let token := s.takeWhile isBareChar
  let rest := s.dropWhile isBareChar
  match rest with
  | ' ' :: c :: r =>
    if afterDate? token = some [] && c.isDigit then
      (bare? (token ++ ' ' :: (c :: r).takeWhile isBareChar)).map
        (·, (c :: r).dropWhile isBareChar)
    else (bare? token).map (·, rest)
  | _ => (bare? token).map (·, rest)

/-- A value whose brackets and braces are nested no deeper than the number tells. -/
def readValue : Nat → Reader Value
  | depth, s =>
    match s, depth with
    | '[' :: _, 0 => none
    | '[' :: r, depth + 1 => do
      let (items, rest) ← readItems (readValue depth) (r.length + 1) r
      return (.list items, rest)
    | '{' :: _, 0 => none
    | '{' :: r, depth + 1 =>
      match skipSpace r with
      | '}' :: rest => some (.table .braces [], rest)
      | _ => do
        let (entries, rest) ← readEntries (readValue depth) (r.length + 1) r
        return (← bracesTable? entries, rest)
    | '"' :: _, _ => (readText s).map fun p => (.text p.1, p.2)
    | '\x27' :: _, _ => (readText s).map fun p => (.text p.1, p.2)
    | _, _ => readBare s

inductive Statement
  | empty
  | header (key : Key)
  | itemHeader (key : Key)
  | entry (key : Key) (value : Value)

def readStatement : Reader Statement := fun s =>
  match s with
  | '[' :: '[' :: r => do
    let (key, rest) ← readKey depthLimit r
    match rest with
    | ']' :: ']' :: rest => return (.itemHeader key, rest)
    | _ => none
  | '[' :: r => do
    let (key, rest) ← readKey depthLimit r
    match rest with
    | ']' :: rest => return (.header key, rest)
    | _ => none
  | [] => some (.empty, s)
  | '#' :: _ => some (.empty, s)
  | _ =>
    if startsLineEnd s then some (.empty, s)
    else (readEntry (readValue depthLimit) s).map fun p => (.entry p.1.1 p.1.2, p.2)

def readStatements : Nat → List Char → Option (List Statement)
  | 0, _ => none
  | _ + 1, [] => some []
  | count + 1, s => do
    let (statement, rest) ← readStatement (skipSpace s)
    return statement :: (← readStatements count (← endLine? rest))

/-- What has been read: the table of the document, and the names of the last header. -/
structure Progress where
  entries : Entries
  header : List String

def Progress.add (p : Progress) : Statement → Option Progress
  | .empty => some p
  | .header key => (p.entries.openTable key).map (⟨·, key.way ++ [key.name]⟩)
  | .itemHeader key => (p.entries.openItem key).map (⟨·, key.way ++ [key.name]⟩)
  | .entry key v =>
    (p.entries.atHeader (fun origin t => t.assign origin key v) p.header).map (⟨·, p.header⟩)

def entriesOf? (statements : List Statement) : Option Entries :=
  (statements.foldlM Progress.add ⟨[], []⟩).map (·.entries)

def dropOrderMark : List Char → List Char
  | '\uFEFF' :: r => r
  | s => s

def parse? (text : String) : Option Entries :=
  let s := dropOrderMark text.toList
  (readStatements (s.length + 1) s).bind entriesOf?

end AgentMesh.Toml
