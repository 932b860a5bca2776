import AgentMesh.Text.Digits

/-!
Texts between quotes. There are four ways to write one: between double quotes, where a backslash
begins an escape, or between single ones, where it does not; and on one line between single marks,
or on several between triple ones.
-/

namespace AgentMesh.Toml

abbrev Reader (α : Type) := List Char → Option (α × List Char)

def isPlain (c : Char) : Bool := c = '\t' || (0x20 ≤ c.toNat && c.toNat ≠ 0x7F)

def isSpace (c : Char) : Bool := c = ' ' || c = '\t'

structure Quotes where
  mark : Char
  escapes : Bool
  long : Bool

/-- What the characters before demand of the next one. -/
inductive Expecting
  | anything
  | escape
  | digits (left value : Nat)
  /-- A backslash stands before that takes away the line end to come. -/
  | lineEnd
  /-- A line end was taken away, and further blanks and line ends are. -/
  | foldable

def unescaped? : Char → Option Char
  | '"' => some '"'
  | '\\' => some '\\'
  | 'b' => some '\x08'
  | 'f' => some '\x0c'
  | 'n' => some '\n'
  | 'r' => some '\x0d'
  | 't' => some '\t'
  | _ => none

def withFront (c : Char) (rest : Option (List Char × List Char)) :
    Option (List Char × List Char) :=
  rest.map fun p => (c :: p.1, p.2)

/-- The end of a text, if it lies here: up to two marks in front of triple ones belong to it. -/
def closing? (q : Quotes) (s : List Char) : Option (List Char × List Char) :=
  let marks := (s.takeWhile (· = q.mark)).length
  if q.long then
    let count := min 5 marks
    if count < 3 then none else some (List.replicate (count - 3) q.mark, s.drop count)
  else if 0 < marks then some ([], s.drop 1)
  else none

def startsLineEnd : List Char → Bool
  | '\n' :: _ => true
  | '\x0d' :: '\n' :: _ => true
  | _ => false

/-- A text after its opening marks. A line end is read as a line feed. -/
def readQuoted (q : Quotes) : Expecting → Reader (List Char)
  | _, [] => none
  | .digits left value, c :: r => do
    let value := value * 16 + (← Text.hexValue? c)
    if 1 < left then readQuoted q (.digits (left - 1) value) r
    else if value.isValidChar then withFront (Char.ofNat value) (readQuoted q .anything r)
    else none
  | .escape, c :: r =>
    match unescaped? c with
    | some x => withFront x (readQuoted q .anything r)
    | none =>
      if c = 'u' then readQuoted q (.digits 4 0) r
      else if c = 'U' then readQuoted q (.digits 8 0) r
      else if !q.long then none
      else if c = '\n' then readQuoted q .foldable r
      else if isSpace c || startsLineEnd (c :: r) then readQuoted q .lineEnd r
      else none
  | .lineEnd, c :: r =>
    if c = '\n' then readQuoted q .foldable r
    else if isSpace c || startsLineEnd (c :: r) then readQuoted q .lineEnd r
    else none
  | expecting, c :: r =>
    let folding := expecting matches .foldable
    match closing? q (c :: r) with
    | some p => some p
    | none =>
      if q.escapes && c = '\\' then readQuoted q .escape r
      else if q.long && startsLineEnd (c :: r) then
        if folding || c ≠ '\n' then readQuoted q expecting r
        else withFront '\n' (readQuoted q .anything r)
      else if folding && isSpace c then readQuoted q .foldable r
      else if isPlain c then withFront c (readQuoted q .anything r)
      else none

def dropLineEnd : List Char → List Char
  | '\n' :: r => r
  | '\x0d' :: '\n' :: r => r
  | s => s

def readMarked (q : Quotes) : Reader String := fun s =>
  (readQuoted q .anything s).map fun p => (String.ofList p.1, p.2)

def readShortText : Reader String
  | '"' :: r => readMarked ⟨'"', true, false⟩ r
  | '\x27' :: r => readMarked ⟨'\x27', false, false⟩ r
  | _ => none

def readText : Reader String
  | '"' :: '"' :: '"' :: r => readMarked ⟨'"', true, true⟩ (dropLineEnd r)
  | '\x27' :: '\x27' :: '\x27' :: r => readMarked ⟨'\x27', false, true⟩ (dropLineEnd r)
  | s => readShortText s

end AgentMesh.Toml
