import AgentMesh.Json.Reader

/-!
Reading JSON text of a known shape. The text is read from front to back and refused at the first
fault: `malformed` where it is not JSON, `mismatch` where it departs from the shape. What is
read is again JSON, in a normal form: absent fields are filled in, and a number asked for as a
double is one.
-/

namespace AgentMesh.Json

inductive Shape
  | any
  | text
  | textSuch (test : String → Bool)
  | flag
  | natural (bound : Nat)
  | integer
  | real
  | object
  | textMap
  | optional (shape : Shape)
  /-- One of some names, as a text or as the only field of an object with value null. -/
  | choice (names : List String)

/-- What stands for a field that is not there. -/
inductive Absence
  | required
  /-- Null, but an array of the fields has to have a place for it. -/
  | null
  /-- A default, which may also be left out at the end of an array of the fields. -/
  | default (value : Json)

structure Field where
  name : String
  shape : Shape
  absent : Absence

/-- The fault of a value that is not of the kind asked for: a scalar is read to its end first. -/
def refuse {α : Type} : Reader α := fun s =>
  match skipBlanks s with
  | some '[' :: _ => .error .mismatch
  | some '{' :: _ => .error .mismatch
  | s => do
    let _ ← readValue false 0 s
    throw .mismatch

/-- The integer that a numeral stands for, if it lies within bounds. -/
def readBounded (low high : Int) : Reader Json := fun s => do
  let (v, rest) ← readNumber false s
  match v with
  | .int i => if low ≤ i ∧ i < high then return (.int i, rest) else throw .mismatch
  | _ => throw .mismatch

def startsNumber : List Symbol → Bool
  | some c :: _ => c = '-' || c.isDigit
  | _ => false

def readTextValue : Reader Json := fun s =>
  match skipBlanks s with
  | some '"' :: _ => (readText false s).map fun p => (.str p.1, p.2)
  | _ => refuse s

def Shape.read (depth : Nat) : Shape → Reader Json
  | .any, s => readValue false depth s
  | .text, s => readTextValue s
  | .textSuch test, s =>
    match skipBlanks s with
    | some '"' :: _ => do
      let (t, rest) ← readText false s
      if test t then return (.str t, rest) else throw .mismatch
    | _ => refuse s
  | .flag, s => do
    match skipBlanks s with
    | some 't' :: _ => readValue false 0 s
    | some 'f' :: _ => readValue false 0 s
    | _ => refuse s
  | .natural bound, s =>
    if startsNumber (skipBlanks s) then readBounded 0 bound (skipBlanks s) else refuse s
  | .integer, s =>
    if startsNumber (skipBlanks s) then
      readBounded (-9223372036854775808) 9223372036854775808 (skipBlanks s)
    else refuse s
  | .real, s =>
    if startsNumber (skipBlanks s) then do
      let (v, rest) ← readNumber false (skipBlanks s)
      return (.double (v.real?.getD .zero), rest)
    else refuse s
  | .object, s =>
    match skipBlanks s with
    | some '{' :: _ => readValue false depth s
    | _ => refuse s
  | .textMap, s =>
    match skipBlanks s with
    | some '{' :: r =>
      match depth with
      | 0 => .error .malformed
      | _ + 1 => do
        let (fs, rest) ← readFields false readTextValue true (r.length + 1) r
        return (.obj (Dict.ofList fs).entries, rest)
    | _ => refuse s
  | .optional shape, s =>
    match skipBlanks s with
    | some 'n' :: _ => readValue false 0 s
    | _ => shape.read depth s
  | .choice names, s =>
    match skipBlanks s with
    | some '"' :: _ => do
      let (t, rest) ← readText false s
      if names.contains t then return (.str t, rest) else throw .mismatch
    | some '{' :: r =>
      match depth with
      | 0 => .error .malformed
      | _ + 1 => do
        let (t, rest) ← match skipBlanks r with
          | some '"' :: _ => readText false r
          | _ => refuse r
        unless names.contains t do throw .mismatch
        let (v, rest) ← readValue false 0 (← skipColon rest)
        unless v = .null do throw .mismatch
        match skipBlanks rest with
        | some '}' :: rest => return (.str t, rest)
        | _ => throw .malformed
    | _ => .error .malformed
termination_by structural shape => shape

def fillAbsent (fields : List Field) (seen : Fields) : Except Fault Fields :=
  fields.foldlM (fun out f =>
    match seen.get? f.name, f.absent with
    | some v, _ => .ok (out.insert f.name v)
    | none, .required => .error .mismatch
    | none, .null => .ok (out.insert f.name .null)
    | none, .default v => .ok (out.insert f.name v)) Dict.empty

/-- The fields of a record after its brace. A name that the record does not have is passed over
together with its value; one that stands twice is a fault. -/
def readRecordFields (depth : Nat) (fields : List Field) (first : Bool) (seen : Fields) :
    Nat → Reader Fields
  | 0, _ => .error .malformed
  | count + 1, s =>
    let more (seen : Fields) (rest : List Symbol) : Except Fault (Fields × List Symbol) :=
      match skipBlanks rest with
      | some '}' :: r => .ok (seen, r)
      | some ',' :: r => readRecordFields depth fields false seen count r
      | _ => .error .malformed
    match skipBlanks s with
    | some '}' :: r => if first then .ok (seen, r) else .error .malformed
    | s => do
      let (k, rest) ← readText false s
      match fields.find? (·.name = k) with
      | some f =>
        if seen.contains k then throw .mismatch
        let (v, rest) ← f.shape.read depth (← skipColon rest)
        more (seen.insert k v) rest
      | none =>
        let rest ← skipColon rest
        let (_, rest) ← readValue true rest.length rest
        more seen rest

/-- The values of a record that stands as an array, in the order of its fields, after the bracket.
The array ends after the last field, or before one that has a default. -/
def readRecordItems (depth : Nat) (first : Bool) (seen : Fields) : List Field → Reader Fields
  | [], s =>
    match skipBlanks s with
    | some ']' :: r => .ok (seen, r)
    | _ => .error .malformed
  | f :: fs, s =>
    let item (s : List Symbol) : Except Fault (Fields × List Symbol) := do
      let (v, rest) ← f.shape.read depth s
      readRecordItems depth false (seen.insert f.name v) fs rest
    match skipBlanks s with
    | some ']' :: r =>
      if (f :: fs).all fun f => f.absent matches .default _ then .ok (seen, r)
      else .error .mismatch
    | some ',' :: r =>
      if first then .error .malformed
      else match skipBlanks r with
        | some ']' :: _ => .error .malformed
        | s => item s
    | s => if first then item s else .error .malformed

def readRecord (fields : List Field) : Reader Fields := fun s =>
  let depth := nestingLimit - 1
  match skipBlanks s with
  | some '{' :: r => do
    let (seen, rest) ← readRecordFields depth fields true Dict.empty (r.length + 1) r
    return (← fillAbsent fields seen, rest)
  | some '[' :: r => do
    let (seen, rest) ← readRecordItems depth true Dict.empty fields r
    return (← fillAbsent fields seen, rest)
  | s => refuse s

def parseRecord (fields : List Field) (s : List Symbol) : Except Fault Fields := do
  let (seen, rest) ← readRecord fields s
  atEnd rest
  return seen

def parseShape (shape : Shape) (s : List Symbol) : Except Fault Json := do
  let (v, rest) ← shape.read nestingLimit s
  atEnd rest
  return v

end AgentMesh.Json
