import AgentMesh.Json.Lexeme

/-!
Reading JSON text: strict grammar, a limit on nesting, nothing but blanks after the value. Of fields
with one name the last counts.
-/

namespace AgentMesh.Json

/-- The items of an array after its bracket; `first` as long as none has been read. The count bounds
the number of items. -/
def readItems {α : Type} (item : Reader α) (first : Bool) : Nat → Reader (List α)
  | 0, _ => .error .malformed
  | count + 1, s =>
    match skipBlanks s with
    | some ']' :: r => if first then .ok ([], r) else .error .malformed
    | s => do
      let (v, rest) ← item s
      match skipBlanks rest with
      | some ']' :: r => .ok ([v], r)
      | some ',' :: r =>
        let (vs, rest) ← readItems item false count r
        .ok (v :: vs, rest)
      | _ => .error .malformed

def readText (lenient : Bool) : Reader String := fun s =>
  match skipBlanks s with
  | some '"' :: r => do
    let (cs, rest) ← readQuoted lenient r
    return (String.ofList cs, rest)
  | _ => .error .malformed

def skipColon (s : List Symbol) : Except Fault (List Symbol) :=
  match skipBlanks s with
  | some ':' :: r => .ok r
  | _ => .error .malformed

/-- The fields of an object after its brace; `first` as long as none has been read. The count bounds
the number of fields. -/
def readFields {α : Type} (lenient : Bool) (value : Reader α) (first : Bool) :
    Nat → Reader (List (String × α))
  | 0, _ => .error .malformed
  | count + 1, s =>
    match skipBlanks s with
    | some '}' :: r => if first then .ok ([], r) else .error .malformed
    | s => do
      let (k, rest) ← readText lenient s
      let (v, rest) ← value (← skipColon rest)
      match skipBlanks rest with
      | some '}' :: r => .ok ([(k, v)], r)
      | some ',' :: r =>
        let (fs, rest) ← readFields lenient value false count r
        .ok ((k, v) :: fs, rest)
      | _ => .error .malformed

/-- A number; a `lenient` reader takes one that exceeds all doubles too. -/
def readNumber (lenient : Bool) : Reader Json := fun s => do
  let (n, rest) ← readNumeral s
  match n.value? with
  | some v => return (v, rest)
  | none => if lenient then return (.null, rest) else throw .malformed

/-- A value whose arrays and objects are nested no deeper than the first number. -/
def readValue (lenient : Bool) : Nat → Reader Json
  | depth, s =>
    match skipBlanks s with
    | some 'n' :: r => do return (.null, ← after ['u', 'l', 'l'] r)
    | some 't' :: r => do return (.bool true, ← after ['r', 'u', 'e'] r)
    | some 'f' :: r => do return (.bool false, ← after ['a', 'l', 's', 'e'] r)
    | some '"' :: r => do
      let (cs, rest) ← readQuoted lenient r
      return (.str (String.ofList cs), rest)
    | some '[' :: r =>
      match depth with
      | 0 => .error .malformed
      | depth + 1 => do
        let (vs, rest) ← readItems (readValue lenient depth) true (r.length + 1) r
        return (.arr vs, rest)
    | some '{' :: r =>
      match depth with
      | 0 => .error .malformed
      | depth + 1 => do
        let (fs, rest) ← readFields lenient (readValue lenient depth) true (r.length + 1) r
        return (.obj (Dict.ofList fs).entries, rest)
    | s => readNumber lenient s

def nestingLimit : Nat := 127

def atEnd (s : List Symbol) : Except Fault Unit :=
  if (skipBlanks s).isEmpty then .ok () else .error .malformed

def parseWithin (limit : Nat) (s : List Symbol) : Except Fault Json := do
  let (v, rest) ← readValue false limit s
  atEnd rest
  return v

def parseSymbols (s : List Symbol) : Except Fault Json := parseWithin nestingLimit s

def parse (text : String) : Except Fault Json := parseSymbols (text.toList.map some)

def parseBytes (bytes : List UInt8) : Except Fault Json := parseSymbols (Text.symbols bytes)

end AgentMesh.Json
