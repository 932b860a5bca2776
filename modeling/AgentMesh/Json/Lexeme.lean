import AgentMesh.Json.Basic
import AgentMesh.Text.Digits
import AgentMesh.Text.Utf8

/-!
The lexemes of JSON text: blanks, literals, numbers and quoted texts. A reader takes symbols off the
front of its input; `none` among them stands for octets that are no UTF-8.
-/

namespace AgentMesh.Json

/-- A character, or none for an octet that is no part of UTF-8 text. -/
abbrev Symbol := Option Char

inductive Fault
  | malformed
  /-- The text may be JSON, but it does not have the shape asked for. -/
  | mismatch
deriving DecidableEq

/-- A reader takes a value off the front of its input and leaves the rest. -/
abbrev Reader (α : Type) := List Symbol → Except Fault (α × List Symbol)

def skipBlanks : List Symbol → List Symbol
  | some ' ' :: r => skipBlanks r
  | some '\t' :: r => skipBlanks r
  | some '\n' :: r => skipBlanks r
  | some '\x0d' :: r => skipBlanks r
  | s => s

def after : List Char → List Symbol → Except Fault (List Symbol)
  | [], s => .ok s
  | c :: r, some x :: s => if c = x then after r s else .error .malformed
  | _ :: _, _ => .error .malformed

def spanDigits : List Symbol → List Char × List Symbol
  | some c :: r =>
    if c.isDigit then
      let (ds, rest) := spanDigits r
      (c :: ds, rest)
    else ([], some c :: r)
  | s => ([], s)

def readDigits : Reader (List Char) := fun s =>
  match spanDigits s with
  | ([], _) => .error .malformed
  | p => .ok p

/-- A number as it is written: `± digits * 10 ^ exponent`, and whether it has neither fraction nor
exponent. -/
structure Numeral where
  negative : Bool
  digits : Nat
  exponent : Int
  whole : Bool

def readPower : Reader Int
  | some '+' :: r => (readDigits r).map fun p => ((Text.digitsValue p.1 : Int), p.2)
  | some '-' :: r => (readDigits r).map fun p => (-(Text.digitsValue p.1 : Int), p.2)
  | r => (readDigits r).map fun p => ((Text.digitsValue p.1 : Int), p.2)

def readExponent : Reader (Option Int)
  | some c :: r =>
    if c = 'e' ∨ c = 'E' then (readPower r).map fun p => (some p.1, p.2)
    else .ok (none, some c :: r)
  | s => .ok (none, s)

def readFraction : Reader (Option (List Char))
  | some '.' :: r => (readDigits r).map fun p => (some p.1, p.2)
  | s => .ok (none, s)

def readUnsigned (negative : Bool) : Reader Numeral := fun s => do
  let (ds, rest) := spanDigits s
  if ds.isEmpty || (ds.length > 1 && ds.head? == some '0') then throw .malformed
  let (fraction, rest) ← readFraction rest
  let (exponent, rest) ← readExponent rest
  let shift := (fraction.getD []).length
  return ({ negative, digits := Text.digitsValue (ds ++ fraction.getD []),
            exponent := exponent.getD 0 - shift,
            whole := fraction.isNone && exponent.isNone }, rest)

def readNumeral : Reader Numeral
  | some '-' :: r => readUnsigned true r
  | s => readUnsigned false s

/-- The value of a number: without fraction and exponent an integer if it fits 64 bits with or
without sign, and a double otherwise. Negative zero is a double; what exceeds all doubles has no
value. -/
def Numeral.value? (n : Numeral) : Option Json :=
  if n.whole && !n.negative && n.digits < 18446744073709551616 then some (.int n.digits)
  else if n.whole && n.negative && 0 < n.digits && n.digits ≤ 9223372036854775808 then
    some (.int (-n.digits))
  else
    let x := Binary64.ofDecimal n.negative n.digits n.exponent
    if x.isFinite then some (.double x) else none

def hexWord? (a b c d : Symbol) : Option Nat := do
  let w ← Text.hexValue? (← a)
  let x ← Text.hexValue? (← b)
  let y ← Text.hexValue? (← c)
  let z ← Text.hexValue? (← d)
  return ((w * 16 + x) * 16 + y) * 16 + z

def unescaped? : Char → Option Char
  | '"' => some '"'
  | '\\' => some '\\'
  | '/' => some '/'
  | 'b' => some '\x08'
  | 'f' => some '\x0c'
  | 'n' => some '\n'
  | 'r' => some '\x0d'
  | 't' => some '\t'
  | _ => none

def withFront (c : Char) (rest : Except Fault (List Char × List Symbol)) :
    Except Fault (List Char × List Symbol) :=
  rest.map fun p => (c :: p.1, p.2)

/-- A text up to its closing quote. A number in front is the first half of a surrogate pair, whose second
half has to come next. -/
def readQuotedAfter (lenient : Bool) : Option Nat → Reader (List Char)
  | _, [] => .error .malformed
  | high, some '\\' :: some 'u' :: a :: b :: c :: d :: r =>
    match hexWord? a b c d, high with
    | none, _ => .error .malformed
    | some low, some high =>
      if 0xDC00 ≤ low ∧ low < 0xE000 then
        withFront (Char.ofNat (0x10000 + (high - 0xD800) * 0x400 + (low - 0xDC00)))
          (readQuotedAfter lenient none r)
      else .error .malformed
    | some word, none =>
      if lenient then withFront ' ' (readQuotedAfter lenient none r)
      else if 0xDC00 ≤ word ∧ word < 0xE000 then .error .malformed
      else if 0xD800 ≤ word ∧ word < 0xDC00 then readQuotedAfter lenient (some word) r
      else withFront (Char.ofNat word) (readQuotedAfter lenient none r)
  | some _, _ => .error .malformed
  | none, some '"' :: r => .ok ([], r)
  | none, some '\\' :: some x :: r =>
    match unescaped? x with
    | some c => withFront c (readQuotedAfter lenient none r)
    | none => .error .malformed
  | none, some '\\' :: _ => .error .malformed
  | none, some c :: r =>
    if c.toNat < 0x20 then .error .malformed else withFront c (readQuotedAfter lenient none r)
  | none, none :: r => if lenient then readQuotedAfter lenient none r else .error .malformed

/-- A text after its opening quote. A `lenient` reader checks the escapes' form only, and lets
octets pass that are no UTF-8; otherwise both halves of a surrogate pair have to be there. -/
def readQuoted (lenient : Bool) : Reader (List Char) := readQuotedAfter lenient none

end AgentMesh.Json
