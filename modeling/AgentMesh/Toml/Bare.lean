import AgentMesh.Text.Digits
import AgentMesh.Text.Pieces
import AgentMesh.Time.Calendar
import AgentMesh.Toml.Table

/-!
Values without quotes and brackets: truth values, integers, floating-point numbers, and moments
(dates and times of day). Each is recognised as a whole.
-/

namespace AgentMesh.Toml

/-- The digits of a run in which single underscores may stand between digits. -/
def ungroup? (isDigit : Char → Bool) : List Char → Option (List Char)
  | [] => none
  | [c] => if isDigit c then some [c] else none
  | c :: '_' :: r => if isDigit c then (ungroup? isDigit r).map (c :: ·) else none
  | c :: r => if isDigit c then (ungroup? isDigit r).map (c :: ·) else none

def splitSign : List Char → Bool × List Char
  | '-' :: r => (true, r)
  | '+' :: r => (false, r)
  | s => (false, s)

def wholeDigits? (s : List Char) : Option (List Char) :=
  (ungroup? Char.isDigit s).filter fun ds => ds.length = 1 || ds.head? ≠ some '0'

/-- An integer of any size: decimal with a possible sign, or to the base 16, 8 or 2. -/
def unboundedInteger? (token : List Char) : Option Int :=
  let toBase (base : Nat) (r : List Char) : Option Int :=
    (ungroup? (Text.isDigitIn base) r).map fun ds => (Text.valueIn base ds : Int)
  match token with
  | '0' :: 'x' :: r => toBase 16 r
  | '0' :: 'o' :: r => toBase 8 r
  | '0' :: 'b' :: r => toBase 2 r
  | _ =>
    let (negative, s) := splitSign token
    (wholeDigits? s).map fun ds =>
      if negative then -(Text.digitsValue ds : Int) else Text.digitsValue ds

def integer? (token : List Char) : Option Int :=
  (unboundedInteger? token).filter fun i =>
    -9223372036854775808 ≤ i && i < 9223372036854775808

def exponent? (s : List Char) : Option Int :=
  let (negative, s) := splitSign s
  (ungroup? Char.isDigit s).map fun ds =>
    if negative then -(Text.digitsValue ds : Int) else Text.digitsValue ds

/-- A number with a fraction, an exponent, or both; one that exceeds all doubles is refused. -/
def finite? (negative : Bool) (s : List Char) : Option Binary64 := do
  let (mantissa, exponent) := match Text.cutAt 'e' s <|> Text.cutAt 'E' s with
    | some (m, e) => (m, some e)
    | none => (s, none)
  let (whole, fraction) := match Text.cutAt '.' mantissa with
    | some (w, f) => (w, some f)
    | none => (mantissa, none)
  guard (exponent.isSome || fraction.isSome)
  let digits ← wholeDigits? whole
  let decimals ← fraction.elim (some []) (ungroup? Char.isDigit)
  let shift ← exponent.elim (some 0) exponent?
  let x := Binary64.ofDecimal negative (Text.digitsValue (digits ++ decimals))
    (shift - decimals.length)
  guard (x ≠ Binary64.infinity)
  return x

def real? (token : List Char) : Option Binary64 :=
  let (negative, s) := splitSign token
  let signed (x : Binary64) : Binary64 := if negative then x.neg else x
  match s with
  | ['i', 'n', 'f'] => some (signed Binary64.infinity)
  | ['n', 'a', 'n'] => some (signed Binary64.undefined)
  | _ => finite? negative s

def pairBelow (bound : Nat) (a b : Char) : Bool :=
  a.isDigit && b.isDigit && Text.digitsValue [a, b] < bound

def afterDate? : List Char → Option (List Char)
  | y₁ :: y₂ :: y₃ :: y₄ :: '-' :: m₁ :: m₂ :: '-' :: d₁ :: d₂ :: r =>
    let date : Calendar.Date :=
      ⟨Text.digitsValue [y₁, y₂, y₃, y₄], Text.digitsValue [m₁, m₂], Text.digitsValue [d₁, d₂]⟩
    if [y₁, y₂, y₃, y₄, m₁, m₂, d₁, d₂].all Char.isDigit && date.isValid then some r else none
  | _ => none

def afterTime? : List Char → Option (List Char)
  | a :: b :: ':' :: c :: d :: ':' :: e :: f :: r =>
    if pairBelow 24 a b && pairBelow 60 c d && pairBelow 61 e f then
      match r with
      | '.' :: x :: r => if x.isDigit then some (r.dropWhile Char.isDigit) else none
      | _ => some r
    else none
  | _ => none

def isOffset : List Char → Bool
  | ['Z'] => true
  | ['z'] => true
  | [sign, a, b, ':', c, d] => (sign = '+' || sign = '-') && pairBelow 24 a b && pairBelow 60 c d
  | _ => false

/-- Whether this is a date, a time of day, or a date and a time of day with a possible offset. -/
def isMoment (token : List Char) : Bool :=
  afterTime? token = some [] ||
    match afterDate? token with
    | some [] => true
    | some (mark :: r) =>
      (mark = 'T' || mark = 't' || mark = ' ') &&
        (afterTime? r).any fun offset => offset.isEmpty || isOffset offset
    | none => false

def bare? (token : List Char) : Option Value :=
  if token = ['t', 'r', 'u', 'e'] then some (.boolean true)
  else if token = ['f', 'a', 'l', 's', 'e'] then some (.boolean false)
  else if isMoment token then some (.moment (String.ofList token))
  else (integer? token).map .integer <|> (real? token).map .real

end AgentMesh.Toml
