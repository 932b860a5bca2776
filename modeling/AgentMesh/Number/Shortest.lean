import AgentMesh.Number.Binary64

/-!
The decimal text of double-precision numbers. `Magnitude.shortest` selects the fewest digits that
identify a number among all others, by exact comparison with the ends of the interval of reals that
round to it; `Binary64.text` lays them out.
-/

namespace AgentMesh

/-- The decimal number `digits * 10 ^ exponent`. -/
structure Decimal where
  digits : Nat
  exponent : Int
deriving DecidableEq

/-- Compare `a * 10 ^ i` with `b * 2 ^ j`. -/
def compareScaled (a : Nat) (i : Int) (b : Nat) (j : Int) : Ordering :=
  compare (a * Nat.pow 10 i.toNat * Nat.pow 2 (-j).toNat)
    (b * Nat.pow 2 j.toNat * Nat.pow 10 (-i).toNat)

namespace Magnitude

/-- Whether a decimal number lies among the reals that round to this value. The interval reaches
half-way to both neighbours, and its ends belong to it when the mantissa is even. -/
def admits (m : Magnitude) (d : Decimal) : Bool :=
  let low := if m.narrowBelow then 4 * m.mantissa - 1 else 4 * m.mantissa - 2
  let high := 4 * m.mantissa + 2
  let closed := m.mantissa % 2 = 0
  let fromLow := compareScaled d.digits d.exponent low (m.exponent - 2)
  let toHigh := compareScaled d.digits d.exponent high (m.exponent - 2)
  (fromLow == .gt || (closed && fromLow == .eq)) && (toHigh == .lt || (closed && toHigh == .eq))

/-- The least `k` for which the value is below `10 ^ k`. -/
def scale (m : Magnitude) : Int :=
  let num := m.mantissa * Nat.pow 2 m.exponent.toNat
  let den := Nat.pow 2 (-m.exponent).toNat
  if den ≤ num then Binary64.digitCount (num / den)
  else 1 - Binary64.digitCount ((den - 1) / num)

/-- The decimal number with `count` significant digits that identifies the value and is nearest to
it, if one does; of two that are equally near the one with an even last digit. -/
def withDigits? (m : Magnitude) (count : Nat) : Option Decimal :=
  let grid := m.scale - count
  let below := m.mantissa * Nat.pow 2 m.exponent.toNat * Nat.pow 10 (-grid).toNat
    / (Nat.pow 2 (-m.exponent).toNat * Nat.pow 10 grid.toNat)
  let lower : Decimal := ⟨below, grid⟩
  let upper : Decimal := ⟨below + 1, grid⟩
  match m.admits lower, m.admits upper with
  | false, false => none
  | true, false => some lower
  | false, true => some upper
  | true, true =>
    match compareScaled (2 * below + 1) grid (2 * m.mantissa) m.exponent with
    | .gt => some lower
    | .lt => some upper
    | .eq => if below % 2 = 0 then some lower else some upper

def exact (m : Magnitude) : Decimal :=
  if 0 ≤ m.exponent then ⟨m.mantissa * Nat.pow 2 m.exponent.toNat, 0⟩
  else ⟨m.mantissa * Nat.pow 5 (-m.exponent).toNat, m.exponent⟩

/-- The nearest decimal number among those with the fewest digits that identify the value. -/
def shortest (m : Magnitude) : Decimal :=
  ((List.range 17).findSome? fun n => m.withDigits? (n + 1)).getD m.exact

end Magnitude

def digitsText (n : Nat) : String := String.ofList (Nat.toDigits 10 n)

def intText (i : Int) : String :=
  if i < 0 then "-" ++ digitsText i.natAbs else digitsText i.natAbs

namespace Decimal

def strip (d : Decimal) : Decimal :=
  let ds := (Nat.toDigits 10 d.digits).reverse
  let zeros := (ds.takeWhile (· = '0')).length
  ⟨d.digits / Nat.pow 10 zeros, d.exponent + zeros⟩

/-- Positional when the leading digit stands for `10 ^ -5` to `10 ^ 15`, and then always with a
fraction; otherwise one digit, a fraction if needed, and a signed exponent. -/
def text (d : Decimal) : String :=
  let ds := Nat.toDigits 10 d.digits
  let leading : Int := ds.length - 1 + d.exponent
  if -5 ≤ leading ∧ leading < 16 then
    if leading < 0 then
      "0." ++ String.ofList (List.replicate (-leading - 1).toNat '0' ++ ds)
    else
      let whole := leading.toNat + 1
      let padded := ds ++ List.replicate (whole - ds.length) '0'
      let fraction := padded.drop whole
      String.ofList (padded.take whole) ++ "."
        ++ (if fraction.isEmpty then "0" else String.ofList fraction)
  else
    let mantissa := match ds with
      | c :: [] => String.ofList [c]
      | c :: r => String.ofList (c :: '.' :: r)
      | [] => ""
    mantissa ++ "e" ++ (if leading < 0 then "-" else "+") ++ digitsText leading.natAbs

end Decimal

def Binary64.text (x : Binary64) : String :=
  let body := if x.isZero then "0.0" else (x.magnitude.shortest.strip).text
  if x.isNegative then "-" ++ body else body

end AgentMesh
