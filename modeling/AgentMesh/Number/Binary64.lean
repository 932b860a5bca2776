/-!
Double-precision numbers by their bits. Keeping the bits rather than a machine number gives the type
a decidable equality, and lets a finite value be taken apart exactly (`Binary64.magnitude`).
-/

namespace AgentMesh

/-- A double-precision number, given by its 64 bits. -/
structure Binary64 where
  bits : UInt64
deriving DecidableEq

/-- The exact absolute value `mantissa * 2 ^ exponent` of a finite number. -/
structure Magnitude where
  mantissa : Nat
  exponent : Int
  /-- The gap to the next smaller number is half the gap to the next larger one. -/
  narrowBelow : Bool
deriving DecidableEq

namespace Binary64

def ofFloat (x : Float) : Binary64 := ⟨x.toBits⟩

def toFloat (x : Binary64) : Float := Float.ofBits x.bits

def zero : Binary64 := ⟨0⟩

def infinity : Binary64 := ⟨0x7FF0000000000000⟩

/-- What stands for no number at all. -/
def undefined : Binary64 := ⟨0x7FF8000000000000⟩

def abs (x : Binary64) : Binary64 := ⟨x.bits &&& 0x7FFFFFFFFFFFFFFF⟩

def neg (x : Binary64) : Binary64 := ⟨x.bits ^^^ 0x8000000000000000⟩

def isNegative (x : Binary64) : Bool := x.bits >>> 63 != 0

def isZero (x : Binary64) : Bool := x.abs.bits == 0

def isFinite (x : Binary64) : Bool := x.abs.bits < 0x7FF0000000000000

def magnitude (x : Binary64) : Magnitude :=
  let biased := (x.abs.bits >>> 52).toNat
  let fraction := (x.bits &&& 0xFFFFFFFFFFFFF).toNat
  if biased = 0 then ⟨fraction, -1074, false⟩
  else ⟨4503599627370496 + fraction, (biased : Int) - 1075, fraction = 0 ∧ 1 < biased⟩

def ofNat (n : Nat) : Binary64 := ofFloat (Float.ofNat n)

def ofInt (i : Int) : Binary64 := if i < 0 then (ofNat i.natAbs).neg else ofNat i.natAbs

def digitCount (n : Nat) : Nat := (Nat.toDigits 10 n).length

/-- The number nearest to `± digits * 10 ^ exponent`; beyond the range it is infinite, and what is
too small becomes a zero. -/
def ofDecimal (negative : Bool) (digits : Nat) (exponent : Int) : Binary64 :=
  let size : Int := digitCount digits + exponent
  let value :=
    if digits = 0 ∨ size < -400 then zero
    else if 400 < size then infinity
    else ofFloat (Float.ofScientific digits (exponent < 0) exponent.natAbs)
  if negative then value.neg else value

def add (x y : Binary64) : Binary64 := ofFloat (x.toFloat + y.toFloat)

def mul (x y : Binary64) : Binary64 := ofFloat (x.toFloat * y.toFloat)

def div (x y : Binary64) : Binary64 := ofFloat (x.toFloat / y.toFloat)

/-- The nearest integer to the absolute value of a finite number, halves away from zero. -/
def roundAbs (x : Binary64) : Nat :=
  let m := x.magnitude
  let unit := Nat.pow 2 (-m.exponent).toNat
  (2 * (m.mantissa * Nat.pow 2 m.exponent.toNat) + unit) / (2 * unit)

/-- A finite number rounded to three decimal places, halves away from zero. -/
def round3 (x : Binary64) : Binary64 :=
  let scaled := x.mul (ofNat 1000)
  let whole := ofNat scaled.roundAbs
  (if x.isNegative then whole.neg else whole).div (ofNat 1000)

end Binary64

end AgentMesh
