import AgentMesh.Number.Binary64

/-!
Instants and spans of time. The clock counts whole microseconds; instants have nanoseconds, so that
times read from outside keep theirs.
-/

namespace AgentMesh

structure Instant where
  /-- Nanoseconds since 1 January 1970, leap seconds not counted. -/
  nanos : Int
  /-- Whether it lies in the leap second that follows; readings of the clock never do. -/
  leap : Bool
deriving DecidableEq

namespace Instant

instance : Inhabited Instant := ⟨⟨0, false⟩⟩

/-- Whole seconds since 1 January 1970. -/
def wholeSeconds (t : Instant) : Int := t.nanos / 1000000000

/-- Nanoseconds into the second: a whole second and more in the leap second that follows it. -/
def fraction (t : Instant) : Int := t.nanos % 1000000000 + if t.leap then 1000000000 else 0

instance : LE Instant :=
  ⟨fun a b => a.wholeSeconds < b.wholeSeconds ∨
    (a.wholeSeconds = b.wholeSeconds ∧ a.fraction ≤ b.fraction)⟩

instance : LT Instant :=
  ⟨fun a b => a.wholeSeconds < b.wholeSeconds ∨
    (a.wholeSeconds = b.wholeSeconds ∧ a.fraction < b.fraction)⟩

instance (a b : Instant) : Decidable (a ≤ b) := inferInstanceAs (Decidable (_ ∨ _))

instance (a b : Instant) : Decidable (a < b) := inferInstanceAs (Decidable (_ ∨ _))

theorem le_def {a b : Instant} : a ≤ b ↔ a.wholeSeconds < b.wholeSeconds ∨
    (a.wholeSeconds = b.wholeSeconds ∧ a.fraction ≤ b.fraction) := Iff.rfl

theorem lt_def {a b : Instant} : a < b ↔ a.wholeSeconds < b.wholeSeconds ∨
    (a.wholeSeconds = b.wholeSeconds ∧ a.fraction < b.fraction) := Iff.rfl

theorem eq_iff {a b : Instant} :
    a = b ↔ a.wholeSeconds = b.wholeSeconds ∧ a.fraction = b.fraction := by
  constructor
  · rintro rfl
    exact ⟨rfl, rfl⟩
  · obtain ⟨n, leap⟩ := a
    obtain ⟨m, leap'⟩ := b
    simp only [wholeSeconds, fraction, Instant.mk.injEq]
    cases leap <;> cases leap' <;> simp <;> omega

def ofNanos (n : Int) : Instant := ⟨n, false⟩

/-- The instant of a reading of the clock, in microseconds since 1 January 1970. -/
def ofMicros (us : Int) : Instant := ofNanos (us * 1000)

/-- Nanoseconds from one instant to another, below zero if the second lies before the first. The only
leap second that counts is the one in which that instant lies whose time of day is the earlier. -/
def nanosSince (now since : Instant) : Int :=
  let leaps : Int :=
    if since.wholeSeconds % 86400 < now.wholeSeconds % 86400 then (if since.leap then 1 else 0)
    else if now.wholeSeconds % 86400 < since.wholeSeconds % 86400 then (if now.leap then -1 else 0)
    else 0
  (now.wholeSeconds - since.wholeSeconds + leaps) * 1000000000 + (now.fraction - since.fraction)

/-- Nanoseconds from one instant to another; zero if the second lies before the first. -/
def elapsed (since now : Instant) : Nat := (now.nanosSince since).toNat

end Instant

/-- A span of nanoseconds in seconds: the whole seconds and the fraction are taken apart first. -/
def secondsOfNanos (n : Nat) : Binary64 :=
  (Binary64.ofNat (n / 1000000000)).add
    ((Binary64.ofNat (n % 1000000000)).div (Binary64.ofNat 1000000000))

def secondsOfMicros (us : Int) : Binary64 := (Binary64.ofInt us).div (Binary64.ofNat 1000000)

/-- Seconds since 1 January 1970, from whole microseconds. -/
def Instant.seconds (t : Instant) : Binary64 :=
  secondsOfMicros (t.wholeSeconds * 1000000 + t.fraction / 1000)

/-- A quotient rounded to the nearest natural number, a half to the even one. -/
def roundQuotient (num den : Nat) : Nat :=
  let whole := num / den
  let rest := 2 * (num % den)
  if rest < den || (rest = den && whole % 2 = 0) then whole else whole + 1

/-- A number of seconds in nanoseconds; none if it is negative or does not fit 64 bits. -/
def nanosOfSeconds? (x : Binary64) : Option Nat :=
  let m := x.magnitude
  let num := m.mantissa * Nat.pow 2 m.exponent.toNat
  let den := Nat.pow 2 (-m.exponent).toNat
  if !x.isFinite || (x.isNegative && !x.isZero) || 18446744073709551616 * den ≤ num then none
  else some (roundQuotient (num * 1000000000) den)

end AgentMesh
