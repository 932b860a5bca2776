import AgentMesh.Number.Shortest

/-!
The text of a span of time: its largest unit among seconds, milliseconds, microseconds and
nanoseconds that it fills, with as many decimal places as it needs.
-/

namespace AgentMesh

/-- A number of units with its rest as a decimal fraction of `places` digits, zeros at the end left
out. -/
def spanIn (whole rest places : Nat) (unit : String) : String :=
  let ds := Nat.toDigits 10 rest
  let all := List.replicate (places - ds.length) '0' ++ ds
  let kept := (all.reverse.dropWhile (· = '0')).reverse
  digitsText whole ++ (if rest = 0 then "" else "." ++ String.ofList kept) ++ unit

def spanText (nanos : Nat) : String :=
  if 1000000000 ≤ nanos then spanIn (nanos / 1000000000) (nanos % 1000000000) 9 "s"
  else if 1000000 ≤ nanos then spanIn (nanos / 1000000) (nanos % 1000000) 6 "ms"
  else if 1000 ≤ nanos then spanIn (nanos / 1000) (nanos % 1000) 3 "µs"
  else spanIn nanos 0 0 "ns"

end AgentMesh
