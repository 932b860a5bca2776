import AgentMesh.Json.Shape
import AgentMesh.Text.Blank
import AgentMesh.Time.Calendar
import AgentMesh.Time.Instant

/-!
The text of instants: date, time of day and `Z`. It is written with no fraction of a second, or with
3, 6 or 9 digits, as few as hold it. The reader takes any offset, blanks between the parts, and a
blank in place of the `T`.
-/

namespace AgentMesh.Rfc3339

def padded (width n : Nat) : String :=
  let ds := Nat.toDigits 10 n
  String.ofList (List.replicate (width - ds.length) '0' ++ ds)

/-- Years from 0 to 9999 have four digits; others have a sign and at least four. -/
def yearText (year : Int) : String :=
  if 0 ≤ year ∧ year ≤ 9999 then padded 4 year.toNat
  else (if year < 0 then "-" else "+") ++ padded 4 year.natAbs

def fractionText (nanos : Nat) : String :=
  if nanos = 0 then ""
  else if nanos % 1000000 = 0 then "." ++ padded 3 (nanos / 1000000)
  else if nanos % 1000 = 0 then "." ++ padded 6 (nanos / 1000)
  else "." ++ padded 9 nanos

def render (t : Instant) : String :=
  let seconds := t.wholeSeconds
  let fraction := (t.nanos - seconds * 1000000000).toNat
  let date := Calendar.ofDayNumber (seconds.fdiv 86400)
  let second := (seconds - seconds.fdiv 86400 * 86400).toNat
  yearText date.year ++ "-" ++ padded 2 date.month ++ "-" ++ padded 2 date.day ++ "T"
    ++ padded 2 (second / 3600) ++ ":" ++ padded 2 (second / 60 % 60) ++ ":"
    ++ padded 2 (second % 60 + if t.leap then 1 else 0) ++ fractionText fraction ++ "Z"

/-- A number of at most `width` digits, with blanks in front. -/
def number (width : Nat) (s : List Char) : Option (Nat × List Char) :=
  let s := Text.trimStart s
  let ds := (s.take width).takeWhile Char.isDigit
  if ds.isEmpty then none else some (Text.digitsValue ds, s.drop ds.length)

/-- A year: four digits at most, or a sign and any number of digits. -/
def year (s : List Char) : Option (Int × List Char) :=
  let signed (sign : Int) (r : List Char) : Option (Int × List Char) :=
    let ds := r.takeWhile Char.isDigit
    if ds.isEmpty then none else some (sign * Text.digitsValue ds, r.drop ds.length)
  match Text.trimStart s with
  | '-' :: r => signed (-1) r
  | '+' :: r => signed 1 r
  | r => (number 4 r).map fun p => ((p.1 : Int), p.2)

def mark (c : Char) (s : List Char) : Option (List Char) :=
  match Text.trimStart s with
  | x :: r => if x = c then some r else none
  | [] => none

/-- A possible fraction of a second, in nanoseconds; digits beyond the ninth are dropped. -/
def fraction (s : List Char) : Option (Nat × List Char) :=
  match s with
  | '.' :: r =>
    let ds := r.takeWhile Char.isDigit
    if ds.isEmpty then none
    else
      let kept := ds.take 9
      some (Text.digitsValue kept * Nat.pow 10 (9 - kept.length), r.drop ds.length)
  | _ => some (0, s)

/-- The offset from universal time in seconds: `Z`, `UTC`, or a sign with hours and minutes. -/
def offset (s : List Char) : Option (Int × List Char) :=
  let signed (sign : Int) (r : List Char) : Option (Int × List Char) :=
    match r with
    | a :: b :: r =>
      match r.dropWhile (fun c => c = ':' || Text.isBlank c) with
      | c :: d :: r =>
        let hours := Text.digitsValue [a, b]
        let minutes := Text.digitsValue [c, d]
        if [a, b, c, d].all Char.isDigit && minutes < 60 && hours < 24 then
          some (sign * (hours * 3600 + minutes * 60), r)
        else none
      | _ => none
    | _ => none
  match s with
  | 'Z' :: r => some (0, r)
  | 'z' :: r => some (0, r)
  | '+' :: r => signed 1 r
  | '-' :: r => signed (-1) r
  | '\u2212' :: r => signed (-1) r
  | a :: b :: c :: r =>
    if a.toUpper = 'U' ∧ b.toUpper = 'T' ∧ c.toUpper = 'C' then some (0, r) else none
  | _ => none

def yearInRange (y : Int) : Bool := -262143 ≤ y && y ≤ 262142

/-- The instant that a text names. The second 60 is the leap second. -/
def parse? (text : String) : Option Instant := do
  let (y, s) ← year text.toList
  let s ← mark '-' s
  let (month, s) ← number 2 s
  let s ← mark '-' s
  let (day, s) ← number 2 s
  let s ← match s with
    | 'T' :: r => some r
    | 't' :: r => some r
    | ' ' :: r => some r
    | _ => none
  let (hour, s) ← number 2 s
  let s ← mark ':' s
  let (minute, s) ← number 2 s
  let s ← mark ':' s
  let (second, s) ← number 2 s
  let (nanos, s) ← fraction s
  let (shift, s) ← offset (Text.trimStart s)
  let date : Calendar.Date := ⟨y, month, day⟩
  guard (yearInRange y && date.isValid && hour < 24 && minute < 60 && second ≤ 60)
  guard (Text.trimStart s).isEmpty
  let leap := second = 60
  let seconds := date.dayNumber * 86400 + (hour * 3600 + minute * 60 : Nat)
    + (if leap then 59 else second : Nat) - shift
  guard (yearInRange (Calendar.ofDayNumber (seconds.fdiv 86400)).year)
  return ⟨seconds * 1000000000 + nanos, leap⟩

def shape : Json.Shape := .textSuch fun s => (parse? s).isSome

def json (t : Instant) : Json := .str (render t)

def json? (t : Option Instant) : Json := t.elim .null json

def field? (fields : Fields) (key : String) : Option Instant := (fields.text? key).bind parse?

end AgentMesh.Rfc3339
