/-!
Reading octets as UTF-8. Octets that belong to no well-formed sequence are kept apart as `none`, so
a reader that follows can say where they stand.
-/

namespace AgentMesh.Text

def continuation? (b : UInt8) : Option Nat :=
  if b.toNat / 64 = 2 then some (b.toNat % 64) else none

def scalar? (size code : Nat) : Option Char :=
  let least := if size = 2 then 0x80 else if size = 3 then 0x800 else 0x10000
  if code.isValidChar ∧ least ≤ code then some (Char.ofNat code) else none

/-- The well-formed sequence of two or more octets at the start, with its length. -/
def sequence? : List UInt8 → Option (Char × Nat)
  | a :: b :: r =>
    let lead := a.toNat
    match continuation? b with
    | none => none
    | some x =>
      if lead / 32 = 6 then (scalar? 2 (lead % 32 * 64 + x)).map (·, 2)
      else match r with
        | c :: r =>
          match continuation? c with
          | none => none
          | some y =>
            if lead / 16 = 14 then (scalar? 3 ((lead % 16 * 64 + x) * 64 + y)).map (·, 3)
            else match r with
              | d :: _ =>
                match continuation? d with
                | none => none
                | some z =>
                  if lead / 8 = 30 then
                    (scalar? 4 (((lead % 8 * 64 + x) * 64 + y) * 64 + z)).map (·, 4)
                  else none
              | [] => none
        | [] => none
  | _ => none

/-- The characters of a run of octets; `none` stands for an octet outside every sequence. The first
argument counts the octets that the character before has used up already. -/
def symbolsFrom : Nat → List UInt8 → List (Option Char)
  | _, [] => []
  | skip + 1, _ :: r => symbolsFrom skip r
  | 0, b :: r =>
    if b.toNat < 0x80 then some (Char.ofNat b.toNat) :: symbolsFrom 0 r
    else match sequence? (b :: r) with
      | some (c, size) => some c :: symbolsFrom (size - 1) r
      | none => none :: symbolsFrom 0 r

/-- The characters of a run of octets; `none` stands for an octet outside every sequence. -/
def symbols (bytes : List UInt8) : List (Option Char) := symbolsFrom 0 bytes

def decodeUtf8? (bytes : List UInt8) : Option (List Char) :=
  (symbols bytes).mapM id

end AgentMesh.Text
