import AgentMesh.Text.Digits
import AgentMesh.Text.Pieces
import AgentMesh.Text.Utf8

/-!
Percent-encoded text, as it stands in addresses and forms.
-/

namespace AgentMesh.Text

def hexOctet? (b : UInt8) : Option Nat := hexValue? (Char.ofNat b.toNat)

/-- Decode percent-encoded octets. A percent sign without two hexadecimal digits stays as it is. -/
def percentDecode : List UInt8 → List UInt8
  | [] => []
  | [a] => [a]
  | [a, b] => [a, b]
  | p :: a :: b :: r =>
    match decide (p = 0x25), hexOctet? a, hexOctet? b with
    | true, some x, some y => UInt8.ofNat (16 * x + y) :: percentDecode r
    | _, _, _ => p :: percentDecode (a :: b :: r)

def encodeUtf8 (s : List Char) : List UInt8 := s.flatMap String.utf8EncodeChar

def percentDecoded? (s : List Char) : Option (List Char) :=
  decodeUtf8? (percentDecode (encodeUtf8 s))

def formDecoded? (s : List Char) : Option (List Char) :=
  percentDecoded? (s.map fun c => if c = '+' then ' ' else c)

def formPairs (form : List Char) : List (Option (List Char) × Option (List Char)) :=
  ((pieces '&' form).filter (!·.isEmpty)).map fun piece =>
    let (name, value) := (cutAt '=' piece).getD (piece, [])
    (formDecoded? name, formDecoded? value)

end AgentMesh.Text
