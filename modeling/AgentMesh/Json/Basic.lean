import AgentMesh.Dict
import AgentMesh.Number.Shortest

/-!
JSON values. Integers and doubles are kept apart, so a value is written the way it was read. The
fields of an object stand as a list; `Json.object` and `Json.ofFields` build it in ascending order,
and `Json.fields?` reads it as a table, where of two fields with one name the later counts.
-/

namespace AgentMesh

inductive Json where
  | null
  | bool (b : Bool)
  | int (i : Int)
  | double (x : Binary64)
  | str (s : String)
  | arr (items : List Json)
  | obj (fields : List (String × Json))

/-- The free-form object that messages and tasks carry. -/
abbrev Fields := Dict Json

namespace Json

instance : Inhabited Json := ⟨.null⟩

mutual

def same : Json → Json → Bool
  | .null, .null => true
  | .bool a, .bool b => a == b
  | .int a, .int b => a == b
  | .double a, .double b => a == b
  | .str a, .str b => a == b
  | .arr a, .arr b => sameItems a b
  | .obj a, .obj b => sameFields a b
  | _, _ => false

def sameItems : List Json → List Json → Bool
  | [], [] => true
  | a :: r, b :: s => same a b && sameItems r s
  | _, _ => false

def sameFields : List (String × Json) → List (String × Json) → Bool
  | [], [] => true
  | (k, a) :: r, (k', b) :: s => k == k' && same a b && sameFields r s
  | _, _ => false

end

mutual

theorem same_iff : ∀ a b : Json, same a b = true ↔ a = b
  | .null, b => by cases b <;> simp [same]
  | .bool x, b => by cases b <;> simp [same]
  | .int x, b => by cases b <;> simp [same]
  | .double x, b => by cases b <;> simp [same]
  | .str x, b => by cases b <;> simp [same]
  | .arr x, b => by cases b <;> simp [same, sameItems_iff x]
  | .obj x, b => by cases b <;> simp [same, sameFields_iff x]

theorem sameItems_iff : ∀ a b : List Json, sameItems a b = true ↔ a = b
  | [], b => by cases b <;> simp [sameItems]
  | x :: r, b => by cases b <;> simp [sameItems, same_iff x, sameItems_iff r]

theorem sameFields_iff : ∀ a b : List (String × Json), sameFields a b = true ↔ a = b
  | [], b => by cases b <;> simp [sameFields]
  | (k, x) :: r, b => by
    cases b with
    | nil => simp [sameFields]
    | cons y s =>
      obtain ⟨k', y⟩ := y
      simp [sameFields, same_iff x, sameFields_iff r, and_assoc]

end

instance : DecidableEq Json := fun a b => decidable_of_iff _ (same_iff a b)

def object (fields : List (String × Json)) : Json := .obj (Dict.ofList fields).entries

def ofFields (fields : Fields) : Json := .obj fields.entries

def ofTexts (texts : Dict String) : Json := .obj (texts.mapValues Json.str).entries

def ofText? (s : Option String) : Json := s.elim .null .str

def nat (n : Nat) : Json := .int n

def text? : Json → Option String
  | .str s => some s
  | _ => none

def bool? : Json → Option Bool
  | .bool b => some b
  | _ => none

def int? : Json → Option Int
  | .int i => some i
  | _ => none

def nat? : Json → Option Nat
  | .int i => if 0 ≤ i then some i.toNat else none
  | _ => none

def items? : Json → Option (List Json)
  | .arr l => some l
  | _ => none

def fields? : Json → Option Fields
  | .obj l => some (Dict.ofList l)
  | _ => none

def real? : Json → Option Binary64
  | .int i => some (Binary64.ofInt i)
  | .double x => some x
  | _ => none

def numberText? : Json → Option String
  | .int i => some (intText i)
  | .double x => some x.text
  | _ => none

end Json

namespace Fields

def text? (f : Fields) (key : String) : Option String := (f.get? key).bind Json.text?

def object (f : Fields) (key : String) : Fields := ((f.get? key).bind Json.fields?).getD Dict.empty

end Fields

end AgentMesh
