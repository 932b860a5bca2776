import AgentMesh.Envelope.Basic
import AgentMesh.Json.Printer

/-!
Envelopes as JSON. A reader is lenient with what it can make up itself (a missing identifier, a
missing time, no payload) and strict with the rest.
-/

namespace AgentMesh

inductive EnvelopeFault
  | notObject
  | missing (field : String)
  | notText (field : String)
  | payloadNotObject
  | unsupportedKind (shown : String)
deriving DecidableEq

namespace EnvelopeFault

def reason : EnvelopeFault → String
  | notObject => "envelope must be a JSON object"
  | missing field => "missing field '" ++ field ++ "'"
  | notText field => "field '" ++ field ++ "' must be a string"
  | payloadNotObject => "field 'payload' must be an object"
  | unsupportedKind shown => shown

def message : EnvelopeFault → String
  | unsupportedKind shown => "unsupported message kind '" ++ shown ++ "'"
  | fault => "invalid envelope: " ++ fault.reason

def code : EnvelopeFault → String
  | unsupportedKind _ => "unsupported_kind"
  | fault => fault.reason

end EnvelopeFault

def invalidJsonCode : String := "invalid_json"

def Kind.ofText (s : String) : Except EnvelopeFault Kind :=
  match Kind.ofName? s with
  | some k => .ok k
  | none => .error (.unsupportedKind s)

/-- A field that has to be there and be a text; a number stands for its decimal text. -/
def requiredText (fields : Fields) (field : String) : Except EnvelopeFault String :=
  match fields.get? field with
  | none => .error (.missing field)
  | some v =>
    match v.text?, v.numberText? with
    | some s, _ => .ok s
    | none, some s => .ok s
    | none, none => .error (.notText field)

namespace Envelope

def kindOf (fields : Fields) : Except EnvelopeFault Kind :=
  match fields.get? "kind" with
  | none => .error (.missing "kind")
  | some (.str s) => Kind.ofText s
  | some v => .error (.unsupportedKind v.render)

def payloadOf (fields : Fields) : Except EnvelopeFault Fields :=
  match fields.get? "payload" with
  | none => .ok Dict.empty
  | some .null => .ok Dict.empty
  | some (.obj l) => .ok (Dict.ofList l)
  | some _ => .error .payloadNotObject

/-- The identifier, or a fresh one where it is no text or empty. -/
def messageIdOf (fresh : String) (fields : Fields) : String :=
  match fields.get? "message_id" with
  | some (.str s) => if s.isEmpty then fresh else s
  | _ => fresh

/-- The time of sending, or the present where it is no number or zero. -/
def timestampOf (now : Binary64) (fields : Fields) : Binary64 :=
  match (fields.get? "timestamp").bind Json.real? with
  | some t => if t.isZero then now else t
  | none => now

def ofJson (fresh : String) (now : Binary64) (v : Json) : Except EnvelopeFault Envelope := do
  let some fields := v.fields? | throw .notObject
  let kind ← kindOf fields
  let sender ← requiredText fields "sender"
  let taskId ← requiredText fields "task_id"
  let payload ← payloadOf fields
  return { kind, sender, taskId, payload, messageId := messageIdOf fresh fields,
           timestamp := timestampOf now fields }

def writtenFields (e : Envelope) : List (String × Json) :=
  [("kind", .str e.kind.name), ("sender", .str e.sender), ("task_id", .str e.taskId),
   ("payload", Json.ofFields e.payload), ("message_id", .str e.messageId),
   ("timestamp", .double e.timestamp)]

def toJson (e : Envelope) : Json := Json.object e.writtenFields

def toText (e : Envelope) : String := (Json.obj e.writtenFields).render

end Envelope

def Message.seal (m : Message) (fresh : String) (now : Binary64) : Envelope :=
  { m with messageId := fresh, timestamp := now }

end AgentMesh
