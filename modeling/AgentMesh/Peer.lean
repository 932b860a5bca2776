import AgentMesh.Envelope.Basic
import AgentMesh.Text.Blank
import AgentMesh.Text.Ending
import AgentMesh.Text.Pieces
import AgentMesh.Time.Rfc3339

/-!
Neighbours and their health, and the text that lists them. Health is an observation only: a peer
that failed is tried again.
-/

namespace AgentMesh

structure Peer where
  id : String
  endpoint : String
  healthy : Bool
  lastSeen : Option Instant
  lastError : Option String
deriving DecidableEq

namespace Peer

def ofEndpoint (id endpoint : String) : Peer :=
  { id, endpoint, healthy := false, lastSeen := none, lastError := none }

def succeeded (p : Peer) (now : Instant) : Peer :=
  { p with healthy := true, lastSeen := some now, lastError := none }

def failed (p : Peer) (error : String) (now : Instant) : Peer :=
  { p with healthy := false, lastSeen := some now, lastError := some error }

def exchangeUrl (p : Peer) : String :=
  String.ofList (Text.dropTrailing '/' p.endpoint.toList) ++ exchangePath

/-- The peer that a fragment of a list names: `name=endpoint`, or one text for both. -/
def ofFragment? (fragment : List Char) : Option Peer :=
  let (id, endpoint) := match Text.cutAt '=' fragment with
    | some (name, url) => (Text.trim name, Text.trim url)
    | none => (fragment, fragment)
  if id.isEmpty || endpoint.isEmpty then none
  else some (ofEndpoint (String.ofList id) (String.ofList endpoint))

/-- The peers of a list with commas between them; fragments without a name or an endpoint are passed
over. -/
def parseChars (raw : List Char) : List Peer :=
  (Text.pieces ',' raw).filterMap fun piece => ofFragment? (Text.trim piece)

def parseList (raw : String) : List Peer := parseChars raw.toList

def toJson (p : Peer) : Json :=
  Json.object
    [("id", .str p.id), ("endpoint", .str p.endpoint), ("healthy", .bool p.healthy),
     ("last_seen", Rfc3339.json? p.lastSeen), ("last_error", Json.ofText? p.lastError)]

def recordFields : List Json.Field :=
  [⟨"id", .text, .required⟩, ⟨"endpoint", .text, .required⟩, ⟨"healthy", .flag, .required⟩,
   ⟨"last_seen", .optional Rfc3339.shape, .null⟩, ⟨"last_error", .optional .text, .null⟩]

def ofFields? (fields : Fields) : Option Peer := do
  let id ← fields.text? "id"
  let endpoint ← fields.text? "endpoint"
  let healthy ← (fields.get? "healthy").bind Json.bool?
  return { id, endpoint, healthy, lastSeen := Rfc3339.field? fields "last_seen",
           lastError := fields.text? "last_error" }

def decode? (text : String) : Option Peer :=
  match Json.parseRecord recordFields (text.toList.map some) with
  | .ok fields => ofFields? fields
  | .error _ => none

end Peer

end AgentMesh
