import AgentMesh.Consensus.Retention
import AgentMesh.Json.Basic
import AgentMesh.Toml.Document

/-!
The settings of an agent's process. A document gives them section by section; what it leaves out
has a default, and names that mean nothing here are passed over.
-/

namespace AgentMesh

structure NetworkSettings where
  listenAddress : String
  /-- The neighbours, as `Peer.parseList` reads them. -/
  neighbors : String
  /-- How many agents are expected to answer a task; if unset, all neighbours and the agent. -/
  participants : Option Nat
  requestTimeoutSecs : Nat
  maxConcurrentExecutions : Nat
deriving DecidableEq

structure ConsensusSettings where
  dispatchTimeoutSecs : Nat
  maxFinalizedTasks : Option Nat
  finalizedTtlSecs : Option Nat
deriving DecidableEq

structure Settings where
  agentId : String
  network : NetworkSettings
  consensus : ConsensusSettings
  logLevel : String
deriving DecidableEq

namespace Settings

def default : Settings :=
  { agentId := "agent"
    network :=
      { listenAddress := "127.0.0.1:9380", neighbors := "", participants := none,
        requestTimeoutSecs := 10, maxConcurrentExecutions := 16 }
    consensus := { dispatchTimeoutSecs := 30, maxFinalizedTasks := none, finalizedTtlSecs := none }
    logLevel := "info" }

/-- A section of a document: its entries by name, or their values in order. -/
inductive Section
  | named (entries : Toml.Entries)
  | ordered (values : List Toml.Value)

namespace Section

/-- The section under a name. A moment in its place says nothing; other values are no sections. -/
def find? (document : Toml.Entries) (name : String) : Option Section :=
  match Dict.lookup name document with
  | none => some (.named [])
  | some (.table _ entries) => some (.named entries)
  | some (.list values) => some (.ordered values)
  | some (.tables items) => some (.ordered (items.map (Toml.Value.table .header)))
  | some (.moment _) => some (.named [])
  | some _ => none

def value? (part : Section) (place : Nat) (name : String) : Option Toml.Value :=
  match part with
  | .named entries => Dict.lookup name entries
  | .ordered values => values[place]?

def text? (part : Section) (place : Nat) (name fallback : String) : Option String :=
  match part.value? place name with
  | none => some fallback
  | some (.text s) => some s
  | some _ => none

def optional? (part : Section) (place : Nat) (name : String) : Option (Option Nat) :=
  match part.value? place name with
  | none => some none
  | some (.integer i) => if 0 ≤ i then some (some i.toNat) else none
  | some _ => none

def natural? (part : Section) (place : Nat) (name : String) (fallback : Nat) : Option Nat :=
  (part.optional? place name).map (·.getD fallback)

end Section

/-- The settings of a document; none if an entry is not of its kind. -/
def ofEntries? (document : Toml.Entries) : Option Settings := do
  let agent ← Section.find? document "agent"
  let network ← Section.find? document "network"
  let consensus ← Section.find? document "consensus"
  let logging ← Section.find? document "logging"
  return {
    agentId := ← agent.text? 0 "id" default.agentId
    network := {
      listenAddress := ← network.text? 0 "listen_addr" default.network.listenAddress
      neighbors := ← network.text? 1 "neighbors" default.network.neighbors
      participants := ← network.optional? 2 "participants"
      requestTimeoutSecs :=
        ← network.natural? 3 "request_timeout_secs" default.network.requestTimeoutSecs
      maxConcurrentExecutions :=
        ← network.natural? 4 "max_concurrent_executions" default.network.maxConcurrentExecutions }
    consensus := {
      dispatchTimeoutSecs :=
        ← consensus.natural? 0 "dispatch_timeout_secs" default.consensus.dispatchTimeoutSecs
      maxFinalizedTasks := ← consensus.optional? 1 "max_finalized_tasks"
      finalizedTtlSecs := ← consensus.optional? 2 "finalized_ttl_secs" }
    logLevel := ← logging.text? 0 "level" default.logLevel }

def parse? (text : String) : Option Settings := (Toml.parse? text).bind ofEntries?

def nanosOfSeconds (n : Nat) : Nat := n * 1000000000

def retention (s : Settings) : Retention :=
  { maxFinalized := s.consensus.maxFinalizedTasks,
    ttl := s.consensus.finalizedTtlSecs.map nanosOfSeconds }

def concurrency (s : Settings) : Nat := max 1 s.network.maxConcurrentExecutions

def natJson? (n : Option Nat) : Json := n.elim .null Json.nat

def toJson (s : Settings) : Json :=
  Json.object
    [("agent", Json.object [("id", .str s.agentId)]),
     ("network", Json.object
       [("listen_addr", .str s.network.listenAddress), ("neighbors", .str s.network.neighbors),
        ("participants", natJson? s.network.participants),
        ("request_timeout_secs", Json.nat s.network.requestTimeoutSecs),
        ("max_concurrent_executions", Json.nat s.network.maxConcurrentExecutions)]),
     ("consensus", Json.object
       [("dispatch_timeout_secs", Json.nat s.consensus.dispatchTimeoutSecs),
        ("max_finalized_tasks", natJson? s.consensus.maxFinalizedTasks),
        ("finalized_ttl_secs", natJson? s.consensus.finalizedTtlSecs)]),
     ("logging", Json.object [("level", .str s.logLevel)])]

end Settings

end AgentMesh
