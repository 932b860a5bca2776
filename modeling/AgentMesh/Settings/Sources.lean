import AgentMesh.Settings.Basic
import AgentMesh.Settings.Flags
import AgentMesh.Settings.Files
import AgentMesh.Text.Blank

/-!
Where settings come from: a file, over that the environment, over that the flags. The file is the
one that a flag names, else the one that the environment names, else the file of the user, if there
is one.
-/

namespace AgentMesh.Settings

abbrev Environment := Dict String

def override? (env : Environment) (name : String) : Option String :=
  (env.get? name).filter fun v => !Text.isBlankText v

def withEnvironment (s : Settings) (env : Environment) : Settings :=
  { s with
    agentId := (override? env "MESH_AGENT_ID").getD s.agentId
    network := { s.network with
      neighbors := (override? env "MESH_AGENT_NEIGHBORS").getD s.network.neighbors
      listenAddress := (override? env "MESH_LISTEN_ADDR").getD s.network.listenAddress } }

def withFlags (s : Settings) (f : Flags) : Settings :=
  { s with
    agentId := f.agentId.getD s.agentId
    logLevel := f.logLevel.getD s.logLevel
    network := { s.network with
      neighbors := f.neighbors.getD s.network.neighbors
      listenAddress := f.listen.getD s.network.listenAddress } }

/-- The directory of the user's settings: the one that the environment names, if that is an absolute
path, else a directory in the home directory. -/
def userDirectory? (env : Environment) : Option String :=
  (env.get? "XDG_CONFIG_HOME").filter Path.isAbsolute <|>
    ((env.get? "HOME").filter (!·.isEmpty)).map (Path.join · ".config")

def namedPath? (f : Flags) (env : Environment) : Option String :=
  f.config <|> (env.get? "MESH_CONFIG").filter (!·.isEmpty)

def userPath? (env : Environment) : Option String :=
  (userDirectory? env).map fun d => Path.join (Path.join d "mesh") "node.toml"

def locate? (f : Flags) (env : Environment) (files : Files) : Option String :=
  namedPath? f env <|> (userPath? env).filter files.isFile

def candidates (f : Flags) (env : Environment) : List String :=
  (namedPath? f env).toList ++ (userPath? env).toList

inductive Fault
  | read (path : String) (fault : ReadFault)
  | parse (path : String)
deriving DecidableEq

def readFaultText (path : String) (fault : ReadFault) : String :=
  "failed to read config file " ++ path ++ ": " ++ fault.message

def load (files : Files) (path : String) : Except Fault Settings :=
  match files.read path with
  | .error fault => .error (.read path fault)
  | .ok text =>
    match parse? text with
    | some s => .ok s
    | none => .error (.parse path)

def resolve (f : Flags) (env : Environment) (files : Files) :
    Except Fault (Settings × Option String) := do
  let path := locate? f env files
  let s ← match path with
    | some path => load files path
    | none => .ok default
  return ((s.withEnvironment env).withFlags f, path)

end AgentMesh.Settings
