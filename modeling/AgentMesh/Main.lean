import AgentMesh.Json.Printer
import AgentMesh.Settings.Sources

/-!
Command line: shows the settings that an agent's process has under flags, environment and file.
-/

namespace AgentMesh.CommandLine

def usage : String :=
  "Usage: mesh-node [--config PATH] [--agent-id ID] [--neighbors NAME=URL,...] " ++
    "[--listen ADDRESS] [--log-level LEVEL]"

def versionText : String := "mesh-node 0.1.0"

def flagFaultText : FlagFault → String
  | .missingValue => "a flag lacks its value"
  | .emptyPath => "the path of the configuration file is empty"
  | .unknownArgument => "unexpected argument"
  | .repeatedFlag => "a flag stands twice"
  | .unexpectedValue => "a flag that takes no value has one"
  | .help => usage
  | .version => versionText

def faultText : Settings.Fault → String
  | .read path fault => Settings.readFaultText path fault
  | .parse path => "failed to parse config file " ++ path

def variableNames : List String :=
  ["MESH_CONFIG", "MESH_AGENT_ID", "MESH_AGENT_NEIGHBORS", "MESH_LISTEN_ADDR", "XDG_CONFIG_HOME",
   "HOME"]

def environment : IO Settings.Environment := do
  let entries ← variableNames.filterMapM fun name => do
    return (← IO.getEnv name).map fun value => (name, value)
  return Dict.ofList entries

def readable (paths : List String) : IO Files := do
  let entries ← paths.filterMapM fun (path : String) => do
    try
      let text ← IO.FS.readFile path
      return some (Files.place path, text)
    catch _ => return none
  return ⟨entries⟩

def run (args : List String) : IO UInt32 := do
  match Flags.parse args with
  | .error .help => IO.println usage; return 0
  | .error .version => IO.println versionText; return 0
  | .error fault => IO.eprintln (flagFaultText fault); return 2
  | .ok flags =>
    let env ← environment
    let files ← readable (Settings.candidates flags env)
    match Settings.resolve flags env files with
    | .error fault => IO.eprintln (faultText fault); return 1
    | .ok (settings, _) => IO.println settings.toJson.render; return 0

end AgentMesh.CommandLine

def main (args : List String) : IO UInt32 := AgentMesh.CommandLine.run args
