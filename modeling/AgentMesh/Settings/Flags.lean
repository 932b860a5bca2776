import AgentMesh.Text.Pieces

/-!
The flags of the command line. Each takes one value, after it or attached to it by an equals sign,
and stands once at most. A value is looked at when the next flag comes or the line ends, so of two
faults the one that shows first is reported.
-/

namespace AgentMesh

inductive Flag
  | config
  | agentId
  | neighbors
  | listen
  | logLevel
deriving DecidableEq

inductive FlagFault
  | missingValue
  | emptyPath
  | unknownArgument
  | repeatedFlag
  | unexpectedValue
  | help
  | version
deriving DecidableEq

structure Flags where
  config : Option String
  agentId : Option String
  neighbors : Option String
  listen : Option String
  logLevel : Option String
deriving DecidableEq

inductive Argument
  | terminator
  | long (name : List Char) (value : Option String)
  /-- A hyphen with letters, of which the first counts. -/
  | short (letter : Char)
  | plain (text : String)

inductive FlagName
  | valued (flag : Flag)
  | help
  | version

namespace FlagName

def ofName? (name : List Char) : Option FlagName :=
  match String.ofList name with
  | "config" => some (.valued .config)
  | "agent-id" => some (.valued .agentId)
  | "neighbors" => some (.valued .neighbors)
  | "listen" => some (.valued .listen)
  | "log-level" => some (.valued .logLevel)
  | "help" => some .help
  | "version" => some .version
  | _ => none

def ofLetter? (letter : Char) : Option FlagName :=
  if letter = 'h' then some .help
  else if letter = 'V' then some .version
  else none

end FlagName

def Argument.ofText (arg : String) : Argument :=
  match arg.toList with
  | ['-', '-'] => .terminator
  | '-' :: '-' :: r =>
    match Text.cutAt '=' r with
    | some (name, value) => .long name (some (String.ofList value))
    | none => .long r none
  | '-' :: c :: _ => .short c
  | _ => .plain arg

namespace Flags

def none : Flags := ⟨Option.none, Option.none, Option.none, Option.none, Option.none⟩

def get? (f : Flags) : Flag → Option String
  | .config => f.config
  | .agentId => f.agentId
  | .neighbors => f.neighbors
  | .listen => f.listen
  | .logLevel => f.logLevel

def put (f : Flags) (v : String) : Flag → Flags
  | .config => { f with config := some v }
  | .agentId => { f with agentId := some v }
  | .neighbors => { f with neighbors := some v }
  | .listen => { f with listen := some v }
  | .logLevel => { f with logLevel := some v }

def take (f : Flags) (flag : Flag) (v : String) : Except FlagFault Flags :=
  if (f.get? flag).isSome then .error .repeatedFlag
  else if flag = .config && v.isEmpty then .error .emptyPath
  else .ok (f.put v flag)

def settle (f : Flags) : Option (Flag × Option String) → Except FlagFault Flags
  | .none => .ok f
  | some (_, .none) => .error .missingValue
  | some (flag, some v) => f.take flag v

def read (f : Flags) (last : Option (Flag × Option String)) : List String → Except FlagFault Flags
  | [] => f.settle last
  | arg :: rest =>
    match Argument.ofText arg with
    | .terminator => if rest.isEmpty then f.settle last else .error .unknownArgument
    | .plain v =>
      match last with
      | some (flag, .none) => read f (some (flag, some v)) rest
      | _ => .error .unknownArgument
    | .short letter =>
      match FlagName.ofLetter? letter with
      | some .help => do let _ ← f.settle last; throw .help
      | some .version => do let _ ← f.settle last; throw .version
      | _ => .error .unknownArgument
    | .long name value =>
      match FlagName.ofName? name, value with
      | .none, _ => .error .unknownArgument
      | some (.valued flag), some v => do
        let f ← f.settle last
        let f ← f.take flag v
        read f .none rest
      | some (.valued flag), .none => do
        let f ← f.settle last
        read f (some (flag, .none)) rest
      | some _, some _ => .error .unexpectedValue
      | some .help, .none => do let _ ← f.settle last; throw .help
      | some .version, .none => do let _ ← f.settle last; throw .version

def parse (args : List String) : Except FlagFault Flags := read none .none args

end Flags

end AgentMesh
