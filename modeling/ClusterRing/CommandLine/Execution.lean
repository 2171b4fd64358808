import ClusterRing.CommandLine.Arguments
import ClusterRing.CommandLine.Report
import ClusterRing.Config.Document
import ClusterRing.Event.Script
import ClusterRing.Locator.Failover

/-!
# Carrying out commands

The configuration is read first, then the list of nodes, and then the command is
carried out on the locator they give. Files are looked up by name, so that the
outcome is a function of the arguments and the files. Main statement: only the
files that the arguments name matter (`Arguments.execute_congr`), so that it is
enough to read those beforehand.
-/

namespace ClusterRing.CommandLine

/-- Why a command breaks off. -/
inductive Failure where
  /-- The file with the configuration is missing or is no text. -/
  | readingConfig (file : String)
  /-- The file holds no valid configuration. -/
  | loadingConfig (file : String) (cause : Config.LoadFault)
  /-- The list of nodes is not valid. -/
  | parsingNodes (cause : Address.Fault)
  /-- The file with the script is missing or is no text. -/
  | readingScript (file : String)
  /-- A line of the script is no event. -/
  | parsingScript (line : Nat)
  /-- An event of the script failed. -/
  | replaying (cause : Breach)

/-- The failure in words. -/
def Failure.message : Failure → String
  | .readingConfig file => "reading config " ++ file
  | .loadingConfig file _ => "loading config " ++ file
  | .parsingNodes _ => "parsing --nodes"
  | .readingScript file => "reading events " ++ file
  | .parsingScript line => "event on line " ++ toString line
  | .replaying cause => (Fault.breach cause).message

/-- The content of each file that can be read. -/
abbrev Files := String → Option ByteArray

/-- The text in a file. -/
def textOf? (files : Files) (file : String) : Option String :=
  files file >>= String.fromUTF8?

/-- Looks up keys. -/
def locate (locator : Locator) (keys : List String) : List (String × Option Address) :=
  keys.map fun key => (key, locator.primary? key)

/-- Applies events to a locator and looks up keys in what is published at the end. -/
def replay (locator : Locator) (events : List Event) (keys : List String) :
    Except Breach Report := do
  let run := ControlLoop.runEvents (.start locator) events
  let tally ← run.result
  let published := run.publisher.published
  return .replayed tally published.kind? (locate published keys)

/-- Applies a script to a locator and looks up keys in what is published at the end. -/
def replayScript (locator : Locator) (script : String) (keys : List String) :
    Except Failure Report := do
  let events ← (Script.parse script).mapError .parsingScript
  (replay locator events keys).mapError .replaying

/-- Carries out a command on a locator. -/
def Command.execute (files : Files) (locator : Locator) : Command → Except Failure Report
  | .locate keys => .ok (.located (CommandLine.locate locator keys))
  | .sequence key => .ok (.sequence key (locator.failover key).takeAll.1)
  | .inspect => .ok (.inspected locator.inspect)
  | .replay file keys =>
    match textOf? files file with
    | none => .error (.readingScript file)
    | some script => replayScript locator script keys

/-- The files that a command names. -/
def Command.files : Command → List String
  | .replay script _ => [script]
  | _ => []

/-- The configuration that a file holds; without a file, the default one. -/
def loadConfig (files : Files) : Option String → Except Failure Config
  | none => .ok default
  | some file =>
    match textOf? files file with
    | none => .error (.readingConfig file)
    | some text => (Config.load text).mapError (.loadingConfig file)

/-- The files that the arguments name. -/
def Arguments.files (arguments : Arguments) : List String :=
  arguments.config.toList ++ arguments.command.files

/-- Carries out what the arguments ask for. -/
def Arguments.execute (files : Files) (arguments : Arguments) : Except Failure Report := do
  let config ← loadConfig files arguments.config
  let nodes ← (Address.parseList arguments.nodes).mapError .parsingNodes
  let locator := Locator.build ⟨arguments.hasher, config⟩ nodes
  arguments.command.execute files locator

theorem loadConfig_congr {files others : Files} {config : Option String}
    (agree : ∀ file ∈ config, files file = others file) :
    loadConfig files config = loadConfig others config := by
  cases config with
  | none => rfl
  | some file => simp [loadConfig, textOf?, agree file rfl]

theorem Command.execute_congr {files others : Files} {command : Command}
    (agree : ∀ file ∈ command.files, files file = others file) (locator : Locator) :
    command.execute files locator = command.execute others locator := by
  cases command with
  | replay script keys =>
    simp [Command.execute, textOf?, agree script (by simp [Command.files])]
  | _ => rfl

/-- Only the files that the arguments name matter. -/
theorem Arguments.execute_congr {files others : Files} {arguments : Arguments}
    (agree : ∀ file ∈ arguments.files, files file = others file) :
    arguments.execute files = arguments.execute others := by
  have config : loadConfig files arguments.config = loadConfig others arguments.config :=
    loadConfig_congr fun file fileMem => agree file (by simp_all [Arguments.files])
  have command (locator : Locator) :
      arguments.command.execute files locator = arguments.command.execute others locator :=
    Command.execute_congr (fun file fileMem => agree file (by simp_all [Arguments.files])) locator
  simp only [Arguments.execute, config, command]

end ClusterRing.CommandLine
