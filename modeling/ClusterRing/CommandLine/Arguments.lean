import ClusterRing.Hash.Hasher

/-!
# Command-line arguments

The arguments name a command, its operands, and settings. Settings that all
commands share may stand before or after the command; after it they take
precedence. A setting is written as `-n VALUE`, `-nVALUE`, `-n=VALUE`,
`--nodes VALUE` or `--nodes=VALUE`, single letters may be joined, and `--` ends
the options.

A setting or an operand takes effect when the next one begins, so a fault in its
value is reported then, while an unknown option is reported at once.
-/

namespace ClusterRing.CommandLine

/-- What the command line asks for. -/
inductive Command where
  /-- Print the node of each key. -/
  | locate (keys : List String)
  /-- Print the nodes to try for a key. -/
  | sequence (key : String)
  /-- Print how keys are spread over the nodes. -/
  | inspect
  /-- Apply a script of events, then print the node of each key. -/
  | replay (script : String) (keys : List String)
deriving DecidableEq

/-- The arguments, understood. -/
structure Arguments where
  /-- The list of active nodes, not yet read. -/
  nodes : String
  /-- The file that holds the configuration. -/
  config : Option String
  hasher : Hasher
  command : Command

/-- Why the arguments are not carried out. -/
inductive UsageFault where
  /-- Help was asked for. -/
  | displayHelp
  /-- There are no arguments at all. -/
  | displayHelpOnMissing
  /-- The version was asked for. -/
  | displayVersion
  /-- There is an option but no command. -/
  | missingCommand
  /-- A word is no command. -/
  | invalidCommand
  /-- An option is unknown here, or there are too many operands. -/
  | unknownArgument
  /-- A setting occurs twice. -/
  | argumentConflict
  /-- A setting has no value or one that it does not allow. -/
  | invalidValue
  /-- An operand is missing. -/
  | missingOperand
  /-- A switch has a value. -/
  | unexpectedValue
deriving DecidableEq

namespace UsageFault

/-- How the arguments are written. -/
def usage : String :=
  "Inspect and exercise a ring of cluster nodes\n\n" ++
  "Usage: ketama [OPTIONS] <COMMAND>\n\n" ++
  "Commands:\n" ++
  "  locate [KEYS]...          Print the node of each key\n" ++
  "  sequence <KEY>            Print the nodes to try for a key\n" ++
  "  inspect                   Print how keys are spread over the nodes\n" ++
  "  replay <SCRIPT>           Apply a script of events, then print the node of each key\n" ++
  "  help [COMMAND]            Print this help\n\n" ++
  "Options:\n" ++
  "  -n, --nodes <NODES>       Active nodes, comma separated host:port\n" ++
  "  -c, --config <CONFIG>     File with the configuration\n" ++
  "      --hash <HASH>         ketama (the default) or xxh3\n" ++
  "  -v, --verbose             Accepted, and without effect\n" ++
  "  -k, --keys <KEYS>         Key to print after a replay, may be repeated\n" ++
  "  -h, --help                Print this help\n" ++
  "  -V, --version             Print the version\n"

/-- The text that answers arguments that are not carried out. -/
def message : UsageFault → String
  | displayHelp | displayHelpOnMissing => usage
  | displayVersion => "ketama 0.1.0\n"
  | missingCommand => "error: a command is missing\n"
  | invalidCommand => "error: unrecognized command\n"
  | unknownArgument => "error: unexpected argument\n"
  | argumentConflict => "error: an option is given more than once\n"
  | invalidValue => "error: an option has no valid value\n"
  | missingOperand => "error: a required argument is missing\n"
  | unexpectedValue => "error: a switch takes no value\n"

/-- Whether the arguments asked for nothing but this text. -/
def isRequested : UsageFault → Bool
  | displayHelp | displayVersion => true
  | _ => false

end UsageFault

/-! ### Words -/

/-- Where an argument stands: before the command, or among the arguments of a command. -/
inductive Level where
  | root
  | locate
  | sequence
  | inspect
  | replay
deriving DecidableEq

/-- The command that a word names. -/
def Level.ofWord? : String → Option Level
  | "locate" => some .locate
  | "sequence" => some .sequence
  | "inspect" => some .inspect
  | "replay" => some .replay
  | _ => none

/-- The word that asks for help in place of a command. -/
def helpWord : String := "help"

/-- Whether a word can stand where a command is expected. -/
def isCommandWord (word : String) : Bool :=
  (Level.ofWord? word).isSome || word = helpWord

/-- An option with a value. -/
inductive Setting where
  | nodes
  | config
  | hash
  | keys
deriving DecidableEq

/-- An option without a value. -/
inductive Switch where
  | verbose
  | help
  | version
deriving DecidableEq

/-- The option that a letter names at some level. -/
def Level.ofLetter? (level : Level) : Char → Option (Setting ⊕ Switch)
  | 'n' => some (.inl .nodes)
  | 'c' => some (.inl .config)
  | 'v' => some (.inr .verbose)
  | 'h' => some (.inr .help)
  | 'V' => if level = .root then some (.inr .version) else none
  | 'k' => if level = .replay then some (.inl .keys) else none
  | _ => none

/-- The option that a name stands for at some level. -/
def Level.ofName? (level : Level) : String → Option (Setting ⊕ Switch)
  | "nodes" => some (.inl .nodes)
  | "config" => some (.inl .config)
  | "hash" => some (.inl .hash)
  | "verbose" => some (.inr .verbose)
  | "help" => some (.inr .help)
  | "version" => if level = .root then some (.inr .version) else none
  | "keys" => if level = .replay then some (.inl .keys) else none
  | _ => none

/-! ### Values -/

/-- The options and operands that have taken effect at one level. -/
structure Given where
  nodes : Option String := none
  config : Option String := none
  hasher : Option Hasher := none
  verbose : Bool := false
  /-- The values of the repeatable setting for keys. -/
  keys : List String := []
  operands : List String := []

/-- Whether nothing has taken effect. -/
def Given.isNothing (given : Given) : Bool :=
  given.nodes.isNone && given.config.isNone && given.hasher.isNone && !given.verbose

/-- Lets the value of a setting take effect. -/
def Given.set (given : Given) (setting : Setting) (value : String) : Except UsageFault Given :=
  match setting with
  | .nodes =>
    if given.nodes.isSome then .error .argumentConflict
    else .ok { given with nodes := some value }
  | .config =>
    if given.config.isSome then .error .argumentConflict
    else if value = "" then .error .invalidValue
    else .ok { given with config := some value }
  | .hash =>
    if given.hasher.isSome then .error .argumentConflict
    else match Hasher.ofWord? value with
      | some hasher => .ok { given with hasher := some hasher }
      | none => .error .invalidValue
  | .keys => .ok { given with keys := given.keys ++ [value] }

/-- Lets an operand take effect. The script of a replay needs a name. -/
def Given.addOperand (given : Given) (level : Level) (operand : String) : Except UsageFault Given :=
  if level = .replay ∧ operand = "" then .error .invalidValue
  else .ok { given with operands := given.operands ++ [operand] }

/-- A setting or operand that has begun and not yet taken effect. -/
inductive Pending where
  /-- A setting whose value is the next argument. -/
  | awaiting (setting : Setting)
  | setting (setting : Setting) (value : String)
  | operand (value : String)

/-- How far the arguments of one level have been read. -/
structure Progress where
  given : Given := {}
  pending : Option Pending := none
  /-- Whether the options have been ended. -/
  operandsOnly : Bool := false

namespace Progress

/-- Lets what has begun take effect. -/
def resolve (progress : Progress) (level : Level) : Except UsageFault Progress := do
  let given ← match progress.pending with
    | none => .ok progress.given
    | some (.awaiting _) => .error .invalidValue
    | some (.setting setting value) => progress.given.set setting value
    | some (.operand value) => progress.given.addOperand level value
  return { progress with given := given, pending := none }

/-- Whether the next argument may be the value of a setting. -/
def isAwaiting (progress : Progress) : Bool :=
  match progress.pending with
  | some (.awaiting _) => true
  | _ => false

/-- Takes a setting whose value is attached to it. -/
def attach (progress : Progress) (level : Level) (setting : Setting) (value : String) :
    Except UsageFault Progress := do
  let progress ← progress.resolve level
  let given ← progress.given.set setting value
  return { progress with given := given }

/-- Takes a setting whose value is to follow. -/
def await (progress : Progress) (level : Level) (setting : Setting) :
    Except UsageFault Progress := do
  let progress ← progress.resolve level
  return { progress with pending := some (.awaiting setting) }

/-- Takes a switch. -/
def turnOn (progress : Progress) (level : Level) (switch : Switch) :
    Except UsageFault Progress := do
  let progress ← progress.resolve level
  match switch with
  | .help => .error .displayHelp
  | .version => .error .displayVersion
  | .verbose =>
    if progress.given.verbose then .error .argumentConflict
    else return { progress with given := { progress.given with verbose := true } }

/-- Takes joined letters. The rest after a setting is its value, with or without an equals sign. -/
def takeLetters (level : Level) (progress : Progress) : List Char → Except UsageFault Progress
  | [] => .ok progress
  | letter :: rest =>
    match level.ofLetter? letter, rest with
    | none, _ => .error .unknownArgument
    | some (.inr switch), rest => do
      let progress ← progress.turnOn level switch
      takeLetters level progress rest
    | some (.inl setting), [] => progress.await level setting
    | some (.inl setting), '=' :: value => progress.attach level setting (String.ofList value)
    | some (.inl setting), value => progress.attach level setting (String.ofList value)

/-- Takes a named option and the value after its equals sign, if there is one. -/
def takeName (level : Level) (progress : Progress) (name : String) (value : Option String) :
    Except UsageFault Progress :=
  match level.ofName? name, value with
  | none, _ => .error .unknownArgument
  | some (.inr _), some _ => .error .unexpectedValue
  | some (.inr switch), none => progress.turnOn level switch
  | some (.inl setting), some value => progress.attach level setting value
  | some (.inl setting), none => progress.await level setting

/-- Whether an operand has begun or taken effect. -/
def hasOperand (progress : Progress) : Bool :=
  match progress.pending with
  | some (.operand _) => true
  | _ => !progress.given.operands.isEmpty

/-- Takes an operand, where the command has room for one. -/
def takeOperand (level : Level) (progress : Progress) (operand : String) :
    Except UsageFault Progress := do
  match level with
  | .root =>
    if progress.operandsOnly && isCommandWord operand then .error .unknownArgument
    else .error .invalidCommand
  | .inspect => .error .unknownArgument
  | .sequence | .replay => if progress.hasOperand then .error .unknownArgument
  | .locate => pure ()
  let progress ← progress.resolve level
  return { progress with pending := some (.operand operand) }

/-- Takes an argument that is neither a command nor the end of the options. -/
def takeArgument (level : Level) (progress : Progress) (argument : String) :
    Except UsageFault Progress :=
  match progress.operandsOnly, argument.toList, progress.pending with
  | false, '-' :: '-' :: option, _ =>
    let name := option.takeWhile (· ≠ '=')
    let value := match option.dropWhile (· ≠ '=') with
      | [] => none
      | _ :: value => some (String.ofList value)
    progress.takeName level (String.ofList name) value
  | false, '-' :: letter :: letters, _ => progress.takeLetters level (letter :: letters)
  | false, _, some (.awaiting setting) =>
    .ok { progress with pending := some (.setting setting argument) }
  | _, _, _ => progress.takeOperand level argument

end Progress

/-- Reads the words after the word for help: at most one, and a command. -/
def readHelp : List String → UsageFault
  | [] => .displayHelp
  | [word] => if isCommandWord word then .displayHelp else .invalidCommand
  | _ => .invalidCommand

/-- Reads arguments up to a command or to their end. Only the root level knows commands. -/
def readLevel (level : Level) (progress : Progress) :
    List String → Except UsageFault (Progress × Option (Level × List String))
  | [] => .ok (progress, none)
  | argument :: rest =>
    let mayCommand := level = .root && !progress.operandsOnly && !progress.isAwaiting
    match mayCommand, Level.ofWord? argument with
    | true, some command => .ok (progress, some (command, rest))
    | _, _ =>
      if mayCommand && argument = helpWord then
        .error (readHelp rest)
      else if !progress.operandsOnly && argument = "--" then
        readLevel level { progress with operandsOnly := true } rest
      else do
        let progress ← progress.takeArgument level argument
        readLevel level progress rest

/-- The command of a level with the values given there. -/
def commandOf (level : Level) (given : Given) : Except UsageFault Command :=
  match level, given.operands with
  | .locate, keys => .ok (.locate keys)
  | .sequence, [key] => .ok (.sequence key)
  | .inspect, _ => .ok .inspect
  | .replay, [script] => .ok (.replay script given.keys)
  | _, _ => .error .missingOperand

/-- Understands the arguments. -/
def parse (arguments : List String) : Except UsageFault Arguments := do
  let (outer, command) ← readLevel .root {} arguments
  match command with
  | none =>
    let outer ← outer.resolve .root
    .error (if outer.given.isNothing then .displayHelpOnMissing else .missingCommand)
  | some (level, rest) =>
    let (inner, _) ← readLevel level {} rest
    let inner ← inner.resolve level
    let command ← commandOf level inner.given
    let outer ← outer.resolve .root
    return {
      nodes := (inner.given.nodes.or outer.given.nodes).getD ""
      config := inner.given.config.or outer.given.config
      hasher := (inner.given.hasher.or outer.given.hasher).getD .ketama
      command := command }

end ClusterRing.CommandLine
