import SqlScribe.Operation
import SqlScribe.Text.Blank
import SqlScribe.Text.Split

/-!
# Arguments of the command line

A command line names a command and gives it options.  The value of an option
follows it as the next argument, or stands in the same argument after an equals
sign.
-/

namespace SqlScribe.CommandLine

/-- What help is asked about. -/
inductive Topic where
  | root
  | read
  | write
  | schema
deriving DecidableEq, Repr, Inhabited

/-- The options of the commands. -/
inductive Flag where
  | descriptor
  | config
  | operation
  | exclude
deriving DecidableEq, Repr

namespace Flag

def all : List Flag := [.descriptor, .config, .operation, .exclude]

/-- The spelling of an option. -/
def text : Flag → String
  | .descriptor => "--descriptor"
  | .config => "--config"
  | .operation => "--op"
  | .exclude => "--exclude"

/-- Columns can only be excluded when rows are written. -/
def allowedFor (topic : Topic) : Flag → Bool
  | .exclude => topic == .write
  | _ => true

/-- The option that an argument is. -/
def ofArgument? (topic : Topic) (argument : String) : Option Flag :=
  all.find? fun flag => flag.allowedFor topic && flag.text == argument

/-- The beginning of an argument that holds both the option and its value. -/
def opening (flag : Flag) : List Char := flag.text.toList ++ ['=']

/-- Takes a beginning off a text as often as it stands there, at most `times` times. -/
def withoutOpenings (opening : List Char) : (times : Nat) → List Char → List Char
  | 0, text => text
  | times + 1, text =>
      if opening.isPrefixOf text then withoutOpenings opening times (text.drop opening.length)
      else text

/-- The option and the value in one argument; further copies of the opening are taken off too. -/
def ofAssignment? (topic : Topic) (argument : String) : Option (Flag × String) :=
  let text := argument.toList
  (all.find? fun flag => flag.allowedFor topic && flag.opening.isPrefixOf text).map fun flag =>
    (flag, String.ofList (withoutOpenings flag.opening text.length text))

end Flag

/-- Why a command line is refused. -/
inductive ArgumentFault where
  | unknownCommand (argument : String)
  | valueMissing (flag : Flag)
  | unknownArgument (argument : String)
  | descriptorMissing
  | unknownOperation (topic : Topic) (name : String)
  | excludeWithoutUpsert
deriving DecidableEq, Repr

def Topic.name : Topic → String
  | .root => ""
  | .read => "read"
  | .write => "write"
  | .schema => "schema"

def ArgumentFault.message : ArgumentFault → String
  | .unknownCommand argument => "unknown command: " ++ argument
  | .valueMissing flag => flag.text ++ " requires a value"
  | .unknownArgument argument => "unknown argument: " ++ argument
  | .descriptorMissing => "--descriptor is required"
  | .unknownOperation topic name => "unknown " ++ topic.name ++ " operation: " ++ name
  | .excludeWithoutUpsert => "--exclude only applies to --op upsert"

/-- The options of a command as far as they have been read; later ones replace earlier ones. -/
structure Options where
  descriptor : Option String := none
  config : Option String := none
  operation : Option String := none
  excluded : List String := []
deriving DecidableEq, Repr, Inhabited

/-- The names in a list with commas, without the blanks around them. -/
def namesInList (text : String) : List String :=
  let names := (Text.splitAt ',' text.toList).map Text.trim
  (names.filter fun name => !name.isEmpty).map String.ofList

namespace Options

/-- Gives an option its value; excluded columns add up. -/
def assign (options : Options) (flag : Flag) (value : String) : Options :=
  match flag with
  | .descriptor => { options with descriptor := some value }
  | .config => { options with config := some value }
  | .operation => { options with operation := some value }
  | .exclude => { options with excluded := options.excluded ++ namesInList value }

/-- Reads the options of a command one after another; `none` when help is asked for. -/
def read (topic : Topic) (options : Options) : List String → Except ArgumentFault (Option Options)
  | [] => .ok (some options)
  | argument :: rest =>
      if argument = "-h" ∨ argument = "--help" then .ok none
      else
        match Flag.ofArgument? topic argument with
        | some flag =>
            match rest with
            | [] => .error (.valueMissing flag)
            | value :: rest => read topic (options.assign flag value) rest
        | none =>
            match Flag.ofAssignment? topic argument with
            | some (flag, value) => read topic (options.assign flag value) rest
            | none => .error (.unknownArgument argument)

end Options

/-- The files that a command works on. -/
structure Sources where
  descriptor : String
  config : Option String
deriving DecidableEq, Repr, Inhabited

/-- What a command line asks for. -/
inductive Command where
  | help (topic : Topic)
  | read (sources : Sources) (operation : ReadOperation)
  | write (sources : Sources) (operation : RowOperation) (excluded : List String)
  | schema (sources : Sources) (operation : TableOperation)
deriving DecidableEq, Repr, Inhabited

/-- The operations on rows with the names that the command line gives them. -/
def readOperations : List (String × ReadOperation) :=
  [("find", .find), ("first", .first), ("count", .count)]

def rowOperations : List (String × RowOperation) :=
  [("create", .create), ("update", .update), ("destroy", .destroy), ("upsert", .upsert)]

def tableOperations : List (String × TableOperation) :=
  [("create", .create), ("create-if-missing", .createIfMissing), ("alter", .alter),
    ("drop", .drop), ("drop-if-exists", .dropIfExists)]

/-- The operation with a name; without a name it is the usual one. -/
def chosenOperation {α : Type}
    (topic : Topic) (usual : α) (named : List (String × α)) (name : Option String) :
    Except ArgumentFault α :=
  match name with
  | none => .ok usual
  | some name =>
      match named.lookup name with
      | some operation => .ok operation
      | none => .error (.unknownOperation topic name)

/-- The command that its options describe. -/
def Command.ofOptions (topic : Topic) (options : Options) : Except ArgumentFault Command := do
  let some descriptor := options.descriptor | throw .descriptorMissing
  let sources : Sources := ⟨descriptor, options.config⟩
  match topic with
  | .root => pure (.help .root)
  | .read => do
      pure (.read sources (← chosenOperation topic .find readOperations options.operation))
  | .write => do
      let operation ← chosenOperation topic .create rowOperations options.operation
      if !options.excluded.isEmpty && operation != .upsert then throw .excludeWithoutUpsert
      pure (.write sources operation options.excluded)
  | .schema => do
      pure (.schema sources (← chosenOperation topic .create tableOperations options.operation))

/-- Reads the options of a command. -/
def Command.ofTopic (topic : Topic) (arguments : List String) : Except ArgumentFault Command := do
  match ← Options.read topic {} arguments with
  | none => pure (.help topic)
  | some options => Command.ofOptions topic options

/-- Reads a command line, without the name of the program. -/
def Command.ofArguments : List String → Except ArgumentFault Command
  | [] => .ok (.help .root)
  | first :: rest =>
      match first with
      | "-h" | "--help" => .ok (.help .root)
      | "read" => Command.ofTopic .read rest
      | "write" => Command.ofTopic .write rest
      | "schema" => Command.ofTopic .schema rest
      | _ => .error (.unknownCommand first)

end SqlScribe.CommandLine
