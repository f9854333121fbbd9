import SqlScribe.CommandLine.Help
import SqlScribe.CommandLine.Settings
import SqlScribe.Document.Text
import SqlScribe.Query.Compile

/-!
# Running a command

A command reads a descriptor from a file, the settings from another one, and
prints a statement.  Files are given by a function from paths to texts, so what
a command prints is a function of its arguments and of the files.
-/

namespace SqlScribe.CommandLine

/-- Why a command prints no statement. -/
inductive CommandFault where
  | arguments (fault : ArgumentFault)
  | unreadableDescriptor (path : String) (fault : FileFault)
  | invalidDescriptor (path : String) (fault : Document.TextFault)
  | settings (path : String) (fault : SettingsFault)
  | statement (path : String) (fault : SqlError)

def CommandFault.message : CommandFault → String
  | .arguments fault => fault.message
  | .unreadableDescriptor path fault =>
      "failed to read descriptor " ++ path ++ ": " ++ fault.message
  | .invalidDescriptor path fault => "invalid descriptor " ++ path ++ ": " ++ fault.message
  | .settings path fault => fault.message path
  | .statement path fault => path ++ ": " ++ fault.message

/-! ## Settings -/

/--
The settings of a command: those of the named file, or of the usual one.  The
usual file may be absent, which leaves every setting at its default.
-/
def settings (files : Files) : (named : Option String) → Except CommandFault Config
  | some path => (settingsOfFile files path).mapError (CommandFault.settings path)
  | none =>
      match settingsOfFile files usualSettingsPath with
      | .error (.unreadable .missing)
      | .error (.unreadable .isDirectory)
      | .error (.unreadable .notDirectory) => .ok {}
      | result => result.mapError (CommandFault.settings usualSettingsPath)

/-! ## Commands -/

/-- The descriptor in a file. -/
def descriptor {α : Type}
    (files : Files) (ofText : String → Except Document.TextFault α) (path : String) :
    Except CommandFault α := do
  let text ← (files path).mapError (CommandFault.unreadableDescriptor path)
  (ofText text).mapError (CommandFault.invalidDescriptor path)

/-- What a command prints, without the newline at its end. -/
def Command.output (files : Files) : Command → Except CommandFault String
  | .help topic => .ok topic.help
  | .read sources operation => do
      let query ← descriptor files Document.queryOfText sources.descriptor
      let config ← settings files sources.config
      (query.toSql config operation).1.mapError (CommandFault.statement sources.descriptor)
  | .write sources operation excluded => do
      let request ← descriptor files Document.rowRequestOfText sources.descriptor
      let config ← settings files sources.config
      (request.change.toSql config operation (request.excluded ++ excluded)).1.mapError
        (CommandFault.statement sources.descriptor)
  | .schema sources operation => do
      let change ← descriptor files Document.tableChangeOfText sources.descriptor
      let _ ← settings files sources.config
      (change.toSql operation).1.mapError (CommandFault.statement sources.descriptor)

/-- What a command line prints, without the newline at its end. -/
def run (files : Files) (arguments : List String) : Except CommandFault String :=
  match Command.ofArguments arguments with
  | .error fault => .error (.arguments fault)
  | .ok command => command.output files

/-- The paths that a command reads. -/
def Command.paths : Command → List String
  | .help _ => []
  | .read sources _ | .write sources _ _ | .schema sources _ =>
      [sources.descriptor, sources.config.getD usualSettingsPath]

end SqlScribe.CommandLine
