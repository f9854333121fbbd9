import SqlScribe.Config
import SqlScribe.Identifier
import SqlScribe.Toml.Reader

/-!
# Settings from a file

A settings file holds one table, `compiler`, with a member for every setting.
Settings that are missing keep their defaults and members of that table that
are not known are passed over, but no other table may be in the file.

The settings may also be listed in an array in the order of their declaration.
A moment in place of the table sets nothing.
-/

namespace SqlScribe.CommandLine

/-- Why a file cannot be read. -/
inductive FileFault where
  | missing
  | isDirectory
  | notDirectory
  | nameTooLong
  | other (description : String)
deriving DecidableEq, Repr

def FileFault.message : FileFault → String
  | .missing => "No such file or directory (os error 2)"
  | .isDirectory => "Is a directory (os error 21)"
  | .notDirectory => "Not a directory (os error 20)"
  | .nameTooLong => "File name too long (os error 36)"
  | .other description => description

/-- The texts of files by their paths. -/
abbrev Files := String → Except FileFault String

/-- Why a settings file is refused. -/
inductive SettingsFault where
  | unreadable (fault : FileFault)
  | notToml (fault : Toml.Fault)
  | unknownMember (name : String)
  | unfit (name : String)
  | numberOutOfRange (name : String)
  | identifierKey (fault : SqlError)
  | maxIncrementNotPositive

/-- The words for a fault of a settings file, without the reason why it does not parse. -/
def SettingsFault.summary (path : String) : SettingsFault → String
  | .unreadable fault => "failed to read config file " ++ path ++ ": " ++ fault.message
  | .notToml _ | .unknownMember _ | .unfit _ | .numberOutOfRange _ =>
      "failed to parse config file " ++ path
  | .identifierKey fault => "compiler.identifier_key: " ++ fault.message
  | .maxIncrementNotPositive => "compiler.max_increment must be positive"

/-- The reason why a settings file does not parse. -/
def SettingsFault.reason? : SettingsFault → Option String
  | .notToml fault => some fault.message
  | .unknownMember name => some ("unknown field " ++ name ++ ", expected compiler")
  | .unfit name => some ("invalid value for " ++ name)
  | .numberOutOfRange name => some ("number out of range in " ++ name)
  | .unreadable _ | .identifierKey _ | .maxIncrementNotPositive => none

def SettingsFault.message (path : String) (fault : SettingsFault) : String :=
  match fault.reason? with
  | some reason => fault.summary path ++ ": " ++ reason
  | none => fault.summary path

/-! ## The settings -/

/-- A number of bytes or of levels, which has 64 bits. -/
def size? (value : Int) : Option Nat :=
  if 0 ≤ value ∧ value < JsonNumber.unsignedLimit then some value.toNat else none

/-- Sets a setting, if the value is one for it. -/
def withSetting? (config : Config) : Setting → Toml.Value → Option Config
  | .identifierKey, .string text => some { config with identifierKey := text }
  | .hasDelimiter, .string text =>
      match text.toList with
      | [mark] => some { config with hasDelimiter := mark }
      | _ => none
  | .maxIncrement, .integer bound =>
      if JsonNumber.isSigned bound then some { config with maxIncrement := bound } else none
  | .maxSubqueryDepth, .integer value =>
      (size? value).map fun depth => { config with maxSubqueryDepth := depth }
  | .logMaxSqlLength, .integer value =>
      (size? value).map fun limit => { config with logMaxSqlLength := some limit }
  | _, _ => none

/-- Sets a setting. -/
def withSetting (config : Config) (item : Setting × Toml.Value) : Except SettingsFault Config :=
  match withSetting? config item.1 item.2 with
  | some changed => .ok changed
  | none => .error (.unfit item.1.name)

/-- Sets the setting that a member of the table holds, if it holds one. -/
def withMember (config : Config) (member : String × Toml.Value) : Except SettingsFault Config :=
  match Setting.ofName? member.1 with
  | some setting => withSetting config (setting, member.2)
  | none => if member.2.fits then .ok config else .error (.numberOutOfRange member.1)

/-! ## The file -/

/-- The member of a settings file that holds the settings. -/
def settingsMember : String := "compiler"

/-- The settings that a value holds. -/
def settingsOfValue : Toml.Value → Except SettingsFault Config
  | .table _ members => members.foldlM withMember {}
  | .array items => (Setting.all.zip items).foldlM withSetting {}
  | .moment _ => .ok {}
  | _ => .error (.unfit settingsMember)

/-- The settings in the content of a file. -/
def settingsOfContent (content : Toml.Members) : Except SettingsFault Config :=
  match content.find? fun member => member.1 != settingsMember with
  | some (name, _) => .error (.unknownMember name)
  | none =>
      match content.get? settingsMember with
      | some value => settingsOfValue value
      | none => .ok {}

/-- Settings that statements can be compiled with. -/
def checkSettings (config : Config) : Except SettingsFault Config :=
  match checkName config.identifierKey with
  | .error fault => .error (.identifierKey fault)
  | .ok _ => if 0 < config.maxIncrement then .ok config else .error .maxIncrementNotPositive

/-- The settings in the text of a file. -/
def settingsOfText (text : String) : Except SettingsFault Config := do
  let content ← (Toml.read text).mapError SettingsFault.notToml
  checkSettings (← settingsOfContent content)

/-- The settings in a file. -/
def settingsOfFile (files : Files) (path : String) : Except SettingsFault Config := do
  settingsOfText (← (files path).mapError SettingsFault.unreadable)

/-- The settings file that is looked for when none is named. -/
def usualSettingsPath : String := "crudsql.toml"

end SqlScribe.CommandLine
