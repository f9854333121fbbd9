import SqlScribe.Config
import SqlScribe.Document.Decode

/-!
# Configurations in documents

Every setting may be missing, and settings that are not known are passed over.
-/

namespace SqlScribe.Document

def configShape : RecordShape :=
  ⟨"CompilerConfig", Setting.all.map Setting.name, 0, false⟩

/-- Reads one setting. -/
def setSetting (draft : Config) (value : Json) : Setting → Decoded Config
  | .identifierKey => (text value).map fun identifierKey => { draft with identifierKey }
  | .hasDelimiter => (character value).map fun hasDelimiter => { draft with hasDelimiter }
  | .maxIncrement => (whole value).map fun maxIncrement => { draft with maxIncrement }
  | .maxSubqueryDepth => (size value).map fun maxSubqueryDepth => { draft with maxSubqueryDepth }
  | .logMaxSqlLength =>
      (optional size value).map fun logMaxSqlLength => { draft with logMaxSqlLength }

/-- Reads the setting with this name, if there is one. -/
def setConfigMember (draft : Config) (name : String) (value : Json) : Decoded Config :=
  match Setting.ofName? name with
  | some setting => setSetting draft value setting
  | none => .ok draft

/-- A configuration. -/
def config (value : Json) : Decoded Config := record configShape setConfigMember {} value

end SqlScribe.Document
