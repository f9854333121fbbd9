import SqlScribe.CommandLine.Arguments

/-!
# Help texts
-/

namespace SqlScribe.CommandLine

/-- The help on the program. -/
def rootHelp : String :=
  "\n".intercalate
    ["crudsql - compile CRUD descriptors into MySQL statements",
      "",
      "USAGE:",
      "  crudsql <COMMAND> --descriptor <FILE> [OPTIONS]",
      "",
      "COMMANDS:",
      "  read          SELECT from a read descriptor",
      "  write         INSERT / UPDATE / DELETE / upsert from a write descriptor",
      "  schema        CREATE / ALTER / DROP TABLE from a schema descriptor",
      "",
      "Run `crudsql <command> --help` for more."]

/-- The help on the command that reads rows. -/
def readHelp : String :=
  "\n".intercalate
    ["USAGE:",
      "  crudsql read --descriptor <FILE> [OPTIONS]",
      "",
      "OPTIONS:",
      "  --descriptor <FILE>   JSON read descriptor",
      "  --config <FILE>       Config file path (default: crudsql.toml, if present)",
      "  --op <OP>             find (default), first, count",
      "  -h, --help            Print help"]

/-- The help on the command that changes rows. -/
def writeHelp : String :=
  "\n".intercalate
    ["USAGE:",
      "  crudsql write --descriptor <FILE> [OPTIONS]",
      "",
      "OPTIONS:",
      "  --descriptor <FILE>   JSON write descriptor",
      "  --config <FILE>       Config file path (default: crudsql.toml, if present)",
      "  --op <OP>             create (default), update, destroy, upsert",
      "  --exclude <CSV>       Fields an upsert must not overwrite",
      "  -h, --help            Print help"]

/-- The help on the command that changes tables. -/
def schemaHelp : String :=
  "\n".intercalate
    ["USAGE:",
      "  crudsql schema --descriptor <FILE> [OPTIONS]",
      "",
      "OPTIONS:",
      "  --descriptor <FILE>   JSON schema descriptor",
      "  --config <FILE>       Config file path (default: crudsql.toml, if present)",
      "  --op <OP>             create (default), create-if-missing, alter, drop,",
      "                        drop-if-exists",
      "  -h, --help            Print help"]

/-- The help on a topic. -/
def Topic.help : Topic → String
  | .root => rootHelp
  | .read => readHelp
  | .write => writeHelp
  | .schema => schemaHelp

end SqlScribe.CommandLine
