import PgClient.Arguments

/-!
# The page of help

What a reader is told who asks how the program is called: one line for the path and for each
option, with the variable of the environment that may stand in for it, what the variable holds now,
and the value in force without either.
-/

namespace PgClient

namespace Arguments

/-- The name and the version of the program. -/
def title : String × String :=
  ("pg_frontend", "0.1.0")

/-- The line that tells the version. -/
def version : String :=
  title.1 ++ " " ++ title.2

/-- A line of the page about one option. -/
structure UsageLine where
  form : String
  purpose : String
  /-- What it sets, if it sets anything. -/
  setting : Option Setting := none
  /-- The value in force when none is given. -/
  fallback : Option String := none
  /-- The values it may have, if they are few. -/
  choices : List String := []

/-- The options in the order they are documented in. -/
def usageLines : List UsageLine :=
  [ { form := "-l, --log-level <LOG_LEVEL>", purpose := "", setting := some .logLevel
      fallback := some "INFO" },
    { form := "-F, --log-format <LOG_FORMAT>", purpose := "", setting := some .logFormat
      fallback := some "text", choices := ["text", "structured", "debug"] },
    { form := "-n, --no-color", purpose := "disable colors in the log output"
      setting := some .noColor },
    { form := "-q, --query <QUERY>"
      purpose := "Statement to run through the simple query protocol once connected"
      setting := some .query },
    { form := "-w, --listen-wait <LISTEN_WAIT>"
      purpose := "Seconds to wait for LISTEN notifications after the query"
      setting := some .listenWait, fallback := some "0" },
    { form := "-h, --help", purpose := "Print help" },
    { form := "-V, --version", purpose := "Print version" } ]

/-- The path of the settings file. -/
def pathLine : UsageLine :=
  { form := "[CONFIG_FILE]", purpose := "", setting := some .configFile
    fallback := some "pg_frontend.toml" }

/-- The line, with its purpose behind a column of the given width. -/
def UsageLine.render (environment : String → Option String) (width : Nat) (l : UsageLine) :
    String :=
  let column := l.form ++ String.ofList (List.replicate (width - l.form.length) ' ')
  let environmental := l.setting.toList.map fun s =>
    "[env: " ++ s.variableName ++ "=" ++ (environment s.variableName).getD "" ++ "]"
  let fallback := l.fallback.toList.map fun value => "[default: " ++ value ++ "]"
  let choices :=
    if l.choices.isEmpty then [] else ["[possible values: " ++ ", ".intercalate l.choices ++ "]"]
  let purpose := if l.purpose.isEmpty then [] else [l.purpose]
  "  " ++ column ++ "  " ++ " ".intercalate (purpose ++ environmental ++ fallback ++ choices)

/-- The page, line by line. -/
def usage (environment : String → Option String) : List String :=
  let width := (usageLines.map fun l => l.form.length).foldl max 0
  ["Client-side PostgreSQL wire protocol (v3) engine: startup, transaction state, statement cache, "
      ++ "cancel and TLS upgrade",
    "",
    "Usage: " ++ title.1 ++ " [OPTIONS] [CONFIG_FILE]",
    "",
    "Arguments:",
    pathLine.render environment pathLine.form.length,
    "",
    "Options:"]
    ++ usageLines.map (UsageLine.render environment width)

end Arguments

end PgClient
