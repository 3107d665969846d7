import PgClient.Security
import PgClient.Toml.Document

/-!
# The settings file

A settings file is a TOML document with the tables `connection`, `protocol` and `tls`. Every
setting has a default; settings that are not known are skipped. A setting of the wrong kind makes
the whole file wrong. What the file says is then checked for combinations that make no sense.

A table may also be given as an array of its values in the order of the settings; then only the
settings with a default of their own may be left out at the end.
-/

namespace PgClient

/-- How the client asks for TLS, as the file says it. -/
structure TlsSettings where
  mode : SslMode := .prefer
  rootCertificate : Option String := none
  certificate : Option String := none
  key : Option String := none
  deriving DecidableEq, Repr, Inhabited

namespace TlsSettings

def options (t : TlsSettings) : TlsOptions :=
  { mode := t.mode, rootCertificate := t.rootCertificate, certificate := t.certificate
    key := t.key }

end TlsSettings

/-- Everything a settings file says. -/
structure Config where
  /-- Where the settings were read from. -/
  path : String := ""
  connection : ConnectionSettings := {}
  protocol : SessionOptions := {}
  tls : TlsSettings := {}
  deriving DecidableEq, Repr, Inhabited

namespace Config

/-! ## Values of settings -/

def string? : Toml → Option String
  | .string s => some s
  | _ => none

def boolean? : Toml → Option Bool
  | .boolean b => some b
  | _ => none

/-- A number from zero to `max`. -/
def number? (max : Nat) : Toml → Option Nat
  | .integer i => if 0 ≤ i ∧ i ≤ max then some i.toNat else none
  | _ => none

/-- One of a few words. It may also be the only key of a table, over nothing. -/
def choice? {α : Type} (names : List (String × α)) (value : Toml) : Option α :=
  let word? : Option String := match value with
    | .string s => some s
    | .table _ [(s, .table _ [])] | .table _ [(s, .array [])] => some s
    | _ => none
  word?.bind fun word => (names.find? (·.1 == word)).map Prod.snd

/-- A setting of a table of settings. -/
structure Setting (σ : Type) where
  name : String
  read : Toml → σ → Option σ
  /-- Whether an array of values may end before it. -/
  mayBeLeftOut : Bool := true

namespace Setting

/-- A setting whose value goes into a table of settings by `put`. -/
def of {σ α : Type} (name : String) (value? : Toml → Option α) (put : α → σ → σ) : Setting σ :=
  { name, read := fun v s => (value? v).map (put · s) }

/-- A setting that has no default. -/
def optional {σ : Type} (name : String) (put : Option String → σ → σ) : Setting σ :=
  { of name string? (fun s => put (some s)) with mayBeLeftOut := false }

end Setting

/-- The table of settings that an array of their values stands for. -/
def ofArray {σ : Type} : List (Setting σ) → List Toml → σ → Option σ
  | [], _, s => some s
  | setting :: settings, [], s => if setting.mayBeLeftOut then ofArray settings [] s else none
  | setting :: settings, v :: vs, s => (setting.read v s).bind (ofArray settings vs)

/-- The table of settings that entries stand for. -/
def ofEntries {σ : Type} (settings : List (Setting σ)) (entries : Toml.Entries) (s : σ) :
    Option σ :=
  settings.foldlM (fun s setting =>
    match entries.get? setting.name with
    | some v => setting.read v s
    | none => some s) s

/-- The table of settings that a value stands for. -/
def ofValue {σ : Type} (settings : List (Setting σ)) (s : σ) : Toml → Option σ
  | .table _ entries => ofEntries settings entries s
  | .array vs => ofArray settings vs s
  | _ => none

/-- The greatest number of a port. -/
def maxPort : Nat :=
  UInt16.size - 1

def connectionSettings : List (Setting ConnectionSettings) :=
  [.of "host" string? fun host c => { c with host },
    .of "port" (number? maxPort) fun port c => { c with port },
    .of "user" string? fun user c => { c with user },
    .optional "database" fun database c => { c with database },
    .optional "password" fun password c => { c with password },
    .of "application_name" string? fun applicationName c => { c with applicationName },
    .of "connect_timeout" (number? Decimal.uint64Max) fun connectTimeout c =>
      { c with connectTimeout },
    .of "socket_timeout" (number? Decimal.uint64Max) fun socketTimeout c =>
      { c with socketTimeout }]

def protocolSettings : List (Setting SessionOptions) :=
  [.of "allow_encoding_changes" boolean? fun allowEncodingChanges o =>
      { o with allowEncodingChanges },
    .of "rewrite_batched_inserts" boolean? fun joinsInserts o => { o with joinsInserts },
    .of "disable_column_sanitiser" boolean? fun disableColumnSanitiser o =>
      { o with disableColumnSanitiser },
    .of "escape_syntax_call_mode" (choice? CallMode.fileNames) fun callMode o =>
      { o with callMode },
    .of "prefer_query_mode" (choice? QueryMode.fileNames) fun queryMode o => { o with queryMode },
    .of "autosave" (choice? Autosave.fileNames) fun autosave o => { o with autosave },
    .of "log_server_error_detail" boolean? fun showErrorDetail o => { o with showErrorDetail },
    .of "prepared_statement_cache_queries" (number? Decimal.uint64Max) fun cacheQueries o =>
      { o with cacheQueries },
    .of "prepared_statement_cache_size_mib" (number? Decimal.uint64Max) fun cacheMebibytes o =>
      { o with cacheMebibytes },
    .of "prepare_threshold" (number? Decimal.uint64Max) fun prepareThreshold o =>
      { o with prepareThreshold },
    .of "cancel_signal_timeout" (number? Decimal.uint64Max) fun cancelTimeout o =>
      { o with cancelTimeout }]

def tlsSettings : List (Setting TlsSettings) :=
  [.of "ssl_mode" (choice? SslMode.fileNames) fun mode t => { t with mode },
    .optional "ssl_root_cert" fun rootCertificate t => { t with rootCertificate },
    .optional "ssl_cert" fun certificate t => { t with certificate },
    .optional "ssl_key" fun key t => { t with key }]

def settings : List (Setting Config) :=
  [.of "connection" (ofValue connectionSettings {}) fun connection c => { c with connection },
    .of "protocol" (ofValue protocolSettings {}) fun protocol c => { c with protocol },
    .of "tls" (ofValue tlsSettings {}) fun tls c => { c with tls }]

/-- The settings a document stands for. -/
def ofText? (text : String) : Option Config := do
  ofEntries settings (← Toml.ofDocument? text) {}

/-! ## Checking -/

/-- Refuses settings that make no sense together. -/
def validate (c : Config) : Except Error Unit := do
  if c.connection.port = 0 then throw (.configuration .zeroPort)
  if c.connection.user.isEmpty then throw (.configuration .emptyUser)
  if c.tls.certificate.isSome != c.tls.key.isSome then
    throw (.configuration .certificateWithoutKey)
  if c.tls.mode = .disable && (c.tls.rootCertificate.isSome || c.tls.certificate.isSome) then
    throw (.configuration .certificateWithoutSsl)

/-- Reads the settings of a file: its octets, or why it could not be opened. -/
def ofFile (path : String) (file : Except String Bytes) : Except Error Config := do
  let octets ← file.mapError fun reason => .configuration (.notOpened path reason)
  match Utf8.decode? octets with
  | none => throw (.configuration (.notRead "stream did not contain valid UTF-8"))
  | some text =>
    match ofText? text with
    | none => throw (.configuration (.notParsed path "not a valid settings file"))
    | some c =>
      validate c
      return { c with path }

/-! ## Showing -/

/-- The settings for a reader of the log. -/
def render (c : Config) : List String :=
  [ "Server: " ++ c.connection.address.render,
    s!"User: {c.connection.user}, database: " ++ c.connection.databaseName,
    s!"Application name: {c.connection.applicationName}",
    s!"Connection timeout: {c.connection.connectTimeout}ms",
    s!"Socket timeout: {c.connection.socketTimeout}ms",
    "SSL mode: " ++ c.tls.mode.render,
    "Prefer query mode: " ++ c.protocol.queryMode.render,
    "Autosave: " ++ c.protocol.autosave.render,
    s!"Prepared statement cache: {c.protocol.cacheQueries} queries, "
      ++ s!"{c.protocol.cacheMebibytes} MiB",
    s!"Cancel signal timeout: {c.protocol.cancelTimeout}ms" ]

end Config

end PgClient
