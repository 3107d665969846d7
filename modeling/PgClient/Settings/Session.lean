import PgClient.Settings.Modes

/-!
# Settings of a session

Where and as whom to connect, and how a session treats its statements and what the server reports.
Times are in milliseconds, and zero means no limit.
-/

namespace PgClient

/-- A limit in milliseconds, absent if it is zero. -/
def limit? (millis : Nat) : Option Nat :=
  if millis = 0 then none else some millis

/-- Where and as whom to connect. -/
structure ConnectionSettings where
  host : String := "localhost"
  port : Nat := 5432
  user : String := "postgres"
  database : Option String := none
  password : Option String := none
  applicationName : String := "pg_frontend"
  connectTimeout : Nat := 10000
  socketTimeout : Nat := 0
  deriving DecidableEq, Repr, Inhabited

namespace ConnectionSettings

/-- The database to use; without one, that of the user's name. -/
def databaseName (c : ConnectionSettings) : String :=
  c.database.getD c.user

def address (c : ConnectionSettings) : Host :=
  { name := c.host, port := c.port }

/-- What the server is told when the session opens. -/
def startupParameters (c : ConnectionSettings) : List (String × String) :=
  [("user", c.user), ("database", c.databaseName), ("application_name", c.applicationName),
    ("client_encoding", "UTF8"), ("DateStyle", "ISO")]

end ConnectionSettings

/-- How a session treats its statements and what the server reports. -/
structure SessionOptions where
  /-- Whether the server may change the character set of its strings. -/
  allowEncodingChanges : Bool := false
  /-- Whether inserts of one batch may be sent as one. -/
  joinsInserts : Bool := false
  /-- Whether names of columns are shown as the server sends them. -/
  disableColumnSanitiser : Bool := false
  callMode : CallMode := default
  queryMode : QueryMode := default
  autosave : Autosave := default
  /-- Whether errors and the log may show what could be data of the user's rows. -/
  showErrorDetail : Bool := true
  /-- The bounds of the cache of statements: how many, and how large together. -/
  cacheQueries : Nat := 256
  cacheMebibytes : Nat := 5
  /-- How many runs a statement takes before it is prepared under a name; zero is never. -/
  prepareThreshold : Nat := 5
  /-- The time limit of a request to cancel a query. -/
  cancelTimeout : Nat := 10000
  deriving DecidableEq, Repr, Inhabited

namespace SessionOptions

/-- The bound on the size of cached statements, up to the greatest 64-bit number. -/
def cacheBytes (o : SessionOptions) : Nat :=
  min (o.cacheMebibytes * (1024 * 1024)) (UInt64.size - 1)

end SessionOptions

end PgClient
