import PgClient.Arguments.Usage
import PgClient.Config
import PgClient.Dialer
import PgClient.Session.Notifications
import PgClient.Session.Request

/-!
# The program

The program opens a session as the settings file says, tells what the server announced, runs one
query if it is asked to, waits for notifications if it is asked to, and ends the session. What it
writes is a run of lines: those of the log, and those of the result. The code it ends with tells
what went wrong, if anything did.
-/

namespace PgClient.Program

/-- A line of output. -/
inductive Line where
  | log (level : Level) (text : String)
  | print (text : String)
  deriving DecidableEq, Repr

/-- The line as it is written, if the log goes as far as its level. -/
def Line.render? (limit : Level) : Line → Option String
  | .log level text => if limit.rank ≤ level.rank then some (level.render ++ " " ++ text) else none
  | .print text => some text

/-- What is written of a line, which may have line breaks of its own. -/
def Line.written (limit : Level) (line : Line) : List String :=
  match line.render? limit with
  | some text => (splitAt '\n' text.toList).map String.ofList
  | none => []

/-- The code of a program that did what it was asked to. -/
def ok : Nat :=
  0

/-- The code of a query that failed. -/
def dataError : Nat :=
  65

/-- The code of a server that could not be reached. -/
def unavailable : Nat :=
  69

/-- The code of a connection that failed later on. -/
def ioError : Nat :=
  74

/-- The code of settings that are wrong. -/
def configError : Nat :=
  78

/-- The code of arguments that are wrong. -/
def usageError : Nat :=
  2

/-- The program while it runs. -/
structure Console where
  dialer : Dialer
  session : Option Session := none
  lines : Array Line := #[]
  /-- How many events of the journal have become lines. -/
  told : Nat := 0
  code : Nat := ok

/-- What the connection did so far. -/
def Console.journal (c : Console) : Array Event :=
  match c.session with
  | some s => s.channel.journal
  | none => c.dialer.journal

/-- The console with a line for every event that has none. -/
def Console.caughtUp (c : Console) : Console :=
  let events := c.journal.toList.drop c.told
  { c with
    lines := c.lines ++ (events.map fun e => Line.log e.level e.text).toArray
    told := c.journal.size }

/-- Writes a line. -/
def write (line : Line) : Exchange Console Unit :=
  modify fun c => { c with lines := c.lines.push line }

def log (level : Level) (text : String) : Exchange Console Unit :=
  write (.log level text)

/-- Ends the program with a code, unless something changes it later. -/
def setCode (code : Nat) : Exchange Console Unit :=
  modify fun c => { c with code }

/-- Opens the session. -/
def connect (store : KeyStore) (config : Config) : Exchange Console (Except Error Session) :=
  fun c =>
    let opening := Dialer.openSession store config.connection config.protocol config.tls.options
    match opening.attempt c.dialer with
    | .ok (.ok s) d => .ok (.ok s) { c with dialer := d, session := some s }.caughtUp
    | .ok (.error e) d => .ok (.error e) { c with dialer := d }.caughtUp
    | .error halt d => .error halt { c with dialer := d }.caughtUp

/-- Runs an operation of the session. -/
def onSession {α : Type} (s : Session) (x : Exchange Session α) : Exchange Console (α × Session) :=
  fun c =>
    match x s with
    | .ok a s => .ok (a, s) { c with session := some s }.caughtUp
    | .error halt s => .error halt { c with session := some s }.caughtUp

/-- Tells what the server announced. -/
def announce (s : Session) : Exchange Console Unit := do
  let number := (s.versionNumber?.map toString).getD ""
  log .info ("Connected to " ++ s.channel.host.render ++ s!" as {s.user}@{s.database}, "
    ++ s!"backend pid {s.backendPid}, server version {s.serverVersion} ({number}), "
    ++ s!"ssl: {decide (s.channel.socket.medium = .tls)}")
  s.parameters.forM fun (name, value) => log .info s!"  {name} = {value}"

/-- A row as a line, with its values in the charset of the session. -/
def rowText (charset : Charset) (row : Row) : String :=
  "\t".intercalate (row.map fun value => (value.map charset.decode).getD "NULL")

/-- Writes what a query delivered. -/
def showRows (charset : Charset) (rows : Rows) : Exchange Console Unit := do
  unless rows.columns.isEmpty do
    write (.print ("\t".intercalate (rows.columns.map Column.name)))
  rows.rows.forM fun row => write (.print (rowText charset row))
  rows.statuses.forM (log .info)

/-- Tells why a query failed, if it did. -/
def showResult (s : Session) (result : Except Error Unit) : Exchange Console Session := do
  if let .error e := result then
    log .error ("Query failed: " ++ e.message)
    if s.healsOnRetry e then log .info "The statement would succeed if re-prepared"
    setCode dataError
  return s

/-- Runs a query and writes its result. -/
def runQuery (s : Session) (sql : String) : Exchange Console Session := do
  let (reply, s) ← onSession s (Session.query sql)
  showRows s.channel.charset (Rows.ofDeliveries reply.deliveries)
  showResult s reply.result

/-- Writes the notifications that arrived. -/
def showNotices (s : Session) : Exchange Console Session := do
  let (notifications, status) := s.status.takeNotifications
  notifications.forM fun n => write (.print s!"NOTIFY {n.channel} from pid {n.pid}: {n.payload}")
  return { s with status }

/-- Waits for notifications and writes them. -/
def listen (s : Session) (seconds : Nat) : Exchange Console Session := do
  log .info s!"Waiting {seconds}s for notifications"
  let (result, s) ← onSession s (Session.takeNotices (some (seconds * 1000))).attempt
  if let .error e := result then
    log .error ("Notification processing failed: " ++ e.message)
    setCode ioError
  showNotices s

/-- Tells what is to be done. -/
def greet (config : Config) : Exchange Console Unit := do
  log .info s!"Welcome to {Arguments.title.1}! (Version {Arguments.title.2})"
  config.render.forM (log .info)

/-- Opens the session and runs the query. The session is absent if it could not be opened. -/
def start (store : KeyStore) (config : Config) (args : Arguments) :
    Exchange Console (Option Session) := do
  match ← connect store config with
  | .error e =>
    log .error ("Could not connect to " ++ config.connection.address.render ++ ": " ++ e.message)
    setCode unavailable
    return none
  | .ok s =>
    announce s
    match args.query with
    | some sql => return some (← runQuery s sql)
    | none => return some s

/-- Waits for notifications, if that is asked for and the session is still open. -/
def waitFor (args : Arguments) (s : Session) : Exchange Console Session :=
  if 0 < args.listenWait && !s.isClosed then listen s args.listenWait else pure s

/-- All that the program does before it tells the warnings. -/
def visit (store : KeyStore) (config : Config) (args : Arguments) :
    Exchange Console (Option Session) := do
  greet config
  match ← start store config args with
  | some s => return some (← waitFor args s)
  | none => return none

/-- Ends a session that was visited. -/
def endVisit (s : Session) : Exchange Console Unit := do
  discard (onSession s Session.close)
  log .info "Shutting down..."

/-- Tells the warnings and ends the session. -/
def leave : Option Session → Exchange Console Unit
  | some s => do
    let (warnings, status) := s.status.takeWarnings
    warnings.forM fun w => log .warn (w.render true)
    endVisit { s with status }
  | none => log .info "Shutting down..."

/-- Does what the arguments and the settings ask for. -/
def work (store : KeyStore) (config : Config) (args : Arguments) : Exchange Console Unit := do
  leave (← visit store config args)

/-- What comes of the program. -/
structure Outcome where
  code : Nat := ok
  /-- The lines it wrote. -/
  output : List String := []
  /-- The channels it opened, oldest first. -/
  channels : List Channel := []
  /-- Whether it got to a point where it can only wait for the server. -/
  isWaiting : Bool := false

/-- What has come of the program by now. -/
def Console.outcome (c : Console) (limit : Level) (isWaiting : Bool) : Outcome :=
  { code := c.code
    output := c.lines.toList.flatMap (Line.written limit)
    channels := c.dialer.given ++ c.session.toList.map Session.channel
    isWaiting }

/-- Runs the program from its arguments on. The settings file is one of the files of the store. -/
def run (environment : String → Option String) (store : KeyStore) (dialer : Dialer)
    (arguments : List String) : Outcome :=
  match Arguments.ofList environment arguments with
  | .error .displayHelp => { output := Arguments.usage environment }
  | .error .displayVersion => { output := [Arguments.version] }
  | .error _ => { code := usageError }
  | .ok args =>
    match Config.ofFile args.configFile (store.read args.configFile) with
    | .error _ => { code := configError }
    | .ok config =>
      match work store config args { dialer } with
      | .ok _ c => c.outcome args.logLevel false
      | .error halt c => c.outcome args.logLevel (halt = .waiting)

end PgClient.Program
