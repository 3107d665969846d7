import PgClient.Cache
import PgClient.Channel.Receive
import PgClient.Parameters
import PgClient.Statement
import PgClient.Text.Quoted
import PgClient.Version

/-!
# Sessions

What a client knows about its session with a server: what the server reported, the state of the
transaction, the statements the server has prepared for it, and the channel between the two.

Statements prepared under a name are the server's memory, so each name is accounted for: a
statement holds it while it is in use or cached, and once the statement is given up the name waits
in `pendingClose` to be closed ahead of the next request.
-/

namespace PgClient

/-- The state of the transaction as the server last reported it. -/
inductive TransactionState where
  | idle
  | active
  | failed
  deriving DecidableEq, Repr, Inhabited

def TransactionState.render : TransactionState → String
  | idle => "IDLE"
  | active => "OPEN"
  | failed => "FAILED"

/-- What others may look at, and collect, while a request is under way. -/
structure Status where
  warnings : List Report := []
  notifications : List Notification := []
  transaction : TransactionState := .idle
  /-- Whether a backslash in a plain string literal stands for itself. -/
  conformingStrings : Bool := false
  backendKey : Option BackendKey := none
  deriving DecidableEq, Repr, Inhabited

namespace Status

def addWarning (s : Status) (warning : Report) : Status :=
  { s with warnings := s.warnings ++ [warning] }

def addNotification (s : Status) (notification : Notification) : Status :=
  { s with notifications := s.notifications ++ [notification] }

/-- The warnings so far, oldest first; none is left. -/
def takeWarnings (s : Status) : List Report × Status :=
  (s.warnings, { s with warnings := [] })

/-- The notifications so far, oldest first; none is left. -/
def takeNotifications (s : Status) : List Notification × Status :=
  (s.notifications, { s with notifications := [] })

def hasNotifications (s : Status) : Bool :=
  !s.notifications.isEmpty

end Status

/-- A session with a server. -/
structure Session where
  channel : Channel
  user : String
  database : String
  options : SessionOptions
  status : Status := {}
  /-- The first error of the transaction that failed. -/
  failCause : Option ServerError := none
  parameters : Parameters := []
  serverVersion : String := ""
  /-- The version as the server numbered it; zero if it did not. -/
  serverVersionNumber : Int := 0
  timeZone : Option String := none
  applicationName : Option String := none
  integerDatetimes : Bool := true
  /-- Whether statements are forgotten when the server says that it dropped all of them. -/
  forgetsOnDrop : Bool := true
  statements : Cache StatementKey Statement
  /-- Names to be closed ahead of the next request, first one first. -/
  pendingClose : List String := []
  /-- How often the server dropped all statements. -/
  epoch : Nat := 0
  isClosed : Bool := false
  /-- The number of the next name. -/
  nextName : Nat := 1

namespace Session

/-- A session over a channel that the server let the client in on. -/
def new (channel : Channel) (user database : String) (options : SessionOptions) : Session :=
  { channel, user, database, options
    statements := Cache.empty Statement.size options.cacheQueries options.cacheBytes }

def party (s : Session) : Party :=
  { host := s.channel.host, user := s.user, database := s.database }

/-- The number of the server's process, zero if it is not known. -/
def backendPid (s : Session) : Int :=
  (s.status.backendKey.map BackendKey.pid).getD 0

/-- The version as a number, computed from the words if the server did not number it; absent if
the words stand for a number of more than 32 bits. -/
def versionNumber? (s : Session) : Option Int :=
  if s.serverVersionNumber ≠ 0 then some s.serverVersionNumber
  else (Version.number? s.serverVersion).map Int.ofNat

/-- The session for a reader. -/
def render (s : Session) : String :=
  "ExecutorBase \x7b host: HostSpec \x7b host: " ++ Quoted.encode s.channel.host.name
    ++ ", port: " ++ toString s.channel.host.port ++ " \x7d, user: " ++ Quoted.encode s.user
    ++ ", database: " ++ Quoted.encode s.database ++ ", closed: " ++ toString s.isClosed ++ " \x7d"

/-- Runs an operation of the channel. -/
def onChannel {α : Type} : Exchange Channel α → Exchange Session α :=
  Exchange.zoom channel fun c s => { s with channel := c }

/-- Adds an event to the journal. -/
def record (event : Event) : Exchange Session Unit :=
  onChannel (Channel.record event)

/-! ## Ending a session -/

/-- Refuses to go on with a session that has ended. -/
def ensureOpen : Exchange Session Unit := do
  if (← get).isClosed then Exchange.fail .closed

/-- Marks the session as ended; `how` says in which way. -/
def markClosed (how : String) : Exchange Session Unit := do
  modify fun s => { s with isClosed := true }
  record (.disconnected how (← get).party)

/-- What is left to do once the server was told to expect nothing more. -/
def shut : Exchange Session Unit := do
  if let .error e ← (onChannel Channel.close).attempt then record (.closeFailed e)
  markClosed "closed"

/-- What is left to do once the last word is in the buffer. -/
def hangUp : Exchange Session Unit := do
  if let .error e ← (onChannel Channel.flush).attempt then record (.closeFailed e)
  shut

/-- Takes leave of the server and closes the channel. Failures are only told to the journal, and a
session that has ended is left alone. -/
def close : Exchange Session Unit := do
  if (← get).isClosed then return ()
  record (.sending .terminate)
  onChannel (Channel.send (FrontendMessage.frame 'X' []))
  hangUp

/-- Closes the channel without taking leave. -/
def abort : Exchange Session Unit := do
  if let .error e ← (onChannel Channel.close).attempt then record (.abortFailed e)
  unless (← get).isClosed do markClosed "terminated"

/-- Aborts the session if an operation ended with an error that it cannot survive. -/
def checkFatal {α : Type} : Except Error α → Exchange Session Unit
  | .error e => do
    if e.isFatal && !(← get).isClosed then
      record (.unusable (← get).party e)
      abort
  | .ok _ => pure ()

/-! ## Statements -/

/-- Gives a statement up: its name is to be closed. -/
def retire (statement : Statement) : Exchange Session Unit := do
  if let some name := statement.name then
    record (.statementEvicted name)
    modify fun s => { s with pendingClose := s.pendingClose ++ [name] }
  record (.entryEvicted statement.size)

/-- The statement of a key, from the cache if it is there. -/
def borrowStatement (key : StatementKey) : Exchange Session Statement := do
  let (result, statements) ←
    Cache.borrow (fun key => pure (Statement.ofKey key)) key (← get).statements
  modify fun s => { s with statements }
  Exchange.lift result

/-- The statement of a text with parameters. -/
def borrowQuery (sql : String) : Exchange Session Statement :=
  borrowStatement (.parameterized sql)

/-- The statement that calls a procedure. -/
def borrowCall (sql : String) : Exchange Session Statement :=
  borrowStatement (.call sql)

/-- The statement of a text with parameters that asks columns back, or all generated ones if
`columns` is absent. -/
def borrowReturning (sql : String) (columns : Option (List String)) :
    Exchange Session Statement :=
  borrowStatement (.returning sql true true columns)

/-- The statement of a key, whether or not another one is in the cache. -/
def createStatement (key : StatementKey) : Exchange Session Statement := do
  Exchange.lift (← Cache.create (fun key => pure (Statement.ofKey key)) key)

/-- Hands a statement back to the cache. -/
def releaseStatement (statement : Statement) : Exchange Session Unit := do
  let (given, statements) := (← get).statements.put statement.key statement
  modify fun s => { s with statements }
  given.forM retire

/-- The server dropped every statement: none is left to be closed. -/
def forgetStatements : Exchange Session Unit := do
  let s ← get
  if s.forgetsOnDrop then
    record (.statementsDropped s.party)
    modify fun s => { s with
      epoch := s.epoch + 1
      pendingClose := []
      statements := s.statements.clear }

/-- Whether preparing the statement again mends an error, and the transaction lets it run again. -/
def healsOnRetry (s : Session) (e : Error) : Bool :=
  !(s.options.autosave = .never && s.status.transaction = .failed) && e.isStalePlan

end Session

end PgClient
