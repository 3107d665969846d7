import PgClient.Delivery
import PgClient.Session.Messages

/-!
# Requests

A request is one write and one reply. Either the text of a query goes to the server as it is, or a
statement is run: prepared if the server does not have it yet, bound to its parameters, described
and executed. The names of statements given up before are closed ahead of it.

The reply is a run of messages up to the one that says the server is ready again. What they carry
is delivered in the order it arrives. An error of the server does not end the reply; it is the
result of the request once the reply is over. Every other error ends the reply where it is, and
with it the session.
-/

namespace PgClient

/-- What a request came to. -/
structure Reply where
  result : Except Error Unit
  deliveries : List Delivery
  /-- The statement that ran, and what is known about it now. -/
  statement : Option Statement

namespace Session

/-- A request under way. -/
structure Conversation where
  session : Session
  /-- The statement that runs. -/
  statement : Option Statement := none
  /-- The name the statement is being prepared under. -/
  preparing : Option String := none
  deliveries : Array Delivery := #[]
  /-- The first error the server reported. -/
  firstError : Option Error := none

namespace Conversation

/-- Runs an operation of the session. -/
def onSession {α : Type} : Exchange Session α → Exchange Conversation α :=
  Exchange.zoom session fun s c => { c with session := s }

def deliver (delivery : Delivery) : Exchange Conversation Unit :=
  modify fun c => { c with deliveries := c.deliveries.push delivery }

/-- Changes the statement that runs, if one does. -/
def updateStatement (f : Statement → Statement) : Exchange Conversation Unit :=
  modify fun c => { c with statement := c.statement.map f }

/-- The server has prepared the statement; one without a name is not remembered. -/
def onParsed : Exchange Conversation Unit := do
  let c ← get
  if let some name := c.preparing then
    updateStatement fun s => s.prepare name c.session.epoch

/-- Whether the words of a completed command tell that the server dropped every statement. -/
def dropsStatements (tag : String) : Bool :=
  tag.startsWith "DEALLOCATE ALL" || tag.startsWith "DISCARD ALL"

/-- The server reported an error. A statement whose plan is stale is prepared anew when it runs
next, so its name is to be closed. -/
def onReport (report : Report) : Exchange Conversation Unit := do
  let serverError ← onSession (onError report)
  if serverError.isStalePlan then
    if let some name := (← get).statement.bind Statement.name then
      updateStatement Statement.unprepare
      onSession (modify fun s => { s with pendingClose := s.pendingClose ++ [name] })
  let error := Error.server serverError
  deliver (.error error)
  modify fun c => { c with firstError := c.firstError.or (some error) }

/-- Takes in one message; the answer is whether it was the last one of the reply. -/
def take (message : BackendMessage) : Exchange Conversation Bool := do
  match message with
  | .readyForQuery status =>
    onSession (onReady status)
    return true
  | .parseComplete => onParsed
  | .portalSuspended =>
    updateStatement fun s => { s with isSuspended := true }
    deliver .suspended
  | .rowDescription columns => deliver (.columns columns)
  | .dataRow _ row => deliver (.row row)
  | .commandComplete tag =>
    if dropsStatements tag then onSession forgetStatements
    deliver (.status tag)
  | .errorResponse report => onReport report
  | .noticeResponse report => onSession (onWarning report)
  | .notificationResponse notification => onSession (onNotification notification)
  | .parameterStatus name value => onSession (onParameter name value)
  | .bindComplete | .closeComplete | .noData | .emptyQuery | .parameterDescription
  | .authentication _ | .backendKeyData _ => pure ()
  return false

/-- Reads a message of a reply and takes it in. -/
def takeNext : Exchange Conversation Bool := do
  take (← onSession (receive .reply))

/-- Takes in messages up to the one that ends the reply. Each takes at least one octet, so as many
rounds as there are octets suffice. -/
def takeAll : Nat → Exchange Conversation Unit
  | 0 => throw .waiting
  | rounds + 1 => do unless ← takeNext do takeAll rounds

/-- What is left to do once all messages of a reply were taken in. -/
def conclude : Exchange Conversation Unit := do
  deliver .completed
  if let some error := (← get).firstError then Exchange.fail error

/-- Takes in the reply of the server. -/
def readReply : Exchange Conversation Unit := do
  takeAll ((← get).session.channel.unread.length + 1)
  conclude

end Conversation

/-- Runs a request; a failure that the session cannot survive ends it. -/
def converse (c : Conversation) (request : Exchange Conversation Unit) : Exchange Session Reply :=
  fun s =>
    match (request.attempt) { c with session := s } with
    | .ok result c =>
      let reply := { result, deliveries := c.deliveries.toList, statement := c.statement }
      (do checkFatal result; return reply : Exchange Session Reply) c.session
    | .error halt c => .error halt c.session

/-- A request that is sent and then answered. What sends it tells the name a statement is being
prepared under. -/
def request (send : Exchange Session (Option String)) : Exchange Conversation Unit := do
  let preparing ← Conversation.onSession send
  modify fun c => { c with preparing }
  Conversation.readReply

/-- A request that was refused before anything was sent. -/
def refused (e : Error) (statement : Option Statement) : Reply :=
  { result := .error e, deliveries := [], statement }

/-- Writes what was put together for a query. -/
def sendQuery : Exchange Session (Option String) := do
  onChannel Channel.flush
  return none

/-- Sends the text of a query and reads the reply. -/
def query (sql : String) : Exchange Session Reply := do
  let s ← get
  if s.isClosed then return refused .closed none
  match FrontendMessage.encode s.channel.charset (.query sql) with
  | .error e => return refused e none
  | .ok octets =>
    record (.sending (.query sql))
    onChannel (Channel.send octets)
    converse { session := s } (request sendQuery)

/-- Whether a statement is prepared under a name when it runs. -/
def usesName (o : SessionOptions) (s : Statement) : Bool :=
  match o.queryMode with
  | .simple => false
  | .extendedCacheEverything => true
  | .extended | .extendedForPrepared =>
    0 < o.prepareThreshold && o.prepareThreshold ≤ s.executions

/-- A name that was not used before. -/
def freshName : Exchange Session String := do
  modifyGet fun s => (s!"S_{s.nextName}", { s with nextName := s.nextName + 1 })

/-- Adds a message to those of the next flush. -/
def sendMessage (message : FrontendMessage) : Exchange Session Unit := do
  record (.sending message)
  let octets ← Exchange.lift (message.encode (← get).channel.charset)
  onChannel (Channel.send octets)

/-- Closes the names that wait for it. -/
def sendPendingCloses : Exchange Session Unit := do
  let names := (← get).pendingClose
  modify fun s => { s with pendingClose := [] }
  names.forM fun name => sendMessage (.close FrontendMessage.statementKind name)

/-- The messages that run a statement under a name, after the one that prepares it. -/
def runMessages (name : String) (parameters : List (Option Bytes)) (s : Statement) :
    List FrontendMessage :=
  [.bind "" name parameters, .describe FrontendMessage.portalKind "", .execute "" s.fetchSize,
    .sync]

/-- Puts messages together, in order, as far as they can be sent. -/
def encodeMessages (messages : List FrontendMessage) : Exchange Session Bytes := do
  let parts ← messages.mapM fun message => do
    record (.sending message)
    Exchange.lift (message.encode (← get).channel.charset)
  return parts.flatten

/-- Sends what runs a statement, once it is known what name it is prepared under. The answer is that
name, if it has to be remembered. -/
def sendOffered (s : Statement) (parameters : List (Option Bytes)) (preparing : Option String) :
    Exchange Session (Option String) := do
  let name := (s.name.or preparing).getD ""
  let parse := preparing.toList.map fun name => FrontendMessage.parse name s.native []
  let octets ← encodeMessages (parse ++ runMessages name parameters s)
  onChannel (Channel.send octets)
  onChannel Channel.flush
  return preparing.filter (!·.isEmpty)

/-- Sends what runs a statement, behind what closes the names that wait for it. -/
def sendStatement (s : Statement) (parameters : List (Option Bytes)) :
    Exchange Session (Option String) := do
  sendPendingCloses
  let preparing ← match s.name with
    | some _ => pure none
    | none => if usesName (← get).options s then some <$> freshName else pure (some "")
  sendOffered s parameters preparing

/-- A statement about to run: a name of an earlier epoch is forgotten, and the run is counted. -/
def aboutToRun (epoch : Nat) (s : Statement) : Statement :=
  (if s.isPrepared && !s.isPreparedIn epoch then s.unprepare else s).countExecution

/-- Runs a statement and reads the reply. -/
def execute (statement : Statement) (parameters : List (Option Bytes)) :
    Exchange Session Reply := do
  let session ← get
  if session.isClosed then return refused .closed (some statement)
  let statement := aboutToRun session.epoch { statement with isSuspended := false }
  converse { session, statement := some statement } (request (sendStatement statement parameters))

end Session

end PgClient
