import PgClient.Message.Backend
import PgClient.Settings.Session

/-!
# Journal

What a connection did, event by event: the messages that went either way, and everything else a
reader of the log is told. An event is a value, so a history of events can be reasoned about;
its wording is `Event.text`, and nothing else decides what the log says. Texts of the server that
may hold data of the user's rows are shown only where the event allows it.
-/

namespace PgClient

/-- How important an event is, least important first. -/
inductive Level where
  | trace
  | debug
  | info
  | warn
  | error
  deriving DecidableEq, Repr

namespace Level

def render : Level → String
  | trace => "TRACE"
  | debug => "DEBUG"
  | info => "INFO"
  | warn => "WARN"
  | error => "ERROR"

/-- A rank that grows with importance. -/
def rank : Level → Nat
  | trace => 0
  | debug => 1
  | info => 2
  | warn => 3
  | error => 4

end Level

/-- Who a session is with, as shown to a reader. -/
structure Party where
  host : Host
  user : String
  database : String
  deriving DecidableEq, Repr

def Party.render (p : Party) : String :=
  "[" ++ p.host.render ++ ", " ++ p.user ++ "@" ++ p.database ++ "]"

/-- Something a connection did. -/
inductive Event where
  /-- A message is put together to be sent. -/
  | sending (message : FrontendMessage)
  /-- A parameter of the message that opens the session. -/
  | startupParameter (name value : String)
  /-- A message of the server was read. -/
  | received (message : BackendMessage) (showDetail : Bool)
  | sslAccepted
  | sslRefused
  | sslNotUnderstood
  /-- A message that does not belong to the opening of a session. -/
  | unexpectedAtStartup (tag : UInt8)
  | charsetSet (host : Host) (charset : Charset)
  | foreignEncoding (value : String)
  | statementEvicted (name : String)
  | entryEvicted (size : Nat)
  | statementsDropped (party : Party)
  | unusable (party : Party) (error : Error)
  | closeFailed (error : Error)
  | abortFailed (error : Error)
  | ready (party : Party) (pid : Int)
  /-- The session ended; `how` is `closed` or `terminated`. -/
  | disconnected (how : String) (party : Party)
  | connecting (host : Host)
  | connectTimedOut (host : Host)
  | connectRefused (host : Host) (reason : String)
  | sslSkipped (host : Host)
  | sslUnavailable (host : Host)
  | sslStarting
  | sslEstablished (host : Host) (mode : SslMode)
  | plaintextRefused (host : Host)
  | sslFailed (host : Host) (error : Error)
  | rejectedCloseFailed (error : Error)
  | saslRequested (host : Host)
  | cancelFailed (error : Error)
  | cancelCloseFailed (error : Error)
  deriving DecidableEq, Repr

namespace Event

/-- The log line of a message to the server; the opening message has one per parameter instead. -/
def sendingText : FrontendMessage → String
  | .startup _ => "StartupPacket"
  | .sslRequest => "SSLRequest"
  | .cancelRequest key => s!"CancelRequest(pid={key.pid},ckey={key.secret})"
  | .terminate => "Terminate"
  | .password _ => "Password(md5digest=<not shown>)"
  | .cleartextPassword _ => "Password(password=<not shown>)"
  | .query sql => s!"SimpleQuery(\"{sql}\")"
  | .parse statement sql _ => s!"Parse(stmt={statement},query=\"{sql}\")"
  | .bind portal statement _ => s!"Bind(stmt={statement},portal={portal})"
  | .describe kind name =>
    if kind = FrontendMessage.portalKind then s!"Describe(portal={name})"
    else s!"Describe(stmt={name})"
  | .execute portal maxRows => s!"Execute(portal={portal},limit={maxRows})"
  | .close kind name =>
    if kind = FrontendMessage.portalKind then s!"ClosePortal({name})"
    else s!"CloseStatement({name})"
  | .sync => "Sync"
  | .flush => "Flush"

def authenticationText : AuthenticationRequest → String
  | .ok => "AuthenticationOk"
  | .cleartextPassword => "AuthenticationReqPassword"
  | .md5Password _ => "AuthenticationReqMD5"
  | .sasl => "AuthenticationReqSASL"
  | .other method => s!"AuthenticationReq({method})"

/-- The log line of a message of the server. -/
def receivedText (showDetail : Bool) : BackendMessage → String
  | .authentication request => authenticationText request
  | .backendKeyData key => s!"BackendKeyData(pid={key.pid},ckey={key.secret})"
  | .parameterStatus name value => s!"ParameterStatus({name} = {value})"
  | .readyForQuery status => "ReadyForQuery(" ++ showOctet status ++ ")"
  | .parseComplete => "ParseComplete"
  | .bindComplete => "BindComplete"
  | .closeComplete => "CloseComplete"
  | .noData => "NoData"
  | .portalSuspended => "PortalSuspended"
  | .emptyQuery => "EmptyQuery"
  | .parameterDescription => "ParameterDescription"
  | .rowDescription columns => s!"RowDescription({columns.length})"
  | .dataRow length _ => s!"DataRow(len={length})"
  | .commandComplete tag => s!"CommandStatus({tag})"
  | .errorResponse report => "ErrorMessage(" ++ report.render showDetail ++ ")"
  | .noticeResponse report => "NoticeResponse(" ++ report.render showDetail ++ ")"
  | .notificationResponse n => s!"AsyncNotify({n.pid},{n.channel},{n.payload})"

def level : Event → Level
  | sending _ | startupParameter _ _ | received _ _ | sslAccepted | sslRefused | sslNotUnderstood
  | unexpectedAtStartup _ => .trace
  | charsetSet _ _ | foreignEncoding _ | statementEvicted _ | entryEvicted _ | closeFailed _
  | abortFailed _ | ready _ _ | connecting _ | sslSkipped _ | sslUnavailable _ | sslStarting
  | rejectedCloseFailed _ | cancelFailed _ | cancelCloseFailed _ => .debug
  | disconnected _ _ | sslEstablished _ _ | plaintextRefused _ | sslFailed _ _ => .info
  | statementsDropped _ | unusable _ _ | saslRequested _ => .warn
  | connectTimedOut _ | connectRefused _ _ => .error

/-- What the log says. -/
def text : Event → String
  | sending message => " FE=> " ++ sendingText message
  | startupParameter name value => s!" FE=> StartupPacket {name}={value}"
  | received message showDetail => " <=BE " ++ receivedText showDetail message
  | sslAccepted => " <=BE SSLOk"
  | sslRefused => " <=BE SSLRefused"
  | sslNotUnderstood => " <=BE SSLError"
  | unexpectedAtStartup tag => "  invalid message type=" ++ showOctet tag
  | charsetSet host charset => "Client encoding for " ++ host.render ++ " set to " ++ charset.name
  | foreignEncoding value =>
    s!"Expected client_encoding to be UTF8 for proper operation, actual encoding is {value}"
  | statementEvicted name => s!"Statement {name} evicted from cache, scheduling close"
  | entryEvicted size => s!"Evicted cache entry of {size} bytes"
  | statementsDropped party =>
    "Cleanup server " ++ party.render ++ " prepared statements cache"
  | unusable party error =>
    "Server " ++ party.render ++ " connection is unusable: " ++ error.message
  | closeFailed error => "Discarding error on close: " ++ error.message
  | abortFailed error => "Ignoring error on abort: " ++ error.message
  | ready party pid => "Server " ++ party.render ++ s!" ready, backend pid {pid}"
  | disconnected how party => s!"Server connection {how} " ++ party.render
  | connecting host =>
    "Trying to establish a protocol version 3 connection to " ++ host.render
  | connectTimedOut host => "Connect to " ++ host.render ++ " timed out"
  | connectRefused host reason =>
    "Could not connect to server " ++ host.render ++ ": " ++ reason
  | sslSkipped host => "Skipping SSL negotiation on Unix socket " ++ host.render
  | sslUnavailable host =>
    "Server " ++ host.render ++ " does not support SSL, continuing in plaintext"
  | sslStarting => "Converting regular socket connection to SSL"
  | sslEstablished host mode =>
    "SSL connection to " ++ host.render ++ " established (" ++ mode.render ++ ")"
  | plaintextRefused host =>
    "Server " ++ host.render ++ " refused a plaintext connection, retrying with SSL"
  | sslFailed host error =>
    "SSL connection to " ++ host.render ++ " failed (" ++ error.message
      ++ "), retrying without SSL"
  | rejectedCloseFailed error => "Ignoring error closing rejected connection: " ++ error.message
  | saslRequested host => "Server " ++ host.render ++ " asked for SASL authentication"
  | cancelFailed error => "Ignoring exception on cancel request: " ++ error.message
  | cancelCloseFailed error => "Ignoring exception closing cancel connection: " ++ error.message

end Event

end PgClient
