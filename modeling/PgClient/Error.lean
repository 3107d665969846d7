import PgClient.Host
import PgClient.Report

/-!
# Errors

An error is the cause of a failure; its wording is in `Error.message` and the functions below it,
one per family of causes. Three questions are asked of an error: whether the connection can be
used after it (`isFatal`), which SQLSTATE it stands for (`sqlState`), and, for a report of the
server, whether preparing the statement again mends it (`isStalePlan`).

Every family has a cause `stated` for a failure that a caller words itself.
-/

namespace PgClient

/-- An ErrorResponse as a value. Within a failed transaction every error but the first names the
first as its cause. -/
inductive ServerError where
  | first (report : Report) (showDetail : Bool)
  | after (report : Report) (showDetail : Bool) (cause : ServerError)
  deriving DecidableEq, Repr, Inhabited

namespace ServerError

def report : ServerError → Report
  | .first report _ | .after report _ _ => report

/-- Whether the rendering may show what could be data of the user's rows. -/
def showDetail : ServerError → Bool
  | .first _ showDetail | .after _ showDetail _ => showDetail

def cause? : ServerError → Option ServerError
  | .first .. => none
  | .after _ _ cause => some cause

/-- The same error with another cause. -/
def withCause (e cause : ServerError) : ServerError :=
  .after e.report e.showDetail cause

/-- The causes behind an error, nearest first. -/
def causes : ServerError → List ServerError
  | .first .. => []
  | .after _ _ cause => cause :: cause.causes

/-- The error at the end of the chain of causes. -/
def rootCause : ServerError → ServerError
  | e@(.first ..) => e
  | .after _ _ cause => cause.rootCause

def sqlState (e : ServerError) : String :=
  e.report.code

def render (e : ServerError) : String :=
  e.report.render e.showDetail

/-- SQLSTATE of a statement name the server does not know. -/
def invalidStatementName : String :=
  "26000"

/-- SQLSTATE of a feature that is not supported. -/
def notSupported : String :=
  "0A000"

/-- A statement that the server no longer knows, or whose plan changed the type of its result.
Preparing the statement again mends both. -/
def isStalePlan (e : ServerError) : Bool :=
  e.sqlState == invalidStatementName
    || (e.sqlState == notSupported
      && (e.report.routine == some "RevalidateCachedQuery"
        || e.report.routine == some "RevalidateCachedPlan"))

end ServerError

/-- Why an operation of the socket failed. -/
inductive IoFault where
  | connectionReset
  | brokenPipe
  | notConnected
  deriving DecidableEq, Repr

namespace IoFault

def message : IoFault → String
  | connectionReset => "Kind(ConnectionReset)"
  | brokenPipe => "Kind(BrokenPipe)"
  | notConnected => "Kind(NotConnected)"

end IoFault

/-- Why a field of a message's body could not be read. -/
inductive FieldFault where
  /-- No zero octet ends the string. -/
  | unterminated
  /-- Too few octets are left for an integer of `width` octets. -/
  | short (width remaining : Nat)
  | stated (text : String)
  deriving DecidableEq, Repr

namespace FieldFault

def message : FieldFault → String
  | unterminated => "Could not read string"
  | short width remaining =>
    s!"Expected {width} bytes for int{8 * width}, {remaining} remaining"
  | stated text => text

end FieldFault

/-- How the server broke the protocol. -/
inductive Violation where
  /-- A report without a body; `kind` is the beginning of the sentence. -/
  | reportLength (kind : String) (length : Int)
  /-- A message whose length is fixed, or has a least value, and is declared otherwise. -/
  | messageLength (kind : String) (length : Int)
  /-- A length that does not even cover itself. -/
  | bodyLength (length : Int)
  | oversized (length : Nat)
  | transactionStatus (status : UInt8)
  | unknownMessage (tag : UInt8)
  | sessionSetup
  | serverVersionNumber (value : String)
  | malformed (kind : String) (fault : FieldFault)
  | columnOverrun (size : Nat)
  | dataInsteadOfEnd (octet : UInt8)
  | unencryptedData
  | sslAnswer (octet : UInt8)
  | authenticationExpected (tag : UInt8)
  | stated (text : String)
  deriving DecidableEq, Repr

/-- An octet shown as the character of the same number. -/
def showOctet (b : UInt8) : String :=
  String.singleton (Char.ofNat b.toNat)

namespace Violation

def message : Violation → String
  | reportLength kind length => s!"{kind} length must be greater than 4, got {length}"
  | messageLength kind length => s!"Unexpected length of {kind} message: {length}"
  | bodyLength length => s!"Invalid message length: {length}"
  | oversized length => s!"Message length is too large: {length}"
  | transactionStatus status =>
    s!"Unexpected transaction state in ReadyForQuery message: {status.toNat}"
  | unknownMessage tag => "Unknown Response Type " ++ showOctet tag
  | sessionSetup => "Protocol error. Session setup failed."
  | serverVersionNumber value => s!"Invalid server_version_num reported by the server: {value}"
  | malformed kind fault => s!"Malformed {kind} message: " ++ fault.message
  | columnOverrun size => s!"DataRow column of {size} bytes exceeds message"
  | dataInsteadOfEnd octet => "Expected an EOF from server, got: " ++ showOctet octet
  | unencryptedData => "Received unencrypted data after SSL request"
  | sslAnswer octet =>
    "An error occurred while setting up the SSL connection, got: " ++ showOctet octet
  | authenticationExpected tag =>
    "Protocol error. Expected authentication request, got: " ++ showOctet tag
  | stated text => text

end Violation

/-- Why a connection could not be made or could not go on. -/
inductive LinkFault where
  | readTimeout (millis : Nat)
  | closedByServer
  | refused (host : Host) (reason : String)
  | connectTimeout (host : Host) (millis : Nat)
  | encodingChanged (value : String)
  | dateStyleChanged (value : String)
  | conformingStrings (value : String)
  | sslNotSupported
  | sslOnLocalSocket (host : Host)
  /-- Key material of the client that could not be read, found out when the handshake failed. -/
  | keyMaterial (text : String)
  | handshake (text : String)
  | identityRefused (hostName verifier : String)
  | identityUnchecked (hostName : String)
  | stated (text : String)
  deriving DecidableEq, Repr

namespace LinkFault

def message : LinkFault → String
  | readTimeout millis => s!"Read timed out after {millis} ms"
  | closedByServer => "The server closed the connection unexpectedly"
  | refused host reason =>
    "Connection to " ++ host.render ++ " refused. Check that the hostname and port are correct "
      ++ "and that the postmaster is accepting TCP/IP connections: " ++ reason
  | connectTimeout host millis =>
    "Connection to " ++ host.render ++ s!" timed out after {millis} ms"
  | encodingChanged value =>
    s!"The server's client_encoding parameter was changed to {value}. "
      ++ "The driver requires client_encoding to be UTF8 for correct operation."
  | dateStyleChanged value =>
    s!"The server's DateStyle parameter was changed to {value}. "
      ++ "The driver requires DateStyle to begin with ISO for correct operation."
  | conformingStrings value =>
    s!"The server's standard_conforming_strings parameter was reported as {value}. "
      ++ "The driver expected on or off."
  | sslNotSupported => "The server does not support SSL."
  | sslOnLocalSocket host => "SSL is not available over the Unix socket " ++ host.render
  | keyMaterial text => text
  | handshake text => s!"SSL error: {text}"
  | identityRefused hostName verifier =>
    s!"The hostname {hostName} could not be verified by hostnameverifier {verifier}."
  | identityUnchecked hostName =>
    s!"The hostname {hostName} could not be verified, no verifier available"
  | stated text => text

end LinkFault

/-- Why a statement or a message to the server could not be built. -/
inductive StatementFault where
  /-- A string would end early on the wire; `position` is that of its first zero octet. -/
  | zeroOctet (position : Nat)
  | zeroInSql
  | stated (text : String)
  deriving DecidableEq, Repr

namespace StatementFault

def message : StatementFault → String
  | zeroOctet position =>
    "Zero bytes may not occur in string parameters: "
      ++ s!"nul byte found in provided data at position: {position}"
  | zeroInSql => "Zero bytes may not occur in SQL text"
  | stated text => text

end StatementFault

/-- Which operation of the socket failed, and how. -/
inductive SocketFault where
  | reading (fault : IoFault)
  | writing (fault : IoFault)
  | flushing (fault : IoFault)
  | closing (fault : IoFault)
  | stated (text : String)
  deriving DecidableEq, Repr

namespace SocketFault

def message : SocketFault → String
  | reading fault => "Error reading from socket: " ++ fault.message
  | writing fault => "Error writing to socket: " ++ fault.message
  | flushing fault => "Error flushing socket: " ++ fault.message
  | closing fault => "Error closing socket: " ++ fault.message
  | stated text => text

end SocketFault

/-- Why TLS could not be set up on a socket. -/
inductive TlsFault where
  | notOverTcp (host : Host)
  | connectorNotMade (reason : String)
  | stated (text : String)
  deriving DecidableEq, Repr

namespace TlsFault

def message : TlsFault → String
  | notOverTcp host => "SSL can only be negotiated over a plain TCP connection to " ++ host.render
  | connectorNotMade reason => "Failed to create TLS connector: " ++ reason
  | stated text => text

end TlsFault

/-- Why the client could not prove who it is. -/
inductive AuthFault where
  | passwordRequired
  | saslNotSupported
  | methodNotSupported (method : Int)
  | stated (text : String)
  deriving DecidableEq, Repr

namespace AuthFault

def message : AuthFault → String
  | passwordRequired =>
    "The server requested password-based authentication, but no password was provided."
  | saslNotSupported => "SCRAM authentication is not supported by this client"
  | methodNotSupported method =>
    s!"The authentication type {method} is not supported. Check that you have "
      ++ "configured the pg_hba.conf file to include the client's IP address "
      ++ "or subnet, and that it is using an authentication scheme supported "
      ++ "by the driver."
  | stated text => text

end AuthFault

/-- What is wrong with the settings. -/
inductive ConfigFault where
  /-- A word that is not one of the values of a setting. -/
  | unknownValue (setting value : String)
  | zeroPort
  | emptyUser
  | certificateWithoutKey
  | certificateWithoutSsl
  | notOpened (path reason : String)
  | notRead (reason : String)
  | notParsed (path reason : String)
  | certificateNotRead (path reason : String)
  | certificateNotParsed (path reason : String)
  | stated (text : String)
  deriving DecidableEq, Repr

namespace ConfigFault

def message : ConfigFault → String
  | unknownValue setting value => s!"Invalid {setting} value: {value}"
  | zeroPort => "port must not be 0"
  | emptyUser => "user must not be empty"
  | certificateWithoutKey => "both the ssl_cert and ssl_key must be specified at the same time"
  | certificateWithoutSsl => "ssl_mode 'disable' cannot be combined with ssl certificates"
  | notOpened path reason => s!"Could not open '{path}': {reason}"
  | notRead reason => s!"Could not read config file: {reason}"
  | notParsed path reason => s!"Could not parse config file {path}: {reason}"
  | certificateNotRead path reason => s!"Failed to read certificate file {path}: {reason}"
  | certificateNotParsed path reason => s!"Failed to parse certificate {path}: {reason}"
  | stated text => text

end ConfigFault

/-- Everything that can go wrong, by family. -/
inductive Error where
  /-- The server broke the protocol. -/
  | protocolViolation (cause : Violation)
  /-- The connection failed, or the server reported something the client cannot live with. -/
  | connectionFailure (cause : LinkFault)
  /-- The server refused a statement; the connection may well live on. -/
  | server (error : ServerError)
  | statementCreation (cause : StatementFault)
  | socket (cause : SocketFault)
  | tls (cause : TlsFault)
  | authentication (cause : AuthFault)
  | configuration (cause : ConfigFault)
  | field (cause : FieldFault)
  /-- The connection was closed before. -/
  | closed
  deriving DecidableEq, Repr

namespace Error

/-- The text a reader is shown. -/
def message : Error → String
  | protocolViolation cause => "Protocol error: " ++ cause.message
  | connectionFailure cause => "Connection failure: " ++ cause.message
  | server error => error.render
  | statementCreation cause => "Could not create statement: " ++ cause.message
  | socket cause => "Socket connection error: " ++ cause.message
  | tls cause => "SSL error: " ++ cause.message
  | authentication cause => "Authentication failed: " ++ cause.message
  | configuration cause => "Configuration error: " ++ cause.message
  | field cause => "Failed to parse bytes: " ++ cause.message
  | closed => "This connection has been closed"

/-- Errors after which the connection must not be used. -/
def isFatal : Error → Bool
  | protocolViolation _ | field _ | connectionFailure _ | socket _ | tls _ | closed => true
  | server _ | statementCreation _ | authentication _ | configuration _ => false

/-- The SQLSTATE an error stands for, if it stands for one. -/
def sqlState : Error → Option String
  | server error => some error.sqlState
  | protocolViolation _ | field _ => some "08P01"
  | connectionFailure _ | socket _ | tls _ | closed => some "08006"
  | statementCreation _ | authentication _ | configuration _ => none

def serverError? : Error → Option ServerError
  | server error => some error
  | _ => none

/-- Whether preparing the statement again mends the error. -/
def isStalePlan (e : Error) : Bool :=
  e.serverError?.any ServerError.isStalePlan

end Error

end PgClient
