import PgClient.Channel.Tls
import PgClient.Login
import PgClient.Session.Startup

/-!
# Opening a session

A session is opened in attempts. One attempt connects a socket, asks for TLS if it is meant to,
logs in and reads what the server announces. The mode decides which kind of attempt is made first,
and whether a second one of the other kind follows: `allow` goes on to TLS when the server refuses
an unencrypted login, and `prefer` goes back to an unencrypted session when TLS could not be set
up or the server refuses the login over it. There is never a third attempt.
-/

namespace PgClient

/-- What comes of connecting a socket. -/
inductive Dial where
  | connected (socket : Socket)
  | refused (reason : String)
  /-- Nothing answers. -/
  | silent

/-- A client that connects sockets. -/
structure Dialer where
  /-- What comes of the n-th socket, counted from zero. -/
  dial : Nat → Dial
  /-- How many sockets it tried to connect. -/
  dialed : Nat := 0
  /-- The channels of attempts that came to nothing, oldest first. -/
  given : List Channel := []
  journal : Array Event := #[]

/-- How far an attempt came. -/
inductive Stage where
  | socket
  | ssl
  | login
  deriving DecidableEq, Repr

/-- An attempt that came to nothing. -/
structure AttemptFailure where
  stage : Stage
  error : Error
  deriving DecidableEq, Repr

namespace AttemptFailure

/-- SQLSTATE of a login that the server does not allow from here or in this way. -/
def invalidAuthorization : String :=
  "28000"

/-- The server refused this kind of connection; another kind may pass. -/
def isRejectedLogin (f : AttemptFailure) : Bool :=
  f.stage = .login && f.error.sqlState == some invalidAuthorization

end AttemptFailure

/-- What an attempt does about TLS. -/
inductive Encryption where
  | off
  /-- TLS if the server is ready for it, no encryption otherwise. -/
  | optional (connector : Connector)
  | required (connector : Connector)
  deriving DecidableEq, Repr

namespace Channel

/-- Asks for TLS and puts it over the channel if the server is ready for it. -/
def enableSsl (connector : Connector) (tls : TlsOptions) (isRequired : Bool) :
    Exchange Channel Unit := do
  let host := (← get).host
  if host.isLocal then
    if isRequired then Exchange.fail (.connectionFailure (.sslOnLocalSocket host))
    record (.sslSkipped host)
  else if ← negotiateSsl then
    startTls connector tls
  else if isRequired then
    Exchange.fail (.connectionFailure .sslNotSupported)
  else
    record (.sslUnavailable host)

/-- Encrypts the channel as far as an attempt is meant to. -/
def encrypt (tls : TlsOptions) : Encryption → Exchange Channel Unit
  | .off => pure ()
  | .optional connector => enableSsl connector tls false
  | .required connector => enableSsl connector tls true

/-- Says who the client is, and proves it. -/
def present (c : ConnectionSettings) (showDetail : Bool) : Exchange Channel Unit := do
  sendStartup c
  authenticate c showDetail

/-- Closes a channel that no session comes of. -/
def refuse (e : Error) : Exchange Channel Unit := do
  if let .error closing ← close.attempt then record (.rejectedCloseFailed closing)
  Exchange.fail e

/-- Logs in; a refusal closes the channel. -/
def login (c : ConnectionSettings) (showDetail : Bool) : Exchange Channel Unit := do
  if let .error e ← (present c showDetail).attempt then refuse e

end Channel

namespace Dialer

/-- Adds an event to the journal. -/
def record (event : Event) : Exchange Dialer Unit :=
  modify fun d => { d with journal := d.journal.push event }

/-- Connects a socket, within a time limit in milliseconds. -/
def connect (host : Host) (timeout : Option Nat) : Exchange Dialer Channel := do
  let d ← get
  set { d with dialed := d.dialed + 1 }
  match d.dial d.dialed with
  | .connected socket =>
    return { socket, host, readTimeout := timeout, journal := d.journal }
  | .refused reason =>
    record (.connectRefused host reason)
    Exchange.fail (.connectionFailure (.refused host reason))
  | .silent =>
    match timeout with
    | some millis =>
      record (.connectTimedOut host)
      Exchange.fail (.connectionFailure (.connectTimeout host millis))
    | none => throw .waiting

/-- The dialer after an attempt that came to nothing. -/
def abandon (d : Dialer) (c : Channel) : Dialer :=
  { d with given := d.given ++ [c], journal := c.journal }

/-- Runs an operation of a channel; if it fails, the channel is given up. -/
def within {σ α : Type} (channel : σ → Channel) (x : Exchange σ α) (s : σ) :
    Exchange Dialer (α × σ) :=
  fun d =>
    match x s with
    | .ok a s => .ok (a, s) { d with journal := (channel s).journal }
    | .error halt s => .error halt (d.abandon (channel s))

/-- Names the stage at which an operation failed. -/
def staged {α : Type} (stage : Stage) (x : Exchange Dialer α) :
    ExceptT AttemptFailure (Exchange Dialer) α :=
  ExceptT.mk do
    return (← x.attempt).mapError fun error => { stage, error }

/-- Begins a session. -/
def enter (session : Session) : ExceptT AttemptFailure (Exchange Dialer) Session := do
  let (_, session) ← staged .login (within Session.channel Session.begin session)
  return session

/-- Logs in over a channel that is ready for it. -/
def logIn (c : ConnectionSettings) (o : SessionOptions) (channel : Channel) :
    ExceptT AttemptFailure (Exchange Dialer) Session := do
  let (_, channel) ← staged .login (within id (Channel.login c o.showErrorDetail) channel)
  let channel := { channel with readTimeout := limit? c.socketTimeout }
  enter (Session.new channel c.user c.databaseName o)

/-- Goes on with a channel that was connected. -/
def equip (c : ConnectionSettings) (o : SessionOptions) (tls : TlsOptions)
    (encryption : Encryption) (channel : Channel) :
    ExceptT AttemptFailure (Exchange Dialer) Session := do
  let (_, channel) ← staged .ssl (within id (Channel.encrypt tls encryption) channel)
  logIn c o channel

/-- Makes one attempt. -/
def attempt (c : ConnectionSettings) (o : SessionOptions) (tls : TlsOptions)
    (encryption : Encryption) : ExceptT AttemptFailure (Exchange Dialer) Session := do
  record (.connecting c.address)
  let channel ← staged .socket (connect c.address (limit? c.connectTimeout))
  equip c o tls encryption channel

/-- Goes on to another attempt after some failures. -/
def retrying (first second : ExceptT AttemptFailure (Exchange Dialer) Session)
    (again : AttemptFailure → Bool) (event : AttemptFailure → Event) :
    ExceptT AttemptFailure (Exchange Dialer) Session :=
  tryCatch first fun f => do
    unless again f do throw f
    record (event f)
    second

/-- The attempts a mode that allows encryption makes. -/
def attempts (c : ConnectionSettings) (o : SessionOptions) (tls : TlsOptions)
    (connector : Connector) : ExceptT AttemptFailure (Exchange Dialer) Session := do
  match tls.mode with
  | .disable => attempt c o tls .off
  | .allow =>
    retrying (attempt c o tls .off) (attempt c o tls (.required connector))
      (fun f => f.isRejectedLogin) fun _ => .plaintextRefused c.address
  | .prefer =>
    retrying (attempt c o tls (.optional connector)) (attempt c o tls .off)
      (fun f => f.stage = .ssl || f.isRejectedLogin) fun f => .sslFailed c.address f.error
  | .require | .verifyCa | .verifyFull => attempt c o tls (.required connector)

/-- Opens a session. Keys and certificates are only looked at if the mode allows encryption. -/
def openSession (store : KeyStore) (c : ConnectionSettings) (o : SessionOptions)
    (tls : TlsOptions) : Exchange Dialer Session := do
  let connector ←
    if tls.mode = .disable then pure (Connector.custom {})
    else Exchange.lift (Connector.ofOptions store tls)
  Exchange.lift ((← (attempts c o tls connector).run).mapError AttemptFailure.error)

/-- Asks a server to cancel the query that one of its processes is running, over a socket of its
own. Failures are only told to the journal. A process that is not known cannot be meant. -/
def cancel (host : Host) (timeout : Option Nat) (key : Option BackendKey) :
    Exchange Dialer Unit := do
  if let some key := key.filter (0 < ·.pid) then
    record (.sending (.cancelRequest key))
    match ← (connect host timeout).attempt with
    | .error e => record (.cancelFailed e)
    | .ok channel =>
      let send : Exchange Channel Unit := do
        if let .error e ← (Channel.sendCancel key).attempt then Channel.record (.cancelFailed e)
        if let .error e ← Channel.close.attempt then Channel.record (.cancelCloseFailed e)
      let (_, channel) ← within id send channel
      modify fun d => d.abandon channel

end Dialer

end PgClient
