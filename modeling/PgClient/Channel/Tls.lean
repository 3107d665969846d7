import PgClient.Channel

/-!
# TLS on a channel

The plain socket of a channel is replaced by a TLS session over it. Nothing that was read before
the handshake may be left over, since it would be taken for something that came through TLS. After
the handshake the server's name is confirmed in the way the options ask for; only then does the
channel go on, with empty buffers.
-/

namespace PgClient.Channel

/-- Changes what is known about the handshake. -/
def setHello (hello : Hello) : Exchange Channel Unit :=
  modify fun c => { c with socket := { c.socket with hello := some hello } }

/-- Confirms the server's name after a handshake. -/
def confirmIdentity (connector : Connector) (tls : TlsOptions) (hello : Hello)
    (showsCertificate : Bool) : Exchange Channel Unit := do
  match hostnameCheck tls.mode connector tls.verifier.isSome with
  | .skip | .builtIn => return ()
  | .unavailable => Exchange.fail (.connectionFailure (.identityUnchecked hello.domain))
  | .custom =>
    if let some verifier := tls.verifier then
      setHello { hello with asked := some showsCertificate }
      unless verifier.accepts hello.domain showsCertificate do
        Exchange.fail (.connectionFailure (.identityRefused hello.domain verifier.name))

/-- The channel within TLS. -/
def withinTls (c : Channel) (inbound : Bytes) : Channel :=
  { c with
    buffer := []
    outgoing := []
    charset := .utf8
    socket := { c.socket with medium := .tls, inbound } }

/-- Goes on within TLS after a handshake that went well, once the server's name is confirmed. -/
def establish (connector : Connector) (tls : TlsOptions) (host : Host) (hello : Hello)
    (inbound : Bytes) (showsCertificate : Bool) : Exchange Channel Unit := do
  confirmIdentity connector tls hello showsCertificate
  record (.sslEstablished host tls.mode)
  modify fun c => c.withinTls inbound

/-- Begins a handshake and goes by what comes of it. Where the client's own key could not be read,
that is taken for the reason of a failure. -/
def shakeHands (connector : Connector) (tls : TlsOptions) (host : Host) (handshake : Handshake) :
    Exchange Channel Unit := do
  let hello : Hello := { domain := host.name, settings := connector.settings }
  setHello hello
  match handshake with
  | .fails reason =>
    match connector.keyError? with
    | some text => Exchange.fail (.connectionFailure (.keyMaterial text))
    | none => Exchange.fail (.connectionFailure (.handshake reason))
  | .succeeds inbound showsCertificate =>
    establish connector tls host hello inbound showsCertificate

/-- Puts TLS over the plain socket of a channel. -/
def startTls (connector : Connector) (tls : TlsOptions) : Exchange Channel Unit := do
  record .sslStarting
  let c ← get
  let socket ← Exchange.lift c.release?
  if socket.medium ≠ .tcp then Exchange.fail (.tls (.notOverTcp c.host))
  shakeHands connector tls c.host socket.handshake

end PgClient.Channel
