import PgClient.Channel.Receive

/-!
# Logging in

How a client comes to a session: it may ask for TLS, it says who it is, and it answers what the
server asks until the server lets it in.
-/

namespace PgClient.Channel

/-- Adds a message to those of the next flush. -/
def sendMessage (message : FrontendMessage) : Exchange Channel Unit := do
  send (← Exchange.lift (message.encode .utf8))

/-- Says a message, and all that was collected before. -/
def utter (message : FrontendMessage) : Exchange Channel Unit := do
  sendMessage message
  flush

/-- What a client makes of the octet that answers its question for TLS. Octets that arrive together
with a yes would be read as if they came through TLS, so they end the attempt. -/
def sslVerdict (octet : UInt8) : Exchange Channel Bool := do
  match Char.ofNat octet.toNat with
  | 'S' =>
    record .sslAccepted
    if (← get).hasBuffered then Exchange.fail (.protocolViolation .unencryptedData)
    return true
  | 'N' =>
    record .sslRefused
    return false
  | 'E' =>
    record .sslNotUnderstood
    Exchange.fail (.connectionFailure .sslNotSupported)
  | _ => Exchange.fail (.protocolViolation (.sslAnswer octet))

/-- Reads whether the server is ready for TLS. -/
def sslAnswer : Exchange Channel Bool :=
  receiveOctet >>= sslVerdict

/-- Asks for TLS; the answer is whether the server is ready for it. -/
def negotiateSsl : Exchange Channel Bool := do
  record (.sending .sslRequest)
  utter .sslRequest
  sslAnswer

/-- Says who the client is. -/
def sendStartup (c : ConnectionSettings) : Exchange Channel Unit := do
  c.startupParameters.forM fun (name, value) => record (.startupParameter name value)
  utter (.startup c.startupParameters)

/-- Sends an answer to a request to prove who the client is. -/
def sendPassword (message : FrontendMessage) : Exchange Channel Unit := do
  record (.sending message)
  utter message

/-- The password, which a request asks for. -/
def requiredPassword (c : ConnectionSettings) : Exchange Channel String :=
  match c.password with
  | some password => return password
  | none => Exchange.fail (.authentication .passwordRequired)

/-- Answers one request; the result is whether the server has let the client in. -/
def answer (c : ConnectionSettings) : AuthenticationRequest → Exchange Channel Bool
  | .ok => return true
  | .cleartextPassword => do
    sendPassword (.cleartextPassword (← requiredPassword c))
    return false
  | .md5Password salt => do
    sendPassword (.password (FrontendMessage.md5Password c.user (← requiredPassword c) salt))
    return false
  | .sasl => do
    record (.saslRequested (← get).host)
    Exchange.fail (.authentication .saslNotSupported)
  | .other method => Exchange.fail (.authentication (.methodNotSupported method))

/-- Takes in a message of the login; as long as the client is not let in, another one follows. -/
def letIn (c : ConnectionSettings) (showDetail : Bool) (next : Exchange Channel Unit) :
    BackendMessage → Exchange Channel Unit
  | .authentication request => do unless ← answer c request do next
  | .errorResponse report => Exchange.fail (.server (.first report showDetail))
  | _ => next

/-- Answers requests until the server lets the client in. Each takes at least one octet, so as many
rounds as there are octets, and one more, suffice. -/
def answerAll (c : ConnectionSettings) (showDetail : Bool) : Nat → Exchange Channel Unit
  | 0 => throw .waiting
  | rounds + 1 => do
    letIn c showDetail (answerAll c showDetail rounds) (← receive .login showDetail)

/-- Proves who the client is, in whatever way the server asks for. -/
def authenticate (c : ConnectionSettings) (showDetail : Bool) : Exchange Channel Unit := do
  answerAll c showDetail ((← get).unread.length + 1)

/-- Asks the server to cancel a query, and waits for it to close its side. -/
def sendCancel (key : BackendKey) : Exchange Channel Unit := do
  utter (.cancelRequest key)
  receiveEnd

end PgClient.Channel
