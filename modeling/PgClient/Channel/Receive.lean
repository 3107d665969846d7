import PgClient.Channel

/-!
# Reading messages of the server

A message is a tag, a length and fields. Which tags make sense depends on the phase of the
session; a tag out of place breaks the protocol. A message is read off the channel as its fields
are laid out: those with a bounded body are checked against their declared length before the body
is read, and those made of strings end where the last string ends.
-/

namespace PgClient

/-- The tag of a message of the server. -/
inductive Tag where
  | authentication
  | backendKeyData
  | parameterStatus
  | readyForQuery
  | parseComplete
  | bindComplete
  | closeComplete
  | noData
  | portalSuspended
  | emptyQuery
  | parameterDescription
  | rowDescription
  | dataRow
  | commandComplete
  | errorResponse
  | noticeResponse
  | notificationResponse
  deriving DecidableEq, Repr

namespace Tag

/-- The letter of a tag. -/
def letter : Tag → Char
  | authentication => 'R'
  | backendKeyData => 'K'
  | parameterStatus => 'S'
  | readyForQuery => 'Z'
  | parseComplete => '1'
  | bindComplete => '2'
  | closeComplete => '3'
  | noData => 'n'
  | portalSuspended => 's'
  | emptyQuery => 'I'
  | parameterDescription => 't'
  | rowDescription => 'T'
  | dataRow => 'D'
  | commandComplete => 'C'
  | errorResponse => 'E'
  | noticeResponse => 'N'
  | notificationResponse => 'A'

def all : List Tag :=
  [authentication, backendKeyData, parameterStatus, readyForQuery, parseComplete, bindComplete,
    closeComplete, noData, portalSuspended, emptyQuery, parameterDescription, rowDescription,
    dataRow, commandComplete, errorResponse, noticeResponse, notificationResponse]

/-- The octet of a tag. -/
def octet (t : Tag) : UInt8 :=
  UInt8.ofNat t.letter.toNat

/-- The tag of an octet. -/
def ofOctet? (octet : UInt8) : Option Tag :=
  all.find? (·.octet == octet)

end Tag

/-- What a session is waiting for. -/
inductive Phase where
  /-- The server has not let the client in yet. -/
  | login
  /-- The server announces itself. -/
  | startup
  /-- The server answers a request. -/
  | reply
  /-- No request is under way. -/
  | idle
  deriving DecidableEq, Repr

namespace Phase

/-- The messages that make sense in a phase. -/
def accepts : Phase → Tag → Bool
  | login, tag => [Tag.authentication, .errorResponse].contains tag
  | startup, tag =>
    [Tag.readyForQuery, .backendKeyData, .errorResponse, .noticeResponse,
      .parameterStatus].contains tag
  | reply, tag => tag != .authentication && tag != .backendKeyData
  | idle, tag =>
    [Tag.notificationResponse, .errorResponse, .noticeResponse, .parameterStatus].contains tag

/-- What a message out of place is. -/
def rejection (octet : UInt8) : Phase → Violation
  | login => .authenticationExpected octet
  | startup => .sessionSetup
  | reply | idle => .unknownMessage octet

end Phase

namespace Channel

/-- The length of a message whose body may have any length: that of the body alone. -/
def receiveBodyLength : Exchange Channel Nat := do
  let length ← receiveInt32
  if length < 4 then Exchange.fail (.protocolViolation (.bodyLength length))
  return (length - 4).toNat

/-- A message without a body. -/
def receiveEmpty (kind : String) (message : BackendMessage) : Exchange Channel BackendMessage := do
  let length ← receiveInt32
  if length ≠ 4 then Exchange.fail (.protocolViolation (.messageLength kind length))
  return message

/-- The length of a report's text, which cannot be empty; `kind` begins the sentence otherwise. -/
def receiveReportLength (kind : String) : Exchange Channel Nat := do
  let length ← receiveInt32
  if length ≤ 4 then Exchange.fail (.protocolViolation (.reportLength kind length))
  return (length - 4).toNat

/-- Fails if a body could not be taken apart. -/
def accept {α : Type} : Except Violation α → Exchange Channel α
  | .ok a => pure a
  | .error cause => Exchange.fail (.protocolViolation cause)

/-- The rest of a request to prove who the client is, of which the length and the method were read.
What a method needs that is not supported is skipped. -/
def receiveMethod (length : Int) : Int → Exchange Channel AuthenticationRequest
  | 0 => return .ok
  | 3 => return .cleartextPassword
  | 5 => return .md5Password (← receiveBytes 4)
  | 10 => do
    if 8 < length then skip (length - 8).toNat
    return .sasl
  | method => return .other method

/-- A request to prove who the client is. -/
def receiveAuthentication : Exchange Channel AuthenticationRequest := do
  let length ← receiveInt32
  receiveMethod length (← receiveInt32)

/-- The rest of a message whose tag was read. -/
def receiveMessage : Tag → Exchange Channel BackendMessage
  | .authentication => return .authentication (← receiveAuthentication)
  | .backendKeyData => do
    if (← receiveInt32) ≠ 12 then Exchange.fail (.protocolViolation .sessionSetup)
    let pid ← receiveInt32
    let secret ← receiveInt32
    return .backendKeyData { pid, secret }
  | .parameterStatus => do
    discard receiveInt32
    let name ← receiveZeroTerminated
    let value ← receiveZeroTerminated
    return .parameterStatus name value
  | .readyForQuery => do
    let length ← receiveInt32
    if length ≠ 5 then Exchange.fail (.protocolViolation (.messageLength "ReadyForQuery" length))
    return .readyForQuery (← receiveOctet)
  | .parseComplete => receiveEmpty "ParseComplete" .parseComplete
  | .bindComplete => receiveEmpty "BindComplete" .bindComplete
  | .closeComplete => receiveEmpty "CloseComplete" .closeComplete
  | .noData => receiveEmpty "NoData" .noData
  | .portalSuspended => receiveEmpty "PortalSuspended" .portalSuspended
  | .emptyQuery => receiveEmpty "EmptyQuery" .emptyQuery
  | .parameterDescription => do
    skip (← receiveBodyLength)
    return .parameterDescription
  | .rowDescription => do
    let body ← receiveBytes (← receiveBodyLength)
    return .rowDescription (← accept (Column.decodeAll (← get).charset body))
  | .dataRow => do
    let size ← receiveBodyLength
    let body ← receiveBytes size
    return .dataRow (size + 4) (← accept (Row.decode body))
  | .commandComplete => do
    let length ← receiveInt32
    if length < 5 then Exchange.fail (.protocolViolation (.messageLength "CommandComplete" length))
    let tag ← receiveString (length - 5).toNat
    discard receiveOctet
    return .commandComplete tag
  | .errorResponse => do
    let length ← receiveReportLength "Error response"
    return .errorResponse (Report.ofText (← receiveReportText length))
  | .noticeResponse => do
    let length ← receiveReportLength "Notice response"
    return .noticeResponse (Report.ofText (← receiveString length))
  | .notificationResponse => do
    discard receiveInt32
    let pid ← receiveInt32
    let channel ← receiveZeroTerminated
    let payload ← receiveZeroTerminated
    return .notificationResponse { channel, payload, pid }

/-- Whether the journal keeps a message. A method of authentication that is not supported ends the
login and is told of there. -/
def keeps : BackendMessage → Bool
  | .authentication .sasl | .authentication (.other _) => false
  | _ => true

/-- The rest of a message of known tag, which goes into the journal. -/
def receiveJournaled (tag : Tag) (showDetail : Bool) : Exchange Channel BackendMessage := do
  let message ← receiveMessage tag
  if keeps message then record (.received message showDetail)
  return message

/-- The rest of a message whose first octet was read. -/
def receiveAfter (phase : Phase) (octet : UInt8) (showDetail : Bool) :
    Exchange Channel BackendMessage := do
  match (Tag.ofOctet? octet).filter phase.accepts with
  | some tag => receiveJournaled tag showDetail
  | none =>
    if phase = .startup then record (.unexpectedAtStartup octet)
    Exchange.fail (.protocolViolation (phase.rejection octet))

/-- The next message. -/
def receive (phase : Phase) (showDetail : Bool) : Exchange Channel BackendMessage := do
  receiveAfter phase (← receiveOctet) showDetail

end Channel

end PgClient
