import PgClient.Session

/-!
# What messages of the server mean to a session

Some messages concern the session in whatever phase they arrive: the state of the transaction, the
settings the server reports, its warnings and errors, and notifications. Of a failed transaction
the first error is kept, and every later one names it as its cause.
-/

namespace PgClient.Session

/-- Fails because the server broke the protocol. -/
def violation {α : Type} (cause : Violation) : Exchange Session α :=
  Exchange.fail (.protocolViolation cause)

/-- Ends the session in an orderly way because the server reported something the client cannot live
with. -/
def leave {α : Type} (cause : LinkFault) : Exchange Session α := do
  close
  Exchange.fail (.connectionFailure cause)

/-- The server is ready; the letter tells the state of the transaction. -/
def onReady (status : UInt8) : Exchange Session Unit := do
  let transaction (state : TransactionState) (s : Session) : Session :=
    { s with status := { s.status with transaction := state } }
  match Char.ofNat status.toNat with
  | 'I' => modify fun s => transaction .idle { s with failCause := none }
  | 'T' => modify fun s => transaction .active { s with failCause := none }
  | 'E' => modify (transaction .failed)
  | _ => violation (.transactionStatus status)

/-- The server reported an error. -/
def onError (report : Report) : Exchange Session ServerError := do
  let s ← get
  match s.failCause with
  | none =>
    let error := ServerError.first report s.options.showErrorDetail
    set { s with failCause := some error }
    return error
  | some cause => return .after report s.options.showErrorDetail cause

def onWarning (report : Report) : Exchange Session Unit :=
  modify fun s => { s with status := s.status.addWarning report }

def onNotification (notification : Notification) : Exchange Session Unit :=
  modify fun s => { s with status := s.status.addNotification notification }

/-- The server changed the character set of its strings. -/
def onEncoding (value : String) : Exchange Session Unit := do
  let isUtf8 := Ascii.eqIgnoringCase value "UTF8" || Ascii.eqIgnoringCase value "UTF-8"
  if (← get).options.allowEncodingChanges then
    unless isUtf8 do record (.foreignEncoding value)
    onChannel (Channel.setCharset (Charset.ofName value))
  else unless isUtf8 do
    leave (.encodingChanged value)

/-- The setting of a name that is `on` or `off`. -/
def switch? : String → Option Bool
  | "on" => some true
  | "off" => some false
  | _ => none

/-- What a reported setting means to the client; most mean nothing. -/
def onSetting (name value : String) : Exchange Session Unit :=
  match name with
  | "client_encoding" => onEncoding value
  | "DateStyle" =>
    if (Ascii.upper value).startsWith "ISO" then pure () else leave (.dateStyleChanged value)
  | "standard_conforming_strings" =>
    match switch? value with
    | some isOn => modify fun s => { s with status := { s.status with conformingStrings := isOn } }
    | none => leave (.conformingStrings value)
  | "TimeZone" => modify fun s => { s with timeZone := some value }
  | "application_name" => modify fun s => { s with applicationName := some value }
  | "server_version_num" =>
    match Decimal.int? Decimal.int32Max value with
    | some number => modify fun s => { s with serverVersionNumber := number }
    | none => violation (.serverVersionNumber value)
  | "server_version" => modify fun s => { s with serverVersion := value }
  | "integer_datetimes" =>
    match switch? value with
    | some isOn => modify fun s => { s with integerDatetimes := isOn }
    | none => violation .sessionSetup
  | _ => pure ()

/-- The server reported a setting. It is kept before its meaning is looked at; a setting without a
name is not kept. -/
def onParameter (name value : String) : Exchange Session Unit := do
  unless name.isEmpty do
    modify fun s => { s with parameters := s.parameters.insert name value }
  onSetting name value

/-- The next message of the server. -/
def receive (phase : Phase) : Exchange Session BackendMessage := do
  onChannel (Channel.receive phase (← get).options.showErrorDetail)

/-- The rest of a message of known tag. -/
def receiveRest (tag : Tag) : Exchange Session BackendMessage := do
  onChannel (Channel.receiveJournaled tag (← get).options.showErrorDetail)

end PgClient.Session
