import PgClient.Program

/-!
# The process

The program as a process whose standard input and output are connected to the server, and which
tells its user everything on the standard error stream. There is one connection, without TLS.

The program is a function of what the server sends. Whenever octets arrive it is run again on all
of them, without time limits; what it sent and told before stays the same, and only the rest is
written. Once nothing has arrived for as long as a time limit allows, it is run with the limits.
The process ends after the program, when the server has closed its side as well.
-/

namespace PgClient.Relay

/-- What has come from the server, newest octet first. -/
structure Inbox where
  octets : Bytes := []
  ended : Bool := false

/-- Collects octets until the server closes its side. -/
partial def collect (inbox : IO.Ref Inbox) : IO Unit := do
  match (← (← IO.getStdin).read 1).toList with
  | [] => inbox.modify fun i => { i with ended := true }
  | octets =>
    inbox.modify fun i => { i with octets := octets.reverse ++ i.octets }
    collect inbox

/-- Waits until there are more octets than are known, or there will be none, or the time has come.
The result is whether there is something new. -/
partial def await (inbox : IO.Ref Inbox) (known : Nat) (deadline : Option Nat) : IO Bool := do
  let i ← inbox.get
  if known < i.octets.length || i.ended then return true
  if deadline.any (· ≤ (← IO.monoMsNow)) then return false
  IO.sleep 5
  await inbox known deadline

/-- A time limit that begins now. -/
def deadline (millis : Option Nat) : IO (Option Nat) := do
  let now ← IO.monoMsNow
  return millis.map (now + ·)

/-- How much was written. -/
structure Written where
  octets : Nat := 0
  lines : Nat := 0

/-- Writes what was not written yet. -/
def write (level : Level) (w : Written) (c : Program.Console) : IO Written := do
  let r := c.outcome level false
  let sent := r.channels.head?.elim [] fun channel => channel.socket.clear
  let out ← IO.getStdout
  out.write (ByteArray.mk (sent.drop w.octets).toArray)
  out.flush
  let err ← IO.getStderr
  (r.output.drop w.lines).forM err.putStrLn
  return { octets := sent.length, lines := r.output.length }

/-- The only connection, and what has come over it. -/
def dialer (i : Inbox) : Dialer :=
  let socket : Socket :=
    { inbound := i.octets.reverse, ended := i.ended, handshake := .fails "TLS is not available" }
  { dial := fun n => if n = 0 then .connected socket else .refused "there is only one connection" }

/-- The settings without time limits. -/
def unlimited (config : Config) : Config :=
  { config with connection := { config.connection with connectTimeout := 0, socketTimeout := 0 } }

/-- A session that begins to wait for notifications, with what came in the meantime. -/
def resume (config : Config) (known : Nat) (i : Inbox) (s : Session) : Session :=
  let socket := { s.channel.socket with
    inbound := s.channel.socket.inbound ++ i.octets.reverse.drop known
    ended := i.ended }
  { s with channel := { s.channel with
    socket, readTimeout := limit? config.connection.socketTimeout } }

/-- Opens the session, runs the query, waits for notifications and ends the session. -/
partial def converse (store : KeyStore) (config : Config) (args : Arguments)
    (inbox : IO.Ref Inbox) (w : Written) : IO UInt32 := do
  let i ← inbox.get
  let known := i.octets.length
  let begin (config' : Config) :=
    (do Program.greet config; Program.start store config' args) { dialer := dialer i }
  match begin (unlimited config) with
  | .ok session c =>
    let w ← write args.logLevel w c
    if 0 < args.listenWait then
      discard (await inbox known (← deadline (some (args.listenWait * 1000))))
    let session := session.map (resume config known (← inbox.get))
    let finish := do Program.leave (← session.mapM (Program.waitFor args))
    match finish c with
    | .ok _ c | .error _ c =>
      discard (write args.logLevel w c)
      return UInt32.ofNat c.code
  | .error _ c =>
    let w ← write args.logLevel w c
    let millis :=
      if c.session.isNone then config.connection.connectTimeout else config.connection.socketTimeout
    if ← await inbox known (← deadline (limit? millis)) then converse store config args inbox w
    else
      match begin config with
      | .ok _ c | .error _ c =>
        discard (write args.logLevel w c)
        return UInt32.ofNat c.code

/-- The contents of a file. -/
def readFile (path : String) : IO (Except String Bytes) := do
  try
    return .ok (← IO.FS.readBinFile path).toList
  catch e =>
    return .error (toString e)

/-- The files that the settings name. -/
def keyStore (config : Config) : IO KeyStore := do
  let t := config.tls
  let paths := t.rootCertificate.toList ++ t.certificate.toList ++ t.key.toList
  let files ← paths.mapM fun path => return (path, ← readFile path)
  return .ofFiles fun path => ((files.find? (·.1 == path)).map Prod.snd).getD (.error "not read")

/-- The variables of the environment that stand in for arguments. -/
def environment : IO (String → Option String) := do
  let names := Arguments.Setting.all.map Arguments.Setting.variableName
  let values ← names.mapM fun name => return (name, ← IO.getEnv name)
  return fun name => (values.find? (·.1 == name)).bind Prod.snd

/-- Tells what is asked for instead of running the program. -/
def tell (lines : List String) (code : Nat) : IO UInt32 := do
  let err ← IO.getStderr
  lines.forM err.putStrLn
  return UInt32.ofNat code

end PgClient.Relay

open PgClient in
def main (arguments : List String) : IO UInt32 := do
  let environment ← Relay.environment
  match Arguments.ofList environment arguments with
  | .error .displayHelp => Relay.tell (Arguments.usage environment) Program.ok
  | .error .displayVersion => Relay.tell [Arguments.version] Program.ok
  | .error _ => Relay.tell [] Program.usageError
  | .ok args =>
    match Config.ofFile args.configFile (← Relay.readFile args.configFile) with
    | .error _ => Relay.tell [] Program.configError
    | .ok config =>
      let inbox ← IO.mkRef {}
      discard (IO.asTask (Relay.collect inbox) .dedicated)
      Relay.converse (← Relay.keyStore config) config args inbox {}
