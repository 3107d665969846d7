import PgClient.Exchange
import PgClient.Journal
import PgClient.Security

/-!
# Channels

A channel is a socket with a buffer on either side, together with what is needed to read text
from it: the character set and the time limit of each read.

A socket is described by what it will do: which octets will arrive, whether the server then closes
its side, and which operations fail, which may be others after every write. Reading takes up to
`Channel.bufferSize` octets at a time into the buffer; a request for at least that many, with
nothing buffered, goes past the buffer and takes no more than was asked for. This matters because
octets in the buffer are lost to whoever takes the socket over. Writing collects octets until they
are flushed.

Time only passes while nothing arrives, so a time limit elapses exactly when the octets run out.
-/

namespace PgClient

/-- What a socket runs over. -/
inductive Medium where
  | tcp
  | localSocket
  | tls
  deriving DecidableEq, Repr

/-- Which operations of a socket fail. -/
structure Faults where
  /-- Reading fails once no octet is left. -/
  read : Bool := false
  write : Bool := false
  flush : Bool := false
  shutdown : Bool := false
  deriving DecidableEq, Repr

/-- How the server answers a TLS handshake. -/
inductive Handshake where
  | fails (reason : String)
  /-- The octets that will arrive within TLS, and whether the server shows a certificate. -/
  | succeeds (inbound : Bytes) (showsCertificate : Bool)
  deriving DecidableEq, Repr

/-- A TLS handshake the client began. -/
structure Hello where
  /-- The name the server is expected to have. -/
  domain : String
  settings : ConnectorSettings
  /-- What the caller's verifier was asked, if it was: whether there is a certificate. -/
  asked : Option Bool := none
  deriving DecidableEq, Repr

/-- A connected socket. -/
structure Socket where
  medium : Medium := .tcp
  handshake : Handshake := .fails "handshake failed"
  hello : Option Hello := none
  /-- The octets that will arrive and were not read yet. -/
  inbound : Bytes := []
  /-- Whether the server closes its side once nothing more arrives, be it within TLS. -/
  ended : Bool := false
  faults : Faults := {}
  /-- What fails after the next write, and after each one that follows; then nothing changes. -/
  laterFaults : List Faults := []
  /-- The octets sent in the clear. -/
  clear : Bytes := []
  /-- The octets sent within TLS. -/
  encrypted : Bytes := []
  /-- Whether this side was closed. -/
  isShut : Bool := false
  deriving DecidableEq, Repr

/-- What fails after the next write. How the reading ends is not up to what is written. -/
def Socket.nextFaults (s : Socket) : Faults :=
  { s.laterFaults.headD s.faults with read := s.faults.read }

/-- The socket after it took octets. -/
def Socket.write (s : Socket) (octets : Bytes) : Socket :=
  let s := { s with faults := s.nextFaults, laterFaults := s.laterFaults.tail }
  match s.medium with
  | .tls => { s with encrypted := s.encrypted ++ octets }
  | .tcp | .localSocket => { s with clear := s.clear ++ octets }

/-- A socket with what is needed to talk over it. -/
structure Channel where
  socket : Socket
  host : Host
  /-- Octets read from the socket and not consumed yet. -/
  buffer : Bytes := []
  /-- Octets to be written by the next flush. -/
  outgoing : Bytes := []
  charset : Charset := .utf8
  /-- The time limit of a read in milliseconds. -/
  readTimeout : Option Nat := none
  /-- What happened so far. -/
  journal : Array Event := #[]

namespace Channel

/-- How many octets are read from the socket at a time. -/
def bufferSize : Nat :=
  8192

/-- The greatest size of a message. -/
def maxMessageSize : Nat :=
  256 * 1024 * 1024

/-- All octets still to be consumed. -/
def unread (c : Channel) : Bytes :=
  c.buffer ++ c.socket.inbound

/-- The channel after `drawn` octets went from the socket into the empty buffer and `used` of them
were consumed. -/
def drawn (c : Channel) (used drawn : Nat) : Channel :=
  { c with
    buffer := (c.socket.inbound.take drawn).drop used
    socket := { c.socket with inbound := c.socket.inbound.drop drawn } }

/-- The channel with nothing left to read. -/
def exhausted (c : Channel) : Channel :=
  { c with buffer := [], socket := { c.socket with inbound := [] } }

/-- The next `n` octets, if so many arrive; otherwise those that do are lost. -/
def takeExactly (n : Nat) (c : Channel) : Option Bytes × Channel :=
  let missing := n - c.buffer.length
  if missing = 0 then (some (c.buffer.take n), { c with buffer := c.buffer.drop n })
  else if c.socket.inbound.length < missing then (none, c.exhausted)
  else
    (some (c.buffer ++ c.socket.inbound.take missing), c.drawn missing (max missing bufferSize))

/-- The octets up to the next zero octet, which is consumed as well; if none arrives, all octets
are lost. -/
def takeUntilZero (c : Channel) : Option Bytes × Channel :=
  match c.buffer.findIdx? (· == 0) with
  | some i => (some (c.buffer.take i), { c with buffer := c.buffer.drop (i + 1) })
  | none =>
    match c.socket.inbound.findIdx? (· == 0) with
    | none => (none, c.exhausted)
    | some i =>
      (some (c.buffer ++ c.socket.inbound.take i),
        c.drawn (i + 1) ((i / bufferSize + 1) * bufferSize))

/-- Ends an operation that needs octets when none are left. -/
def runDry {α : Type} : Exchange Channel α := do
  let c ← get
  if c.socket.faults.read then Exchange.fail (.socket (.reading .connectionReset))
  if c.socket.ended then Exchange.fail (.connectionFailure .closedByServer)
  match c.readTimeout with
  | some millis => Exchange.fail (.connectionFailure (.readTimeout millis))
  | none => throw .waiting

/-- Adds an event to the journal. -/
def record (event : Event) : Exchange Channel Unit :=
  modify fun c => { c with journal := c.journal.push event }

/-! ## Receiving -/

def receiveExactly (n : Nat) : Exchange Channel Bytes := do
  match ← modifyGet (takeExactly n) with
  | some octets => return octets
  | none => runDry

def receiveOctet : Exchange Channel UInt8 := do
  return (← receiveExactly 1).headD 0

def receiveInt32 : Exchange Channel Int := do
  return Bytes.toInt (← receiveExactly 4)

def receiveInt16 : Exchange Channel Int := do
  return Bytes.toInt (← receiveExactly 2)

/-- The next `n` octets, unless no message may be that long. -/
def receiveBytes (n : Nat) : Exchange Channel Bytes := do
  if maxMessageSize < n then Exchange.fail (.protocolViolation (.oversized n))
  receiveExactly n

/-- Discards the next `n` octets. -/
def skip (n : Nat) : Exchange Channel Unit := do
  discard (receiveBytes n)

def receiveString (n : Nat) : Exchange Channel String := do
  let octets ← receiveBytes n
  return (← get).charset.decode octets

/-- The text of a report, which the server may have sent before it knew the client's character
set. -/
def receiveReportText (n : Nat) : Exchange Channel String := do
  let octets ← receiveBytes n
  return (← get).charset.decodeReport octets

/-- A string closed by a zero octet. -/
def receiveZeroTerminated : Exchange Channel String := do
  match ← modifyGet takeUntilZero with
  | some octets => return (← get).charset.decode octets
  | none => runDry

/-- Waits for the server to close its side; an octet instead breaks the protocol. -/
def receiveEnd : Exchange Channel Unit := do
  match ← modifyGet (takeExactly 1) with
  | some octets =>
    Exchange.fail (.protocolViolation (.dataInsteadOfEnd (octets.headD 0)))
  | none =>
    let c ← get
    if c.socket.ended && !c.socket.faults.read then return ()
    runDry

/-- The next octet if one arrives within `wait` milliseconds. A time limit of reads that elapses
no later than that is still a failure. -/
def awaitOctet (wait : Nat) : Exchange Channel (Option UInt8) := do
  match ← modifyGet (takeExactly 1) with
  | some octets => return octets.head?
  | none =>
    let c ← get
    let silent := !c.socket.faults.read && !c.socket.ended
    if silent && c.readTimeout.all (wait < ·) then return none
    runDry

/-! ## Sending -/

/-- Adds octets to those of the next flush. -/
def send (octets : Bytes) : Exchange Channel Unit :=
  modify fun c => { c with outgoing := c.outgoing ++ octets }

/-- Writes what was collected. A failing write takes no octet, and what was collected is gone. -/
def flush : Exchange Channel Unit := do
  let c ← get
  if c.outgoing.isEmpty then return ()
  set { c with outgoing := [] }
  if c.socket.faults.write then Exchange.fail (.socket (.writing .brokenPipe))
  modify fun c' => { c' with socket := c'.socket.write c.outgoing }
  if c.socket.faults.flush then Exchange.fail (.socket (.flushing .brokenPipe))

/-- Closes this side; what was collected and not flushed is dropped. -/
def close : Exchange Channel Unit := do
  modify fun c => { c with outgoing := [] }
  if (← get).socket.faults.shutdown then Exchange.fail (.socket (.closing .notConnected))
  modify fun c => { c with socket := { c.socket with isShut := true } }

/-! ## Settings -/

/-- Changes how strings are read and written from now on. -/
def setCharset (charset : Charset) : Exchange Channel Unit := do
  record (.charsetSet (← get).host charset)
  modify fun c => { c with charset }

/-- Changes the time limit of reads; a limit of zero is none. -/
def setReadTimeout (millis : Option Nat) : Exchange Channel Unit :=
  modify fun c => { c with readTimeout := millis.filter (· != 0) }

/-- Whether octets were read from the socket and not consumed. -/
def hasBuffered (c : Channel) : Bool :=
  !c.buffer.isEmpty

/-- The socket for someone else to take over, unless octets would be lost. -/
def release? (c : Channel) : Except Error Socket :=
  if c.hasBuffered then throw (.protocolViolation .unencryptedData) else return c.socket

end Channel

end PgClient
