import PgClient.Error
import PgClient.Md5
import PgClient.Text.Charset

/-!
# Messages of the client

What a client can say, and its form on the wire: a tag of one octet, the length of everything
after the tag, and the fields. The three messages that open a connection have no tag. Strings are
closed by a zero octet, so a string that holds one itself cannot be sent.
-/

namespace PgClient

/-- Process number and secret of a server process, which authorise to cancel its query. -/
structure BackendKey where
  pid : Int
  secret : Int
  deriving DecidableEq, Repr

/-- A message to the server. -/
inductive FrontendMessage where
  /-- Opens a session; the parameters are sent in this order. -/
  | startup (parameters : List (String × String))
  | sslRequest
  | cancelRequest (key : BackendKey)
  | terminate
  /-- A password as it is to be sent, with whatever ends it. -/
  | password (octets : Bytes)
  | cleartextPassword (password : String)
  | query (sql : String)
  /-- Types of zero are left to the server. -/
  | parse (statement sql : String) (types : List Int)
  /-- All parameters and results are in text form; an absent parameter is null. -/
  | bind (portal statement : String) (parameters : List (Option Bytes))
  /-- `kind` is `S` for a statement and `P` for a portal. -/
  | describe (kind : UInt8) (name : String)
  /-- At most `maxRows` rows, or all of them if it is zero. -/
  | execute (portal : String) (maxRows : Int)
  /-- `kind` is `S` for a statement and `P` for a portal. -/
  | close (kind : UInt8) (name : String)
  | sync
  | flush
  deriving DecidableEq, Repr

namespace FrontendMessage

/-- The version of the protocol, in the high half the major one. -/
def protocolVersion : Int :=
  196608

/-- Stands where the version of the protocol would, and asks for TLS. -/
def sslRequestCode : Int :=
  80877103

/-- Stands where the version of the protocol would, in two halves, and asks to cancel. -/
def cancelRequestCode : Int × Int :=
  (1234, 5678)

/-- The tag of what is described or closed, for a statement. -/
def statementKind : UInt8 :=
  0x53

/-- The tag of what is described or closed, for a portal. -/
def portalKind : UInt8 :=
  0x50

/-- A string and the zero octet that closes it. -/
def string (charset : Charset) (s : String) : Except Error Bytes :=
  let octets := charset.encode s
  match octets.findIdx? (· == 0) with
  | some position => throw (.statementCreation (.zeroOctet position))
  | none => return octets ++ [0]

/-- A body behind its length, which counts itself. -/
def withLength (body : Bytes) : Bytes :=
  Bytes.int32 (body.length + 4) ++ body

/-- A body behind its tag and its length. -/
def frame (tag : Char) (body : Bytes) : Bytes :=
  UInt8.ofNat tag.toNat :: withLength body

/-- A parameter behind its length; the length of null is -1. -/
def parameter : Option Bytes → Bytes
  | some value => Bytes.int32 value.length ++ value
  | none => Bytes.int32 (-1)

/-- The message on the wire. A session is opened, and a password is sent, in UTF-8. -/
def encode (charset : Charset) : FrontendMessage → Except Error Bytes
  | startup parameters => do
    let pairs ← parameters.mapM fun (name, value) => do
      return (← string .utf8 name) ++ (← string .utf8 value)
    return withLength (Bytes.int32 protocolVersion ++ pairs.flatten ++ [0])
  | sslRequest => return withLength (Bytes.int32 sslRequestCode)
  | cancelRequest key =>
    return withLength (Bytes.int16 cancelRequestCode.1 ++ Bytes.int16 cancelRequestCode.2
      ++ Bytes.int32 key.pid ++ Bytes.int32 key.secret)
  | terminate => return frame 'X' []
  | password octets => return frame 'p' octets
  | cleartextPassword text => return frame 'p' (← string .utf8 text)
  | query sql => return frame 'Q' (← string charset sql)
  | parse statement sql types => do
    let statement ← string charset statement
    let sql ← string charset sql
    return frame 'P' (statement ++ sql ++ Bytes.int16 types.length ++ types.flatMap Bytes.int32)
  | bind portal statement parameters => do
    let portal ← string charset portal
    let statement ← string charset statement
    return frame 'B' (portal ++ statement ++ Bytes.int16 0 ++ Bytes.int16 parameters.length
      ++ parameters.flatMap parameter ++ Bytes.int16 0)
  | describe kind name => return frame 'D' (kind :: (← string charset name))
  | execute portal maxRows => return frame 'E' ((← string charset portal) ++ Bytes.int32 maxRows)
  | close kind name => return frame 'C' (kind :: (← string charset name))
  | sync => return frame 'S' []
  | flush => return frame 'H' []

/-- The answer to a request for an MD5 password: the digest of password and user, in hexadecimal,
digested once more with the salt, behind a mark and with a zero octet at the end. -/
def md5Password (user password : String) (salt : Bytes) : Bytes :=
  let inner := Bytes.toHex (Md5.digest (Utf8.encode password ++ Utf8.encode user))
  let outer := Bytes.toHex (Md5.digest (Utf8.encode inner ++ salt))
  Utf8.encode ("md5" ++ outer) ++ [0]

end FrontendMessage

end PgClient
