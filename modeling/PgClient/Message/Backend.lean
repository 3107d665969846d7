import PgClient.Message.Field
import PgClient.Message.Frontend

/-!
# Messages of the server

What a server can say, and how the rows and the descriptions of rows it sends are taken apart.
A message is read off a connection field by field (see `PgClient.Channel.Receive`); only the two
whose size is not bounded in advance are read as a whole first.
-/

namespace PgClient

/-- A column of a result. -/
structure Column where
  name : String
  tableOid : Int
  attributeNumber : Int
  typeOid : Int
  typeSize : Int
  typeModifier : Int
  format : Int
  deriving DecidableEq, Repr

/-- A row of a result: the octets of each value, absent where it is null. -/
abbrev Row :=
  List (Option Bytes)

/-- A message from another session. -/
structure Notification where
  channel : String
  payload : String
  pid : Int
  deriving DecidableEq, Repr

/-- How the server wants the client to prove who it is. -/
inductive AuthenticationRequest where
  /-- Nothing more is wanted. -/
  | ok
  | cleartextPassword
  | md5Password (salt : Bytes)
  | sasl
  | other (method : Int)
  deriving DecidableEq, Repr

/-- A message of the server. -/
inductive BackendMessage where
  | authentication (request : AuthenticationRequest)
  | backendKeyData (key : BackendKey)
  | parameterStatus (name value : String)
  /-- `status` is the letter of the transaction's state. -/
  | readyForQuery (status : UInt8)
  | parseComplete
  | bindComplete
  | closeComplete
  | noData
  | portalSuspended
  | emptyQuery
  | parameterDescription
  | rowDescription (columns : List Column)
  /-- `length` is the declared length of the message. -/
  | dataRow (length : Int) (row : Row)
  | commandComplete (tag : String)
  | errorResponse (report : Report)
  | noticeResponse (report : Report)
  | notificationResponse (notification : Notification)
  deriving DecidableEq, Repr

/-- A reader of fields within a message of a kind, whose faults break the protocol. -/
def FieldReader.within {α : Type} (kind : String) (reader : FieldReader α) :
    StateT Bytes (Except Violation) α := fun bs =>
  (reader bs).mapError (.malformed kind)

namespace Column

/-- The description of one column. -/
def reader (charset : Charset) : FieldReader Column := do
  let name ← FieldReader.string charset
  let tableOid ← FieldReader.int32
  let attributeNumber ← FieldReader.int16
  let typeOid ← FieldReader.int32
  let typeSize ← FieldReader.int16
  let typeModifier ← FieldReader.int32
  let format ← FieldReader.int16
  return { name, tableOid, attributeNumber, typeOid, typeSize, typeModifier, format }

/-- All columns of a row: a count, and that many columns. A negative count is none. -/
def allReader (charset : Charset) : FieldReader (List Column) := do
  let count ← FieldReader.int16
  (List.replicate count.toNat ()).mapM fun _ => reader charset

/-- The description of a row. What follows the last column is not looked at. -/
def decodeAll (charset : Charset) (body : Bytes) : Except Violation (List Column) :=
  ((allReader charset).within "RowDescription").run' body

end Column

namespace Row

/-- One value: its size and its octets. A negative size stands for null. -/
def value : StateT Bytes (Except Violation) (Option Bytes) := do
  let size ← FieldReader.int32.within "DataRow"
  if size < 0 then return none
  let rest ← get
  if rest.length < size.toNat then throw (.columnOverrun size.toNat)
  set (rest.drop size.toNat)
  return some (rest.take size.toNat)

/-- All values of a row: a count, and that many values. A negative count is none. -/
def reader : StateT Bytes (Except Violation) Row := do
  let count ← FieldReader.int16.within "DataRow"
  (List.replicate count.toNat ()).mapM fun _ => value

/-- A row. What follows the last value is not looked at. -/
def decode (body : Bytes) : Except Violation Row :=
  reader.run' body

end Row

end PgClient
