import PgClient.Error
import PgClient.Text.Charset

/-!
# Fields of a message

The body of a message is a run of fields: strings closed by a zero octet, and signed integers in
network byte order. A `FieldReader` takes fields from the front of a body and fails without
taking anything when a field is not complete.
-/

namespace PgClient

/-- Reads from the front of a body. -/
abbrev FieldReader :=
  StateT Bytes (Except FieldFault)

namespace FieldReader

/-- A string, without the zero octet that ends it. -/
def string (charset : Charset) : FieldReader String := fun bs =>
  match bs.dropWhile (· != 0) with
  | _ :: rest => .ok (charset.decode (bs.takeWhile (· != 0)), rest)
  | [] => .error .unterminated

/-- An integer of `width` octets. -/
def int (width : Nat) : FieldReader Int := fun bs =>
  if bs.length < width then .error (.short width bs.length)
  else .ok (Bytes.toInt (bs.take width), bs.drop width)

def int16 : FieldReader Int :=
  int 2

def int32 : FieldReader Int :=
  int 4

end FieldReader

end PgClient
