import PgClient.Text.Ascii
import PgClient.Text.Utf8

/-!
# Character sets of the server

A server reports the character set of its strings by name. Four cases matter to a client: UTF-8,
the two sets with one octet per character, and every other set, of which only the name is kept
and which is read as UTF-8.
-/

namespace PgClient

/-- How strings are turned into octets and back. -/
inductive Charset where
  | utf8
  | latin1
  | ascii
  /-- A set this library has no table for, under the name the server gave it. -/
  | other (name : String)
  deriving DecidableEq, Repr, Inhabited

namespace Charset

/-- The set of a given name, up to the case of ASCII letters. -/
def ofName (name : String) : Charset :=
  let upper := Ascii.upper name
  if ["UTF8", "UTF-8", "UNICODE"].contains upper then .utf8
  else if ["LATIN1", "ISO_8859_1", "ISO-8859-1", "ISO88591"].contains upper then .latin1
  else if upper = "SQL_ASCII" then .ascii
  else .other name

/-- The name the server knows the set by. -/
def name : Charset → String
  | .utf8 => "UTF8"
  | .latin1 => "LATIN1"
  | .ascii => "SQL_ASCII"
  | .other name => name

def isUtf8 : Charset → Bool
  | .utf8 => true
  | _ => false

/-- Reading never fails: an octet that stands for nothing becomes U+FFFD. -/
def decode : Charset → Bytes → String
  | .latin1, bs => String.ofList (bs.map fun b => Char.ofNat b.toNat)
  | .ascii, bs => String.ofList (bs.map fun b => if b < 0x80 then Char.ofNat b.toNat else '\uFFFD')
  | .utf8, bs | .other _, bs => Utf8.decodeLossy bs

/-- Writing never fails: a character the set does not have becomes a question mark. -/
def encode : Charset → String → Bytes
  | .latin1, s => s.toList.map fun c => if c.toNat ≤ 0xFF then UInt8.ofNat c.toNat else 0x3F
  | .ascii, s => s.toList.map fun c => if c.toNat < 0x80 then UInt8.ofNat c.toNat else 0x3F
  | .utf8, s | .other _, s => Utf8.encode s

/-- Reads a server's message that may have been sent before the server knew the client's set:
under UTF-8, octets that are not UTF-8 are taken for Latin-1 as a whole. -/
def decodeReport (charset : Charset) (bs : Bytes) : String :=
  match charset with
  | .utf8 => (Utf8.decode? bs).getD (latin1.decode bs)
  | _ => charset.decode bs

end Charset

end PgClient
