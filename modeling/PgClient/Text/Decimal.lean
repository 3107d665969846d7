/-!
# Bounded decimal numbers

Integers as the server and the command line write them: ASCII digits with an optional sign, read
in full or not at all, and refused when they leave their range.
-/

namespace PgClient.Decimal

/-- The value of a non-empty run of ASCII digits. -/
def digits? (cs : List Char) : Option Nat :=
  if !cs.isEmpty && cs.all Char.isDigit then
    some (cs.foldl (fun n c => n * 10 + (c.toNat - '0'.toNat)) 0)
  else none

/-- The greatest number a signed word of 32 bits holds. -/
def int32Max : Nat :=
  UInt32.size / 2 - 1

/-- The greatest number an unsigned word of 32 bits holds. -/
def uint32Max : Nat :=
  UInt32.size - 1

/-- The greatest number an unsigned word of 64 bits holds. -/
def uint64Max : Nat :=
  UInt64.size - 1

/-- An unsigned number up to `max`; a plus sign may precede it. -/
def nat? (max : Nat) (s : String) : Option Nat :=
  let body := match s.toList with
    | '+' :: rest => rest
    | cs => cs
  (digits? body).filter (· ≤ max)

/-- A signed number from `-(max + 1)` to `max`; a sign may precede it. -/
def int? (max : Nat) (s : String) : Option Int :=
  match s.toList with
  | '-' :: rest => ((digits? rest).filter (· ≤ max + 1)).map fun n => -(n : Int)
  | '+' :: rest => ((digits? rest).filter (· ≤ max)).map Int.ofNat
  | cs => ((digits? cs).filter (· ≤ max)).map Int.ofNat

end PgClient.Decimal
