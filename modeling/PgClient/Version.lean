import PgClient.Text.Blank
import PgClient.Text.Decimal
import PgClient.Text.Split

/-!
# Version numbers

A server names its version in words ("15.2 (Debian 15.2-1)") and, if it is new enough, also as a
number that orders versions. Where the number is missing it is computed from the words. Since
version 10 the second component is the minor one; before, it belonged to the major version.
-/

namespace PgClient.Version

/-- The number a component begins with, if it begins with one of at most 32 bits. -/
def component? (part : List Char) : Option Nat :=
  (Decimal.digits? (part.takeWhile Char.isDigit)).filter (· ≤ Decimal.int32Max)

/-- The components of the first word. -/
def components (text : String) : List (Option Nat) :=
  let word := (trimLeft text.toList).takeWhile (!isBlank ·)
  (splitAt '.' word).map component?

/-- The component at an index, zero if it is missing or no number. -/
def componentAt (text : String) (i : Nat) : Nat :=
  ((components text)[i]?.join).getD 0

/-- The version as one number; zero if the text begins with none. -/
def number (text : String) : Nat :=
  match (components text).head?.join with
  | none => 0
  | some major =>
    if 10 ≤ major then major * 10000 + componentAt text 1
    else major * 10000 + componentAt text 1 * 100 + componentAt text 2

/-- The version as a word of 32 bits, if it fits one. -/
def number? (text : String) : Option Nat :=
  if number text ≤ Decimal.int32Max then some (number text) else none

end PgClient.Version
