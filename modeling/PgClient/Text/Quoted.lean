import PgClient.Text.Printable

/-!
# Quoted text

A text between double quotes, for a reader who wants to see every character of it.
-/

namespace PgClient.Quoted

/-- A character between double quotes; one that cannot be seen is written by its code point. -/
def escape (c : Char) : List Char :=
  match c with
  | '\x00' => ['\\', '0']
  | '\t' => ['\\', 't']
  | '\r' => ['\\', 'r']
  | '\n' => ['\\', 'n']
  | '"' => ['\\', '"']
  | '\\' => ['\\', '\\']
  | c =>
    if isPrintable c then [c]
    else ['\\', 'u', '\x7b'] ++ Nat.toDigits 16 c.toNat ++ ['\x7d']

/-- A text between double quotes. -/
def encode (s : String) : String :=
  "\"" ++ String.ofList (s.toList.flatMap escape) ++ "\""

end PgClient.Quoted
