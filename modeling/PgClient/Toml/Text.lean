/-!
# Strings of TOML

A string stands between quotes. Between double quotes a backslash begins an escape; between single
quotes every character stands for itself. Three quotes open a string that may go on over several
lines; a line break right behind them does not count, and up to two quotes may stand before the
three that close it. Each reader takes what stands behind the opening quotes and gives the text
and what is left behind the closing ones.
-/

namespace PgClient.Toml

/-- Characters that stand for themselves in a string, quotes and backslashes apart. -/
def isTextChar (c : Char) : Bool :=
  c = '\t' || (0x20 ≤ c.toNat && c.toNat ≠ 0x7F)

def hexValue? (c : Char) : Option Nat :=
  if c.isDigit then some (c.toNat - '0'.toNat)
  else if 'a' ≤ c ∧ c ≤ 'f' then some (c.toNat - 'a'.toNat + 10)
  else if 'A' ≤ c ∧ c ≤ 'F' then some (c.toNat - 'A'.toNat + 10)
  else none

/-- The character whose number these digits are. -/
def scalar? (digits : List Char) : Option Char := do
  let n ← digits.foldlM (fun n c => (hexValue? c).map (n * 16 + ·)) 0
  if n < 0xD800 || (0xE000 ≤ n && n ≤ 0x10FFFF) then some (Char.ofNat n) else none

/-- The character of an escape of one letter. -/
def escape? : Char → Option Char
  | 'b' => some '\x08'
  | 't' => some '\t'
  | 'n' => some '\n'
  | 'f' => some '\x0c'
  | 'r' => some '\r'
  | '"' => some '"'
  | '\\' => some '\\'
  | _ => none

/-- A text and what is left of the document. -/
abbrev TextAndRest :=
  Option (List Char × List Char)

/-- A character in front of a text. -/
def consText (c : Char) (t : TextAndRest) : TextAndRest :=
  t.map fun (text, rest) => (c :: text, rest)

/-- A string between double quotes. -/
def basicText : List Char → TextAndRest
  | '"' :: rest => some ([], rest)
  | '\\' :: 'u' :: a :: b :: c :: d :: rest =>
    (scalar? [a, b, c, d]).bind fun x => consText x (basicText rest)
  | '\\' :: 'U' :: a :: b :: c :: d :: e :: f :: g :: h :: rest =>
    (scalar? [a, b, c, d, e, f, g, h]).bind fun x => consText x (basicText rest)
  | '\\' :: c :: rest => (escape? c).bind fun x => consText x (basicText rest)
  | c :: rest => if c ≠ '\\' && isTextChar c then consText c (basicText rest) else none
  | [] => none

/-- A string between single quotes. -/
def literalText : List Char → TextAndRest
  | '\'' :: rest => some ([], rest)
  | c :: rest => if isTextChar c then consText c (literalText rest) else none
  | [] => none

/-- Where a text of several lines stands after a backslash: the blanks and the line breaks behind
it do not count, and there is at least one line break. -/
inductive Skipping where
  | no
  | beforeBreak
  | afterBreak
  deriving DecidableEq

/-- A string of several lines between double quotes. -/
def basicLines : Skipping → List Char → TextAndRest
  | .beforeBreak, ' ' :: rest | .beforeBreak, '\t' :: rest => basicLines .beforeBreak rest
  | .beforeBreak, '\n' :: rest | .beforeBreak, '\r' :: '\n' :: rest => basicLines .afterBreak rest
  | .beforeBreak, _ => none
  | .afterBreak, ' ' :: rest | .afterBreak, '\t' :: rest | .afterBreak, '\n' :: rest
  | .afterBreak, '\r' :: '\n' :: rest => basicLines .afterBreak rest
  | _, '"' :: '"' :: '"' :: '"' :: '"' :: rest => some (['"', '"'], rest)
  | _, '"' :: '"' :: '"' :: '"' :: rest => some (['"'], rest)
  | _, '"' :: '"' :: '"' :: rest => some ([], rest)
  | _, '\\' :: 'u' :: a :: b :: c :: d :: rest =>
    (scalar? [a, b, c, d]).bind fun x => consText x (basicLines .no rest)
  | _, '\\' :: 'U' :: a :: b :: c :: d :: e :: f :: g :: h :: rest =>
    (scalar? [a, b, c, d, e, f, g, h]).bind fun x => consText x (basicLines .no rest)
  | _, '\\' :: c :: rest =>
    match escape? c with
    | some x => consText x (basicLines .no rest)
    | none =>
      if c = '\n' then basicLines .afterBreak rest
      else if c = ' ' || c = '\t' then basicLines .beforeBreak rest
      else match c, rest with
        | '\r', '\n' :: rest => basicLines .afterBreak rest
        | _, _ => none
  | _, '\r' :: '\n' :: rest => consText '\n' (basicLines .no rest)
  | _, c :: rest =>
    if c = '\n' || (c ≠ '\\' && isTextChar c) then consText c (basicLines .no rest) else none
  | _, [] => none

/-- A string of several lines between single quotes. -/
def literalLines : List Char → TextAndRest
  | '\'' :: '\'' :: '\'' :: '\'' :: '\'' :: rest => some (['\'', '\''], rest)
  | '\'' :: '\'' :: '\'' :: '\'' :: rest => some (['\''], rest)
  | '\'' :: '\'' :: '\'' :: rest => some ([], rest)
  | '\r' :: '\n' :: rest => consText '\n' (literalLines rest)
  | c :: rest => if c = '\n' || isTextChar c then consText c (literalLines rest) else none
  | [] => none

/-- A line break right behind the opening quotes does not count. -/
def afterOpening : List Char → List Char
  | '\n' :: rest | '\r' :: '\n' :: rest => rest
  | cs => cs

/-- A string that is no key: any of the four kinds. -/
def text? : List Char → TextAndRest
  | '"' :: '"' :: '"' :: rest => basicLines .no (afterOpening rest)
  | '"' :: rest => basicText rest
  | '\'' :: '\'' :: '\'' :: rest => literalLines (afterOpening rest)
  | '\'' :: rest => literalText rest
  | _ => none

end PgClient.Toml
