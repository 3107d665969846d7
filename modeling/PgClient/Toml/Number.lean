import PgClient.Toml.Basic
import PgClient.Toml.Text

/-!
# Numbers, dates and words of TOML

What stands without quotes is a run of letters, digits and a few marks, read as a whole. Underscores
may stand between two digits. An integer has 64 bits.
-/

namespace PgClient.Toml

/-- Characters of values without quotes. -/
def isTokenChar (c : Char) : Bool :=
  c.isAlphanum || ['+', '-', '.', '_', ':'].contains c

/-- Digits of a kind, with single underscores between them, and nothing else. -/
def digits? (isDigit : Char → Bool) (cs : List Char) : Option (List Char) :=
  let rec go (afterDigit : Bool) : List Char → Option (List Char)
    | [] => if afterDigit then some [] else none
    | c :: rest =>
      if isDigit c then (go true rest).map (c :: ·)
      else if c = '_' && afterDigit then go false rest
      else none
  go false cs

/-- The number of digits in a base. -/
def ofDigits (base : Nat) (digits : List Char) : Nat :=
  digits.foldl (fun n c => n * base + (hexValue? c).getD 0) 0

/-- Decimal digits without a zero in front of others. -/
def decimal? (cs : List Char) : Option Nat := do
  let digits ← digits? Char.isDigit cs
  if digits.length > 1 && digits.head? = some '0' then none else some (ofDigits 10 digits)

/-- The text behind a sign, and whether the sign is a minus. -/
def sign : List Char → Bool × List Char
  | '-' :: rest => (true, rest)
  | '+' :: rest => (false, rest)
  | cs => (false, cs)

/-- An integer that fits 64 bits. -/
def integer? (cs : List Char) : Option Int := do
  let i : Int ← match cs with
    | '0' :: 'x' :: rest =>
      (digits? (fun c => (hexValue? c).isSome) rest).map fun ds => Int.ofNat (ofDigits 16 ds)
    | '0' :: 'o' :: rest =>
      (digits? (fun c => '0' ≤ c && c ≤ '7') rest).map fun ds => Int.ofNat (ofDigits 8 ds)
    | '0' :: 'b' :: rest =>
      (digits? (fun c => c = '0' || c = '1') rest).map fun ds => Int.ofNat (ofDigits 2 ds)
    | cs =>
      let (isNegative, rest) := sign cs
      (decimal? rest).map fun (n : Nat) => if isNegative then -(n : Int) else (n : Int)
  if Int64.minValue.toInt ≤ i ∧ i ≤ Int64.maxValue.toInt then some i else none

/-- Whether a text is a float: an integer with a fraction, an exponent or both, or a word. -/
def isFloat (cs : List Char) : Bool :=
  let (_, body) := sign cs
  let mantissa := body.takeWhile fun c => c ≠ 'e' && c ≠ 'E'
  let whole := mantissa.takeWhile (· ≠ '.')
  let fractionIsGood := match mantissa.dropWhile (· ≠ '.') with
    | _ :: fraction => (digits? Char.isDigit fraction).isSome
    | [] => true
  let exponentIsGood := match body.drop mantissa.length with
    | _ :: exponent => (digits? Char.isDigit (sign exponent).2).isSome
    | [] => true
  body = "inf".toList || body = "nan".toList
    || ((decimal? whole).isSome && fractionIsGood && exponentIsGood && whole.length < body.length)

/-- A number of exactly so many digits, in a range. -/
def field? (width low high : Nat) (cs : List Char) : Option Nat := do
  let n := ofDigits 10 (cs.take width)
  let isNumber := (cs.take width).length = width && (cs.take width).all Char.isDigit
  if isNumber && low ≤ n && n ≤ high then some n
  else none

/-- The number of days of a month. -/
def daysIn (year month : Nat) : Nat :=
  if month = 2 then
    if (year % 4 = 0 && year % 100 ≠ 0) || year % 400 = 0 then 29 else 28
  else if [4, 6, 9, 11].contains month then 30 else 31

/-- What is left behind a date. -/
def afterDate? (cs : List Char) : Option (List Char) := do
  let year ← field? 4 0 9999 cs
  let '-' :: cs := cs.drop 4 | none
  let month ← field? 2 1 12 cs
  let '-' :: cs := cs.drop 2 | none
  discard (field? 2 1 (daysIn year month) cs)
  return cs.drop 2

/-- What is left behind a time of day. -/
def afterTime? (cs : List Char) : Option (List Char) := do
  discard (field? 2 0 23 cs)
  let ':' :: cs := cs.drop 2 | none
  discard (field? 2 0 59 cs)
  let ':' :: cs := cs.drop 2 | none
  discard (field? 2 0 60 cs)
  match cs.drop 2 with
  | '.' :: c :: rest => if c.isDigit then some (rest.dropWhile Char.isDigit) else none
  | rest => some rest

/-- Whether a text is a distance from universal time, or none. -/
def isOffset : List Char → Bool
  | [] | ['Z'] | ['z'] => true
  | sign :: rest =>
    (sign = '+' || sign = '-') && (field? 2 0 23 rest).isSome
      && match rest.drop 2 with
        | ':' :: minutes => (field? 2 0 59 minutes).isSome && minutes.length = 2
        | _ => false

/-- Whether a text is a date, a time of day, or both. -/
def isDateTime (cs : List Char) : Bool :=
  match afterDate? cs with
  | some [] => true
  | some (mark :: rest) =>
    (mark = 'T' || mark = 't' || mark = ' ') && (afterTime? rest).any isOffset
  | none => afterTime? cs = some []

/-- A value without quotes. -/
def ofToken? (cs : List Char) : Option Toml :=
  if cs = "true".toList then some (.boolean true)
  else if cs = "false".toList then some (.boolean false)
  else if isDateTime cs then some .dateTime
  else if isFloat cs then some .float
  else (integer? cs).map .integer

/-- The run of characters that a value without quotes is read from. A time of day may stand behind
a date and one blank. -/
def token (cs : List Char) : List Char × List Char :=
  let word := cs.takeWhile isTokenChar
  let rest := cs.dropWhile isTokenChar
  match afterDate? word, rest with
  | some [], ' ' :: c :: more =>
    if c.isDigit then
      (word ++ ' ' :: (c :: more).takeWhile isTokenChar, (c :: more).dropWhile isTokenChar)
    else (word, rest)
  | _, _ => (word, rest)

end PgClient.Toml
