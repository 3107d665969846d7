import PgClient.Toml.Number

/-!
# Reading TOML

A document is a run of lines, each with a key and its value, a header, or nothing. Reading it gives
the table of everything in it, or nothing where a line is not in order.
-/

namespace PgClient.Toml

/-- Takes from the front of a document. -/
abbrev Reader :=
  StateT (List Char) Option

namespace Reader

/-- The next character, which is left where it is. -/
def peek? : Reader (Option Char) := do
  return (← get).head?

/-- Takes one character, which must be this one. -/
def char (c : Char) : Reader Unit := fun
  | d :: rest => if c = d then some ((), rest) else none
  | [] => none

/-- Takes blanks within a line. -/
def blanks : Reader Unit :=
  modify fun cs => cs.dropWhile fun c => c = ' ' || c = '\t'

/-- Takes a comment, if one begins here. -/
def comment : Reader Unit :=
  modify fun
    | '#' :: rest => rest.dropWhile isTextChar
    | cs => cs

/-- Takes the end of a line, with blanks and a comment before it. -/
def lineEnd : Reader Unit := do
  blanks
  comment
  fun
    | [] => some ((), [])
    | '\n' :: rest | '\r' :: '\n' :: rest => some ((), rest)
    | _ => none

/-- Takes blanks, comments and line breaks, at most so many lines. -/
def gap : Nat → Reader Unit
  | 0 => pure ()
  | lines + 1 => do
    blanks
    match ← get with
    | '#' :: _ | '\n' :: _ | '\r' :: '\n' :: _ =>
      lineEnd
      gap lines
    | _ => pure ()

/-- Characters of keys without quotes. -/
def isBare (c : Char) : Bool :=
  c.isAlphanum || c = '-' || c = '_'

/-- Takes one part of a key. -/
def keyPart : Reader String := fun cs =>
  match cs with
  | '"' :: rest => (basicText rest).map fun (text, rest) => (String.ofList text, rest)
  | '\'' :: rest => (literalText rest).map fun (text, rest) => (String.ofList text, rest)
  | _ =>
    let bare := cs.takeWhile isBare
    if bare.isEmpty then none else some (String.ofList bare, cs.dropWhile isBare)

/-- Takes the parts of a key that follow the first one, at most so many. -/
def keyRest : Nat → Reader (List String)
  | 0 => pure []
  | parts + 1 => do
    blanks
    if (← peek?) = some '.' then
      char '.'
      blanks
      let part ← keyPart
      return part :: (← keyRest parts)
    else return []

/-- Takes a key: the parts on the way, and the last one. -/
def key : Reader (List String × String) := do
  let first ← keyPart
  let parts := first :: (← keyRest (← get).length)
  return (parts.dropLast, parts.getLastD first)

mutual

/-- Takes a value, with at most `depth` brackets and braces around each other. -/
def value (depth : Nat) : Nat → Reader Toml
  | 0 => failure
  | fuel + 1 => do
    match ← get, depth with
    | '[' :: rest, depth + 1 =>
      set rest
      return .array (← elements depth fuel)
    | '{' :: rest, depth + 1 =>
      set rest
      blanks
      if (← peek?) = some '}' then
        char '}'
        return .table .inline []
      return .table .inline (← pairs depth fuel ⟨.inline, []⟩).entries
    | '"' :: _, _ | '\'' :: _, _ =>
      let (text, rest) ← (text? (← get) : Option _)
      set rest
      return .string (String.ofList text)
    | cs, _ =>
      let (word, rest) := token cs
      set rest
      (ofToken? word : Option _)

/-- Takes the elements of an array and the bracket that closes it. -/
def elements (depth : Nat) : Nat → Reader (List Toml)
  | 0 => failure
  | fuel + 1 => do
    gap (← get).length
    if (← peek?) = some ']' then
      char ']'
      return []
    let first ← value depth fuel
    gap (← get).length
    if (← peek?) = some ',' then
      char ','
      return first :: (← elements depth fuel)
    char ']'
    return [first]

/-- Takes the entries of a table in braces and the brace that closes it. -/
def pairs (depth : Nat) : Nat → Site → Reader Site
  | 0, _ => failure
  | fuel + 1, site => do
    let (path, last) ← key
    blanks
    char '='
    blanks
    let v ← value depth fuel
    let site ← (addAt path last v site : Option _)
    blanks
    if (← peek?) = some ',' then
      char ','
      blanks
      pairs depth fuel site
    else
      char '}'
      return site

end

/-- How many brackets and braces may stand around each other. -/
def maxDepth : Nat :=
  80

/-- A value, read with as many steps as the rest of the document can take. -/
def anyValue : Reader Toml := do
  value maxDepth (2 * (← get).length + 2)

/-- Takes a header: its path, and whether it may be repeated. -/
def header : Reader ((List String × String) × Bool) := do
  char '['
  let repeats := (← peek?) = some '['
  if repeats then char '['
  blanks
  let path ← key
  blanks
  char ']'
  if repeats then char ']'
  return (path, repeats)

/-- Takes one line. `current` is the path of the table the line stands in. -/
def line (current : List String) (root : Site) : Reader (List String × Site) := do
  blanks
  match ← peek? with
  | some '[' =>
    let ((path, last), repeats) ← header
    lineEnd
    let root ← ((if repeats then openElement else openTable) path last root : Option _)
    return (path ++ [last], root)
  | some c =>
    if c = '#' || c = '\n' || c = '\r' then
      lineEnd
      return (current, root)
    let (path, last) ← key
    blanks
    char '='
    blanks
    let v ← anyValue
    lineEnd
    return (current, ← (changeAt false (addAt path last v) current root : Option _))
  | none => return (current, root)

/-- Takes the lines of a document, at most so many. -/
def lines : Nat → List String → Site → Reader Site
  | 0, _, root => return root
  | count + 1, current, root => do
    if (← get).isEmpty then return root
    let (current, root) ← line current root
    lines count current root

end Reader

/-- The entries of a document. A mark of the byte order may precede it. -/
def ofDocument? (text : String) : Option Entries :=
  let cs := match text.toList with
    | '\uFEFF' :: rest => rest
    | cs => cs
  ((Reader.lines (cs.length + 1) [] ⟨.header, []⟩).run' cs).map Site.entries

end PgClient.Toml
