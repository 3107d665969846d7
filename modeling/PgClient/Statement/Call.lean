import PgClient.Text.Blank

/-!
# Call escapes

A procedure call may be written in braces, with or without a place for its result: `{call f(1)}`
or `{? = call f(1)}`. The server knows neither form; both become a query of the function.
-/

namespace PgClient.CallEscape

/-- What stands between braces, without the blanks around it. -/
def inner? : List Char → Option (List Char)
  | '{' :: rest => if rest.getLast? = some '}' then some (trim rest.dropLast) else none
  | _ => none

/-- Without the place for a result. -/
def withoutResult : List Char → List Char
  | '?' :: rest => trimLeft ((trimLeft rest).dropWhile (· = '='))
  | cs => cs

/-- What follows the word `call`, in any case of letters. -/
def afterCall? (cs : List Char) : Option (List Char) :=
  if (cs.take 4).map Char.toLower = "call".toList then some (cs.drop 4) else none

/-- The query for a call in braces; every other text is only trimmed. -/
def toQuery (sql : String) : String :=
  let trimmed := trim sql.toList
  match (inner? trimmed).bind fun inner => afterCall? (withoutResult inner) with
  | some rest => "select * from " ++ String.ofList (trim rest)
  | none => String.ofList trimmed

end PgClient.CallEscape
