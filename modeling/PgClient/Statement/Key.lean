/-!
# Identity of a statement

Two requests for a statement mean the same one when their keys are equal. Four kinds of key never
equal each other, even for the same text: a parameterised statement, a plain one, one that asks
for columns of the rows it changes, and a call of a procedure.
-/

namespace PgClient

/-- The columns a statement asks back. -/
inductive Returning where
  | nothing
  /-- Whatever columns the server generates. -/
  | generated
  | columns (names : List String)
  deriving DecidableEq, Repr

/-- What identifies a statement. -/
inductive StatementKey where
  | parameterized (sql : String)
  | plain (sql : String) (isParameterized escapes : Bool)
  /-- `columns` is absent when all generated columns are asked for. -/
  | returning (sql : String) (isParameterized escapes : Bool) (columns : Option (List String))
  | call (sql : String)
  deriving DecidableEq, Repr, Inhabited

namespace StatementKey

/-- The key of a request. An empty list of columns asks for none. -/
def ofRequest (sql : String) (escapes isParameterized : Bool) : Returning → StatementKey
  | .generated => .returning sql isParameterized escapes none
  | .columns (name :: names) => .returning sql isParameterized escapes (some (name :: names))
  | .columns [] | .nothing =>
    if isParameterized then .parameterized sql else .plain sql false escapes

def sql : StatementKey → String
  | parameterized sql | plain sql _ _ | returning sql _ _ _ | call sql => sql

def isParameterized : StatementKey → Bool
  | parameterized _ | call _ => true
  | plain _ isParameterized _ | returning _ isParameterized _ _ => isParameterized

def isCall : StatementKey → Bool
  | call _ => true
  | _ => false

/-- An estimate of the memory a key holds: two octets to each octet of text, and the overhead of
each object. -/
def size : StatementKey → Nat
  | parameterized sql => sql.utf8ByteSize * 2
  | plain sql _ _ | call sql => 16 + sql.utf8ByteSize * 2
  | returning sql _ _ none => 16 + sql.utf8ByteSize * 2 + 16
  | returning sql _ _ (some columns) =>
    columns.foldl (fun size c => size + c.utf8ByteSize * 2) (16 + sql.utf8ByteSize * 2 + 16 + 16)

/-- The key for a reader. -/
def render : StatementKey → String
  | returning sql _ _ (some columns) => sql ++ " RETURNING " ++ ", ".intercalate columns
  | returning sql _ _ none => sql ++ " RETURNING *"
  | key => key.sql

end StatementKey

end PgClient
