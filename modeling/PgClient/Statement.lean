import PgClient.Error
import PgClient.Statement.Call
import PgClient.Statement.Key

/-!
# Statements

A statement as a client holds it: its text, how often it ran, and under which name the server
knows it. A server may drop all statements at once; each time it does, a new epoch of the
connection begins, and a name is good only in the epoch it was prepared in.
-/

namespace PgClient

/-- A statement together with what the server knows about it. -/
structure Statement where
  key : StatementKey
  /-- The text that goes to the server. -/
  native : String
  /-- The name the server has it prepared under. -/
  name : Option String := none
  /-- The epoch of the connection it was prepared in. -/
  epoch : Nat := 0
  /-- How often it ran. -/
  executions : Nat := 0
  /-- How many rows one run fetches; zero fetches all. -/
  fetchSize : Int := 0
  /-- Whether the last run stopped before the last row. -/
  isSuspended : Bool := false
  deriving DecidableEq, Repr, Inhabited

namespace Statement

def isFunction (s : Statement) : Bool :=
  s.key.isCall

/-- Whether a text is nothing but blanks. -/
def isEmptyText (sql : String) : Bool :=
  (trim sql.toList).isEmpty

/-- The statement of a key. A zero character would end the text early on its way to the server. -/
def ofKey (key : StatementKey) : Except Error Statement :=
  if key.sql.toList.contains '\x00' then throw (.statementCreation .zeroInSql)
  else match key with
    | .call sql => return { key, native := CallEscape.toQuery sql }
    | _ => return { key, native := key.sql }

def isPrepared (s : Statement) : Bool :=
  s.name.isSome

/-- Whether the server still has the statement, as far as its epoch tells. -/
def isPreparedIn (s : Statement) (epoch : Nat) : Bool :=
  s.isPrepared && s.epoch == epoch

/-- The server has the statement under this name. -/
def prepare (s : Statement) (name : String) (epoch : Nat) : Statement :=
  { s with name := some name, epoch }

/-- The server no longer has the statement, or is about to drop it. -/
def unprepare (s : Statement) : Statement :=
  { s with name := none }

/-- One more run, counted up to the greatest 64-bit number. -/
def countExecution (s : Statement) : Statement :=
  { s with executions := min (s.executions + 1) (UInt64.size - 1) }

/-- An estimate of the memory a statement holds: its key twice and some overhead. -/
def size (s : Statement) : Nat :=
  s.key.size * 2 + 100

end Statement

end PgClient
