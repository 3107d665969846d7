import PgClient.Text.Utf8

/-!
# Parameters of the server

The settings a server reports, by name. Names are compared without regard to the case of ASCII
letters and kept as they were first received. The map is a list ordered by name, without two
equal names.
-/

namespace PgClient

/-- The octets a parameter name is compared by. -/
def parameterKey (name : String) : Bytes :=
  (Utf8.encode name).map fun b => if 0x41 ≤ b ∧ b ≤ 0x5A then b + 0x20 else b

/-- The order of parameter names. -/
def compareParameters (m n : String) : Ordering :=
  compare (parameterKey m) (parameterKey n)

/-- The reported settings, ordered by name. -/
abbrev Parameters := List (String × String)

namespace Parameters

/-- Sets a value. A name that is already there keeps its spelling and its place. -/
def insert (name value : String) : Parameters → Parameters
  | [] => [(name, value)]
  | (n, v) :: rest =>
    match compareParameters name n with
    | .lt => (name, value) :: (n, v) :: rest
    | .eq => (n, value) :: rest
    | .gt => (n, v) :: insert name value rest

/-- The value of a name. -/
def get? (name : String) (ps : Parameters) : Option String :=
  (ps.find? fun p => compareParameters name p.1 == .eq).map Prod.snd

end Parameters

end PgClient
