/-!
# Where a server lives

A server listens on a TCP port or on a socket in a directory of the local machine. The second is
meant whenever the host begins with a slash.
-/

namespace PgClient

/-- A host name or a directory of sockets, and a port. -/
structure Host where
  name : String := "localhost"
  port : Nat := 5432
  deriving DecidableEq, Repr, Inhabited

namespace Host

/-- Whether the server is reached through a socket of the local machine. -/
def isLocal (h : Host) : Bool :=
  h.name.toList.head? == some '/'

/-- The file of the local socket. -/
def socketPath (h : Host) : String :=
  h.name ++ "/.s.PGSQL." ++ toString h.port

/-- The address as shown to a reader. -/
def render (h : Host) : String :=
  if h.isLocal then h.socketPath else h.name ++ ":" ++ toString h.port

end Host

end PgClient
