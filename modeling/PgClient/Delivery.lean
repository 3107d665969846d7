import PgClient.Message.Backend

/-!
# Deliveries

What the reply to a request hands to the caller, piece by piece, and the collection of all of it.
-/

namespace PgClient

/-- Something a reply delivers. -/
inductive Delivery where
  | columns (columns : List Column)
  | row (row : Row)
  /-- A command is complete, in the words of the server. -/
  | status (tag : String)
  /-- There are more rows than were asked for. -/
  | suspended
  | error (error : Error)
  /-- The reply is over. -/
  | completed
  deriving DecidableEq, Repr

/-- Everything a reply delivered. Of several descriptions of columns the last one counts. -/
structure Rows where
  columns : List Column := []
  rows : List Row := []
  statuses : List String := []
  errors : List Error := []
  isSuspended : Bool := false
  isCompleted : Bool := false
  deriving DecidableEq, Repr

namespace Rows

/-- The collection with one more delivery. -/
def add (r : Rows) : Delivery → Rows
  | .columns columns => { r with columns }
  | .row row => { r with rows := r.rows ++ [row] }
  | .status tag => { r with statuses := r.statuses ++ [tag] }
  | .suspended => { r with isSuspended := true }
  | .error error => { r with errors := r.errors ++ [error] }
  | .completed => { r with isCompleted := true }

/-- Collects deliveries. -/
def ofDeliveries (deliveries : List Delivery) : Rows :=
  deliveries.foldl add {}

end Rows

end PgClient
