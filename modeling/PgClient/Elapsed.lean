/-!
# Elapsed time

A span of time for a reader: days, then hours, minutes and seconds of two places and milliseconds
of three. Every part of a negative span is negative.
-/

namespace PgClient.Elapsed

/-- A number at least `width` characters wide, with zeros in front. -/
def padded (width : Nat) (i : Int) : String :=
  let text := toString i
  String.ofList (List.replicate (width - text.length) '0') ++ text

/-- A span of milliseconds. -/
def render (millis : Int) : String :=
  let seconds := millis.tdiv 1000
  let days := seconds.tdiv 86400
  let hours := padded 2 ((seconds.tdiv 3600).tmod 24)
  let minutes := padded 2 ((seconds.tdiv 60).tmod 60)
  s!"{days}d {hours}:{minutes}:" ++ padded 2 (seconds.tmod 60) ++ "." ++ padded 3 (millis.tmod 1000)

/-- The greatest number of milliseconds a span may have in either direction. -/
def maxMillis : Int :=
  Int64.maxValue.toInt

/-- A span of milliseconds, unless it is out of range. -/
def render? (millis : Int) : Option String :=
  if -maxMillis ≤ millis ∧ millis ≤ maxMillis then some (render millis) else none

end PgClient.Elapsed
