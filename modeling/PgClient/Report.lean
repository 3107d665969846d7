import PgClient.Text.Decimal
import PgClient.Text.Split

/-!
# Reports of the server

An ErrorResponse and a NoticeResponse carry the same body: fields of one letter and a value, each
closed by a zero character, and one more zero character after the last. `Report.ofText` reads such
a body. It accepts every text: unknown letters are skipped, and of a repeated letter the last
value counts.

A report is shown by `render`. Its detail, its hint and the query it came from may hold data of
the user's rows; they appear only when the caller asks for them.
-/

namespace PgClient

/-- What a server says about an error or a warning. -/
structure Report where
  /-- The severity in the server's language. -/
  localizedSeverity : String := ""
  /-- The severity as one of a fixed set of words. -/
  severity : String := ""
  /-- The SQLSTATE code. -/
  code : String := ""
  message : String := ""
  detail : Option String := none
  hint : Option String := none
  /-- Where in the query the error lies, counted in characters from one. -/
  position : Option Nat := none
  internalPosition : Option Nat := none
  /-- The query the server itself ran. -/
  internalQuery : Option String := none
  /-- The call stack of the error. -/
  context : Option String := none
  schema : Option String := none
  table : Option String := none
  column : Option String := none
  dataType : Option String := none
  constraint : Option String := none
  /-- The file, the line and the routine of the server's own code. -/
  file : Option String := none
  line : Option Nat := none
  routine : Option String := none
  deriving DecidableEq, Repr, Inhabited

namespace Report

/-- A count in a report; zero stands for a value that is no count. -/
def count (value : String) : Nat :=
  (Decimal.nat? Decimal.uint32Max value).getD 0

/-- The report with the field of this letter replaced. -/
def set (r : Report) (letter : Char) (value : String) : Report :=
  match letter with
  | 'S' => { r with localizedSeverity := value }
  | 'V' => { r with severity := value }
  | 'C' => { r with code := value }
  | 'M' => { r with message := value }
  | 'D' => { r with detail := some value }
  | 'H' => { r with hint := some value }
  | 'P' => { r with position := some (count value) }
  | 'p' => { r with internalPosition := some (count value) }
  | 'q' => { r with internalQuery := some value }
  | 'W' => { r with context := some value }
  | 's' => { r with schema := some value }
  | 't' => { r with table := some value }
  | 'c' => { r with column := some value }
  | 'd' => { r with dataType := some value }
  | 'n' => { r with constraint := some value }
  | 'F' => { r with file := some value }
  | 'L' => { r with line := some (count value) }
  | 'R' => { r with routine := some value }
  | _ => r

/-- The report with one field of the body taken in; an empty field is the closing one. -/
def add (r : Report) : List Char → Report
  | [] => r
  | letter :: value => r.set letter (String.ofList value)

/-- Servers that do not send the fixed word send only the severity in their language. -/
def withSeverity (r : Report) : Report :=
  if r.severity.isEmpty then { r with severity := r.localizedSeverity } else r

/-- Reads the body of a report. -/
def ofText (body : String) : Report :=
  ((splitAt '\x00' body.toList).foldl add {}).withSeverity

/-- A line of the rendering, present when its value is. -/
def renderField (label : String) (value : Option String) : String :=
  match value with
  | some v => "\n  " ++ label ++ ": " ++ v
  | none => ""

/-- Where in the server's own code the report was made. -/
def renderLocation (r : Report) : String :=
  match r.file with
  | none => ""
  | some file =>
    "\n  Location: File: " ++ file
      ++ (r.routine.elim "" (", Routine: " ++ ·))
      ++ (r.line.elim "" (", Line: " ++ toString ·))

/-- The severity a reader is shown. -/
def shownSeverity (r : Report) : String :=
  if r.localizedSeverity.isEmpty then r.severity else r.localizedSeverity

/-- The report for a reader. What may hold data of the user's rows appears only if `showDetail`. -/
def render (r : Report) (showDetail : Bool) : String :=
  let ifShown (s : String) : String := if showDetail then s else ""
  r.shownSeverity ++ ": " ++ r.message
    ++ ifShown (renderField "Detail" r.detail ++ renderField "Hint" r.hint)
    ++ renderField "Position" (r.position.map toString)
    ++ renderField "Where" r.context
    ++ ifShown (renderField "Internal Query" r.internalQuery
        ++ renderField "Internal Position" (r.internalPosition.map toString))
    ++ r.renderLocation
    ++ (if r.code.isEmpty then "" else "\n  Server SQLState: " ++ r.code)

end Report

end PgClient
