/-!
# TOML documents

The values of a settings file. A table remembers how it came to be, because that decides what may
still be added to it: one that was only passed through may be opened by a header later, one made
by dotted keys grows by dotted keys alone, and one written in braces is complete.
-/

namespace PgClient

/-- How a table came to be. -/
inductive Toml.Origin where
  /-- On the way to another table. -/
  | implicit
  /-- By a dotted key. -/
  | dotted
  /-- By a header of its own. -/
  | header
  /-- In braces. -/
  | inline
  deriving DecidableEq, Repr

/-- A value of a settings file. Of floats and dates only the kind is kept: no setting is one. -/
inductive Toml where
  | string (s : String)
  | integer (i : Int)
  | boolean (b : Bool)
  | float
  | dateTime
  | array (elements : List Toml)
  | table (origin : Toml.Origin) (entries : List (String × Toml))
  /-- Tables under one header that may be repeated. -/
  | tables (elements : List (List (String × Toml)))

namespace Toml

/-- The entries of a table, in the order of the document. -/
abbrev Entries :=
  List (String × Toml)

/-- A table under construction. -/
structure Site where
  origin : Origin
  entries : Entries

namespace Entries

def get? (key : String) (es : Entries) : Option Toml :=
  (es.find? (·.1 == key)).map Prod.snd

/-- The entries with the value of a key replaced, or added at the end. -/
def set (key : String) (value : Toml) : Entries → Entries
  | [] => [(key, value)]
  | (k, v) :: rest => if k = key then (k, value) :: rest else (k, v) :: set key value rest

end Entries

/-- Changes the table at a path, and makes the tables on the way that are missing. A dotted path
leads only through tables that no header opened. -/
def changeAt (isDotted : Bool) (change : Site → Option Site) : List String → Site → Option Site
  | [], site => change site
  | key :: path, site => do
    let back (child : Toml) : Site := { site with entries := site.entries.set key child }
    match site.entries.get? key with
    | none =>
      let child ← changeAt isDotted change path ⟨if isDotted then .dotted else .implicit, []⟩
      return back (.table child.origin child.entries)
    | some (.table origin entries) =>
      if origin = .inline || (isDotted && origin = .header) then none
      else
        let child ← changeAt isDotted change path ⟨origin, entries⟩
        return back (.table child.origin child.entries)
    | some (.tables elements) =>
      let last ← elements.getLast?
      let child ← changeAt isDotted change path ⟨.header, last⟩
      return back (.tables (elements.dropLast ++ [child.entries]))
    | some _ => none

/-- Adds a value at a dotted path. The table it goes to grows by dotted keys exactly if it is not
the table the line stands in. -/
def addAt (path : List String) (key : String) (value : Toml) : Site → Option Site :=
  changeAt true (fun site =>
    if (site.origin == .dotted) == path.isEmpty || (site.entries.get? key).isSome then none
    else some { site with entries := site.entries ++ [(key, value)] }) path

/-- Opens the table of a header. -/
def openTable (path : List String) (key : String) : Site → Option Site :=
  changeAt false (fun site =>
    match site.entries.get? key with
    | none => some { site with entries := site.entries ++ [(key, .table .header [])] }
    | some (.table .implicit entries) =>
      some { site with entries := site.entries.set key (.table .header entries) }
    | some _ => none) path

/-- Opens another table of a header that may be repeated. -/
def openElement (path : List String) (key : String) : Site → Option Site :=
  changeAt false (fun site =>
    match site.entries.get? key with
    | none => some { site with entries := site.entries ++ [(key, .tables [[]])] }
    | some (.tables elements) =>
      some { site with entries := site.entries.set key (.tables (elements ++ [[]])) }
    | some _ => none) path

end Toml

end PgClient
