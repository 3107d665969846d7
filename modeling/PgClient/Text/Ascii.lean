/-!
# ASCII case

Names and keywords of the protocol are compared without regard to the case of ASCII letters;
every other character stands only for itself.
-/

namespace PgClient.Ascii

/-- ASCII letters in upper case, every other character as it is. -/
def upper (s : String) : String :=
  String.ofList (s.toList.map Char.toUpper)

/-- ASCII letters in lower case, every other character as it is. -/
def lower (s : String) : String :=
  String.ofList (s.toList.map Char.toLower)

/-- Equality up to the case of ASCII letters. -/
def eqIgnoringCase (s t : String) : Bool :=
  s.toList.map Char.toLower == t.toList.map Char.toLower

end PgClient.Ascii
