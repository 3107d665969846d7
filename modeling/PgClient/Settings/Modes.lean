import PgClient.Error
import PgClient.Text.Ascii

/-!
# Modes

Choices between a few named values. Each has one name that it is shown by (`render`) and a reader
for the names it may be given by (`ofText`), which is lenient on case where the shown name is all
lower case. A settings file is stricter on case, and knows the names in `fileNames`.
-/

namespace PgClient

/-- Whether a failed statement within a transaction is undone so that the transaction can go on. -/
inductive Autosave where
  | never
  | always
  | conservative
  deriving DecidableEq, Repr, Inhabited

namespace Autosave

def render : Autosave → String
  | never => "never"
  | always => "always"
  | conservative => "conservative"

def ofText (text : String) : Except Error Autosave :=
  match Ascii.lower text with
  | "never" => return never
  | "always" => return always
  | "conservative" => return conservative
  | _ => throw (.configuration (.unknownValue "autosave" text))

def fileNames : List (String × Autosave) :=
  [("Never", never), ("never", never), ("Always", always), ("always", always),
    ("Conservative", conservative), ("conservative", conservative)]

end Autosave

/-- What a call in braces becomes. -/
inductive CallMode where
  | select
  | callIfNoReturn
  | call
  deriving DecidableEq, Repr, Inhabited

namespace CallMode

def render : CallMode → String
  | select => "select"
  | callIfNoReturn => "callIfNoReturn"
  | call => "call"

def ofText (text : String) : Except Error CallMode :=
  match text with
  | "select" => return select
  | "callIfNoReturn" | "call_if_no_return" => return callIfNoReturn
  | "call" => return call
  | _ => throw (.configuration (.unknownValue "escapeSyntaxCallMode" text))

def fileNames : List (String × CallMode) :=
  [("Select", select), ("select", select), ("CallIfNoReturn", callIfNoReturn),
    ("callIfNoReturn", callIfNoReturn), ("call_if_no_return", callIfNoReturn), ("Call", call),
    ("call", call)]

end CallMode

/-- When statements are prepared under a name. -/
inductive QueryMode where
  /-- Never. -/
  | simple
  /-- After as many runs as the threshold says. -/
  | extended
  | extendedForPrepared
  /-- At the first run. -/
  | extendedCacheEverything
  deriving DecidableEq, Repr

instance : Inhabited QueryMode := ⟨.extended⟩

namespace QueryMode

def render : QueryMode → String
  | simple => "simple"
  | extended => "extended"
  | extendedForPrepared => "extendedForPrepared"
  | extendedCacheEverything => "extendedCacheEverything"

def ofText (text : String) : Except Error QueryMode :=
  match text with
  | "simple" => return simple
  | "extended" => return extended
  | "extendedForPrepared" | "extended_for_prepared" => return extendedForPrepared
  | "extendedCacheEverything" | "extended_cache_everything" => return extendedCacheEverything
  | _ => throw (.configuration (.unknownValue "preferQueryMode" text))

def fileNames : List (String × QueryMode) :=
  [("Simple", simple), ("simple", simple), ("Extended", extended), ("extended", extended),
    ("ExtendedForPrepared", extendedForPrepared), ("extendedForPrepared", extendedForPrepared),
    ("extended_for_prepared", extendedForPrepared),
    ("ExtendedCacheEverything", extendedCacheEverything),
    ("extendedCacheEverything", extendedCacheEverything),
    ("extended_cache_everything", extendedCacheEverything)]

end QueryMode

/-- How much a client insists on encryption and on the server's identity. -/
inductive SslMode where
  | disable
  /-- Encrypted only if the server refuses an unencrypted session. -/
  | allow
  /-- Unencrypted only if the server refuses an encrypted session. -/
  | prefer
  | require
  /-- Encrypted, and the server's certificate is checked. -/
  | verifyCa
  /-- Encrypted, and the server's certificate and name are checked. -/
  | verifyFull
  deriving DecidableEq, Repr

instance : Inhabited SslMode := ⟨.prefer⟩

namespace SslMode

def render : SslMode → String
  | disable => "disable"
  | allow => "allow"
  | prefer => "prefer"
  | require => "require"
  | verifyCa => "verify-ca"
  | verifyFull => "verify-full"

/-- The name as one word. -/
def word : SslMode → String
  | disable => "Disable"
  | allow => "Allow"
  | prefer => "Prefer"
  | require => "Require"
  | verifyCa => "VerifyCa"
  | verifyFull => "VerifyFull"

def ofText (text : String) : Except Error SslMode :=
  match Ascii.lower text with
  | "disable" => return disable
  | "allow" => return allow
  | "prefer" => return prefer
  | "require" => return require
  | "verify-ca" | "verify_ca" => return verifyCa
  | "verify-full" | "verify_full" => return verifyFull
  | _ => throw (.configuration (.unknownValue "sslmode" text))

def fileNames : List (String × SslMode) :=
  [("Disable", disable), ("disable", disable), ("Allow", allow), ("allow", allow),
    ("Prefer", prefer), ("prefer", prefer), ("Require", require), ("require", require),
    ("VerifyCa", verifyCa), ("verify-ca", verifyCa), ("verify_ca", verifyCa),
    ("VerifyFull", verifyFull), ("verify-full", verifyFull), ("verify_full", verifyFull)]

/-- The session must fail rather than go on unencrypted. -/
def requiresEncryption : SslMode → Bool
  | require | verifyCa | verifyFull => true
  | disable | allow | prefer => false

def verifiesCertificate : SslMode → Bool
  | verifyCa | verifyFull => true
  | disable | allow | prefer | require => false

def verifiesHostname : SslMode → Bool
  | verifyFull => true
  | disable | allow | prefer | require | verifyCa => false

end SslMode

end PgClient
