import PgClient.Session.Messages

/-!
# The start of a session

Once the server has let the client in, it announces itself: its settings, the key that authorises
to cancel queries, warnings, and finally that it is ready. Anything else, or too many messages,
ends the session before it began.
-/

namespace PgClient.Session

/-- How many messages may precede the one that says the server is ready, that one included. -/
def maxStartupMessages : Nat :=
  1000

/-- Takes in a message of the announcement; the answer is whether it was the last one. -/
def announce : BackendMessage → Exchange Session Bool
  | .readyForQuery status => do
    onReady status
    return true
  | .errorResponse report => do Exchange.fail (.server (← onError report))
  | .backendKeyData key => do
    modify fun s => { s with status := { s.status with backendKey := some key } }
    return false
  | .noticeResponse report => do
    onWarning report
    return false
  | .parameterStatus name value => do
    onParameter name value
    return false
  | _ => violation .sessionSetup

/-- Reads a message of the announcement and takes it in. -/
def announceNext : Exchange Session Bool := do
  announce (← receive .startup)

/-- Reads the server's announcement, of at most so many messages. -/
def readAnnouncement : Nat → Exchange Session Unit
  | 0 => violation .sessionSetup
  | limit + 1 => do unless ← announceNext do readAnnouncement limit

/-- Reads what the server announces after it let the client in. -/
def start : Exchange Session Unit :=
  readAnnouncement maxStartupMessages

/-- Reads what the server announces; if it is not in order, the session ends. -/
def begin : Exchange Session Unit := do
  match ← start.attempt with
  | .ok () => record (.ready (← get).party (← get).backendPid)
  | .error e =>
    abort
    Exchange.fail e

end PgClient.Session
