import PgClient.Session.Messages

/-!
# Messages between requests

A server may send notifications, warnings and changed settings while no request is under way. They
are read on demand, and only while no transaction is open.
-/

namespace PgClient.Session

/-- Takes in a message that arrived between requests. -/
def takeIdle : BackendMessage → Exchange Session Unit
  | .notificationResponse notification => onNotification notification
  | .errorResponse report => do Exchange.fail (.server (← onError report))
  | .noticeResponse report => onWarning report
  | .parameterStatus name value => onParameter name value
  | _ => pure ()

/-- Takes in the next message that arrives between requests, within `wait` milliseconds; the answer
is whether none did. -/
def noticeNext (wait : Nat) : Exchange Session Bool := do
  match ← onChannel (Channel.awaitOctet wait) with
  | none => return true
  | some octet =>
    takeIdle (← onChannel (Channel.receiveAfter .idle octet (← get).options.showErrorDetail))
    return false

/-- Takes in messages until none arrives within `wait` milliseconds. Each takes at least one octet,
so as many rounds as there are octets, and one more, suffice. -/
def takeArriving (wait : Nat) : Nat → Exchange Session Unit
  | 0 => pure ()
  | rounds + 1 => do unless ← noticeNext wait do takeArriving wait rounds

/-- Takes in what arrives within `wait` milliseconds; without a wait, what has arrived. -/
def takeNotices (wait : Option Nat) : Exchange Session Unit := do
  ensureOpen
  if (← get).status.transaction ≠ .idle then return ()
  let rounds := (← get).channel.unread.length + 1
  let result ← (takeArriving (wait.getD 0) rounds).attempt
  checkFatal result
  Exchange.lift result

end PgClient.Session
