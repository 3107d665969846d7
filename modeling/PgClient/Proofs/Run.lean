import PgClient.Proofs.Reply
import PgClient.Proofs.Session
import PgClient.Session.Notifications

/-!
# Runs of a session

What a caller and a server do to a session, one call after the other, together
with everything that can be told from outside about the names of statements: the
statements in the caller's hands, which of them is which while it rests in the
cache, the order in which names were given up, and a log of what went either
way. The log says of each event during which call it happened, and for which
statement.

A name is the server's memory. It is prepared when the server acknowledges the
Parse that carried it, and it is gone when it is closed or when the server says
that it dropped everything.
-/

namespace PgClient

open Exchange

/-- Whether the words of a completed command tell that the server dropped every
statement. -/
def BackendMessage.drops : BackendMessage → Bool
  | .commandComplete tag => Session.Conversation.dropsStatements tag
  | _ => false

/-- The name of the statement that a message closes. -/
def FrontendMessage.closedName? : FrontendMessage → Option String
  | .close kind name => if kind = statementKind then some name else none
  | _ => none

/-- A statement in use, and which one it is. -/
structure Handle where
  id : Nat
  statement : Statement

/-- Something the caller does, or the server. -/
inductive Operation where
  | borrow (key : StatementKey)
  | create (key : StatementKey)
  | setFetchSize (id : Nat) (rows : Int)
  | release (id : Nat)
  | query (sql : String)
  | execute (id : Nat) (parameters : List (Option Bytes))
  | takeNotices (wait : Option Nat)
  | close
  | abort
  /-- More octets are about to arrive, and the socket is about to fail otherwise. -/
  | arrive (octets : Bytes) (ended : Bool) (faults : Faults)

/-- Whether an operation has nothing to say to the server. -/
def Operation.isLocal : Operation → Bool
  | .borrow _ | .create _ | .setFetchSize .. | .release _ => true
  | _ => false

/-- An event, the call during which it happened, and the statement that ran. -/
structure Entry where
  turn : Nat
  runner : Option Handle
  event : Event

namespace Entry

/-- The name and the text of a statement that is sent to be prepared. -/
def parse? (e : Entry) : Option (String × String) :=
  match e.event with
  | .sending (.parse name sql _) => some (name, sql)
  | _ => none

/-- The name of a statement that is sent to be run. -/
def bind? (e : Entry) : Option String :=
  match e.event with
  | .sending (.bind _ name _) => some name
  | _ => none

/-- The name of a statement that is sent to be closed. -/
def close? (e : Entry) : Option String :=
  match e.event with
  | .sending message => message.closedName?
  | _ => none

/-- Whether the server says that it prepared a statement. -/
def isParseComplete (e : Entry) : Bool :=
  e.event.message? = some .parseComplete

/-- Whether the server says that it dropped every statement. -/
def drops (e : Entry) : Bool :=
  e.event.message?.any BackendMessage.drops

end Entry

/-- The names statements were to be prepared under. The empty one is not
remembered by anybody. -/
def parsedNames (log : List Entry) : List String :=
  log.filterMap fun e => (e.parse?.map Prod.fst).filter (· ≠ "")

def closedNames (log : List Entry) : List String :=
  log.filterMap Entry.close?

/-- The server said that it prepared the text it was sent under this name, while
the statement of this number ran; `since` is what happened afterwards. -/
def Prepared (log : List Entry) (id : Option Nat) (name sql : String) (since : List Entry) :
    Prop :=
  ∃ earlier ack, log = earlier ++ ack :: since ∧ ack.isParseComplete = true ∧
    ack.runner.map Handle.id = id ∧
    ∃ p ∈ earlier, p.turn = ack.turn ∧ p.parse? = some (name, sql)

/-- The server has a statement of this name, for all the client can know.
`forgets` is whether it takes the server at its word that it dropped them. -/
def Live (forgets : Bool) (log : List Entry) (name : String) : Prop :=
  name ≠ "" ∧ ∃ id sql since, Prepared log id name sql since ∧
    (forgets = true → ∀ e ∈ since, e.drops = false)

/-- A name may be used: its statement was sent ahead of it during the same call,
or it was prepared for this very statement, and not closed or dropped since. -/
def Valid (before : List Entry) (e : Entry) (name : String) : Prop :=
  ∃ h, e.runner = some h ∧
    ((∃ p ∈ before, p.turn = e.turn ∧ p.parse? = some (name, h.statement.native)) ∨
      ∃ since, Prepared before (some h.id) name h.statement.native since ∧
        ∀ x ∈ since, x.close? ≠ some name ∧ x.drops = false)

/-- The server acknowledges at most one Parse in the course of one call. -/
def AnswersOnce (log : List Entry) : Prop :=
  log.Pairwise fun a b => a.isParseComplete = true → b.isParseComplete = true → a.turn ≠ b.turn

/-- A session together with its caller. -/
structure World where
  session : Session
  /-- The statements in the caller's hands. -/
  hands : List Handle := []
  /-- Which statement it is that the cache has for a key, if it has one. -/
  resident : StatementKey → Nat := fun _ => 0
  /-- How many statements were made. -/
  made : Nat := 0
  /-- How many calls there were. -/
  turn : Nat := 0
  log : List Entry := []
  /-- The names that were given up to be closed, first one first. -/
  queued : List String := []
  /-- Whether the last call will never come back. -/
  isStuck : Bool := false

namespace World

/-- A session at the beginning of a run. -/
def start (session : Session) : World :=
  { session }

/-- The statements of a cache. -/
def residents (resident : StatementKey → Nat) (statements : Cache StatementKey Statement) :
    List Handle :=
  statements.entries.map fun e => { id := resident e.1, statement := e.2 }

/-- All statements, in use or not. -/
def handles (w : World) : List Handle :=
  w.hands ++ residents w.resident w.session.statements

/-- The world after a call. -/
def called {α : Type} (w : World) (runner : Option Handle)
    (result : EStateM.Result Halt Session α) : World :=
  let s := final result
  { w with
    session := s
    turn := w.turn + 1
    log := w.log ++ (s.history.drop w.session.history.length).map (Entry.mk w.turn runner)
    queued := w.queued ++ s.pendingClose.filter fun name => !w.session.pendingClose.contains name
    isStuck := halt? result = some .waiting }

/-- The world after a call that gets hold of a statement. -/
def obtained (w : World) (id : Nat) (result : EStateM.Result Halt Session Statement) : World :=
  match result with
  | .ok statement _ => { w.called none result with hands := { id, statement } :: w.hands }
  | .error _ _ => w.called none result

def borrow (key : StatementKey) (w : World) : World :=
  let result := Session.borrowStatement key w.session
  if w.session.statements.contains key then w.obtained (w.resident key) result
  else { w.obtained w.made result with made := w.made + 1 }

def create (key : StatementKey) (w : World) : World :=
  { w.obtained w.made (Session.createStatement key w.session) with made := w.made + 1 }

/-- The other statements in the caller's hands. -/
def others (w : World) (id : Nat) : List Handle :=
  w.hands.eraseP (·.id == id)

/-- Which statement the cache has for a key after one was handed back. -/
def settled (statements : Cache StatementKey Statement) (resident : StatementKey → Nat)
    (h : Handle) (key : StatementKey) : Nat :=
  if statements.admits (statements.sizeOf h.statement) && key == h.statement.key then h.id
  else resident key

def release (h : Handle) (w : World) : World :=
  { w.called none (Session.releaseStatement h.statement w.session) with
    hands := w.others h.id
    resident := settled w.session.statements w.resident h }

def execute (h : Handle) (parameters : List (Option Bytes)) (w : World) : World :=
  let result := Session.execute h.statement parameters w.session
  { w.called (some h) result with
    hands := match result with
      | .ok reply _ => { h with statement := reply.statement.getD h.statement } :: w.others h.id
      | .error _ _ => w.others h.id }

/-- The statement of a number, if it is in the caller's hands. -/
def hand? (w : World) (id : Nat) : Option Handle :=
  w.hands.find? (·.id == id)

def setFetchSize (id : Nat) (rows : Int) (w : World) : World :=
  { w with hands := w.hands.map fun h =>
      if h.id = id then { h with statement := { h.statement with fetchSize := rows } } else h }

def arrive (octets : Bytes) (ended : Bool) (faults : Faults) (w : World) : World :=
  let socket := w.session.channel.socket
  let socket := { socket with inbound := socket.inbound ++ octets, ended, faults }
  { w with session := { w.session with channel := { w.session.channel with socket } } }

/-- The world after an operation. Nothing is done with a statement that is not at
hand. -/
def act (w : World) : Operation → World
  | .borrow key => w.borrow key
  | .create key => w.create key
  | .setFetchSize id rows => w.setFetchSize id rows
  | .release id => (w.hand? id).elim w fun h => w.release h
  | .query sql => w.called none (Session.query sql w.session)
  | .execute id parameters => (w.hand? id).elim w fun h => w.execute h parameters
  | .takeNotices wait => w.called none (Session.takeNotices wait w.session)
  | .close => w.called none (Session.close w.session)
  | .abort => w.called none (Session.abort w.session)
  | .arrive octets ended faults => w.arrive octets ended faults

/-- Nothing happens any more once a call does not come back. -/
def step (w : World) (operation : Operation) : World :=
  if w.isStuck then w else w.act operation

/-- The world after a run. -/
def run (w : World) (operations : List Operation) : World :=
  operations.foldl step w

end World

/-- No statement was prepared yet, and nothing waits to be sent. -/
structure Session.IsFresh (s : Session) : Prop where
  statements : s.statements.entries = []
  pendingClose : s.pendingClose = []
  outgoing : s.channel.outgoing = []

end PgClient
