import PgClient.Proofs.Session
import PgClient.Session.Request

/-!
# A reply, message by message

The reply to a request is read by a loop that is given as many rounds as there
are octets. `Replies` is the same loop without the count: a run of messages,
each read off the channel and taken in, up to the one that ends the reply, a
message that cannot be read or one that cannot be lived with. A message takes at
least its tag, so the rounds never run out before the octets do
(`takeAll_replies`), and whatever is to be said about a reply is an induction on
`Replies`.

One message in turn is described by `Reads`, which is about its octets, and by
`Handles`, which is about what it means. For the names of statements the meaning
is a function, `Accounts.on`, and nothing else in a reply touches them.
-/

namespace PgClient

open Exchange

namespace Session

/-! ## Reading a message -/

/-- A message of a kind that belongs to the phase was read off the channel, and
that is all that happened. -/
structure Reads (phase : Phase) (s : Session) (m : BackendMessage) (s' : Session) : Prop where
  accepts : phase.accepts m.tag = true
  octets : ∃ body, s.channel.unread = m.tag.octet :: body ++ s'.channel.unread ∧
    ∀ status, m = .readyForQuery status → body = Bytes.int32 5 ++ [status]
  history : s'.history = s.history ++ [.received m s.options.showErrorDetail]
  others : { s' with channel := s.channel } = s
  outgoing : s'.channel.outgoing = s.channel.outgoing
  sent : s'.channel.socket.sent = s.channel.socket.sent

theorem receive_apply (phase : Phase) (s : Session) :
    receive phase s = onChannel (Channel.receive phase s.options.showErrorDetail) s := by
  unfold receive
  rw [bind_of_ok (get_apply s)]

theorem receive_of_ok {phase : Phase} {s : Session} {m : BackendMessage} {c : Channel}
    (h : Channel.receive phase s.options.showErrorDetail s.channel = .ok m c) :
    receive phase s = .ok m { s with channel := c } := by
  rw [receive_apply, onChannel_of_ok h]

theorem receive_of_error {phase : Phase} {s : Session} {halt : Halt} {c : Channel}
    (h : Channel.receive phase s.options.showErrorDetail s.channel = .error halt c) :
    receive phase s = .error halt { s with channel := c } := by
  rw [receive_apply, onChannel_of_error h]

theorem receive_reads {phase : Phase} (hphase : phase ≠ .login) {s s' : Session}
    {m : BackendMessage} (h : receive phase s = .ok m s') : Reads phase s m s' := by
  rw [receive_apply] at h
  obtain ⟨c, hc, rfl⟩ := onChannel_ok h
  obtain ⟨haccepts, c₁, c₂, htag, hbody, rfl⟩ := Channel.receive_ok hphase hc
  obtain ⟨body, hoff⟩ := ((Channel.receiveMessage_reading _).ok hbody).reads
  refine ⟨haccepts, ⟨body, ?_, ?_⟩, ?_, rfl, ?_, ?_⟩
  · rw [htag.unread, hoff.unread]
    rfl
  · rintro status rfl
    have hready := Channel.receiveMessage_ready hbody
    exact List.append_cancel_right (hoff.unread.symm.trans hready.unread)
  · show (c₂.told _).history = _
    rw [Channel.history_told, Channel.history, hoff.journal, htag.journal]
    rfl
  · exact hoff.outgoing.trans htag.outgoing
  · exact hoff.sent.trans htag.sent

/-- Nothing but octets is lost when no message can be read. -/
structure Breaks (s : Session) (halt : Halt) (s' : Session) : Prop where
  keeps : s'.ledger = s.ledger ∧ s'.options = s.options ∧ s'.forgetsOnDrop = s.forgetsOnDrop
  history : s'.history = s.history
  fatal : ∀ e, halt = .failed e → e.isFatal = true
  silent : halt = .waiting → s'.channel.Silent
  isClosed : s'.isClosed = s.isClosed
  outgoing : s'.channel.outgoing = s.channel.outgoing
  sent : s'.channel.socket.sent = s.channel.socket.sent

theorem receive_breaks {phase : Phase} (hstartup : phase ≠ .startup) {s s' : Session}
    {halt : Halt} (h : receive phase s = .error halt s') : Breaks s halt s' := by
  rw [receive_apply] at h
  obtain ⟨c, hc, rfl⟩ := onChannel_error h
  obtain ⟨⟨octets, hoff⟩, hfatal, hsilent⟩ := Channel.receive_error hstartup hc
  refine ⟨⟨rfl, rfl, rfl⟩, ?_, fun e he => hfatal e (he ▸ rfl), fun hw => hsilent (hw ▸ rfl),
    rfl, hoff.outgoing, hoff.sent⟩
  exact congrArg Array.toList hoff.journal

end Session

/-! ## What a message means for the names of statements -/

/-- Whether an error of the server says that preparing the statement again
mends it. -/
def Report.isStale (r : Report) : Bool :=
  (ServerError.first r false).isStalePlan

theorem ServerError.isStalePlan_eq (e : ServerError) : e.isStalePlan = e.report.isStale := by
  cases e <;> rfl

/-- The message of the server an event tells of. -/
def Event.message? : Event → Option BackendMessage
  | .received m _ => some m
  | _ => none

theorem Event.message?_of_isAside {e : Event} (h : e.isAside = true) : e.message? = none := by
  cases e with
  | received m d => cases h
  | _ => rfl

theorem filterMap_message?_of_isAside {events : List Event} (h : ∀ e ∈ events, e.isAside = true) :
    events.filterMap Event.message? = [] :=
  List.filterMap_eq_nil_iff.2 fun e he => Event.message?_of_isAside (h e he)

/-- The statement that runs, if one does, and the session's ledger. -/
structure Accounts where
  statement : Option Statement
  ledger : Ledger

namespace Accounts

/-- The server has prepared the statement under the name it was offered. -/
def parsed (preparing : Option String) (a : Accounts) : Accounts :=
  match preparing with
  | some name => { a with statement := a.statement.map fun s => s.prepare name a.ledger.epoch }
  | none => a

/-- The statement has to be prepared again: the name it has is to be closed. -/
def unprepared (a : Accounts) : Accounts :=
  match a.statement.bind Statement.name with
  | some name =>
    { statement := a.statement.map Statement.unprepare
      ledger := { a.ledger with pendingClose := a.ledger.pendingClose ++ [name] } }
  | none => a

/-- The server has dropped every statement. -/
def dropped (a : Accounts) : Accounts :=
  { a with ledger := { a.ledger with
      epoch := a.ledger.epoch + 1
      pendingClose := []
      statements := a.ledger.statements.clear } }

/-- The accounts after a message of a reply. `preparing` is the name that was
offered, and `forgets` whether the session heeds that statements are dropped. -/
def on (preparing : Option String) (forgets : Bool) (a : Accounts) : BackendMessage → Accounts
  | .parseComplete => a.parsed preparing
  | .portalSuspended =>
    { a with statement := a.statement.map fun s => { s with isSuspended := true } }
  | .commandComplete tag =>
    if Session.Conversation.dropsStatements tag && forgets then a.dropped else a
  | .errorResponse report => if report.isStale then a.unprepared else a
  | _ => a

variable {a : Accounts} {preparing : Option String} {st : Statement}

@[simp] theorem parsed_ledger (preparing : Option String) (a : Accounts) :
    (a.parsed preparing).ledger = a.ledger := by
  cases preparing <;> rfl

/-- A statement is what it was, or was prepared under the name it was offered. -/
theorem statement_of_parsed (h : (a.parsed preparing).statement = some st) :
    a.statement = some st ∨ ∃ name st', preparing = some name ∧ a.statement = some st' ∧
      st = st'.prepare name a.ledger.epoch := by
  cases preparing with
  | none => exact .inl h
  | some name =>
      obtain ⟨st', hst', rfl⟩ := Option.map_eq_some_iff.1 h
      exact .inr ⟨name, st', rfl, hst', rfl⟩

@[simp] theorem unprepared_nextName (a : Accounts) :
    a.unprepared.ledger.nextName = a.ledger.nextName := by
  unfold unprepared
  split <;> rfl

@[simp] theorem unprepared_epoch (a : Accounts) : a.unprepared.ledger.epoch = a.ledger.epoch := by
  unfold unprepared
  split <;> rfl

@[simp] theorem unprepared_statements (a : Accounts) :
    a.unprepared.ledger.statements = a.ledger.statements := by
  unfold unprepared
  split <;> rfl

theorem unprepared_waiting (a : Accounts) :
    a.unprepared.ledger.pendingClose =
      a.ledger.pendingClose ++ (a.statement.bind Statement.name).toList := by
  unfold unprepared
  cases a.statement.bind Statement.name with
  | none => exact (List.append_nil _).symm
  | some name => rfl

/-- A name that waits to be closed did so before, or is that of the statement. -/
theorem waiting_of_unprepared {name : String} (h : name ∈ a.unprepared.ledger.pendingClose) :
    name ∈ a.ledger.pendingClose ∨ ∃ st, a.statement = some st ∧ st.name = some name := by
  rw [unprepared_waiting] at h
  refine (List.mem_append.1 h).imp_right fun h => ?_
  exact Option.bind_eq_some_iff.1 (Option.mem_toList.1 h)

/-- A statement has no name, and is otherwise what it was. -/
theorem statement_of_unprepared (h : a.unprepared.statement = some st) :
    st.name = none ∧ (a.statement = some st ∨ ∃ st', a.statement = some st' ∧
      st = st'.unprepare) := by
  unfold unprepared at h
  cases hname : a.statement.bind Statement.name with
  | none =>
      rw [hname] at h
      have hst : a.statement = some st := h
      rw [hst] at hname
      exact ⟨hname, .inl hst⟩
  | some name =>
      rw [hname] at h
      obtain ⟨st', hst', rfl⟩ := Option.map_eq_some_iff.1 h
      exact ⟨rfl, .inr ⟨st', hst', rfl⟩⟩

end Accounts

namespace Session.Conversation

def accounts (c : Conversation) : Accounts :=
  { statement := c.statement, ledger := c.session.ledger }

/-- A message that was read is taken in. -/
structure Handles (m : BackendMessage) (c : Conversation) (h : Option Halt) (c' : Conversation) :
    Prop where
  channel : c.session.channel.Keeps c'.session.channel
  options : c'.session.options = c.session.options
  forgets : c'.session.forgetsOnDrop = c.session.forgetsOnDrop
  quiet : c'.session.isClosed = false → c.session.isClosed = false ∧
    c'.session.channel.outgoing = c.session.channel.outgoing ∧
    c'.session.channel.socket.sent = c.session.channel.socket.sent
  calm : h = none → c'.session.isClosed = c.session.isClosed
  fatal : ∀ x, h = some x → ∃ e, x = .failed e ∧ e.isFatal = true
  accounts : c'.accounts = c.accounts.on c.preparing c.session.forgetsOnDrop m
  preparing : c'.preparing = c.preparing
  firstError : c'.firstError = c.firstError ∨ ∃ e, c'.firstError = some (.server e)

/-- A message about the session alone. -/
theorem Handles.of_aside {m : BackendMessage} {c c' : Conversation} {s' : Session}
    {h : Option Halt} (ha : Aside c.session h s') (hc : c' = { c with session := s' })
    (hm : c.accounts.on c.preparing c.session.forgetsOnDrop m = c.accounts) :
    Handles m c h c' := by
  subst hc
  refine ⟨ha.keeps.channel, ha.keeps.options, ha.keeps.forgets, ha.quiet, ha.calm, ha.fatal, ?_,
    rfl, .inl rfl⟩
  rw [hm]
  exact congrArg (Accounts.mk c.statement) ha.keeps.ledger

/-- What composes for sessions does so for requests. -/
theorem composes_session {R : Session → Option Halt → Session → Prop} (hR : Composes R) :
    Composes fun (c : Conversation) h c' => R c.session h c'.session where
  refl c := hR.refl c.session
  trans := hR.trans

section

variable {α : Type} {x : Exchange Session α} {c c' : Conversation} {a : α} {halt : Halt}
  {s : Session}

theorem onSession_apply (x : Exchange Session α) (c : Conversation) :
    onSession x c = match x c.session with
      | .ok a s => .ok a { c with session := s }
      | .error halt s => .error halt { c with session := s } := by
  unfold onSession
  rw [zoom_apply]
  cases x c.session <;> rfl

theorem final_onSession (x : Exchange Session α) (c : Conversation) :
    final (onSession x c) = { c with session := final (x c.session) } :=
  final_zoom ..

theorem onSession_of_ok (h : x c.session = .ok a s) :
    onSession x c = .ok a { c with session := s } :=
  zoom_of_ok h

theorem onSession_ok (h : onSession x c = .ok a c') :
    ∃ s, x c.session = .ok a s ∧ c' = { c with session := s } :=
  zoom_ok h

end

/-- A law of the session is one of the request. -/
theorem onSession_obeys {α : Type} {P : Session → Option Halt → Session → Prop}
    {x : Exchange Session α} (hx : Obeys P x) :
    Obeys (fun c h c' => P c.session h c'.session) (onSession x) :=
  hx.zoom fun _ _ _ h => h

theorem onSession_handles {α : Type} {m : BackendMessage} {x : Exchange Session α} {last : Bool}
    (hx : Obeys Aside x)
    (hm : ∀ c : Conversation, c.accounts.on c.preparing c.session.forgetsOnDrop m = c.accounts) :
    Obeys (Handles m) (onSession x >>= fun _ => pure last) := by
  intro c
  rw [bind_apply, onSession_apply]
  cases h : x c.session with
  | ok a s => exact .of_aside (hx.ok h) rfl (hm c)
  | error halt s => exact .of_aside (hx.error h) rfl (hm c)

/-- A message that changes nothing but what is known about the statement and
what the caller is told. -/
theorem Handles.of_session_eq {m : BackendMessage} {c c' : Conversation}
    (hsession : c'.session = c.session)
    (haccounts : c'.accounts = c.accounts.on c.preparing c.session.forgetsOnDrop m)
    (hpreparing : c'.preparing = c.preparing) (herror : c'.firstError = c.firstError) :
    Handles m c none c' := by
  refine ⟨?_, by rw [hsession], by rw [hsession], ?_, fun _ => by rw [hsession], nofun, haccounts,
    hpreparing, .inl herror⟩
  · rw [hsession]
    exact .refl _
  · rw [hsession]
    exact fun h => ⟨h, rfl, rfl⟩

theorem onParsed_apply (c : Conversation) :
    onParsed c = .ok () { c with
      statement := match c.preparing with
        | some name => c.statement.map fun s => s.prepare name c.session.epoch
        | none => c.statement } := by
  rcases c with ⟨session, statement, _ | name, deliveries, firstError⟩ <;> rfl

theorem onParsed_handles : Obeys (Handles .parseComplete) (onParsed >>= fun _ => pure false) := by
  intro c
  rw [bind_of_ok (onParsed_apply c)]
  refine .of_session_eq rfl ?_ rfl rfl
  show Accounts.mk _ _ = c.accounts.parsed c.preparing
  unfold Accounts.parsed
  cases c.preparing <;> rfl

theorem forgetStatements_apply (s : Session) :
    forgetStatements s = .ok () (if s.forgetsOnDrop then
      { s with
        channel := s.channel.told (.statementsDropped s.party)
        epoch := s.epoch + 1
        pendingClose := []
        statements := s.statements.clear } else s) := by
  unfold forgetStatements
  rw [bind_of_ok (get_apply s)]
  split <;> rfl

theorem onCommand_handles (tag : String) :
    Obeys (Handles (.commandComplete tag)) (do
      if dropsStatements tag then onSession forgetStatements
      deliver (.status tag)
      return false) := by
  intro c
  cases hdrops : dropsStatements tag with
  | false =>
      refine .of_session_eq rfl ?_ rfl rfl
      show c.accounts = Accounts.on _ _ _ _
      simp [Accounts.on, hdrops]
  | true =>
      rw [if_pos rfl, bind_of_ok (onSession_of_ok (forgetStatements_apply c.session))]
      cases hforgets : c.session.forgetsOnDrop with
      | false =>
          refine .of_session_eq rfl ?_ rfl rfl
          show c.accounts = Accounts.on _ _ _ _
          simp [Accounts.on, hforgets]
      | true =>
          refine ⟨c.session.channel.told_keeps rfl, rfl, hforgets.symm, fun h => ⟨h, rfl, rfl⟩,
            fun _ => rfl, nofun, ?_, rfl, .inl rfl⟩
          simp only [Accounts.on, hdrops, hforgets, Bool.and_self, if_true]
          rfl

/-- A stale plan moves the name of the statement to those that wait to be
closed. -/
theorem onReport_ok (report : Report) (c : Conversation) :
    ∃ c', onReport report c = .ok () c' ∧ Handles (.errorResponse report) c none c' := by
  obtain ⟨e, s, hs, hreport, ha⟩ := onError_ok report c.session
  have hledger : s.ledger = c.session.ledger := ha.keeps.ledger
  have hsession : onSession (onError report) c = .ok e { c with session := s } :=
    onSession_of_ok hs
  have hfirst : c.firstError.or (some (.server e)) = c.firstError ∨
      ∃ e', c.firstError.or (some (.server e)) = some (.server e') := by
    cases c.firstError with
    | none => exact .inr ⟨e, rfl⟩
    | some first => exact .inl rfl
  unfold onReport
  rw [bind_of_ok hsession, e.isStalePlan_eq, hreport]
  cases hstale : report.isStale with
  | false =>
      refine ⟨_, rfl, ha.keeps.channel, ha.keeps.options, ha.keeps.forgets, ha.quiet, ha.calm,
        nofun, ?_, rfl, hfirst⟩
      simp only [Accounts.on, hstale]
      exact congrArg (Accounts.mk c.statement) hledger
  | true =>
      rw [if_pos rfl, bind_of_ok (get_apply _)]
      simp only []
      cases hname : c.statement.bind Statement.name with
      | none =>
          refine ⟨_, rfl, ha.keeps.channel, ha.keeps.options, ha.keeps.forgets, ha.quiet, ha.calm,
            nofun, ?_, rfl, hfirst⟩
          simp only [Accounts.on, hstale, if_true, Accounts.unprepared, accounts, hname]
          exact congrArg (Accounts.mk c.statement) hledger
      | some name =>
          refine ⟨_, rfl, ha.keeps.channel, ha.keeps.options, ha.keeps.forgets, ha.quiet, ha.calm,
            nofun, ?_, rfl, hfirst⟩
          simp only [Accounts.on, hstale, if_true, Accounts.unprepared, accounts, hname]
          rw [← hledger]
          rfl

/-- A message of a reply means for the names of statements what `Accounts.on`
says, and it ends the session if it ends the reply before its time. -/
theorem take_handles (m : BackendMessage) : Obeys (Handles m) (take m) := by
  cases m with
  | readyForQuery status => exact onSession_handles (onReady_aside status) fun _ => rfl
  | parseComplete => exact onParsed_handles
  | portalSuspended => exact fun c => .of_session_eq rfl rfl rfl rfl
  | rowDescription columns => exact fun c => .of_session_eq rfl rfl rfl rfl
  | dataRow length row => exact fun c => .of_session_eq rfl rfl rfl rfl
  | commandComplete tag => exact onCommand_handles tag
  | errorResponse report =>
      intro c
      obtain ⟨c', hc', hh⟩ := onReport_ok report c
      rw [show take (.errorResponse report) c = .ok false c' from bind_of_ok hc']
      exact hh
  | noticeResponse report => exact onSession_handles (onWarning_aside report) fun _ => rfl
  | notificationResponse notification =>
      exact onSession_handles (onNotification_aside notification) fun _ => rfl
  | parameterStatus name value =>
      exact onSession_handles (onParameter_aside name value) fun _ => rfl
  | bindComplete | closeComplete | noData | emptyQuery | parameterDescription | authentication
  | backendKeyData => exact fun c => .of_session_eq rfl rfl rfl rfl

/-- The message that ends a reply is the one that says the server is ready. -/
theorem take_last {m : BackendMessage} {c c' : Conversation} {last : Bool}
    (h : take m c = .ok last c') :
    (last = true ∧ ∃ status, m = .readyForQuery status ∧ IsStatus status) ∨
      (last = false ∧ m.tag ≠ .readyForQuery) := by
  cases m with
  | readyForQuery status =>
      obtain ⟨_, c₁, h₁, h₂⟩ := bind_ok (show (onSession (onReady status) >>= fun _ =>
        pure true : Exchange Conversation Bool) c = _ from h)
      cases h₂
      obtain ⟨s, hr, -⟩ := onSession_ok h₁
      exact .inl ⟨rfl, status, rfl, onReady_ok hr⟩
  | commandComplete tag =>
      refine .inr ⟨?_, nofun⟩
      unfold take at h
      simp only [] at h
      split at h
      · obtain ⟨_, c₁, -, h⟩ := bind_ok h
        cases h
        rfl
      · cases h
        rfl
  | parseComplete | errorResponse | noticeResponse | notificationResponse | parameterStatus =>
      refine .inr ⟨?_, nofun⟩
      unfold take at h
      obtain ⟨_, c₁, -, h⟩ := bind_ok h
      cases h
      rfl
  | portalSuspended | rowDescription | dataRow | bindComplete | closeComplete | noData
  | emptyQuery | parameterDescription | authentication | backendKeyData =>
      cases h
      exact .inr ⟨rfl, nofun⟩

/-! ## The loop -/

theorem takeAll_succ (rounds : Nat) :
    takeAll (rounds + 1) = (do unless ← takeNext do takeAll rounds) := rfl

theorem takeAll_apply (rounds : Nat) (c : Conversation) :
    takeAll (rounds + 1) c = match receive .reply c.session with
      | .ok m s =>
        (do unless ← take m do takeAll rounds : Exchange Conversation Unit) { c with session := s }
      | .error halt s => .error halt { c with session := s } := by
  have hstep : takeAll (rounds + 1) c = (do
      let message ← onSession (receive .reply)
      unless ← take message do takeAll rounds : Exchange Conversation Unit) c := by
    rw [takeAll_succ, takeNext, bind_assoc]
  rw [hstep, bind_apply, onSession_apply]
  cases receive .reply c.session <;> rfl

theorem takeAll_step {c : Conversation} {s : Session} {m : BackendMessage} {rounds : Nat}
    (h : receive .reply c.session = .ok m s) :
    takeAll (rounds + 1) c = (do unless ← take m do takeAll rounds : Exchange Conversation Unit)
      { c with session := s } := by
  rw [takeAll_apply, h]

theorem takeAll_broken {c : Conversation} {s : Session} {halt : Halt} {rounds : Nat}
    (h : receive .reply c.session = .error halt s) :
    takeAll (rounds + 1) c = .error halt { c with session := s } := by
  rw [takeAll_apply, h]

section

variable {R : Conversation → Option Halt → Conversation → Prop}

/-- What goes for the reading of a message and for what is made of it goes for the messages of a
reply. -/
theorem takeAll_obeys (hR : Composes R) (hwaits : ∀ c, R c (some .waiting) c)
    (hreceive : Obeys R (onSession (receive .reply))) (htake : ∀ m, Obeys R (take m))
    (rounds : Nat) : Obeys R (takeAll rounds) :=
  hR.loop takeAll_succ hwaits (hR.bind hreceive htake) rounds

theorem readReply_obeys (hR : Composes R) (htakeAll : ∀ rounds, Obeys R (takeAll rounds))
    (hdeliver : Obeys R (deliver .completed)) (hfail : ∀ e c, R c (some (.failed e)) c) :
    Obeys R readReply := by
  refine hR.bind hR.get fun c => hR.bind (htakeAll _) fun _ => hR.bind hdeliver fun _ => ?_
  refine hR.bind hR.get fun c => ?_
  cases c.firstError with
  | none => exact hR.pure ()
  | some e => exact hfail e

end

/-- A reply is read, from a state to the halt it comes to, if any, and the state
it leaves. -/
inductive Replies : Conversation → Option Halt → Conversation → Prop where
  /-- No further message can be read. -/
  | broken {c : Conversation} {halt : Halt} {s : Session}
      (hread : Breaks c.session halt s) : Replies c (some halt) { c with session := s }
  /-- A message cannot be lived with. -/
  | refused {c c' : Conversation} {m : BackendMessage} {s : Session} {halt : Halt}
      (hread : Reads .reply c.session m s)
      (htake : take m { c with session := s } = .error halt c') : Replies c (some halt) c'
  /-- The last message was taken in. -/
  | ready {c c' : Conversation} {status : UInt8} {s : Session} (hstatus : IsStatus status)
      (hread : Reads .reply c.session (.readyForQuery status) s)
      (htake : take (.readyForQuery status) { c with session := s } = .ok true c') :
      Replies c none c'
  /-- Another message was taken in. -/
  | more {c c₁ c' : Conversation} {m : BackendMessage} {s : Session} {h : Option Halt}
      (hread : Reads .reply c.session m s) (hmore : m.tag ≠ .readyForQuery)
      (htake : take m { c with session := s } = .ok false c₁)
      (hrest : Replies c₁ h c') : Replies c h c'

/-- The rounds of the loop are never the reason why it ends. -/
theorem takeAll_replies {rounds : Nat} {c : Conversation}
    (hrounds : c.session.channel.unread.length < rounds) :
    Replies c (halt? (takeAll rounds c)) (final (takeAll rounds c)) := by
  induction rounds generalizing c with
  | zero => omega
  | succ rounds ih =>
      cases hread : receive .reply c.session with
      | error halt s =>
          rw [takeAll_broken hread]
          exact .broken (receive_breaks (by decide) hread)
      | ok m s =>
          have hr := receive_reads (by decide) hread
          rw [takeAll_step hread, bind_apply]
          cases htake : take m { c with session := s } with
          | error halt c' => exact .refused hr htake
          | ok last c₁ =>
              obtain ⟨rfl, status, rfl, hstatus⟩ | ⟨rfl, hmore⟩ := take_last htake
              · exact .ready hstatus hr htake
              · refine .more hr hmore htake (ih ?_)
                obtain ⟨body, hunread, -⟩ := hr.octets
                have hkept : c₁.session.channel.unread = s.channel.unread :=
                  ((take_handles m).ok htake).channel.unread
                have hlen := congrArg List.length hunread
                rw [hkept]
                simp only [List.cons_append, List.length_cons, List.length_append] at hlen
                omega

/-! ## What a reply comes to -/

/-- What goes for a reply as for each of its messages: the accounts follow from
the messages in the journal. -/
structure Follows (c : Conversation) (h : Option Halt) (c' : Conversation) : Prop where
  history : ∃ events, c'.session.history = c.session.history ++ events ∧
    (∀ e ∈ events, e.isAside = true ∨ e.message?.isSome = true) ∧
    c'.accounts = (events.filterMap Event.message?).foldl
      (Accounts.on c.preparing c.session.forgetsOnDrop) c.accounts
  options : c'.session.options = c.session.options
  forgets : c'.session.forgetsOnDrop = c.session.forgetsOnDrop
  preparing : c'.preparing = c.preparing
  quiet : c'.session.isClosed = false → c.session.isClosed = false ∧
    c'.session.channel.outgoing = c.session.channel.outgoing ∧
    c'.session.channel.socket.sent = c.session.channel.socket.sent
  calm : h = none → c'.session.isClosed = c.session.isClosed
  fatal : ∀ e, h = some (.failed e) → e.isFatal = true
  silent : h = some .waiting → c'.session.channel.Silent
  firstError : c'.firstError = c.firstError ∨ ∃ e, c'.firstError = some (.server e)

theorem follows_composes : Composes Follows where
  refl c := ⟨⟨[], (List.append_nil _).symm, List.forall_mem_nil _, rfl⟩, rfl, rfl, rfl,
    fun h => ⟨h, rfl, rfl⟩, fun _ => rfl, nofun, nofun, .inl rfl⟩
  trans := by
    intro c d e h hcd hde
    obtain ⟨es, hes, hkind, hacc⟩ := hcd.history
    obtain ⟨fs, hfs, hkind', hacc'⟩ := hde.history
    refine ⟨⟨es ++ fs, ?_, ?_, ?_⟩, hde.options.trans hcd.options, hde.forgets.trans hcd.forgets,
      hde.preparing.trans hcd.preparing, fun hopen => ?_,
      fun hn => (hde.calm hn).trans (hcd.calm rfl), hde.fatal, hde.silent, ?_⟩
    · rw [hfs, hes, List.append_assoc]
    · intro x hx
      exact (List.mem_append.1 hx).elim (hkind x) (hkind' x)
    · rw [hacc', hcd.preparing, hcd.forgets, hacc, List.filterMap_append, List.foldl_append]
    · obtain ⟨hd, hout, hsent⟩ := hde.quiet hopen
      obtain ⟨hc, hout', hsent'⟩ := hcd.quiet hd
      exact ⟨hc, hout.trans hout', hsent.trans hsent'⟩
    · rcases hde.firstError with hfirst | hfirst
      · rw [hfirst]
        exact hcd.firstError
      · exact .inr hfirst

theorem Follows.of_breaks {c : Conversation} {halt : Halt} {s : Session}
    (h : Breaks c.session halt s) : Follows c (some halt) { c with session := s } := by
  refine ⟨⟨[], ?_, List.forall_mem_nil _, ?_⟩, h.keeps.2.1, h.keeps.2.2, rfl,
    fun hopen => ⟨h.isClosed.symm.trans hopen, h.outgoing, h.sent⟩, nofun,
    fun e he => h.fatal e (Option.some.inj he), fun hw => h.silent (Option.some.inj hw), .inl rfl⟩
  · rw [List.append_nil]
    exact h.history
  · exact congrArg (Accounts.mk c.statement) h.keeps.1

/-- One message: it is read, and then taken in. -/
theorem Follows.of_handles {c c' : Conversation} {m : BackendMessage} {s : Session}
    {h : Option Halt} (hread : Reads .reply c.session m s)
    (htake : Handles m { c with session := s } h c') : Follows c h c' := by
  obtain ⟨events, hevents, haside⟩ := htake.channel.history
  have hs : s = { c.session with channel := s.channel } := by
    rw [← hread.others]
  have hledger : s.ledger = c.session.ledger := by rw [hs]; rfl
  have hforgets : s.forgetsOnDrop = c.session.forgetsOnDrop := by rw [hs]
  have hclosed : s.isClosed = c.session.isClosed := by rw [hs]
  refine ⟨⟨.received m c.session.options.showErrorDetail :: events, ?_, ?_, ?_⟩,
    htake.options.trans (by rw [hs]), htake.forgets.trans hforgets, htake.preparing,
    fun hopen => ?_, fun hn => (htake.calm hn).trans hclosed, fun e he => ?_, fun hw => ?_,
    htake.firstError⟩
  · show c'.session.channel.history = _
    rw [hevents, show s.channel.history = _ from hread.history, List.append_assoc]
    rfl
  · intro e he
    rcases List.mem_cons.1 he with rfl | he
    · exact .inr rfl
    · exact .inl (haside e he)
  · have hmessages : (Event.received m c.session.options.showErrorDetail :: events).filterMap
        Event.message? = [m] := by
      rw [List.filterMap_cons, filterMap_message?_of_isAside haside]
      rfl
    rw [hmessages, htake.accounts]
    show Accounts.on c.preparing s.forgetsOnDrop ⟨c.statement, s.ledger⟩ m = _
    rw [hforgets, hledger]
    rfl
  · obtain ⟨hs', hout, hsent⟩ := htake.quiet hopen
    exact ⟨hclosed.symm.trans hs', hout.trans hread.outgoing, hsent.trans hread.sent⟩
  · obtain ⟨e', he', hfatal⟩ := htake.fatal _ he
    cases he'
    exact hfatal
  · obtain ⟨e', he', -⟩ := htake.fatal _ hw
    cases he'

theorem Replies.follows {c c' : Conversation} {h : Option Halt} (hr : Replies c h c') :
    Follows c h c' := by
  induction hr with
  | broken hread => exact .of_breaks hread
  | refused hread htake => exact .of_handles hread ((take_handles _).error htake)
  | ready _ hread htake => exact .of_handles hread ((take_handles _).ok htake)
  | more hread _ htake _ ih =>
      exact follows_composes.trans (.of_handles hread ((take_handles _).ok htake)) ih

/-- The six octets of a ReadyForQuery. -/
def readyFrame (status : UInt8) : Bytes :=
  Tag.readyForQuery.octet :: Bytes.int32 5 ++ [status]

/-- Everything up to a well-formed ReadyForQuery was consumed, nothing after it,
and no other ReadyForQuery is among it. -/
def UpToReady (s s' : Session) : Prop :=
  ∃ front status, IsStatus status ∧
    s.channel.unread = front ++ readyFrame status ++ s'.channel.unread ∧
    ∃ events before, s'.history = s.history ++ events ∧
      events.filterMap Event.message? = before ++ [.readyForQuery status] ∧
      ∀ m ∈ before, m.tag ≠ .readyForQuery

/-- What one message of the reply consumed, and what the journal tells of it. -/
theorem taken {c c₁ : Conversation} {m : BackendMessage} {s : Session} {last : Bool}
    (hread : Reads .reply c.session m s)
    (htake : take m { c with session := s } = .ok last c₁) :
    ∃ body events, c.session.channel.unread = m.tag.octet :: body ++ c₁.session.channel.unread ∧
      (∀ status, m = .readyForQuery status → body = Bytes.int32 5 ++ [status]) ∧
      c₁.session.history = c.session.history ++ events ∧
      events.filterMap Event.message? = [m] := by
  obtain ⟨body, hunread, hframe⟩ := hread.octets
  have hh := (take_handles _).ok htake
  obtain ⟨events, hevents, haside⟩ := hh.channel.history
  have hkept : c₁.session.channel.unread = s.channel.unread := hh.channel.unread
  refine ⟨body, .received m c.session.options.showErrorDetail :: events, ?_, hframe, ?_, ?_⟩
  · rw [hkept]
    exact hunread
  · rw [show c₁.session.history = s.history ++ events from hevents, hread.history,
      List.append_assoc]
    rfl
  · rw [List.filterMap_cons, filterMap_message?_of_isAside haside]
    rfl

theorem Replies.upToReady {c c' : Conversation} {h : Option Halt} (hr : Replies c h c')
    (hn : h = none) : UpToReady c.session c'.session := by
  induction hr with
  | broken => cases hn
  | refused => cases hn
  | @ready c c' status s hstatus hread htake =>
      obtain ⟨body, events, hunread, hframe, hhistory, hmessages⟩ := taken hread htake
      refine ⟨[], status, hstatus, ?_, events, [], hhistory, hmessages, List.forall_mem_nil _⟩
      rw [hunread, hframe status rfl]
      rfl
  | @more c c₁ c' m s h hread hmore htake hrest ih =>
      obtain ⟨body, events, hunread, -, hhistory, hmessages⟩ := taken hread htake
      obtain ⟨front, status, hstatus, hunread', events', before, hhistory', hmessages', hother⟩ :=
        ih hn
      refine ⟨m.tag.octet :: body ++ front, status, hstatus, ?_, events ++ events', m :: before,
        ?_, ?_, ?_⟩
      · rw [hunread, hunread']
        simp only [List.append_assoc, List.cons_append]
      · rw [hhistory', hhistory, List.append_assoc]
      · rw [List.filterMap_append, hmessages, hmessages']
        rfl
      · intro m' hm'
        rcases List.mem_cons.1 hm' with rfl | hm'
        · exact hmore
        · exact hother m' hm'

theorem readReply_of_error {c c' : Conversation} {halt : Halt}
    (h : takeAll (c.session.channel.unread.length + 1) c = .error halt c') :
    readReply c = .error halt c' := by
  unfold readReply
  rw [bind_of_ok (get_apply c), bind_of_error h]

theorem readReply_of_ok {c c' : Conversation}
    (h : takeAll (c.session.channel.unread.length + 1) c = .ok () c') :
    readReply c = (lift (c'.firstError.elim (.ok ()) .error) : Exchange Conversation Unit)
      { c' with deliveries := c'.deliveries.push .completed } := by
  unfold readReply
  rw [bind_of_ok (get_apply c), bind_of_ok h]
  rcases c' with ⟨session, statement, preparing, deliveries, _ | e⟩ <;> rfl

/-- A reply was read to its end, and its result is what the server said; or it
broke off. -/
theorem readReply_ends {c : Conversation} (hfirst : c.firstError = none) :
    (Follows c none (final (readReply c)) ∧ UpToReady c.session (final (readReply c)).session ∧
      (halt? (readReply c) = none ∨ ∃ e, halt? (readReply c) = some (.failed (.server e)))) ∨
    ∃ halt, halt? (readReply c) = some halt ∧ Follows c (some halt) (final (readReply c)) := by
  have hreplies := takeAll_replies (Nat.lt_succ_self c.session.channel.unread.length)
  cases htake : takeAll (c.session.channel.unread.length + 1) c with
  | error halt c' =>
      rw [htake] at hreplies
      rw [readReply_of_error htake]
      exact .inr ⟨halt, rfl, hreplies.follows⟩
  | ok _ c' =>
      rw [htake] at hreplies
      have hf : Follows c none c' := hreplies.follows
      have hdeliver : Follows c none { c' with deliveries := c'.deliveries.push .completed } :=
        ⟨hf.history, hf.options, hf.forgets, hf.preparing, hf.quiet, hf.calm, hf.fatal, hf.silent,
          hf.firstError⟩
      have hup : UpToReady c.session c'.session := hreplies.upToReady rfl
      rw [readReply_of_ok htake]
      rw [final_lift]
      refine .inl ⟨hdeliver, hup, ?_⟩
      rcases hf.firstError with h | ⟨e, h⟩
      · rw [h, hfirst]
        exact .inl rfl
      · rw [h]
        exact .inr ⟨e, rfl⟩

end Session.Conversation

end PgClient
