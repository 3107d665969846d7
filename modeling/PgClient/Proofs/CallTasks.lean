import PgClient.Proofs.Calls
import PgClient.Proofs.Task

/-!
# Calls with seams

What others may do to a session they do while nobody holds on to it: after a message was read,
once something was made of it, or before and after something is sent. Each call is a task whose
seams are there, for what it does to the session; run without a pause it is the call
(`Session.Call.task_agrees`).
-/

namespace PgClient

open Exchange

namespace Session

/-! ## The steps of a call -/

/-- A message of the announcement. Others may come in once it was read. -/
def announcing : Task Session Bool :=
  .step (receive .startup) fun m => .once (announce m)

/-- The beginning of a session. -/
def beginning : Task Session Unit :=
  (Task.loop (violation .sessionSetup) announcing maxStartupMessages).attempt.bind fun
    | .ok () => .once (do record (.ready (← get).party (← get).backendPid))
    | .error e => .step abort fun _ => .once (fail e)

/-- A message that arrives between requests. -/
def noticing (wait : Nat) : Task Session Bool :=
  .step (onChannel (Channel.awaitOctet wait)) fun
    | none => .done true
    | some octet =>
      .step (do onChannel (Channel.receiveAfter .idle octet (← get).options.showErrorDetail))
        fun m => .step (takeIdle m) fun _ => .done false

/-- What arrives between requests. -/
def takingNotices (wait : Option Nat) : Task Session Unit :=
  .step ensureOpen fun _ => .step get fun s =>
    if s.status.transaction ≠ .idle then .done ()
    else .step get fun s =>
      (Task.loop (pure ()) (noticing (wait.getD 0)) (s.channel.unread.length + 1)).attempt.bind
        fun result => .once (do checkFatal result; Exchange.lift result)

namespace Conversation

/-- A message of a reply. -/
def taking : Task Conversation Bool :=
  .step (onSession (receive .reply)) fun m => .once (take m)

/-- The reply to a request. -/
def reading : Task Conversation Unit :=
  .step get fun c =>
    (Task.loop (throw .waiting) taking (c.session.channel.unread.length + 1)).bind fun _ =>
      .once do
        deliver .completed
        if let some error := (← get).firstError then Exchange.fail error

/-- A request, after which a failure is looked into. -/
def conversing (request : Task Conversation Unit) : Task Conversation Unit :=
  request.attempt.bind fun result => .once (onSession (checkFatal result))

def querying (sql : String) : Task Conversation Unit :=
  .step get fun c =>
    if c.session.isClosed then .done ()
    else match FrontendMessage.encode c.session.channel.charset (.query sql) with
      | .error _ => .done ()
      | .ok octets =>
        .step (onSession do record (.sending (.query sql)); onChannel (Channel.send octets))
          fun _ => conversing (.step (onSession (onChannel Channel.flush)) fun _ => reading)

def executing (statement : Statement) (parameters : List (Option Bytes)) :
    Task Conversation Unit :=
  .step get fun c =>
    if c.session.isClosed then .done ()
    else
      let statement := aboutToRun c.session.epoch { statement with isSuspended := false }
      .step (modify fun c => { c with statement := some statement }) fun _ =>
        conversing (.step (onSession (sendStatement statement parameters)) fun preparing =>
          .step (modify fun c => { c with preparing }) fun _ => reading)

end Conversation

/-! ## Without a pause -/

theorem announcing_run : announcing.run = announceNext := by
  unfold announcing announceNext
  simp only [Task.run, Task.run_once]

theorem beginning_run : beginning.run = begin := by
  have hstart : (Task.loop (violation .sessionSetup) announcing maxStartupMessages).run = start :=
    Task.run_loop (show readAnnouncement 0 = _ from rfl)
      (fun n => by rw [announcing_run]; exact readAnnouncement_succ n) maxStartupMessages
  unfold beginning begin
  rw [Task.run_bind, Task.run_attempt, hstart]
  refine bind_congr fun result => ?_
  cases result <;> simp only [Task.run, Task.run_once]

theorem noticing_run (wait : Nat) : (noticing wait).run = noticeNext wait := by
  unfold noticing noticeNext
  rw [Task.run]
  refine bind_congr fun octet => ?_
  cases octet with
  | none => rfl
  | some octet => simp only [Task.run, bind_assoc]

theorem takingNotices_run (wait : Option Nat) : (takingNotices wait).run = takeNotices wait := by
  have hloop : ∀ wait rounds, (Task.loop (pure ()) (noticing wait) rounds).run =
      takeArriving wait rounds := fun wait =>
    Task.run_loop (show takeArriving wait 0 = _ from rfl) fun n => by
      rw [noticing_run]
      exact takeArriving_succ wait n
  unfold takingNotices takeNotices
  simp only [Task.run]
  refine bind_congr fun _ => bind_congr fun s => ?_
  split
  · rfl
  · simp only [Task.run, Task.run_bind, Task.run_attempt, Task.run_once, hloop]

namespace Conversation

theorem taking_run : taking.run = takeNext := by
  unfold taking takeNext
  simp only [Task.run, Task.run_once]

theorem reading_run : reading.run = readReply := by
  have hloop : ∀ rounds, (Task.loop (throw .waiting) taking rounds).run = takeAll rounds :=
    Task.run_loop (show takeAll 0 = _ from rfl) fun n => by
      rw [taking_run]
      exact takeAll_succ n
  unfold reading readReply
  rw [Task.run]
  refine bind_congr fun c => ?_
  rw [Task.run_bind, hloop]
  exact bind_congr fun _ => Task.run_once _

/-- A task comes to the same session as an operation does. -/
def Agrees {α β : Type} (r : EStateM.Result Halt Conversation α)
    (r' : EStateM.Result Halt Session β) : Prop :=
  halt? r = halt? r' ∧ (final r).session = final r'

theorem conversing_agrees (request : Task Conversation Unit) (statement : Option Statement)
    (s₀ s : Session) :
    Agrees ((conversing request).run { session := s, statement })
      (converse { session := s₀, statement } request.run s) := by
  unfold conversing converse
  simp only [Task.run_bind, Task.run_attempt, Task.run_once]
  rw [bind_apply]
  cases request.run.attempt { session := s, statement } with
  | error halt c => exact ⟨rfl, rfl⟩
  | ok result c =>
      simp only [onSession]
      rw [Agrees, halt?_zoom, final_zoom, bind_apply]
      cases checkFatal result c.session <;> exact ⟨rfl, rfl⟩

/-- A query prepares nothing under a name. -/
theorem request_sendQuery (s₀ s : Session) :
    converse { session := s₀ } (request sendQuery) s =
      converse { session := s₀ } (do onSession (onChannel Channel.flush); readReply) s := by
  refine converse_congr (c := { session := s₀ }) ?_
  rw [request_apply, bind_apply, onSession_apply, onChannel_apply]
  rcases sendQuery_cases s with ⟨c, hflush, hok⟩ | ⟨e, c, hflush, -, -, herror⟩
  · rw [hok, hflush]
  · rw [herror, hflush]

theorem querying_agrees (sql : String) (s : Session) :
    Agrees ((querying sql).run { session := s }) (query sql s) := by
  unfold querying query
  simp only [Task.run]
  rw [bind_of_ok (get_apply _), bind_of_ok (get_apply s)]
  simp only []
  cases s.isClosed with
  | true => exact ⟨rfl, rfl⟩
  | false =>
      cases FrontendMessage.encode s.channel.charset (.query sql) with
      | error e => exact ⟨rfl, rfl⟩
      | ok octets =>
          let channel := { s.channel.told (.sending (.query sql)) with
            outgoing := s.channel.outgoing ++ octets }
          have hsend : (do record (.sending (.query sql)); onChannel (Channel.send octets) :
              Exchange Session Unit) s = .ok () { s with channel } := rfl
          have hagrees := conversing_agrees
            (.step (onSession (onChannel Channel.flush)) fun _ => reading) none s
            { s with channel }
          simp only [Task.run, reading_run, ← request_sendQuery] at hagrees
          simp only [Task.run, Bool.false_eq_true, if_false]
          rw [bind_of_ok (onSession_of_ok hsend)]
          exact hagrees

theorem executing_agrees (statement : Statement) (parameters : List (Option Bytes)) (s : Session) :
    Agrees ((executing statement parameters).run { session := s })
      (execute statement parameters s) := by
  unfold executing execute
  simp only [Task.run]
  rw [bind_of_ok (get_apply _), bind_of_ok (get_apply s)]
  simp only []
  cases s.isClosed with
  | true => exact ⟨rfl, rfl⟩
  | false =>
      generalize aboutToRun s.epoch { statement with isSuspended := false } = statement
      have hagrees := conversing_agrees
        (.step (onSession (sendStatement statement parameters)) fun preparing =>
          .step (modify fun c => { c with preparing }) fun _ => reading) (some statement) s s
      simp only [Task.run, reading_run] at hagrees
      simp only [Task.run, Bool.false_eq_true, if_false]
      exact hagrees

end Conversation

/-- A call that a session can be asked for. -/
inductive Call where
  | begin
  | query (sql : String)
  | execute (statement : Statement) (parameters : List (Option Bytes))
  | takeNotices (wait : Option Nat)
  | close
  | abort
  | borrow (key : StatementKey)
  | create (key : StatementKey)
  | release (statement : Statement)

namespace Call

/-- What a call does to a session, whatever it returns. -/
def perform : Call → Exchange Session Unit
  | begin => Session.begin
  | query sql => discard (Session.query sql)
  | execute statement parameters => discard (Session.execute statement parameters)
  | takeNotices wait => Session.takeNotices wait
  | close => Session.close
  | abort => Session.abort
  | borrow key => discard (borrowStatement key)
  | create key => discard (createStatement key)
  | release statement => releaseStatement statement

/-- The call with seams. -/
def task : Call → Task Conversation Unit
  | begin => beginning.zoom Conversation.session fun s c => { c with session := s }
  | query sql => Conversation.querying sql
  | execute statement parameters => Conversation.executing statement parameters
  | takeNotices wait =>
    (takingNotices wait).zoom Conversation.session fun s c => { c with session := s }
  | close => .once (Conversation.onSession Session.close)
  | abort => .once (Conversation.onSession Session.abort)
  | borrow key => .once (Conversation.onSession (discard (borrowStatement key)))
  | create key => .once (Conversation.onSession (discard (createStatement key)))
  | release statement => .once (Conversation.onSession (releaseStatement statement))

end Call

/-- Without a pause it is the call. -/
theorem Call.task_agrees (call : Call) (s : Session) :
    Conversation.Agrees (call.task.run { session := s }) (call.perform s) := by
  have hzoom : ∀ {α : Type} (x : Exchange Session α),
      Conversation.Agrees (Conversation.onSession x { session := s }) (x s) := by
    intro α x
    unfold Conversation.onSession
    rw [Conversation.Agrees, halt?_zoom, final_zoom]
    exact ⟨rfl, rfl⟩
  have hdiscard : ∀ {α : Type} {x : Exchange Session α}
      {r : EStateM.Result Halt Conversation Unit}, Conversation.Agrees r (x s) →
      Conversation.Agrees r (discard x s) := by
    intro α x r h
    have hbind : discard x s = (x >>= fun _ => pure ()) s := rfl
    rw [hbind, bind_apply]
    cases hx : x s <;> rw [hx] at h <;> exact h
  have hrun : ∀ t : Task Session Unit,
      (t.zoom Conversation.session fun s c => { c with session := s }).run =
        Conversation.onSession t.run :=
    Task.run_zoom (fun _ _ => rfl) (fun _ => rfl) fun _ _ _ => rfl
  cases call with
  | begin =>
      rw [task, hrun, beginning_run]
      exact hzoom _
  | takeNotices wait =>
      rw [task, hrun, takingNotices_run]
      exact hzoom _
  | query sql => exact hdiscard (Conversation.querying_agrees sql s)
  | execute statement parameters =>
      exact hdiscard (Conversation.executing_agrees statement parameters s)
  | close | abort | borrow | create | release =>
      rw [task, Task.run_once]
      exact hzoom _

end Session

end PgClient
