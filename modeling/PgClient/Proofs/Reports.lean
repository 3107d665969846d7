import PgClient.Proofs.Dispatch
import PgClient.Proofs.Settled

/-!
# What becomes of the server's own words

A server that is about to go away says why, and goes before the reply is over. The
words are in a report, and the request fails with the loss of the connection, so
the question is whether the caller learns of both.

Every report is delivered when it arrives: `Passed` says so of each message and of
a run of them, however the run ends. The result of the request is another matter.
It is the first report only if the reply was read to its end; a connection that is
lost on the way has an error of its own, and that does not name the report.
-/

namespace PgClient

open Exchange

/-- The report that a message of the server is. -/
def BackendMessage.report? : BackendMessage → Option Report
  | .errorResponse report => some report
  | _ => none

def Error.report? (e : Error) : Option Report :=
  e.serverError?.map ServerError.report

def Delivery.report? : Delivery → Option Report
  | .error e => e.report?
  | _ => none

def reportsOf (ms : List BackendMessage) : List Report :=
  ms.filterMap BackendMessage.report?

theorem Error.report?_of_isFatal {e : Error} (h : e.isFatal = true) : e.report? = none := by
  cases e with
  | server error => cases h
  | _ => rfl

theorem BackendMessage.report_reported (showDetail : Bool) (cause : Option ServerError)
    (report : Report) : (reported showDetail cause report).report = report := by
  cases cause <;> rfl

namespace Session

/-! ## The messages of a reply -/

namespace Conversation

open BackendMessage

def told (c : Conversation) : List Report :=
  c.deliveries.toList.filterMap Delivery.report?

/-- Reports were handed to the caller, and the first of them is kept. -/
structure Passed (reports : List Report) (c c' : Conversation) : Prop where
  told : c'.told = c.told ++ reports
  first : ∃ e : Option ServerError, c'.firstError = c.firstError.or (e.map .server) ∧
    e.map ServerError.report = reports.head?

theorem Passed.of_eq {c c' : Conversation} (hdeliveries : c'.deliveries = c.deliveries)
    (hfirst : c'.firstError = c.firstError) : Passed [] c c' := by
  refine ⟨?_, none, ?_, rfl⟩
  · rw [List.append_nil, Conversation.told, hdeliveries]
    rfl
  · rw [hfirst]
    exact (Option.or_none).symm

theorem Passed.trans {reports reports' : List Report} {c c₁ c' : Conversation}
    (h : Passed reports c c₁) (h' : Passed reports' c₁ c') : Passed (reports ++ reports') c c' := by
  obtain ⟨e, hfirst, hhead⟩ := h.first
  obtain ⟨e', hfirst', hhead'⟩ := h'.first
  refine ⟨?_, e.or e', ?_, ?_⟩
  · rw [h'.told, h.told, List.append_assoc]
  · rw [hfirst', hfirst, Option.or_assoc, Option.map_or]
  · rw [Option.map_or, hhead, hhead', List.head?_append]

theorem Passed.before_reading {reports : List Report} {c c' : Conversation} {s : Session}
    (h : Passed reports { c with session := s } c') : Passed reports c c' :=
  ⟨h.told, h.first⟩

theorem Advances.passed {m : BackendMessage} {c c' : Conversation} (h : Advances m c c') :
    Passed (reportsOf [m]) c c' := by
  have hdeliveries := h.deliveries
  have hfirst := h.firstError
  have hhanded : ∀ ds : List Delivery, c'.deliveries.toList = c.deliveries.toList ++ ds →
      c'.told = c.told ++ ds.filterMap Delivery.report? := by
    intro ds hds
    rw [Conversation.told, hds, List.filterMap_append]
    rfl
  cases m with
  | errorResponse report =>
      refine ⟨?_, some _, hfirst, ?_⟩
      · rw [hhanded _ hdeliveries]
        exact congrArg (c.told ++ [·]) (report_reported _ _ report)
      · exact congrArg some (report_reported _ _ report)
  | _ => exact ⟨hhanded _ hdeliveries, none, hfirst, rfl⟩

/-- What follows from a message being handed on is a law of every message, if it is one of changes
to the session alone as well: a message can only be refused before anything was handed on. -/
theorem take_obeys {R : Conversation → Option Halt → Conversation → Prop} {m : BackendMessage}
    (hadvances : ∀ {c c' : Conversation}, Advances m c c' → R c none c')
    (hsession : m.report? = none → ∀ c h s, R c h { c with session := s }) : Obeys R (take m) := by
  have halone : ∀ (x : Exchange Session Unit) (last : Bool), m.report? = none →
      Obeys R (onSession x >>= fun _ => pure last) := by
    intro x last hm c
    rw [bind_apply, onSession_apply]
    cases x c.session with
    | ok a s => exact hsession hm c none s
    | error halt s => exact hsession hm c (some halt) s
  have haccepted : m.tag ≠ .readyForQuery → (∀ allows, m.isAcceptable allows = true) →
      Obeys R (take m) := by
    intro hm hacceptable c
    obtain ⟨c', htake, hc'⟩ := take_advances hm (hacceptable _)
    rw [htake]
    exact hadvances hc'
  cases m with
  | readyForQuery status => exact halone (onReady status) true rfl
  | parameterStatus name value => exact halone (onParameter name value) false rfl
  | _ => exact haccepted nofun fun _ => rfl

/-- A message is handed on before anything can go wrong with it. -/
theorem take_passed (m : BackendMessage) :
    Obeys (fun c _ c' => Passed (reportsOf [m]) c c') (take m) := by
  refine take_obeys Advances.passed fun hm c _ s => ?_
  rw [show reportsOf [m] = [] from List.filterMap_cons_none hm]
  exact .of_eq rfl rfl

theorem Reads.told {s s₁ s' : Session} {m : BackendMessage} (hread : Reads .reply s m s₁)
    (hkeeps : s₁.channel.Keeps s'.channel) :
    ∃ events, s'.history = s.history ++ events ∧ events.filterMap Event.message? = [m] := by
  obtain ⟨events, hevents, haside⟩ := hkeeps.history
  refine ⟨.received m s.options.showErrorDetail :: events, ?_, ?_⟩
  · rw [show s'.history = s₁.history ++ events from hevents, hread.history, List.append_assoc]
    rfl
  · rw [List.filterMap_cons, filterMap_message?_of_isAside haside]
    rfl

/-- Wherever a reply breaks off, the reports before are with the caller. -/
theorem Replies.passed {c c' : Conversation} {h : Option Halt} (hr : Replies c h c') :
    ∃ events, c'.session.history = c.session.history ++ events ∧
      Passed (reportsOf (events.filterMap Event.message?)) c c' := by
  induction hr with
  | broken hread =>
      refine ⟨[], ?_, .of_eq rfl rfl⟩
      rw [List.append_nil]
      exact hread.history
  | refused hread htake =>
      obtain ⟨events, hhistory, hmessages⟩ :=
        Reads.told hread ((take_handles _).error htake).channel
      refine ⟨events, hhistory, ?_⟩
      rw [hmessages]
      exact ((take_passed _).error htake).before_reading
  | ready _ hread htake =>
      obtain ⟨events, hhistory, hmessages⟩ := Reads.told hread ((take_handles _).ok htake).channel
      refine ⟨events, hhistory, ?_⟩
      rw [hmessages]
      exact ((take_passed _).ok htake).before_reading
  | more hread _ htake _ ih =>
      obtain ⟨events, hhistory, hmessages⟩ := Reads.told hread ((take_handles _).ok htake).channel
      obtain ⟨events', hhistory', hpassed⟩ := ih
      refine ⟨events ++ events', ?_, ?_⟩
      · rw [hhistory', hhistory, List.append_assoc]
      · rw [List.filterMap_append, hmessages,
          show ∀ ms ms', reportsOf (ms ++ ms') = reportsOf ms ++ reportsOf ms' from
            fun _ _ => List.filterMap_append]
        exact ((take_passed _).ok htake).before_reading.trans hpassed

/-- A reply from its start: the reports in the journal are those the caller was handed, and the
first of them is kept. -/
structure Hears (s : Session) (events : List Event) (c : Conversation) : Prop where
  history : c.session.history = s.history ++ events
  told : c.told = reportsOf (events.filterMap Event.message?)
  first : ∃ e : Option ServerError, c.firstError = e.map .server ∧
    e.map ServerError.report = (reportsOf (events.filterMap Event.message?)).head?

theorem Replies.hears {s : Session} {statement : Option Statement} {preparing : Option String}
    {h : Option Halt} {c : Conversation} (hr : Replies { session := s, statement, preparing } h c) :
    ∃ events, Hears s events c := by
  obtain ⟨events, hhistory, hpassed⟩ := hr.passed
  obtain ⟨e, hfirst, hhead⟩ := hpassed.first
  exact ⟨events, hhistory, hpassed.told, e, hfirst.trans Option.none_or, hhead⟩

end Conversation

/-! ## The result of a request -/

open Conversation

/-- What a request comes to, given the reports it has received. -/
inductive Outcome (s s' : Session) (reports : List Report) : Except Error Unit → Prop where
  /-- Nothing was sent. -/
  | unsent {fault : StatementFault} (hnone : reports = []) :
      Outcome s s' reports (.error (.statementCreation fault))
  /-- The reply was read to its end: its first report, if there is one, is the result. -/
  | answered {e : Option ServerError} (hready : UpToReady s s')
      (hfirst : e.map ServerError.report = reports.head?) :
      Outcome s s' reports ((e.map Error.server).elim (.ok ()) .error)
  /-- The session ended on the way, with an error that names no report. -/
  | lost {e : Error} (hfatal : e.isFatal = true) (hsilent : e.report? = none)
      (hclosed : s'.isClosed = true) : Outcome s s' reports (.error e)

/-- A request has handed on the reports it received. -/
structure Tells (s : Session) (events : List Event) (reply : Reply) (s' : Session) : Prop where
  history : s'.history = s.history ++ events
  reports : reply.deliveries.filterMap Delivery.report? =
    reportsOf (events.filterMap Event.message?)
  outcome : Outcome s s' (reportsOf (events.filterMap Event.message?)) reply.result

/-- The same for a request that may wait for good instead of coming back. -/
def Told (s : Session) : EStateM.Result Halt Session Reply → Prop
  | .ok reply s' => ∃ events, Tells s events reply s'
  | .error halt s' => halt = .waiting ∧ s'.channel.Silent

theorem Outcome.of_prepares {s s₁ s' : Session} {reports : List Report}
    {result : Except Error Unit} (hp : Prepares s s₁) (h : Outcome s₁ s' reports result) :
    Outcome s s' reports result := by
  cases h with
  | unsent hnone => exact .unsent hnone
  | answered hready hfirst => exact .answered (hp.upToReady hready) hfirst
  | lost hfatal hsilent hclosed => exact .lost hfatal hsilent hclosed

theorem Told.of_prepares {s s₁ : Session} {r : EStateM.Result Halt Session Reply}
    (hp : Prepares s s₁) (h : Told s₁ r) : Told s r := by
  cases r with
  | error halt s' => exact h
  | ok reply s' =>
      obtain ⟨sent, hsent, hnone⟩ := hp.history
      obtain ⟨events, ht⟩ := h
      have hmessages : (sent ++ events).filterMap Event.message? =
          events.filterMap Event.message? := by
        rw [List.filterMap_append, hnone, List.nil_append]
      refine ⟨sent ++ events, ?_, ?_, ?_⟩
      · rw [ht.history, hsent, List.append_assoc]
      · rw [hmessages]
        exact ht.reports
      · rw [hmessages]
        exact ht.outcome.of_prepares hp

/-- Nothing was received. -/
theorem told_of_refused {s s₁ s' : Session} {e : Error} {reply : Reply} (hp : Prepares s s₁)
    (hdeliveries : reply.deliveries = []) (hresult : reply.result = .error e)
    (hends : Ends e s₁ s') (hkind : e.isFatal = true ∨ ∃ fault, e = .statementCreation fault) :
    Told s (.ok reply s') := by
  refine .of_prepares hp ?_
  obtain ⟨events, hhistory, haside⟩ := hends.keeps.channel.history
  have hnone : reportsOf (events.filterMap Event.message?) = [] := by
    rw [filterMap_message?_of_isAside haside]
    rfl
  refine ⟨events, hhistory, ?_, ?_⟩
  · rw [hnone, hdeliveries]
    rfl
  · rw [hnone, hresult]
    rcases hkind with hfatal | ⟨fault, rfl⟩
    · rw [Ends, hfatal] at hends
      exact .lost hfatal (Error.report?_of_isFatal hfatal) hends.2
    · exact .unsent rfl

theorem Conversation.Hears.lost {s s' : Session} {events : List Event} {c : Conversation}
    {e : Error} (h : Hears s events c) (hfatal : e.isFatal = true) (hends : Ends e c.session s') :
    ∃ events', Tells s events'
      { result := .error e, deliveries := c.deliveries.toList, statement := c.statement } s' := by
  rw [Ends, hfatal] at hends
  obtain ⟨asides, hasides, haside⟩ := hends.1.channel.history
  have hmessages : (events ++ asides).filterMap Event.message? =
      events.filterMap Event.message? := by
    rw [List.filterMap_append, filterMap_message?_of_isAside haside, List.append_nil]
  refine ⟨events ++ asides, ?_, ?_, .lost hfatal (Error.report?_of_isFatal hfatal) hends.2⟩
  · rw [show s'.history = c.session.history ++ asides from hasides, h.history, List.append_assoc]
  · rw [hmessages]
    exact h.told

theorem Conversation.Hears.answered {s : Session} {events : List Event} {c : Conversation}
    {e : Option ServerError} (h : Hears s events c) (hready : UpToReady s c.session)
    (hfirst : e.map ServerError.report = (reportsOf (events.filterMap Event.message?)).head?) :
    Tells s events
      { result := (e.map Error.server).elim (.ok ()) .error,
        deliveries := (c.deliveries.push .completed).toList, statement := c.statement }
      c.session := by
  refine ⟨h.history, ?_, .answered hready hfirst⟩
  rw [Array.toList_push, List.filterMap_append]
  exact (List.append_nil _).trans h.told

theorem converse_told {send : Exchange Session (Option String)} {statement : Option Statement}
    {preparing : Option String} {s₀ s s₁ : Session} (hsend : send s = .ok preparing s₁) :
    Told s₁ (converse { session := s₀, statement } (request send) s) := by
  have hrun := request_apply send statement s
  rw [hsend] at hrun
  simp only [] at hrun
  have hreplies := takeAll_replies (c := { session := s₁, statement, preparing })
    (Nat.lt_succ_self s₁.channel.unread.length)
  obtain ⟨events, hhears⟩ := hreplies.hears
  cases htake : takeAll (s₁.channel.unread.length + 1) { session := s₁, statement, preparing } with
  | error halt c =>
      rw [htake] at hreplies hhears
      rw [readReply_of_error htake] at hrun
      have hfollows : Follows { session := s₁, statement, preparing } (some halt) c :=
        hreplies.follows
      cases halt with
      | waiting =>
          rw [converse_of_waiting (c := { session := s₀, statement }) hrun]
          exact ⟨rfl, hfollows.silent rfl⟩
      | failed e =>
          obtain ⟨s', hends, hconverse⟩ :=
            converse_of_failed (c := { session := s₀, statement }) hrun
          rw [hconverse]
          exact hhears.lost (hfollows.fatal e rfl) hends
  | ok _ c =>
      rw [htake] at hreplies hhears
      have hready : UpToReady s₁ c.session := hreplies.upToReady rfl
      obtain ⟨e, hfirst, hhead⟩ := hhears.first
      rw [readReply_of_ok htake, show c.firstError = _ from hfirst] at hrun
      have htells := hhears.answered hready hhead
      cases e with
      | none =>
          rw [converse_of_ok (c := { session := s₀, statement }) hrun]
          exact ⟨events, htells⟩
      | some error =>
          obtain ⟨s', hends, hconverse⟩ :=
            converse_of_failed (c := { session := s₀, statement }) hrun
          cases hends
          rw [hconverse]
          exact ⟨events, htells⟩

theorem query_told (sql : String) (s : Session) : Told s (query sql s) := by
  have hsame : Prepares s s := ⟨rfl, rfl, [], (List.append_nil _).symm, rfl⟩
  rcases query_refused_or_sent sql s with ⟨e, hrun, hcause⟩ | ⟨hopen, octets, hencode⟩
  · rw [hrun]
    rcases hcause with ⟨hclosed, rfl⟩ | ⟨-, fault, rfl⟩
    · exact told_of_refused hsame rfl rfl ⟨.refl s, hclosed⟩ (.inl rfl)
    · exact told_of_refused hsame rfl rfl rfl (.inr ⟨fault, rfl⟩)
  · rw [query_eq hopen hencode]
    rcases sendQuery_cases (s.drafts [.query sql] octets) with
      ⟨c, hflush, hok⟩ | ⟨e, c, hflush, hfatal, -, herror⟩
    · exact (converse_told hok).of_prepares
        (drafts_prepares s [.query sql] octets (Channel.flush_keeps.ok hflush))
    · have hrun := request_apply sendQuery none (s.drafts [.query sql] octets)
      rw [herror] at hrun
      obtain ⟨s', hends, hconverse⟩ := converse_of_failed (c := { session := s }) hrun
      rw [hconverse]
      exact told_of_refused
        (drafts_prepares s [.query sql] octets (Channel.flush_keeps.error hflush)) rfl rfl
        hends (.inl hfatal)

theorem execute_told (st : Statement) (parameters : List (Option Bytes)) (s : Session) :
    Told s (execute st parameters s) := by
  cases hclosed : s.isClosed with
  | true =>
      rw [execute_of_closed hclosed]
      exact told_of_refused ⟨rfl, rfl, [], (List.append_nil _).symm, rfl⟩ rfl rfl
        ⟨.refl s, hclosed⟩ (.inl rfl)
  | false =>
      rw [execute_eq hclosed]
      have hsends := sendStatement_sends (s.readied st) parameters s
      have hprepares := hsends.prepares
      have hrun := request_apply (sendStatement (s.readied st) parameters)
        (some (s.readied st)) s
      cases hsend : sendStatement (s.readied st) parameters s with
      | ok preparing s₁ =>
          rw [hsend] at hprepares
          exact (converse_told hsend).of_prepares hprepares
      | error halt s₁ =>
          rw [hsend] at hsends hprepares hrun
          obtain ⟨e, rfl, hkind⟩ : ∃ e, halt = .failed e ∧
              (e.isFatal = true ∨ ∃ fault, e = .statementCreation fault) := by
            cases hsends with
            | unclosed => exact ⟨_, rfl, .inr ⟨_, rfl⟩⟩
            | refused => exact ⟨_, rfl, .inr ⟨_, rfl⟩⟩
            | unwritten _ _ hfatal => exact ⟨_, rfl, .inl hfatal⟩
          obtain ⟨s', hends, hconverse⟩ :=
            converse_of_failed (c := { session := s, statement := some (s.readied st) }) hrun
          rw [hconverse]
          exact told_of_refused hprepares rfl rfl hends hkind

/-- Whatever the server sends and wherever the connection fails, the caller of a request is handed
every report that arrived whole, in order. The first of them is the error of the request if the
reply was read to its end; if the connection was lost on the way, the session is closed and the
error of the request is about that alone. -/
theorem reports_told (s : Session) :
    (∀ sql, Told s (query sql s)) ∧ ∀ st parameters, Told s (execute st parameters s) :=
  ⟨fun sql => query_told sql s, fun st parameters => execute_told st parameters s⟩

/-- A server that says why it goes, and is gone. -/
def departingSession : Session :=
  new { socket := { inbound := (WireMessage.errorResponse (Utf8.encode
          "SFATAL\x00C57P01\x00Mterminating connection due to administrator command\x00")).encode
                    ended := true }
        host := { name := "localhost", port := 5432 } } "postgres" "postgres" {}

/-- The report was handed on, and yet the error of the request does not name it. -/
theorem lost_error_silent :
    let run : Option (List String × Option Error × Bool) :=
      match query "SELECT 1" departingSession with
      | .ok reply s' => some ((reply.deliveries.filterMap Delivery.report?).map Report.message,
          match reply.result with
          | .ok _ => none
          | .error e => some e, s'.isClosed)
      | .error _ _ => none
    run = some (["terminating connection due to administrator command"],
        some (.connectionFailure .closedByServer), true) ∧
      (Error.connectionFailure .closedByServer).report? = none := by
  decide +kernel

end Session

end PgClient
