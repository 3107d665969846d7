import PgClient.Proofs.Standing

/-!
# What errors are blamed on

A request hands on the errors of its reply one by one, and each names as its
cause the first error of the failed transaction. Which one that is was decided by
messages of any age: of the announcement, of replies long ago, and of what arrived
in between. So the result is about whole histories. At every moment of a session,
between two messages as well as between two calls, the state of the transaction
and the error that made it fail are those of the messages heard so far, and the
errors a call comes to are those of the messages it heard.
-/

namespace PgClient

open Exchange

/-- The error of the server that is delivered. -/
def Delivery.serverError? : Delivery → Option ServerError
  | .error e => e.serverError?
  | _ => none

namespace Session

/-! ## Replies -/

namespace Conversation

open BackendMessage

/-- The errors of the server that were handed on. -/
def serverErrors (c : Conversation) : List ServerError :=
  c.deliveries.toList.filterMap Delivery.serverError?

/-- Errors were handed on, and the first of them is kept. -/
structure Hands (es : List ServerError) (c c' : Conversation) : Prop where
  errors : c'.serverErrors = c.serverErrors ++ es
  first : c'.firstError = c.firstError.or (es.head?.map Error.server)

theorem Hands.of_eq {c c' : Conversation} (hdeliveries : c'.deliveries = c.deliveries)
    (hfirst : c'.firstError = c.firstError) : Hands [] c c' := by
  refine ⟨?_, ?_⟩
  · rw [List.append_nil, serverErrors, hdeliveries]
    rfl
  · rw [hfirst]
    exact (Option.or_none).symm

theorem Hands.trans {es es' : List ServerError} {c c₁ c' : Conversation} (h : Hands es c c₁)
    (h' : Hands es' c₁ c') : Hands (es ++ es') c c' := by
  refine ⟨?_, ?_⟩
  · rw [h'.errors, h.errors, List.append_assoc]
  · rw [h'.first, h.first, Option.or_assoc, List.head?_append, Option.map_or]

theorem Advances.hands {m : BackendMessage} {c c' : Conversation} (h : Advances m c c') :
    Hands (c.session.standing.errors c.session.options.showErrorDetail [m]) c c' := by
  have hdeliveries := h.deliveries
  have hfirst := h.firstError
  have hhanded : ∀ ds : List Delivery, c'.deliveries.toList = c.deliveries.toList ++ ds →
      c'.serverErrors = c.serverErrors ++ ds.filterMap Delivery.serverError? := by
    intro ds hds
    rw [serverErrors, hds, List.filterMap_append]
    rfl
  cases m with
  | _ => exact ⟨hhanded _ hdeliveries, hfirst⟩

/-- A message is handed on as the error it is, before anything can go wrong with it. -/
theorem take_hands (m : BackendMessage) :
    Obeys (fun c _ c' =>
      Hands (c.session.standing.errors c.session.options.showErrorDetail [m]) c c') (take m) := by
  refine take_obeys Advances.hands fun hm c _ s => ?_
  rw [Standing.errors, hm]
  exact .of_eq rfl rfl

theorem onReport_standing (report : Report) (c : Conversation) :
    ∃ c', onReport report c = .ok () c' ∧ c'.session.standing =
      c.session.standing.on c.session.options.showErrorDetail (.errorResponse report) := by
  unfold onReport
  rw [bind_of_ok (onSession_of_ok (onError_apply report c.session))]
  split
  · rw [bind_of_ok (get_apply _)]
    simp only []
    cases hname : c.statement.bind Statement.name with
    | none => exact ⟨_, rfl, rfl⟩
    | some name => exact ⟨_, rfl, rfl⟩
  · exact ⟨_, rfl, rfl⟩

/-- A message does to the standing what it says, whatever else it does. -/
theorem take_standing (m : BackendMessage) :
    Obeys (fun c _ c' => c'.session.standing =
      c.session.standing.on c.session.options.showErrorDetail m) (take m) := by
  cases m with
  | readyForQuery status => exact (onSession_obeys (onReady_standing status)).followed true
  | parameterStatus name value =>
      exact (onSession_obeys (onParameter_standing name value)).followed false
  | noticeResponse report => exact fun _ => rfl
  | notificationResponse notification => exact fun _ => rfl
  | parseComplete =>
      intro c
      rw [show take .parseComplete c = _ from bind_of_ok (onParsed_apply c)]
      rfl
  | commandComplete tag =>
      intro c
      unfold take
      simp only []
      split
      · rw [bind_of_ok (onSession_of_ok (forgetStatements_apply c.session))]
        cases c.session.forgetsOnDrop <;> rfl
      · rfl
  | errorResponse report =>
      intro c
      obtain ⟨c', hc', hstanding⟩ := onReport_standing report c
      rw [show take (.errorResponse report) c = .ok false c' from bind_of_ok hc']
      exact hstanding
  | _ => exact fun _ => rfl

/-- Messages were received, and the errors among them handed on. -/
structure Tracks (c : Conversation) (ms : List BackendMessage) (c' : Conversation) : Prop where
  learns : Learns c.session ms c'.session
  hands : Hands (c.session.standing.errors c.session.options.showErrorDetail ms) c c'

theorem Tracks.trans {c d e : Conversation} {ms ms' : List BackendMessage} (h : Tracks c ms d)
    (h' : Tracks d ms' e) : Tracks c (ms ++ ms') e := by
  refine ⟨h.learns.trans h'.learns, ?_⟩
  have hboth := h.hands.trans h'.hands
  rw [Standing.errors_append, ← h.learns.standing]
  rwa [h.learns.options] at hboth

/-- One message of a reply is read, and then taken in. -/
theorem tracks_of_take {c c' : Conversation} {m : BackendMessage} {s : Session} {h : Option Halt}
    (hread : Reads .reply c.session m s) (hhandles : Handles m { c with session := s } h c')
    (hstanding : c'.session.standing = s.standing.on s.options.showErrorDetail m)
    (hhands : Hands (s.standing.errors s.options.showErrorDetail [m])
      { c with session := s } c') : Tracks c [m] c' := by
  refine ⟨hread.receives.learns hhandles.channel hhandles.options hstanding, ?_⟩
  rw [hread.receives.same.1, hread.receives.same.2] at hhands
  exact ⟨hhands.errors, hhands.first⟩

/-- Wherever a reply breaks off, after however many messages, the standing is that
of the messages, and the errors among them were handed on. -/
theorem takeAll_tracks (rounds : Nat) :
    Obeys (fun c _ c' => ∃ ms, Tracks c ms c') (takeAll rounds) := by
  induction rounds with
  | zero => exact fun c => ⟨[], .refl _, .of_eq rfl rfl⟩
  | succ rounds ih =>
      intro c
      cases hread : receive .reply c.session with
      | error halt s =>
          rw [takeAll_broken hread]
          exact ⟨[], (receive_unheard hread).1, .of_eq rfl rfl⟩
      | ok m s =>
          have hr := receive_reads (by decide) hread
          have hstanding := take_standing m { c with session := s }
          have hhands := take_hands m { c with session := s }
          have hhandles := take_handles m { c with session := s }
          rw [takeAll_step hread, bind_apply]
          cases htake : take m { c with session := s } with
          | error halt c' =>
              rw [htake] at hstanding hhands hhandles
              exact ⟨[m], tracks_of_take hr hhandles hstanding hhands⟩
          | ok last c₁ =>
              rw [htake] at hstanding hhands hhandles
              have hone := tracks_of_take hr hhandles hstanding hhands
              cases last with
              | true => exact ⟨[m], hone⟩
              | false =>
                  obtain ⟨ms, hrest⟩ := ih c₁
                  exact ⟨[m] ++ ms, hone.trans hrest⟩

end Conversation

/-! ## Requests -/

open Conversation FrontendMessage

/-- A request came back, and has handed on the errors among the messages it
received. -/
structure Gathers (s : Session) (ms : List BackendMessage) (reply : Reply) (s' : Session) :
    Prop where
  learns : Learns s ms s'
  errors : reply.deliveries.filterMap Delivery.serverError? =
    s.standing.errors s.options.showErrorDetail ms
  result : ∀ e, reply.result = .error (.server e) →
    (s.standing.errors s.options.showErrorDetail ms).head? = some e
  unsent : ∀ fault, reply.result = .error (.statementCreation fault) → ms = []

/-- The same for a request that may wait for good instead of coming back. -/
def Gathered (s : Session) : EStateM.Result Halt Session Reply → Prop
  | .ok reply s' => ∃ ms, Gathers s ms reply s'
  | .error _ s' => ∃ ms, Learns s ms s'

theorem Gathered.learns {s : Session} {r : EStateM.Result Halt Session Reply} (h : Gathered s r) :
    ∃ ms, Learns s ms (final r) := by
  cases r with
  | ok reply s' =>
      obtain ⟨ms, hh⟩ := h
      exact ⟨ms, hh.learns⟩
  | error halt s' => exact h

theorem Gathered.of_learns {s s₁ : Session} {r : EStateM.Result Halt Session Reply}
    (hl : Learns s [] s₁) (h : Gathered s₁ r) : Gathered s r := by
  cases r with
  | ok reply s' =>
      obtain ⟨ms, hh⟩ := h
      have herrors := hh.errors
      have hresult := hh.result
      rw [hl.options, hl.standing] at herrors hresult
      exact ⟨ms, hl.trans hh.learns, herrors, hresult, hh.unsent⟩
  | error halt s' =>
      obtain ⟨ms, hh⟩ := h
      exact ⟨ms, hl.trans hh⟩

/-- Nothing was received. -/
theorem gathered_of_refused {s s' : Session} {e : Error} {statement : Option Statement}
    (hl : Learns s [] s') (he : e.serverError? = none) :
    Gathered s (.ok { result := .error e, deliveries := [], statement } s') := by
  refine ⟨[], hl, rfl, ?_, fun _ _ => rfl⟩
  rintro error ⟨⟩
  cases he

/-- A failure of a request is looked into, and nothing is received meanwhile. -/
theorem converse_of_failed_learns {c c' : Conversation} {request : Exchange Conversation Unit}
    {s s₁ : Session} {ms : List BackendMessage} {e : Error}
    (h : request { c with session := s } = .error (.failed e) c')
    (hlearns : Learns s₁ ms c'.session) :
    ∃ s', Learns s₁ ms s' ∧ converse c request s = .ok
      { result := .error e, deliveries := c'.deliveries.toList, statement := c'.statement } s' := by
  obtain ⟨s', hs', hends⟩ := checkFatal_ends (α := Unit) e c'.session
  have hends' := ends_learns hends ((checkFatal_unmoved _).ok hs')
  exact ⟨s', hlearns.trans_nil hends', converse_of_checked h hs'⟩

theorem serverError?_of_isFatal {e : Error} (h : e.isFatal = true) : e.serverError? = none :=
  Halt.serverError?_of_isFatal h

theorem converse_gathered {send : Exchange Session (Option String)} {statement : Option Statement}
    {preparing : Option String} {s₀ s s₁ : Session} (hsend : send s = .ok preparing s₁) :
    Gathered s₁ (converse { session := s₀, statement } (request send) s) := by
  have hrun := request_apply send statement s
  rw [hsend] at hrun
  simp only [] at hrun
  have hreplies := takeAll_replies (c := { session := s₁, statement, preparing })
    (Nat.lt_succ_self s₁.channel.unread.length)
  obtain ⟨ms, htracks⟩ := takeAll_tracks (s₁.channel.unread.length + 1)
    { session := s₁, statement, preparing }
  have hdeliveries := htracks.hands.errors
  have hfirst := htracks.hands.first
  cases htake : takeAll (s₁.channel.unread.length + 1) { session := s₁, statement, preparing } with
  | error halt c =>
      rw [htake] at hreplies htracks hdeliveries
      rw [readReply_of_error htake] at hrun
      cases halt with
      | waiting =>
          rw [converse_of_waiting (c := { session := s₀, statement }) hrun]
          exact ⟨ms, htracks.learns⟩
      | failed e =>
          obtain ⟨s', hl, hconverse⟩ :=
            converse_of_failed_learns (c := { session := s₀, statement }) hrun htracks.learns
          rw [hconverse]
          have hfatal := hreplies.follows.fatal _ rfl
          refine ⟨ms, hl, hdeliveries, ?_, ?_⟩
          · rintro error ⟨⟩
            cases hfatal
          · rintro fault ⟨⟩
            cases hfatal
  | ok _ c =>
      rw [htake] at htracks hdeliveries hfirst
      have hpushed : (c.deliveries.push .completed).toList.filterMap Delivery.serverError? =
          s₁.standing.errors s₁.options.showErrorDetail ms := by
        rw [Array.toList_push, List.filterMap_append]
        exact (List.append_nil _).trans hdeliveries
      rw [readReply_of_ok htake, show c.firstError = _ from hfirst] at hrun
      simp only [Option.none_or] at hrun
      cases hhead : (s₁.standing.errors s₁.options.showErrorDetail ms).head? with
      | none =>
          rw [hhead] at hrun
          rw [converse_of_ok (c := { session := s₀, statement }) hrun]
          exact ⟨ms, htracks.learns, hpushed, nofun, nofun⟩
      | some error =>
          rw [hhead] at hrun
          obtain ⟨s', hl, hconverse⟩ :=
            converse_of_failed_learns (c := { session := s₀, statement }) hrun htracks.learns
          rw [hconverse]
          refine ⟨ms, hl, hpushed, ?_, nofun⟩
          rintro _ ⟨⟩
          exact hhead

theorem sendQuery_learns (s : Session) (sql : String) (octets : Bytes) :
    Learns s [] (final (sendQuery (s.drafts [.query sql] octets))) := by
  have hkeeps : ∀ {c : Channel}, (s.drafts [.query sql] octets).channel.Keeps c →
      Learns s [] { s.drafts [.query sql] octets with channel := c } :=
    fun hc => .of_prepares (drafts_prepares s [.query sql] octets hc) rfl rfl
  rcases sendQuery_cases (s.drafts [.query sql] octets) with
    ⟨c, hflush, hok⟩ | ⟨e, c, hflush, -, -, herror⟩
  · rw [hok]
    exact hkeeps (Channel.flush_keeps.ok hflush)
  · rw [herror]
    exact hkeeps (Channel.flush_keeps.error hflush)

theorem query_gathered (sql : String) (s : Session) : Gathered s (query sql s) := by
  rcases query_refused_or_sent sql s with ⟨e, hrun, hcause⟩ | ⟨hopen, octets, hencode⟩
  · rw [hrun]
    refine gathered_of_refused (.refl s) ?_
    rcases hcause with ⟨-, rfl⟩ | ⟨-, fault, rfl⟩ <;> rfl
  · rw [query_eq hopen hencode]
    have hlearns := sendQuery_learns s sql octets
    cases hsend : sendQuery (s.drafts [.query sql] octets) with
    | ok preparing s₁ =>
        rw [hsend] at hlearns
        exact .of_learns hlearns (converse_gathered hsend)
    | error halt s₁ =>
        rw [hsend] at hlearns
        have hrun := request_apply sendQuery none (s.drafts [.query sql] octets)
        rw [hsend] at hrun
        rcases sendQuery_cases (s.drafts [.query sql] octets) with
          ⟨c, -, hok⟩ | ⟨e, c, -, hfatal, -, herror⟩
        · rw [hok] at hsend
          cases hsend
        · rw [herror] at hsend
          cases hsend
          obtain ⟨s', hl, hconverse⟩ :=
            converse_of_failed_learns (c := { session := s }) hrun hlearns
          rw [hconverse]
          exact gathered_of_refused hl (serverError?_of_isFatal hfatal)

theorem Sends.learns {st : Statement} {parameters : List (Option Bytes)} {s : Session}
    {r : EStateM.Result Halt Session (Option String)} (h : Sends st parameters s r) :
    Learns s [] (final r) := by
  refine .of_prepares h.prepares ?_ ?_ <;> cases h <;> rfl

theorem execute_gathered (st : Statement) (parameters : List (Option Bytes)) (s : Session) :
    Gathered s (execute st parameters s) := by
  cases hclosed : s.isClosed with
  | true =>
      rw [execute_of_closed hclosed]
      exact gathered_of_refused (.refl s) rfl
  | false =>
      rw [execute_eq hclosed]
      have hsends := sendStatement_sends (s.readied st) parameters s
      have hlearns := hsends.learns
      have hrun := request_apply (sendStatement (s.readied st) parameters)
        (some (s.readied st)) s
      cases hsend : sendStatement (s.readied st) parameters s with
      | ok preparing s₁ =>
          rw [hsend] at hlearns
          exact .of_learns hlearns (converse_gathered hsend)
      | error halt s₁ =>
          rw [hsend] at hsends hlearns hrun
          obtain ⟨e, rfl, hkind⟩ : ∃ e, halt = .failed e ∧ e.serverError? = none := by
            cases hsends with
            | unclosed => exact ⟨_, rfl, rfl⟩
            | refused => exact ⟨_, rfl, rfl⟩
            | unwritten _ _ hfatal => exact ⟨_, rfl, serverError?_of_isFatal hfatal⟩
          obtain ⟨s', hl, hconverse⟩ :=
            converse_of_failed_learns (c := { session := s, statement := some (s.readied st) }) hrun
              hlearns
          rw [hconverse]
          exact gathered_of_refused hl hkind

/-! ## Every moment of a session -/

/-- The messages a session received since another moment of it. -/
def heard (s₀ s : Session) : List BackendMessage :=
  (s.history.drop s₀.history.length).filterMap Event.message?

theorem Learns.heard {s s' : Session} {ms : List BackendMessage} (h : Learns s ms s') :
    s.heard s' = ms := by
  obtain ⟨events, hevents, hmessages⟩ := h.history
  unfold Session.heard
  rw [hevents, List.drop_left, hmessages]

/-- The moments of a session that begins in a state: between any two calls, and
within a call whenever some number of messages was taken in. -/
inductive Moment (s₀ : Session) : Session → Prop where
  | start : Moment s₀ s₀
  /-- So many messages of the announcement were taken in. -/
  | announced (limit : Nat) : Moment s₀ (final (readAnnouncement limit s₀))
  | begun : Moment s₀ (final (begin s₀))
  | called {w : World} (hw : Moment s₀ w.session) (operation : Operation) :
      Moment s₀ (w.act operation).session
  /-- A query was sent. -/
  | queried {s : Session} (hs : Moment s₀ s) (sql : String) (octets : Bytes) :
      Moment s₀ (final (sendQuery (s.drafts [.query sql] octets)))
  /-- A statement was sent. -/
  | executed {s : Session} (hs : Moment s₀ s) (st : Statement)
      (parameters : List (Option Bytes)) : Moment s₀ (final (sendStatement st parameters s))
  /-- So many messages of a reply were taken in. -/
  | replied {c : Conversation} (hc : Moment s₀ c.session) (rounds : Nat) :
      Moment s₀ (final (takeAll rounds c)).session
  /-- So many messages that arrived between requests were taken in. -/
  | noticed {s : Session} (hs : Moment s₀ s) (wait rounds : Nat) :
      Moment s₀ (final (takeArriving wait rounds s))

/-- Only calls that talk to the server learn anything. -/
theorem act_learns (w : World) (operation : Operation) :
    ∃ ms, Learns w.session ms (w.act operation).session := by
  have hlocal : ∀ {operation : Operation}, operation.isLocal = true →
      ∃ ms, Learns w.session ms (w.act operation).session := by
    intro operation h
    obtain ⟨journal, asides, statements, pendingClose, hact, hhistory, haside⟩ := w.act_local h
    rw [hact]
    exact ⟨[], ⟨asides, hhistory, filterMap_message?_of_isAside haside⟩, rfl, rfl⟩
  cases operation with
  | borrow | create | setFetchSize | release => exact hlocal rfl
  | query sql => exact (query_gathered sql w.session).learns
  | execute id parameters =>
      rcases w.act_execute id parameters with hact | ⟨h, -, hact⟩
      · exact ⟨[], by rw [hact]; exact .refl _⟩
      · rw [hact]
        exact (execute_gathered h.statement parameters w.session).learns
  | takeNotices wait =>
      obtain ⟨ms, hlearns, -⟩ := takeNotices_relays wait w.session
      exact ⟨ms, hlearns⟩
  | close => exact ⟨[], .of_keeps (close_keeps w.session) (unmoved_endures.close w.session)⟩
  | abort => exact ⟨[], .of_keeps (abort_keeps w.session) (unmoved_endures.abort w.session)⟩
  | arrive octets ended faults => exact ⟨[], ⟨[], (List.append_nil _).symm, rfl⟩, rfl, rfl⟩

/-- Whatever moment it is, the standing is that of the messages so far. -/
theorem Moment.learns {s₀ s : Session} (h : Moment s₀ s) : ∃ ms, Learns s₀ ms s := by
  have hnext : ∀ {t u : Session}, (∃ ms, Learns s₀ ms t) → (∃ ms, Learns t ms u) →
      ∃ ms, Learns s₀ ms u := by
    rintro t u ⟨ms, ht⟩ ⟨ms', hu⟩
    exact ⟨ms ++ ms', ht.trans hu⟩
  have hrelays : ∀ {t u : Session} {halt : Option Halt}, Relays t halt u → ∃ ms, Learns t ms u :=
    fun ⟨ms, hlearns, _⟩ => ⟨ms, hlearns⟩
  induction h with
  | start => exact ⟨[], .refl s₀⟩
  | announced limit => exact hrelays (readAnnouncement_relays limit s₀)
  | begun => exact hrelays (begin_relays s₀)
  | called _ operation ih => exact hnext ih (act_learns _ operation)
  | queried _ sql octets ih => exact hnext ih ⟨[], sendQuery_learns _ sql octets⟩
  | executed _ st parameters ih => exact hnext ih ⟨[], (sendStatement_sends st parameters _).learns⟩
  | @replied c _ rounds ih =>
      obtain ⟨ms, htracks⟩ := takeAll_tracks rounds c
      exact hnext ih ⟨ms, htracks.learns⟩
  | noticed _ wait rounds ih => exact hnext ih (hrelays (takeArriving_relays wait rounds _))

/-- What a session knows of its transaction is what it heard. -/
structure Stands (s₀ s : Session) : Prop where
  history : s₀.history <+: s.history
  transaction : s.status.transaction = transactionOf (s₀.heard s)
  failCause : s.failCause = causeOf s₀.options.showErrorDetail (s₀.heard s)

/-- The errors of a call between two moments of a session. -/
def errorsBetween (s₀ s s' : Session) : List ServerError :=
  errorsAfter s₀.options.showErrorDetail (s₀.heard s) (s.heard s')

theorem Learns.errorsBetween {s₀ s s' : Session} {before ms : List BackendMessage}
    (h : Learns s₀ before s) (h' : Learns s ms s') (hnew : s₀.standing = {}) :
    s₀.errorsBetween s s' = s.standing.errors s.options.showErrorDetail ms := by
  unfold Session.errorsBetween
  rw [h.heard, h'.heard, ← errors_foldl, h.standing, h.options, hnew]

/-- What the messages of a session's whole life decide about its transaction and
about the errors of its calls. -/
structure Accountable (s₀ : Session) : Prop where
  stands : ∀ s, Moment s₀ s → Stands s₀ s
  /-- A ReadyForQuery that was heard had the one length it may have. -/
  ready : ∀ phase s s' status, phase ≠ .login → receive phase s = .ok (.readyForQuery status) s' →
    s.channel.unread = readyFrame status ++ s'.channel.unread
  query : ∀ s s' sql reply, Moment s₀ s → query sql s = .ok reply s' →
    reply.deliveries.filterMap Delivery.serverError? = s₀.errorsBetween s s' ∧
      ∀ e, reply.result = .error (.server e) → (s₀.errorsBetween s s').head? = some e
  execute : ∀ s s' st parameters reply, Moment s₀ s → execute st parameters s = .ok reply s' →
    reply.deliveries.filterMap Delivery.serverError? = s₀.errorsBetween s s' ∧
      ∀ e, reply.result = .error (.server e) → (s₀.errorsBetween s s').head? = some e
  notices : ∀ s wait, Moment s₀ s → s₀.errorsBetween s (final (takeNotices wait s)) =
    ((halt? (takeNotices wait s)).bind Halt.serverError?).toList
  opening : s₀.errorsBetween s₀ (final (begin s₀)) =
    ((halt? (begin s₀)).bind Halt.serverError?).toList
  blames : ∀ s s', ∀ e ∈ s₀.errorsBetween s s', ∃ front report back,
    s.heard s' = front ++ .errorResponse report :: back ∧
      Blames s₀.options.showErrorDetail (s₀.heard s ++ front) report e

/-- At every moment of a session, and wherever it breaks off, the state of the
transaction is the one reported last. The error that made it fail is the first one
since a state that is not a failure was reported, and it is what the errors after
it are blamed on. -/
theorem causes_determined (channel : Channel) (user database : String)
    (options : SessionOptions) : Accountable (new channel user database options) := by
  generalize hs₀ : new channel user database options = s₀
  have hnew : s₀.standing = {} := by
    rw [← hs₀]
    rfl
  have hgathered : ∀ {s s' : Session} {reply : Reply}, Moment s₀ s → Gathered s (.ok reply s') →
      reply.deliveries.filterMap Delivery.serverError? = s₀.errorsBetween s s' ∧
        ∀ e, reply.result = .error (.server e) → (s₀.errorsBetween s s').head? = some e := by
    rintro s s' reply hs ⟨ms, hgathers⟩
    obtain ⟨before, hlearns⟩ := hs.learns
    rw [hlearns.errorsBetween hgathers.learns hnew]
    exact ⟨hgathers.errors, hgathers.result⟩
  have hrelayed : ∀ {s s' : Session} {halt : Option Halt}, Moment s₀ s → Relays s halt s' →
      s₀.errorsBetween s s' = (halt.bind Halt.serverError?).toList := by
    rintro s s' halt hs ⟨ms, hl, herrors⟩
    obtain ⟨before, hlearns⟩ := hs.learns
    rw [hlearns.errorsBetween hl hnew, herrors]
  refine ⟨fun s hs => ?_, fun phase s s' status hphase hread => ?_, ?_, ?_, ?_, ?_, ?_⟩
  · obtain ⟨ms, hlearns⟩ := hs.learns
    have hstanding := hlearns.standing
    obtain ⟨htransaction, hcause⟩ := foldl_standing s₀.options.showErrorDetail ms
    rw [hnew] at hstanding
    obtain ⟨events, hevents, -⟩ := hlearns.history
    refine ⟨⟨events, hevents.symm⟩, ?_, ?_⟩
    · rw [hlearns.heard, ← htransaction, ← hstanding]
      rfl
    · rw [hlearns.heard, ← hcause, ← hstanding]
      rfl
  · obtain ⟨body, hunread, hframe⟩ := (receive_reads hphase hread).octets
    rw [hunread, hframe status rfl]
    rfl
  · intro s s' sql reply hs hrun
    have hquery := query_gathered sql s
    rw [hrun] at hquery
    exact hgathered hs hquery
  · intro s s' st parameters reply hs hrun
    have hexecute := execute_gathered st parameters s
    rw [hrun] at hexecute
    exact hgathered hs hexecute
  · exact fun s wait hs => hrelayed hs (takeNotices_relays wait s)
  · exact hrelayed .start (begin_relays s₀)
  · exact fun s s' e he => errorsAfter_blames he

end Session

end PgClient
