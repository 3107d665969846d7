import PgClient.Proofs.Frontend
import PgClient.Proofs.Reply

/-!
# A request, from its first message to the last of its reply

Sending a request is putting messages together, one by one, and then one write.
As long as nothing is written nothing can go wrong but a string that cannot be
sent, and then the request was never made: what was put together so far is in
the journal, and the channel has not moved. `Sends` lists the ways in which the
sending of a statement ends, with what was put together in each.

A request as a whole has three endings besides waiting for good: the reply was
read to its end; it broke off with an error the session does not survive; or
nothing was sent.
-/

namespace PgClient.Session

open Exchange FrontendMessage

/-! ## Putting messages together -/

/-- The session after messages were put together and octets kept for the next
write. -/
def drafts (s : Session) (messages : List FrontendMessage) (octets : Bytes) : Session :=
  { s with channel := { s.channel with
      journal := s.channel.journal ++ (messages.map Event.sending).toArray
      outgoing := s.channel.outgoing ++ octets } }

theorem drafts_nil (s : Session) : s.drafts [] [] = s := by
  unfold drafts
  simp

theorem drafts_drafts (s : Session) (ms ms' : List FrontendMessage) (octets octets' : Bytes) :
    (s.drafts ms octets).drafts ms' octets' = s.drafts (ms ++ ms') (octets ++ octets') := by
  unfold drafts
  simp [Array.append_assoc]

theorem history_drafts (s : Session) (ms : List FrontendMessage) (octets : Bytes) :
    (s.drafts ms octets).history = s.history ++ ms.map Event.sending := by
  unfold history Channel.history drafts
  simp

theorem record_sending (s : Session) (m : FrontendMessage) :
    record (.sending m) s = .ok () (s.drafts [m] []) := by
  rw [record_apply]
  unfold drafts Channel.told
  simp

/-- Messages added to the next write, as far as they can be sent. -/
theorem sendMessages_cases (ms : List FrontendMessage) (s : Session) :
    (∃ parts, ms.mapM (encode s.channel.charset) = .ok parts ∧
      ms.forM sendMessage s = .ok () (s.drafts ms parts.flatten)) ∨
    ∃ sent kept parts fault, sent <+: ms ∧ kept <+: ms ∧
      kept.mapM (encode s.channel.charset) = .ok parts ∧
      ms.mapM (encode s.channel.charset) = .error (.statementCreation fault) ∧
      ms.forM sendMessage s =
        .error (.failed (.statementCreation fault)) (s.drafts sent parts.flatten) := by
  induction ms generalizing s with
  | nil => exact .inl ⟨[], rfl, by rw [List.flatten_nil, drafts_nil]; rfl⟩
  | cons m ms ih =>
      have hstep : (m :: ms).forM sendMessage s =
          (sendMessage m >>= fun _ => ms.forM sendMessage) s := rfl
      have hsend : sendMessage m s = (lift (m.encode s.channel.charset) >>= fun octets =>
          onChannel (Channel.send octets)) (s.drafts [m] []) := by
        unfold sendMessage
        rw [bind_of_ok (record_sending s m), bind_of_ok (get_apply _)]
        rfl
      cases hm : m.encode s.channel.charset with
      | error e =>
          obtain ⟨fault, rfl⟩ := encode_blames _ _ e hm
          refine .inr ⟨[m], [], [], fault, ⟨ms, rfl⟩, List.nil_prefix, rfl, ?_, ?_⟩
          · rw [List.mapM_cons, hm]
            rfl
          · rw [hstep, bind_of_error]
            rw [hsend, hm]
            rfl
      | ok octets =>
          have hone : sendMessage m s = .ok () (s.drafts [m] octets) := by
            rw [hsend, hm]
            show EStateM.Result.ok () ((s.drafts [m] []).drafts [] octets) = _
            rw [drafts_drafts]
            rfl
          rw [hstep, bind_of_ok hone]
          rcases ih (s.drafts [m] octets) with
            ⟨parts, hparts, hrest⟩ | ⟨sent, kept, parts, fault, hprefix, hkept, hparts, hfails, hrest⟩
          · refine .inl ⟨octets :: parts, ?_, ?_⟩
            · rw [List.mapM_cons, hm, show ms.mapM (encode s.channel.charset) = _ from hparts]
              rfl
            · rw [hrest, drafts_drafts]
              rfl
          · refine .inr ⟨m :: sent, m :: kept, octets :: parts, fault,
              List.cons_prefix_cons.2 ⟨rfl, hprefix⟩, List.cons_prefix_cons.2 ⟨rfl, hkept⟩, ?_, ?_,
              ?_⟩
            · rw [List.mapM_cons, hm, show kept.mapM (encode s.channel.charset) = _ from hparts]
              rfl
            · rw [List.mapM_cons, hm, show ms.mapM (encode s.channel.charset) = _ from hfails]
              rfl
            · rw [hrest, drafts_drafts]
              rfl

/-- Messages put together to be sent as one. -/
theorem encodeMessages_cases (ms : List FrontendMessage) (s : Session) :
    (∃ parts, ms.mapM (encode s.channel.charset) = .ok parts ∧
      encodeMessages ms s = .ok parts.flatten (s.drafts ms [])) ∨
    ∃ sent fault, sent <+: ms ∧
      ms.mapM (encode s.channel.charset) = .error (.statementCreation fault) ∧
      encodeMessages ms s = .error (.failed (.statementCreation fault)) (s.drafts sent []) := by
  let one (message : FrontendMessage) : Exchange Session Bytes := do
    record (.sending message)
    Exchange.lift (message.encode (← get).channel.charset)
  have hone : ∀ m s, one m s = lift (m.encode s.channel.charset) (s.drafts [m] []) := by
    intro m s
    show (record (.sending m) >>= fun _ => _) s = _
    rw [bind_of_ok (record_sending s m), bind_of_ok (get_apply _)]
    rfl
  have hparts : (∃ parts, ms.mapM (encode s.channel.charset) = .ok parts ∧
        ms.mapM one s = .ok parts (s.drafts ms [])) ∨
      ∃ sent fault, sent <+: ms ∧
        ms.mapM (encode s.channel.charset) = .error (.statementCreation fault) ∧
        ms.mapM one s = .error (.failed (.statementCreation fault)) (s.drafts sent []) := by
    induction ms generalizing s with
    | nil => exact .inl ⟨[], rfl, by rw [drafts_nil]; rfl⟩
    | cons m ms ih =>
        rw [List.mapM_cons, List.mapM_cons]
        cases hm : m.encode s.channel.charset with
        | error e =>
            obtain ⟨fault, rfl⟩ := encode_blames _ _ e hm
            refine .inr ⟨[m], fault, ⟨ms, rfl⟩, rfl, ?_⟩
            rw [bind_of_error]
            rw [hone, hm]
            rfl
        | ok octets =>
            have hok : one m s = .ok octets (s.drafts [m] []) := by rw [hone, hm]; rfl
            rw [bind_of_ok hok]
            rcases ih (s.drafts [m] []) with
              ⟨parts, hparts, hrest⟩ | ⟨sent, fault, hpre, hfails, hrest⟩
            · refine .inl ⟨octets :: parts, ?_, ?_⟩
              · rw [show ms.mapM (encode s.channel.charset) = _ from hparts]
                rfl
              · rw [bind_of_ok hrest, drafts_drafts]
                rfl
            · refine .inr ⟨m :: sent, fault, List.cons_prefix_cons.2 ⟨rfl, hpre⟩, ?_, ?_⟩
              · rw [show ms.mapM (encode s.channel.charset) = _ from hfails]
                rfl
              · rw [bind_of_error hrest, drafts_drafts]
                rfl
  have hall : encodeMessages ms s = (ms.mapM one >>= fun parts => pure parts.flatten) s := rfl
  rcases hparts with ⟨parts, hparts, hrun⟩ | ⟨sent, fault, hpre, hfails, hrun⟩
  · exact .inl ⟨parts, hparts, by rw [hall, bind_of_ok hrun]; rfl⟩
  · exact .inr ⟨sent, fault, hpre, hfails, by rw [hall, bind_of_error hrun]⟩

/-! ## Sending a statement -/

/-- The name a statement is offered to the server under, if the server does not
have it yet. -/
def offered (s : Session) (st : Statement) : Option String :=
  match st.name with
  | some _ => none
  | none => some (if usesName s.options st then s!"S_{s.nextName}" else "")

/-- The session after it came up with a name, if it has to. -/
def named (s : Session) (st : Statement) : Session :=
  { s with
    nextName := if st.name.isNone && usesName s.options st then s.nextName + 1 else s.nextName }

/-- The session after the names that wait to be closed are on their way. -/
def emptied (s : Session) : Session :=
  { s with pendingClose := [] }

/-- The messages that close the names waiting for it. -/
def closings (s : Session) : List FrontendMessage :=
  s.pendingClose.map fun name => .close statementKind name

/-- The messages that run a statement. -/
def running (s : Session) (st : Statement) (parameters : List (Option Bytes)) :
    List FrontendMessage :=
  ((s.offered st).toList.map fun name => .parse name st.native []) ++
    runMessages ((st.name.or (s.offered st)).getD "") parameters st

/-- How the sending of a statement ends. -/
inductive Sends (st : Statement) (parameters : List (Option Bytes)) (s : Session) :
    EStateM.Result Halt Session (Option String) → Prop where
  /-- A name that waits to be closed cannot be sent. -/
  | unclosed {sent kept : List FrontendMessage} {parts : List Bytes} {fault : StatementFault}
      (hsent : sent <+: s.closings)
      (hfails : s.closings.mapM (encode s.channel.charset) = .error (.statementCreation fault))
      (hkept : kept <+: s.closings) (hparts : kept.mapM (encode s.channel.charset) = .ok parts) :
      Sends st parameters s
        (.error (.failed (.statementCreation fault)) (s.emptied.drafts sent parts.flatten))
  /-- The statement, its name or a text of it cannot be sent. -/
  | refused {sent : List FrontendMessage} {closing : List Bytes} {fault : StatementFault}
      (hclosing : s.closings.mapM (encode s.channel.charset) = .ok closing)
      (hsent : sent <+: s.running st parameters)
      (hfails : (s.running st parameters).mapM (encode s.channel.charset) =
        .error (.statementCreation fault)) :
      Sends st parameters s
        (.error (.failed (.statementCreation fault))
          ((s.emptied.named st).drafts (s.closings ++ sent) closing.flatten))
  /-- The write fails. -/
  | unwritten {closing run : List Bytes} {e : Error} {c : Channel}
      (hclosing : s.closings.mapM (encode s.channel.charset) = .ok closing)
      (hrun : (s.running st parameters).mapM (encode s.channel.charset) = .ok run)
      (hfatal : e.isFatal = true)
      (hfaults : s.channel.socket.faults.write = true ∨ s.channel.socket.faults.flush = true)
      (hkeeps : ((s.emptied.named st).drafts (s.closings ++ s.running st parameters)
        (closing.flatten ++ run.flatten)).channel.Keeps c)
      (hflush : Channel.flush ((s.emptied.named st).drafts (s.closings ++ s.running st parameters)
        (closing.flatten ++ run.flatten)).channel = .error (.failed e) c) :
      Sends st parameters s (.error (.failed e)
        { (s.emptied.named st).drafts (s.closings ++ s.running st parameters)
          (closing.flatten ++ run.flatten) with channel := c })
  /-- Everything is written. -/
  | written {closing run : List Bytes} {c : Channel}
      (hclosing : s.closings.mapM (encode s.channel.charset) = .ok closing)
      (hrun : (s.running st parameters).mapM (encode s.channel.charset) = .ok run)
      (hkeeps : ((s.emptied.named st).drafts (s.closings ++ s.running st parameters)
        (closing.flatten ++ run.flatten)).channel.Keeps c)
      (hout : c.outgoing = []) (hcharset : c.charset = s.channel.charset)
      (hwritten : c.socket.sent =
        s.channel.socket.sent ++ (s.channel.outgoing ++ closing.flatten ++ run.flatten)) :
      Sends st parameters s (.ok ((s.offered st).filter (!·.isEmpty))
        { (s.emptied.named st).drafts (s.closings ++ s.running st parameters)
          (closing.flatten ++ run.flatten) with channel := c })

theorem sendPendingCloses_apply (s : Session) :
    sendPendingCloses s = s.closings.forM sendMessage s.emptied := by
  have hmap : ∀ names : List String,
      (names.forM fun name => sendMessage (.close statementKind name)) =
        (names.map fun name => FrontendMessage.close statementKind name).forM sendMessage := by
    intro names
    induction names with
    | nil => rfl
    | cons name names ih =>
        show (sendMessage _ >>= fun _ => _) = (sendMessage _ >>= fun _ => _)
        rw [ih]
  unfold sendPendingCloses
  rw [bind_of_ok (get_apply s), bind_of_ok (modify_apply _ s), hmap]
  rfl

theorem sendStatement_apply {st : Statement} {parameters : List (Option Bytes)} {s s' : Session}
    (h : sendPendingCloses s = .ok () s') :
    sendStatement st parameters s = sendOffered st parameters (s'.offered st) (s'.named st) := by
  unfold sendStatement
  rw [bind_of_ok h]
  unfold sendOffered offered named
  cases st.name with
  | some name => rfl
  | none =>
      simp only []
      rw [bind_of_ok (get_apply s')]
      cases usesName s'.options st <;> rfl

theorem sendStatement_sends (st : Statement) (parameters : List (Option Bytes)) (s : Session) :
    Sends st parameters s (sendStatement st parameters s) := by
  rcases sendMessages_cases s.closings s.emptied with
    ⟨closing, hclosing, hsend⟩ | ⟨sent, kept, parts, fault, hprefix, hkept, hparts, hfails, hsend⟩
  · rw [sendStatement_apply ((sendPendingCloses_apply s).trans hsend)]
    show Sends st parameters s (sendOffered st parameters (s.offered st)
      ((s.emptied.named st).drafts s.closings closing.flatten))
    unfold sendOffered
    show Sends st parameters s ((encodeMessages (s.running st parameters) >>= fun octets => do
      onChannel (Channel.send octets)
      onChannel Channel.flush
      return (s.offered st).filter (!·.isEmpty)) ((s.emptied.named st).drafts s.closings _))
    rcases encodeMessages_cases (s.running st parameters)
        ((s.emptied.named st).drafts s.closings closing.flatten) with
      ⟨run, hrun, hencode⟩ | ⟨sent, fault, hprefix, hfails, hencode⟩
    · rw [drafts_drafts, List.append_nil] at hencode
      have hkept : onChannel (Channel.send run.flatten)
          ((s.emptied.named st).drafts (s.closings ++ s.running st parameters) closing.flatten) =
          .ok () ((s.emptied.named st).drafts (s.closings ++ s.running st parameters)
            (closing.flatten ++ run.flatten)) := by
        have := drafts_drafts (s.emptied.named st) (s.closings ++ s.running st parameters) []
          closing.flatten run.flatten
        rw [List.append_nil] at this
        rw [← this]
        unfold drafts
        simp only [List.map_nil, Array.append_empty]
        rfl
      rw [bind_of_ok hencode, bind_of_ok hkept, bind_apply, onChannel_apply]
      generalize hs' : (s.emptied.named st).drafts (s.closings ++ s.running st parameters)
        (closing.flatten ++ run.flatten) = s'
      cases hflush : Channel.flush s'.channel with
      | ok _ c =>
          obtain ⟨hout, hsent, hcharset⟩ := Channel.flush_ok hflush
          subst hs'
          refine .written hclosing hrun (Channel.flush_keeps.ok hflush) hout hcharset
            (hsent.trans ?_)
          show s.channel.socket.sent ++ (s.channel.outgoing ++ (_ ++ _)) = _
          rw [List.append_assoc s.channel.outgoing]
      | error halt c =>
          obtain ⟨e, rfl, hfatal, hfaults⟩ := Channel.flush_error hflush
          subst hs'
          exact .unwritten hclosing hrun hfatal hfaults (Channel.flush_keeps.error hflush) hflush
    · rw [drafts_drafts, List.append_nil] at hencode
      rw [bind_of_error hencode]
      exact .refused hclosing hprefix hfails
  · unfold sendStatement
    rw [bind_of_error ((sendPendingCloses_apply s).trans hsend)]
    exact .unclosed hprefix hfails hkept hparts

/-! ## Endings -/

/-- A failure that the session does not survive closes it, and any other leaves
it as it is. -/
def Ends (e : Error) (s s' : Session) : Prop :=
  if e.isFatal then Keeps s s' ∧ s'.isClosed = true else s' = s

theorem Ends.keeps {e : Error} {s s' : Session} (h : Ends e s s') : Keeps s s' := by
  unfold Ends at h
  split at h
  · exact h.1
  · rw [h]
    exact .refl s

/-- If the session is open after a failure, the failure has done nothing to it. -/
theorem Ends.of_open {e : Error} {s s' : Session} (h : Ends e s s') (hopen : s'.isClosed = false) :
    e.isFatal = false ∧ s' = s := by
  unfold Ends at h
  split at h
  · rw [h.2] at hopen
    cases hopen
  · next hmild => exact ⟨eq_false_of_ne_true hmild, h⟩

theorem checkFatal_ends {α : Type} (e : Error) (s : Session) :
    ∃ s', checkFatal (α := α) (.error e) s = .ok () s' ∧ Ends e s s' := by
  cases hfatal : e.isFatal with
  | true =>
      obtain ⟨s', hs', hclosed, hkeeps⟩ := checkFatal_fatal (α := α) hfatal s
      exact ⟨s', hs', by rw [Ends, hfatal]; exact ⟨hkeeps, hclosed⟩⟩
  | false =>
      refine ⟨s, checkFatal_mild ?_ s, by rw [Ends, hfatal]; rfl⟩
      rintro _ ⟨⟩
      exact hfatal

/-- How a request ends, given how its sending did. -/
inductive Answers (statement : Option Statement) :
    EStateM.Result Halt Session (Option String) → EStateM.Result Halt Session Reply → Prop where
  /-- It was not sent, or not as a whole. -/
  | unsent {e : Error} {s₁ s₂ : Session} (hend : Ends e s₁ s₂) :
      Answers statement (.error (.failed e) s₁)
        (.ok { result := .error e, deliveries := [], statement } s₂)
  /-- The reply was read to its end. -/
  | answered {preparing : Option String} {s₁ : Session} {c : Conversation}
      {result : Except Error Unit}
      (hfollows : Conversation.Follows { session := s₁, statement, preparing } none c)
      (hready : Conversation.UpToReady s₁ c.session)
      (hresult : result = .ok () ∨ ∃ e, result = .error (.server e)) :
      Answers statement (.ok preparing s₁)
        (.ok { result, deliveries := c.deliveries.toList, statement := c.statement } c.session)
  /-- The reply broke off. -/
  | broken {preparing : Option String} {s₁ s₂ : Session} {c : Conversation} {e : Error}
      (hfollows : Conversation.Follows { session := s₁, statement, preparing }
        (some (.failed e)) c)
      (hkeeps : Keeps c.session s₂) (hclosed : s₂.isClosed = true) :
      Answers statement (.ok preparing s₁)
        (.ok { result := .error e, deliveries := c.deliveries.toList, statement := c.statement } s₂)
  /-- The reply will never be complete, and nothing will end the wait. -/
  | waiting {preparing : Option String} {s₁ : Session} {c : Conversation}
      (hfollows : Conversation.Follows { session := s₁, statement, preparing }
        (some .waiting) c) :
      Answers statement (.ok preparing s₁) (.error .waiting c.session)

theorem converse_of_ok {c c' : Conversation} {request : Exchange Conversation Unit} {s : Session}
    (h : request { c with session := s } = .ok () c') :
    converse c request s = .ok
      { result := .ok (), deliveries := c'.deliveries.toList, statement := c'.statement }
      c'.session := by
  unfold converse
  rw [attempt_of_ok h]
  rfl

/-- A failure of a request is looked into before the request comes back. -/
theorem converse_of_checked {c c' : Conversation} {request : Exchange Conversation Unit}
    {s s' : Session} {e : Error} (h : request { c with session := s } = .error (.failed e) c')
    (hs' : checkFatal (α := Unit) (.error e) c'.session = .ok () s') :
    converse c request s = .ok
      { result := .error e, deliveries := c'.deliveries.toList, statement := c'.statement } s' := by
  unfold converse
  rw [attempt_of_failed h]
  simp only []
  rw [bind_of_ok hs']
  rfl

theorem converse_of_failed {c c' : Conversation} {request : Exchange Conversation Unit}
    {s : Session} {e : Error} (h : request { c with session := s } = .error (.failed e) c') :
    ∃ s', Ends e c'.session s' ∧ converse c request s = .ok
      { result := .error e, deliveries := c'.deliveries.toList, statement := c'.statement } s' := by
  obtain ⟨s', hs', hends⟩ := checkFatal_ends (α := Unit) e c'.session
  exact ⟨s', hends, converse_of_checked h hs'⟩

theorem converse_of_waiting {c c' : Conversation} {request : Exchange Conversation Unit}
    {s : Session} (h : request { c with session := s } = .error .waiting c') :
    converse c request s = .error .waiting c'.session := by
  unfold converse
  rw [attempt_of_waiting h]

/-- What a request does matters only where it starts. -/
theorem converse_congr {c : Conversation} {r r' : Exchange Conversation Unit} {s : Session}
    (h : r { c with session := s } = r' { c with session := s }) :
    converse c r s = converse c r' s := by
  unfold converse attempt
  rw [h]

theorem request_apply (send : Exchange Session (Option String)) (statement : Option Statement)
    (s : Session) :
    request send { session := s, statement } = match send s with
      | .ok preparing s₁ => Conversation.readReply { session := s₁, statement, preparing }
      | .error halt s₁ => .error halt { session := s₁, statement } := by
  unfold request
  rw [bind_apply, Conversation.onSession_apply]
  cases hs : send s with
  | error halt s₁ => rfl
  | ok preparing s₁ =>
      simp only []
      rw [bind_of_ok (modify_apply _ _)]

theorem request_answers {send : Exchange Session (Option String)} (statement : Option Statement)
    (s₀ : Session) {s : Session} (hsend : halt? (send s) ≠ some .waiting) :
    Answers statement (send s) (converse { session := s₀, statement } (request send) s) := by
  have hrun := request_apply send statement s
  cases hs : send s with
  | error halt s₁ =>
      rw [hs] at hrun hsend
      cases halt with
      | waiting => exact absurd rfl hsend
      | failed e =>
          obtain ⟨s₂, hends, hconverse⟩ :=
            converse_of_failed (c := { session := s₀, statement }) hrun
          rw [hconverse]
          exact .unsent hends
  | ok preparing s₁ =>
      rw [hs] at hrun
      simp only [] at hrun
      generalize hc₁ : ({ session := s₁, statement, preparing } : Conversation) = c₁
        at hrun
      have hends := Conversation.readReply_ends (c := c₁) (by rw [← hc₁])
      cases hreply : Conversation.readReply c₁ with
      | ok _ c' =>
          rw [hreply] at hrun hends
          rw [converse_of_ok (c := { session := s₀, statement }) hrun]
          obtain ⟨hfollows, hready, -⟩ | ⟨halt, hhalt, -⟩ := hends
          · subst hc₁
            exact .answered hfollows hready (.inl rfl)
          · cases hhalt
      | error halt c' =>
          rw [hreply] at hrun hends
          cases halt with
          | waiting =>
              rw [converse_of_waiting (c := { session := s₀, statement }) hrun]
              obtain ⟨-, -, hhalt⟩ | ⟨halt, hhalt, hfollows⟩ := hends
              · obtain hhalt | ⟨e, hhalt⟩ := hhalt <;> cases hhalt
              · cases hhalt
                subst hc₁
                exact .waiting hfollows
          | failed e =>
              obtain ⟨s₂, hend, hconverse⟩ :=
                converse_of_failed (c := { session := s₀, statement }) hrun
              rw [hconverse]
              obtain ⟨hfollows, hready, hhalt⟩ | ⟨halt, hhalt, hfollows⟩ := hends
              · obtain hhalt | ⟨e', hhalt⟩ := hhalt
                · cases hhalt
                · cases hhalt
                  subst hc₁
                  cases hend
                  exact .answered hfollows hready (.inr ⟨e', rfl⟩)
              · cases hhalt
                subst hc₁
                rw [Ends, hfollows.fatal e rfl] at hend
                exact .broken hfollows hend.1 hend.2

theorem Sends.halt {st : Statement} {parameters : List (Option Bytes)} {s : Session}
    {r : EStateM.Result Halt Session (Option String)} (h : Sends st parameters s r) :
    halt? r ≠ some .waiting := by
  cases h <;> nofun

theorem execute_of_closed {st : Statement} {parameters : List (Option Bytes)} {s : Session}
    (h : s.isClosed = true) :
    execute st parameters s = .ok (refused .closed (some st)) s := by
  unfold execute
  rw [bind_of_ok (get_apply s), if_pos h]
  rfl

/-- The statement as it is sent. -/
def readied (s : Session) (st : Statement) : Statement :=
  aboutToRun s.epoch { st with isSuspended := false }

theorem execute_eq {s : Session} (hopen : s.isClosed = false) (st : Statement)
    (parameters : List (Option Bytes)) :
    execute st parameters s =
      converse { session := s, statement := some (s.readied st) }
        (request (sendStatement (s.readied st) parameters)) s := by
  unfold execute
  rw [bind_of_ok (get_apply s), hopen]
  rfl

theorem execute_answers {s : Session} (hopen : s.isClosed = false) (st : Statement)
    (parameters : List (Option Bytes)) :
    Answers (some (s.readied st)) (sendStatement (s.readied st) parameters s)
      (execute st parameters s) := by
  rw [execute_eq hopen]
  exact request_answers _ s (sendStatement_sends _ _ _).halt

theorem sendQuery_cases (s : Session) :
    (∃ c, Channel.flush s.channel = .ok () c ∧ sendQuery s = .ok none { s with channel := c }) ∨
    ∃ e c, Channel.flush s.channel = .error (.failed e) c ∧ e.isFatal = true ∧
      (s.channel.socket.faults.write = true ∨ s.channel.socket.faults.flush = true) ∧
      sendQuery s = .error (.failed e) { s with channel := c } := by
  unfold sendQuery
  rw [bind_apply, onChannel_apply]
  cases hflush : Channel.flush s.channel with
  | ok _ c => exact .inl ⟨c, rfl, rfl⟩
  | error halt c =>
      obtain ⟨e, rfl, hfatal, hfaults⟩ := Channel.flush_error hflush
      exact .inr ⟨e, c, rfl, hfatal, hfaults, rfl⟩

theorem query_of_closed {sql : String} {s : Session} (h : s.isClosed = true) :
    query sql s = .ok (refused .closed none) s := by
  unfold query
  rw [bind_of_ok (get_apply s), if_pos h]
  rfl

theorem query_of_refused {sql : String} {s : Session} {e : Error} (hopen : s.isClosed = false)
    (h : encode s.channel.charset (.query sql) = .error e) :
    query sql s = .ok (refused e none) s := by
  unfold query
  rw [bind_of_ok (get_apply s), hopen]
  simp only [Bool.false_eq_true, if_false, h]
  rfl

/-- A query is refused at once, and the session stays as it was, or it can be sent. -/
theorem query_refused_or_sent (sql : String) (s : Session) :
    (∃ e, query sql s = .ok (refused e none) s ∧
      ((s.isClosed = true ∧ e = .closed) ∨
        (s.isClosed = false ∧ ∃ fault, e = .statementCreation fault))) ∨
    (s.isClosed = false ∧ ∃ octets, encode s.channel.charset (.query sql) = .ok octets) := by
  cases hclosed : s.isClosed with
  | true => exact .inl ⟨_, query_of_closed hclosed, .inl ⟨rfl, rfl⟩⟩
  | false =>
      cases hencode : encode s.channel.charset (.query sql) with
      | error e =>
          exact .inl ⟨e, query_of_refused hclosed hencode,
            .inr ⟨rfl, encode_blames _ _ e hencode⟩⟩
      | ok octets => exact .inr ⟨rfl, octets, rfl⟩

theorem query_eq {sql : String} {s : Session} {octets : Bytes} (hopen : s.isClosed = false)
    (h : encode s.channel.charset (.query sql) = .ok octets) :
    query sql s = converse { session := s } (request sendQuery) (s.drafts [.query sql] octets) := by
  have hdraft : onChannel (Channel.send octets) (s.drafts [.query sql] []) =
      .ok () (s.drafts [.query sql] octets) := by
    show EStateM.Result.ok () ((s.drafts [.query sql] []).drafts [] octets) = _
    rw [drafts_drafts]
    rfl
  unfold query
  rw [bind_of_ok (get_apply s), hopen]
  simp only [Bool.false_eq_true, if_false, h]
  rw [bind_of_ok (record_sending s (.query sql)), bind_of_ok hdraft]

theorem query_answers {sql : String} {s : Session} {octets : Bytes} (hopen : s.isClosed = false)
    (h : encode s.channel.charset (.query sql) = .ok octets) :
    Answers none (sendQuery (s.drafts [.query sql] octets)) (query sql s) := by
  rw [query_eq hopen h]
  refine request_answers none s ?_
  rcases sendQuery_cases (s.drafts [.query sql] octets) with ⟨c, -, hok⟩ | ⟨e, c, -, -, -, herror⟩
  · rw [hok]
    nofun
  · rw [herror]
    nofun

/-! ## What the sending of a request is made of -/

/-- A law of everything that the sending of a request is made of. -/
structure Writes (P : ∀ {α : Type}, Exchange Session α → Prop) : Prop extends Assembles P where
  drafted : ∀ message, P (record (.sending message))
  sends : ∀ octets, P (onChannel (Channel.send octets))
  flushes : P (onChannel Channel.flush)
  refuses : ∀ e : Error, P (fail e : Exchange Session Bytes)
  empties : P (modify fun s => { s with pendingClose := [] } : Exchange Session PUnit)
  names : P freshName

section

variable {P : ∀ {α : Type}, Exchange Session α → Prop}

theorem Assembles.forM {β : Type} (hP : Assembles P) {f : β → Exchange Session PUnit}
    (hf : ∀ b, P (f b)) (bs : List β) : P (bs.forM f) := by
  induction bs with
  | nil => exact hP.pure _
  | cons b bs ih => exact hP.bind (hf b) fun _ => ih

theorem Assembles.mapM {α β : Type} (hP : Assembles P) {f : β → Exchange Session α}
    (hf : ∀ b, P (f b)) (bs : List β) : P (bs.mapM f) := by
  induction bs with
  | nil => exact hP.pure _
  | cons b bs ih =>
      rw [List.mapM_cons]
      exact hP.bind (hf b) fun _ => hP.bind ih fun _ => hP.pure _

theorem Writes.encoded (hP : Writes P) (message : FrontendMessage) (charset : Charset) :
    P (lift (message.encode charset) : Exchange Session Bytes) := by
  cases message.encode charset with
  | ok octets => exact hP.pure octets
  | error e => exact hP.refuses e

theorem Writes.sendPendingCloses (hP : Writes P) : P sendPendingCloses := by
  have hmessage : ∀ message, P (sendMessage message) := fun message =>
    hP.bind (hP.drafted message) fun _ => hP.ask (fun _ => rfl) fun _ =>
      hP.bind (hP.encoded message _) fun _ => hP.sends _
  exact hP.ask (fun _ => rfl) fun _ => hP.bind hP.empties fun _ =>
    hP.forM (fun _ => hmessage _) _

theorem Writes.sendOffered (hP : Writes P) (st : Statement) (parameters : List (Option Bytes))
    (preparing : Option String) : P (sendOffered st parameters preparing) := by
  have hencode : ∀ messages, P (encodeMessages messages) := fun messages =>
    hP.bind (hP.mapM (fun message => hP.bind (hP.drafted message) fun _ =>
      hP.ask (fun _ => rfl) fun _ => hP.encoded message _) messages) fun _ => hP.pure _
  exact hP.bind (hencode _) fun _ => hP.bind (hP.sends _) fun _ => hP.bind hP.flushes fun _ =>
    hP.pure _

theorem Writes.sendStatement (hP : Writes P) (st : Statement) (parameters : List (Option Bytes)) :
    P (sendStatement st parameters) := by
  have hoffered : ∀ preparing, P (Session.sendOffered st parameters preparing) :=
    hP.sendOffered st parameters
  refine hP.bind hP.sendPendingCloses fun _ => ?_
  simp only []
  split
  · exact hoffered none
  · refine hP.ask (fun _ => rfl) fun s => ?_
    split
    · exact hP.bind (hP.bind hP.names fun _ => hP.pure _) hoffered
    · exact hoffered (some "")

theorem Writes.sendQuery (hP : Writes P) : P sendQuery :=
  hP.bind hP.flushes fun _ => hP.pure _

end

end PgClient.Session
