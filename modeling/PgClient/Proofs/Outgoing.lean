import PgClient.Proofs.Custody

/-!
# What is on its way to the server

What a client has to say goes into a buffer first, and out of the buffer in one
write. As long as the session is open nothing is lost on the way: the octets
that were written are those of the messages so far, one behind the other, and
the octets in the buffer are those of the messages after them. A message is in
the buffer between two calls for one reason only. It closes a statement, and
the call that put it there could not go on; so it stands ahead of whatever the
next request has to send.

`Moves` is what a call does to the two ends of a channel, `Posts` adds what the
journal tells of it, and `Shipped` is the invariant of a run.
-/

namespace PgClient

open Exchange FrontendMessage

/-! ## Parcels -/

/-- A message and the octets it was turned into. -/
structure Parcel where
  message : FrontendMessage
  octets : Bytes

namespace Parcel

/-- The octets are the message under some character set. -/
def IsEncoded (p : Parcel) : Prop :=
  ∃ charset, p.message.encode charset = .ok p.octets

/-- All octets of parcels. -/
def load (ps : List Parcel) : Bytes :=
  ps.flatMap octets

/-- The names of the statements that parcels close. -/
def closedNames (ps : List Parcel) : List String :=
  ps.filterMap fun p => p.message.closedName?

theorem load_append (ps qs : List Parcel) : load (ps ++ qs) = load ps ++ load qs :=
  List.flatMap_append

theorem closedNames_append (ps qs : List Parcel) :
    closedNames (ps ++ qs) = closedNames ps ++ closedNames qs :=
  List.filterMap_append

theorem closedNames_map (ps : List Parcel) :
    (ps.map message).filterMap closedName? = closedNames ps :=
  List.filterMap_map

/-- Messages that were put together are parcels. -/
theorem of_mapM {charset : Charset} {ms : List FrontendMessage} {parts : List Bytes}
    (h : ms.mapM (encode charset) = .ok parts) :
    ∃ ps, ps.map message = ms ∧ load ps = parts.flatten ∧ ∀ p ∈ ps, p.IsEncoded := by
  induction ms generalizing parts with
  | nil =>
      cases h
      exact ⟨[], rfl, rfl, List.forall_mem_nil _⟩
  | cons m ms ih =>
      rw [List.mapM_cons] at h
      cases hm : m.encode charset with
      | error e =>
          rw [hm] at h
          cases h
      | ok octets =>
          cases hms : ms.mapM (encode charset) with
          | error e =>
              rw [hm, hms] at h
              cases h
          | ok more =>
              rw [hm, hms] at h
              cases h
              obtain ⟨ps, hmessages, hload, hencoded⟩ := ih hms
              refine ⟨⟨m, octets⟩ :: ps, congrArg (m :: ·) hmessages,
                congrArg (octets ++ ·) hload, List.forall_mem_cons.2 ⟨⟨charset, hm⟩, hencoded⟩⟩

end Parcel

/-! ## What a call puts on its way -/

/-- Parcels are added to the buffer, or the buffer is written and they come last. -/
inductive Channel.Moves (ps : List Parcel) (c c' : Channel) : Prop where
  | kept (hout : c'.outgoing = c.outgoing ++ Parcel.load ps)
      (hsent : c'.socket.sent = c.socket.sent)
      (hcloses : ∀ p ∈ ps, p.message.closedName?.isSome)
  | written (hout : c'.outgoing = [])
      (hsent : c'.socket.sent = c.socket.sent ++ (c.outgoing ++ Parcel.load ps))

namespace Session

/-- What a call put on its way, and what the journal says that it closed. -/
structure Posts (ps : List Parcel) (s s' : Session) : Prop where
  isOpen : s.isClosed = false
  encoded : ∀ p ∈ ps, p.IsEncoded
  moves : Channel.Moves ps s.channel s'.channel
  history : ∃ (messages : List FrontendMessage) (others : List Event),
    s'.history = s.history ++ (messages.map Event.sending ++ others) ∧
    messages.filterMap closedName? = Parcel.closedNames ps ∧
    ∀ e ∈ others, e.isAside = true ∨ e.message?.isSome = true

/-- A call that has nothing to say. -/
theorem posts_nothing {s s' : Session} (hopen : s.isClosed = false)
    (hout : s'.channel.outgoing = s.channel.outgoing)
    (hsent : s'.channel.socket.sent = s.channel.socket.sent)
    (hhistory : ∃ events, s'.history = s.history ++ events ∧
      ∀ e ∈ events, e.isAside = true ∨ e.message?.isSome = true) : Posts [] s s' := by
  obtain ⟨events, hevents, hkinds⟩ := hhistory
  refine ⟨hopen, List.forall_mem_nil _, .kept ?_ hsent (List.forall_mem_nil _), [], events,
    hevents, rfl, hkinds⟩
  rw [hout]
  exact (List.append_nil _).symm

theorem posts_same {s s' : Session} (hopen : s.isClosed = false)
    (hchannel : s'.channel = s.channel) : Posts [] s s' := by
  refine posts_nothing hopen (by rw [hchannel]) (by rw [hchannel]) ⟨[], ?_, List.forall_mem_nil _⟩
  rw [List.append_nil]
  exact congrArg Channel.history hchannel

/-- A request that leaves the session open was sent as far as it could be, and
its reply has put nothing on its way. -/
theorem Answers.quiet {statement : Option Statement}
    {sent : EStateM.Result Halt Session (Option String)} {r : EStateM.Result Halt Session Reply}
    (h : Answers statement sent r) (hopen : (final r).isClosed = false) :
    (∀ e, halt? sent = some (.failed e) → e.isFatal = false) ∧
      (final r).channel.outgoing = (final sent).channel.outgoing ∧
      (final r).channel.socket.sent = (final sent).channel.socket.sent := by
  cases h with
  | @unsent e s₁ s₂ hend =>
      obtain ⟨hmild, rfl⟩ := hend.of_open hopen
      refine ⟨fun x hx => ?_, rfl, rfl⟩
      cases hx
      exact hmild
  | answered hfollows =>
      refine ⟨fun _ h => ?_, (hfollows.quiet hopen).2⟩
      cases h
  | broken hfollows hkeeps hclosed => exact absurd hclosed (ne_true_of_eq_false hopen)
  | waiting hfollows =>
      refine ⟨fun _ h => ?_, (hfollows.quiet hopen).2⟩
      cases h

theorem closings_closed (s : Session) : s.closings.filterMap closedName? = s.pendingClose := by
  unfold closings
  rw [List.filterMap_map]
  exact List.filterMap_some ..

theorem running_closed (s : Session) (st : Statement) (parameters : List (Option Bytes)) :
    (s.running st parameters).filterMap closedName? = [] := by
  unfold running
  cases s.offered st <;> rfl

/-- What the sending of a statement puts on its way, unless it fails for good:
everything, or the names that waited to be closed. -/
theorem Sends.posts {st : Statement} {parameters : List (Option Bytes)} {s : Session}
    {r : EStateM.Result Halt Session (Option String)} (h : Sends st parameters s r)
    (hopen : s.isClosed = false)
    (hclosable : ∃ closing, s.closings.mapM (encode s.channel.charset) = .ok closing)
    (hmild : ∀ e, halt? r = some (.failed e) → e.isFatal = false) :
    ∃ ps, Posts ps s (final r) := by
  cases h with
  | unclosed hsent hfails =>
      obtain ⟨closing, hclosing⟩ := hclosable
      rw [hclosing] at hfails
      cases hfails
  | @refused sent closing fault hclosing hsent hfails =>
      obtain ⟨ps, hmessages, hload, hencoded⟩ := Parcel.of_mapM hclosing
      have hnames : Parcel.closedNames ps = s.pendingClose := by
        rw [← Parcel.closedNames_map, hmessages, s.closings_closed]
      refine ⟨ps, hopen, hencoded, .kept ?_ rfl fun p hp => ?_, s.closings ++ sent, [], ?_, ?_,
        List.forall_mem_nil _⟩
      · rw [hload]
        rfl
      · have : p.message ∈ s.closings := hmessages ▸ List.mem_map_of_mem hp
        obtain ⟨name, -, hname⟩ := List.mem_map.1 this
        rw [← hname]
        rfl
      · rw [List.append_nil]
        exact history_drafts (s.emptied.named st) _ _
      · have hnone : sent.filterMap closedName? = [] := by
          obtain ⟨unsent, hrunning⟩ := hsent
          have := s.running_closed st parameters
          rw [← hrunning, List.filterMap_append] at this
          exact (List.append_eq_nil_iff.1 this).1
        rw [List.filterMap_append, hnone, List.append_nil, s.closings_closed, hnames]
  | unwritten hclosing hrun hfatal =>
      rw [hmild _ rfl] at hfatal
      cases hfatal
  | @written closing run c hclosing hrun hkeeps hout hcharset hwritten =>
      obtain ⟨ps, hmessages, hload, hencoded⟩ := Parcel.of_mapM hclosing
      obtain ⟨qs, hmessages', hload', hencoded'⟩ := Parcel.of_mapM hrun
      obtain ⟨asides, hhistory, haside⟩ := hkeeps.history
      refine ⟨ps ++ qs, hopen, List.forall_mem_append.2 ⟨hencoded, hencoded'⟩,
        .written hout ?_, s.closings ++ s.running st parameters, asides, ?_, ?_,
        fun e he => .inl (haside e he)⟩
      · rw [Parcel.load_append, hload, hload', ← List.append_assoc s.channel.outgoing]
        exact hwritten
      · rw [← List.append_assoc]
        exact hhistory.trans (congrArg (· ++ asides) (history_drafts (s.emptied.named st) _ _))
      · rw [← Parcel.closedNames_map, List.map_append, hmessages, hmessages']

/-- What comes after the sending adds nothing. -/
theorem Posts.hears {ps : List Parcel} {s s' s'' : Session} (h : Posts ps s s')
    (hout : s''.channel.outgoing = s'.channel.outgoing)
    (hsent : s''.channel.socket.sent = s'.channel.socket.sent)
    {events : List Event} (hhistory : s''.history = s'.history ++ events)
    (hkinds : ∀ e ∈ events, e.isAside = true ∨ e.message?.isSome = true) : Posts ps s s'' := by
  obtain ⟨messages, others, hevents, hcloses, hkinds'⟩ := h.history
  refine ⟨h.isOpen, h.encoded, ?_, messages, others ++ events, ?_, hcloses,
    List.forall_mem_append.2 ⟨hkinds', hkinds⟩⟩
  · cases h.moves with
    | kept hout' hsent' hcloses' => exact .kept (hout.trans hout') (hsent.trans hsent') hcloses'
    | written hout' hsent' => exact .written (hout.trans hout') (hsent.trans hsent')
  · rw [hhistory, hevents]
    simp only [List.append_assoc]

theorem execute_posts {st : Statement} {parameters : List (Option Bytes)} {s : Session}
    (hopen : (final (execute st parameters s)).isClosed = false)
    (hclosable : ∃ closing, s.closings.mapM (encode s.channel.charset) = .ok closing) :
    ∃ ps, Posts ps s (final (execute st parameters s)) := by
  cases hclosed : s.isClosed with
  | true =>
      rw [execute_of_closed hclosed] at hopen
      exact absurd hclosed (ne_true_of_eq_false hopen)
  | false =>
      have hanswers := execute_answers hclosed st parameters
      obtain ⟨hmild, hout, hsent⟩ := hanswers.quiet hopen
      obtain ⟨events, a, hhears⟩ := hanswers.hears
      obtain ⟨ps, hposts⟩ :=
        (sendStatement_sends (s.readied st) parameters s).posts hclosed hclosable hmild
      exact ⟨ps, hposts.hears hout hsent hhears.history hhears.kinds⟩

/-- A query is written, and the buffer ahead of it. -/
theorem sendQuery_posts {sql : String} {s : Session} {octets : Bytes} (hopen : s.isClosed = false)
    (hencode : encode s.channel.charset (.query sql) = .ok octets)
    (hmild : ∀ e, halt? (sendQuery (s.drafts [.query sql] octets)) = some (.failed e) →
      e.isFatal = false) :
    Posts [⟨.query sql, octets⟩] s (final (sendQuery (s.drafts [.query sql] octets))) := by
  rcases sendQuery_cases (s.drafts [.query sql] octets) with
    ⟨c, hflush, hsend⟩ | ⟨e, c, -, hfatal, -, hsend⟩
  · rw [hsend]
    obtain ⟨hout, hsent, -⟩ := Channel.flush_ok hflush
    obtain ⟨asides, hhistory, haside⟩ := (Channel.flush_keeps.ok hflush).history
    refine ⟨hopen, List.forall_mem_singleton.2 ⟨_, hencode⟩, .written hout (hsent.trans ?_),
      [.query sql], asides, ?_, rfl, fun e he => .inl (haside e he)⟩
    · show s.channel.socket.sent ++ (s.channel.outgoing ++ octets) = _
      unfold Parcel.load
      rw [List.flatMap_singleton]
    · rw [← List.append_assoc]
      exact hhistory.trans (congrArg (· ++ asides) (history_drafts s [.query sql] octets))
  · rw [hsend] at hmild
    rw [hmild e rfl] at hfatal
    cases hfatal

theorem query_posts {sql : String} {s : Session}
    (hopen : (final (query sql s)).isClosed = false) : ∃ ps, Posts ps s (final (query sql s)) := by
  rcases query_refused_or_sent sql s with ⟨e, hrun, -⟩ | ⟨hwas, octets, hencode⟩
  · rw [hrun] at hopen ⊢
    exact ⟨[], posts_nothing hopen rfl rfl
      ⟨[], (List.append_nil _).symm, List.forall_mem_nil _⟩⟩
  · have hanswers := query_answers hwas hencode
    obtain ⟨hmild, hout, hsent⟩ := hanswers.quiet hopen
    obtain ⟨events, a, hhears⟩ := hanswers.hears
    exact ⟨_, (sendQuery_posts hwas hencode hmild).hears hout hsent hhears.history hhears.kinds⟩

theorem Idles.posts {s s' : Session} {h : Option Halt} (hidles : Idles s h s')
    (hopen : s'.isClosed = false) : Posts [] s s' := by
  obtain ⟨hopen, hout, hsent⟩ := hidles.quiet hopen
  obtain ⟨events, hevents, hkinds⟩ := hidles.history
  refine posts_nothing hopen hout hsent ⟨events, hevents, fun e he => (hkinds e he).imp_right ?_⟩
  rintro ⟨m, hm, -⟩
  rw [hm]
  rfl

theorem takeNotices_posts {wait : Option Nat} {s : Session}
    (hopen : (final (takeNotices wait s)).isClosed = false) :
    Posts [] s (final (takeNotices wait s)) := by
  have hnotices := takeNotices_notices wait s
  generalize takeNotices wait s = r at hnotices hopen
  cases hnotices with
  | none hresult =>
      rw [final_lift] at hopen ⊢
      exact posts_nothing hopen rfl rfl ⟨[], (List.append_nil _).symm, List.forall_mem_nil _⟩
  | taken hidles => exact hidles.posts hopen
  | waiting hidles => exact hidles.posts hopen
  | @failed s₁ s' e hidles hwas hend =>
      obtain ⟨-, rfl⟩ := hend.of_open hopen
      exact hidles.posts hopen

end Session

namespace World

variable {f : Bool} {w w' : World} {sent : Bytes} {written buffered : List Parcel}

/-! ## What a run has put on its way -/

/-- The parcels that were written and the ones in the buffer are everything that
was sent, and the log says of them which statements they close. -/
structure Shipped (sent : Bytes) (w : World) (written buffered : List Parcel) : Prop where
  encoded : ∀ p ∈ written ++ buffered, p.IsEncoded
  closes : ∀ p ∈ buffered, p.message.closedName?.isSome
  sent : w.session.channel.socket.sent = sent ++ Parcel.load written
  outgoing : w.session.channel.outgoing = Parcel.load buffered
  closed : closedNames w.log = Parcel.closedNames (written ++ buffered)

/-- What an operation has put on its way. -/
structure Ships (ps : List Parcel) (w w' : World) : Prop where
  posts : Session.Posts ps w.session w'.session
  closed : closedNames w'.log = closedNames w.log ++ Parcel.closedNames ps

/-- Everything that was on its way still is, in the same order, and ahead of
what is new. -/
theorem Shipped.step {ps : List Parcel} (h : Shipped sent w written buffered)
    (hships : Ships ps w w') :
    ∃ written' buffered', Shipped sent w' written' buffered' ∧ written <+: written' ∧
      written' ++ buffered' = written ++ buffered ++ ps := by
  have hencoded : ∀ p ∈ written ++ buffered ++ ps, p.IsEncoded :=
    List.forall_mem_append.2 ⟨h.encoded, hships.posts.encoded⟩
  have hclosed : closedNames w'.log = Parcel.closedNames (written ++ buffered ++ ps) := by
    rw [hships.closed, h.closed, Parcel.closedNames_append _ ps]
  cases hships.posts.moves with
  | kept hout hsent hcloses =>
      refine ⟨written, buffered ++ ps, ⟨?_, List.forall_mem_append.2 ⟨h.closes, hcloses⟩,
        hsent.trans h.sent, ?_, ?_⟩, List.prefix_refl _, (List.append_assoc ..).symm⟩
      · rw [← List.append_assoc]
        exact hencoded
      · rw [hout, h.outgoing, Parcel.load_append]
      · rw [← List.append_assoc]
        exact hclosed
  | written hout hsent =>
      refine ⟨written ++ buffered ++ ps, [], ⟨?_, List.forall_mem_nil _, ?_, hout, ?_⟩, ?_,
        List.append_nil _⟩
      · rw [List.append_nil]
        exact hencoded
      · rw [hsent, h.sent, h.outgoing]
        simp only [Parcel.load_append, List.append_assoc]
      · rw [List.append_nil]
        exact hclosed
      · rw [List.append_assoc]
        exact List.prefix_append _ _

theorem called_ships {α : Type} (runner : Option Handle) {r : EStateM.Result Halt Session α}
    {ps : List Parcel} (h : Session.Posts ps w.session (final r)) :
    Ships ps w (w.called runner r) := by
  refine ⟨h, ?_⟩
  obtain ⟨messages, others, hhistory, hcloses, hkinds⟩ := h.history
  have hdrafted : closedNames (drafted w.turn runner messages) =
      messages.filterMap closedName? := List.filterMap_map
  rw [called_log hhistory, List.map_append, ← List.append_assoc, closedNames_mute hkinds,
    map_sending, closedNames_append, hdrafted, hcloses]

theorem obtained_ships (id : Nat) {r : EStateM.Result Halt Session Statement}
    (h : Session.Posts [] w.session (final r)) : Ships [] w (w.obtained id r) := by
  have hcalled : Ships [] w (w.called none r) := called_ships none h
  cases r with
  | ok st s => exact ⟨hcalled.posts, hcalled.closed⟩
  | error halt s => exact hcalled

theorem create_ships {key : StatementKey} (hopen : (w.create key).session.isClosed = false) :
    Ships [] w (w.create key) := by
  have hfinal : final (Session.createStatement key w.session) = w.session := by
    rw [createStatement_apply, final_lift]
  have hsession : (w.create key).session = final (Session.createStatement key w.session) :=
    obtained_session ..
  rw [hsession, hfinal] at hopen
  have hships := obtained_ships (w := w) w.made (r := Session.createStatement key w.session)
    (by rw [hfinal]; exact Session.posts_same hopen rfl)
  exact ⟨hships.posts, hships.closed⟩

theorem borrow_ships {key : StatementKey} (hopen : (w.borrow key).session.isClosed = false) :
    Ships [] w (w.borrow key) := by
  have hfinal : (final (Session.borrowStatement key w.session)).isClosed = w.session.isClosed ∧
      (final (Session.borrowStatement key w.session)).channel = w.session.channel := by
    obtain ⟨statements, hborrow, -⟩ := borrowStatement_session key w.session
    rw [hborrow]
    exact ⟨rfl, rfl⟩
  have hships : w.session.isClosed = false → ∀ id,
      Ships [] w (w.obtained id (Session.borrowStatement key w.session)) := fun hopen id =>
    obtained_ships id (Session.posts_same hopen hfinal.2)
  have hsession : ∀ id, (w.obtained id (Session.borrowStatement key w.session)).session =
      final (Session.borrowStatement key w.session) := fun id => obtained_session ..
  unfold borrow at hopen ⊢
  simp only [] at hopen ⊢
  by_cases hcontains : w.session.statements.contains key = true
  · rw [if_pos hcontains] at hopen ⊢
    rw [hsession, hfinal.1] at hopen
    exact hships hopen _
  · rw [if_neg hcontains] at hopen ⊢
    have hopen : w.session.isClosed = false := hfinal.1.symm.trans ((hsession w.made) ▸ hopen)
    exact ⟨(hships hopen _).posts, (hships hopen _).closed⟩

theorem release_ships {h : Handle} (hopen : (w.release h).session.isClosed = false) :
    Ships [] w (w.release h) := by
  rcases hresult : w.session.statements.put h.statement.key h.statement with ⟨given, statements⟩
  obtain ⟨journal, asides, hrun, hhistory, haside⟩ := releaseStatement_apply hresult
  unfold release at hopen ⊢
  rw [hrun] at hopen ⊢
  have hposts : Session.Posts [] w.session { w.session with
      statements
      channel := { w.session.channel with journal }
      pendingClose := w.session.pendingClose ++ given.filterMap Statement.name } :=
    Session.posts_nothing hopen rfl rfl ⟨asides, hhistory, fun e he => .inl (haside e he)⟩
  have hships := called_ships none (r := .ok () _) hposts
  exact ⟨hships.posts, hships.closed⟩

/-- An operation that leaves the session open has put parcels on their way. -/
theorem step_ships (hw : w.Sound f) (operation : Operation)
    (hopen : (w.step operation).session.isClosed = false) :
    ∃ ps, Ships ps w (w.step operation) := by
  have hnothing : w.session.isClosed = false → Ships [] w w := fun hopen =>
    ⟨Session.posts_same hopen rfl, (List.append_nil _).symm⟩
  cases hstuck : w.isStuck with
  | true =>
      rw [step_of_stuck hstuck] at hopen ⊢
      exact ⟨[], hnothing hopen⟩
  | false =>
      rw [step_of_running hstuck] at hopen ⊢
      cases operation with
      | borrow key => exact ⟨[], borrow_ships hopen⟩
      | create key => exact ⟨[], create_ships hopen⟩
      | setFetchSize id rows =>
          exact ⟨[], (hnothing hopen).posts, (hnothing hopen).closed⟩
      | release id =>
          rcases w.act_release id with hact | ⟨h, -, hact⟩
          · rw [hact] at hopen ⊢
            exact ⟨[], hnothing hopen⟩
          · rw [hact] at hopen ⊢
            exact ⟨[], release_ships hopen⟩
      | query sql =>
          obtain ⟨ps, hposts⟩ := Session.query_posts hopen
          exact ⟨ps, called_ships none hposts⟩
      | execute id parameters =>
          rcases w.act_execute id parameters with hact | ⟨h, -, hact⟩
          · rw [hact] at hopen ⊢
            exact ⟨[], hnothing hopen⟩
          · rw [hact] at hopen ⊢
            obtain ⟨ps, hposts⟩ := Session.execute_posts hopen (hw.closable hstuck)
            have hships := called_ships (some h) hposts
            exact ⟨ps, hships.posts, hships.closed⟩
      | takeNotices wait => exact ⟨[], called_ships none (Session.takeNotices_posts hopen)⟩
      | close =>
          exact absurd (Session.close_reaches.final w.session) (ne_true_of_eq_false hopen)
      | abort =>
          exact absurd (Session.abort_reaches.final w.session) (ne_true_of_eq_false hopen)
      | arrive octets ended faults =>
          refine ⟨[], Session.posts_nothing hopen rfl rfl
            ⟨[], (List.append_nil _).symm, List.forall_mem_nil _⟩, (List.append_nil _).symm⟩

/-- A session that is open was never closed. -/
theorem run_open (hw : w.Sound f) (operations : List Operation)
    (honce : AnswersOnce (w.run operations).log)
    (hopen : (w.run operations).session.isClosed = false) : w.session.isClosed = false := by
  induction operations generalizing w with
  | nil => exact hopen
  | cons operation operations ih =>
      obtain ⟨ps, hships⟩ := step_ships hw operation
        (ih (step_sound hw operation (once_of_run honce)) honce hopen)
      exact hships.posts.isOpen

/-- As long as the session is open, a run only ever adds to what is on its way. -/
theorem run_shipped (hw : w.Sound f) (h : Shipped sent w written buffered)
    (operations : List Operation) (honce : AnswersOnce (w.run operations).log)
    (hopen : (w.run operations).session.isClosed = false) :
    ∃ written' buffered', Shipped sent (w.run operations) written' buffered' ∧
      written <+: written' ∧ written ++ buffered <+: written' ++ buffered' := by
  induction operations generalizing w written buffered with
  | nil => exact ⟨written, buffered, h, List.prefix_refl _, List.prefix_refl _⟩
  | cons operation operations ih =>
      have hsound := step_sound hw operation (once_of_run honce)
      obtain ⟨ps, hships⟩ := step_ships hw operation (run_open hsound operations honce hopen)
      obtain ⟨written₁, buffered₁, h₁, hwritten, hsplit⟩ := h.step hships
      obtain ⟨written', buffered', h', hwritten', hall⟩ := ih hsound h₁ honce hopen
      refine ⟨written', buffered', h', hwritten.trans hwritten', ?_⟩
      refine List.IsPrefix.trans ?_ hall
      rw [hsplit]
      exact List.prefix_append _ _

end World

end PgClient
