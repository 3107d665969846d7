import PgClient.Proofs.Closing
import PgClient.Proofs.Farewell

/-!
# What a session says

After the login a client has three things to say: it closes statements it has no more
use for, it makes a request, and it takes its leave. The server reads all of it as
one run of octets, and the client puts that run together in many calls, any of which may
fail half way. Nevertheless the server reads whole frames, the frames make whole
requests, each with the Closes ahead of it, and no request begins before the reply to the
one before it was read to its end.

`Request`, `Utterance` and `Transcript` are the grammar. `Speaks` says of one call what
it adds, and `Tells` is the invariant of a run.
-/

namespace PgClient

open Exchange FrontendMessage

/-! ## Frames -/

/-- A tag, the length of the rest, which counts itself, and a body. The length is right as far as
32 bits go, whether it is read as a signed number or not. -/
def IsFrame (octets : Bytes) : Prop :=
  ∃ tag length body, octets = tag :: (length ++ body) ∧ length.length = 4 ∧
    (body.length < 2 ^ 31 → Bytes.toNat length = body.length + 4) ∧
    (body.length + 4 < 2 ^ 31 → Bytes.toInt length = (body.length + 4 : Nat))

theorem frame_isFrame (tag : Char) (body : Bytes) : IsFrame (frame tag body) := by
  refine ⟨UInt8.ofNat tag.toNat, Bytes.int32 (body.length + 4), body, rfl,
    Bytes.length_int32 _, fun hlength => ?_, fun hlength => ?_⟩
  · rw [Bytes.int32, Bytes.ofInt, Bytes.toNat_ofNat, show Bytes.span 4 = 4294967296 from rfl]
    omega
  · exact Bytes.toInt_int32 (by omega) (by omega)

/-- What comes of putting a message together, if anything does, is one frame. -/
def Frames (x : Except Error Bytes) : Prop :=
  ∀ octets, x = .ok octets → IsFrame octets

theorem Frames.bind {α : Type} {x : Except Error α} {f : α → Except Error Bytes}
    (hf : ∀ a, Frames (f a)) : Frames (x >>= f) := by
  cases x with
  | error e => nofun
  | ok a => exact hf a

theorem frame_frames (tag : Char) (body : Bytes) : Frames (.ok (frame tag body)) := by
  rintro _ ⟨⟩
  exact frame_isFrame tag body

theorem FrontendMessage.encode_frames (charset : Charset) {m : FrontendMessage}
    (h : m.isTagged = true) : Frames (m.encode charset) := by
  cases m with
  | startup | sslRequest | cancelRequest => cases h
  | terminate | password | sync | flush => exact frame_frames _ _
  | cleartextPassword | query | describe | execute | close =>
      exact .bind fun _ => frame_frames _ _
  | parse | bind => exact .bind fun _ => .bind fun _ => frame_frames _ _

/-! ## The grammar -/

/-- The octets are those of the messages, one frame behind the other. -/
def Spells (octets : Bytes) (messages : List FrontendMessage) : Prop :=
  ∃ parcels : List Parcel, parcels.map Parcel.message = messages ∧ Parcel.load parcels = octets ∧
    ∀ p ∈ parcels, p.IsEncoded ∧ IsFrame p.octets

namespace Spells

theorem nil : Spells [] [] :=
  ⟨[], rfl, rfl, List.forall_mem_nil _⟩

theorem append {octets octets' : Bytes} {ms ms' : List FrontendMessage} (h : Spells octets ms)
    (h' : Spells octets' ms') : Spells (octets ++ octets') (ms ++ ms') := by
  obtain ⟨ps, rfl, rfl, hps⟩ := h
  obtain ⟨ps', rfl, rfl, hps'⟩ := h'
  exact ⟨ps ++ ps', List.map_append, Parcel.load_append ps ps',
    List.forall_mem_append.2 ⟨hps, hps'⟩⟩

theorem of_mapM {charset : Charset} {ms : List FrontendMessage} {parts : List Bytes}
    (h : ms.mapM (encode charset) = .ok parts) (htagged : ∀ m ∈ ms, m.isTagged = true) :
    Spells parts.flatten ms := by
  obtain ⟨ps, rfl, hload, hencoded⟩ := Parcel.of_mapM h
  refine ⟨ps, rfl, hload, fun p hp => ⟨hencoded p hp, ?_⟩⟩
  obtain ⟨charset', hp'⟩ := hencoded p hp
  exact encode_frames charset' (htagged _ (List.mem_map_of_mem hp)) _ hp'

theorem farewell : Spells PgClient.farewell [.terminate] :=
  ⟨[⟨.terminate, PgClient.farewell⟩], rfl, rfl,
    List.forall_mem_singleton.2 ⟨⟨.utf8, rfl⟩, frame_isFrame _ _⟩⟩

end Spells

/-- The messages that close statements. -/
def closing (names : List String) : List FrontendMessage :=
  names.map fun name => .close statementKind name

theorem closing_append (names names' : List String) :
    closing (names ++ names') = closing names ++ closing names' :=
  List.map_append

theorem closing_tagged (names : List String) : ∀ m ∈ closing names, m.isTagged = true := by
  intro m hm
  obtain ⟨name, -, rfl⟩ := List.mem_map.1 hm
  rfl

/-- What may be asked of a server. -/
inductive Request where
  /-- The text of a query. -/
  | text (sql : String)
  /-- A statement of this name is run, after it was prepared from a text if there is one. -/
  | run (name : String) (prepares : Option String) (parameters : List (Option Bytes)) (rows : Int)

namespace Request

def messages : Request → List FrontendMessage
  | text sql => [.query sql]
  | run name prepares parameters rows =>
    (prepares.toList.map fun sql => .parse name sql []) ++
      [.bind "" name parameters, .describe portalKind "", .execute "" rows, .sync]

theorem messages_tagged (r : Request) : ∀ m ∈ r.messages, m.isTagged = true := by
  cases r with
  | text sql => simp [messages, isTagged]
  | run name prepares parameters rows => cases prepares <;> simp [messages, isTagged]

end Request

/-- A request, the names closed ahead of it, and the call that made it. -/
structure Utterance where
  turn : Nat
  closes : List String
  request : Request

def Utterance.messages (u : Utterance) : List FrontendMessage :=
  closing u.closes ++ u.request.messages

/-- Everything a session said. -/
structure Transcript where
  utterances : List Utterance
  /-- The names closed ahead of the farewell, once there was one. -/
  farewell : Option (List String)

def Transcript.messages (t : Transcript) : List FrontendMessage :=
  t.utterances.flatMap Utterance.messages ++
    t.farewell.elim [] fun names => closing names ++ [.terminate]

/-! ## What a call says -/

/-- What was read is a reply up to its end. -/
def Concludes (events : List Event) : Prop :=
  ∃ before status, Session.IsStatus status ∧
    events.filterMap Event.message? = before ++ [.readyForQuery status] ∧
    ∀ m ∈ before, m.tag ≠ .readyForQuery

/-- What was told besides, ahead of a reply, is no part of it. -/
theorem Concludes.after {asides events : List Event} (h : Concludes events)
    (haside : ∀ e ∈ asides, e.isAside = true) : Concludes (asides ++ events) := by
  obtain ⟨before, status, hstatus, hmessages, hother⟩ := h
  refine ⟨before, status, hstatus, ?_, hother⟩
  rw [List.filterMap_append, filterMap_message?_of_isAside haside]
  exact hmessages

namespace Session

theorem Conversation.UpToReady.concludes {s s' : Session} {events : List Event}
    (h : Conversation.UpToReady s s') (hhistory : s'.history = s.history ++ events) :
    Concludes events := by
  obtain ⟨-, status, hstatus, -, events', before, hhistory', hmessages, hother⟩ := h
  obtain rfl := List.append_cancel_left (hhistory'.symm.trans hhistory)
  exact ⟨before, status, hstatus, hmessages, hother⟩

/-- What a call says to the server, and what it reads if it makes a request. -/
inductive Speaks (s : Session) (h : Option Halt) (s' : Session) : Prop where
  /-- It makes no request, but there may be statements to close, and it may take its leave. -/
  | aside {names : List String} {octets : Bytes} {s₁ : Session}
      (hspells : Spells octets (closing names)) (hclosed : s₁.isClosed = s.isClosed)
      (hout : s₁.channel.outgoing = s.channel.outgoing ++ octets)
      (hsent : s₁.channel.socket.sent = s.channel.socket.sent) (hparts : Parts s₁ none s')
  /-- It makes a request, behind everything that had to wait. -/
  | asks {names : List String} {request : Request} {octets : Bytes} {s₁ : Session}
      {since : List Event} (hopen : s.isClosed = false)
      (hspells : Spells octets (closing names ++ request.messages)) (hclosed : s₁.isClosed = false)
      (hout : s₁.channel.outgoing = [])
      (hsent : s₁.channel.socket.sent = s.channel.socket.sent ++ (s.channel.outgoing ++ octets))
      (hparts : Parts s₁ none s')
      (hhistory : s'.history = s.history ++
        ((closing names ++ request.messages).map Event.sending ++ since))
      (hreads : s'.isClosed = false → h ≠ some .waiting → Concludes since)

/-- A call that has nothing to say of its own. -/
theorem Parts.speaks {s s' : Session} {h h' : Option Halt} (hparts : Parts s h s') :
    Speaks s h' s' :=
  have hnothing : Spells [] (closing []) := .nil
  .aside hnothing rfl (List.append_nil _).symm rfl hparts.any

/-- How far the messages of a request got. -/
inductive Puts (s : Session) : EStateM.Result Halt Session (Option String) → Prop where
  /-- The request could not be put together; some Closes have to wait. -/
  | kept {names : List String} {octets : Bytes} {e : Error} {s₁ : Session}
      (hspells : Spells octets (closing names)) (hclosed : s₁.isClosed = s.isClosed)
      (hout : s₁.channel.outgoing = s.channel.outgoing ++ octets)
      (hsent : s₁.channel.socket.sent = s.channel.socket.sent) (hmild : e.isFatal = false) :
      Puts s (.error (.failed e) s₁)
  /-- The write failed. -/
  | lost {e : Error} {s₁ : Session} (hsent : s₁.channel.socket.sent = s.channel.socket.sent)
      (hfatal : e.isFatal = true) : Puts s (.error (.failed e) s₁)
  /-- The request was written, even if what followed the write failed. -/
  | put {names : List String} {request : Request} {octets : Bytes} {asides : List Event}
      {r : EStateM.Result Halt Session (Option String)}
      (hspells : Spells octets (closing names ++ request.messages))
      (hclosed : (final r).isClosed = s.isClosed) (hout : (final r).channel.outgoing = [])
      (hsent : (final r).channel.socket.sent =
        s.channel.socket.sent ++ (s.channel.outgoing ++ octets))
      (hhistory : (final r).history = s.history ++
        ((closing names ++ request.messages).map Event.sending ++ asides))
      (haside : ∀ e ∈ asides, e.isAside = true)
      (hfatal : ∀ halt, halt? r = some halt → ∃ e, halt = .failed e ∧ e.isFatal = true) : Puts s r

/-! ### Putting a request together -/

/-- Closes that could be put together are some of those that were to be. -/
theorem spells_of_closings {s : Session} {kept : List FrontendMessage} {parts : List Bytes}
    (hkept : kept <+: s.closings) (hparts : kept.mapM (encode s.channel.charset) = .ok parts) :
    ∃ names, Spells parts.flatten (closing names) := by
  obtain ⟨rest, hrest⟩ := hkept
  obtain ⟨names, -, -, rfl, -⟩ := List.map_eq_append_iff.1 hrest.symm
  exact ⟨names, .of_mapM hparts (closing_tagged names)⟩

/-- The request that is made of a statement. -/
def asked (s : Session) (st : Statement) (parameters : List (Option Bytes)) : Request :=
  .run ((st.name.or (s.offered st)).getD "") ((s.offered st).map fun _ => st.native) parameters
    st.fetchSize

theorem running_eq (s : Session) (st : Statement) (parameters : List (Option Bytes)) :
    s.running st parameters = (s.asked st parameters).messages := by
  unfold running asked offered
  cases st.name <;> rfl

/-- A request was put together behind what had to wait, and not written yet. -/
structure Drafted (s : Session) (names : List String) (request : Request) (octets : Bytes)
    (s' : Session) : Prop where
  spells : Spells octets (closing names ++ request.messages)
  isClosed : s'.isClosed = s.isClosed
  outgoing : s'.channel.outgoing = s.channel.outgoing ++ octets
  sent : s'.channel.socket.sent = s.channel.socket.sent
  history : s'.history = s.history ++ (closing names ++ request.messages).map Event.sending

section Drafted

variable {s s' : Session} {names : List String} {request : Request} {octets : Bytes} {c : Channel}

theorem Drafted.written {r : EStateM.Result Halt Session (Option String)}
    (h : Drafted s names request octets s') (hkeeps : s'.channel.Keeps c) (hout : c.outgoing = [])
    (hsent : c.socket.sent = s'.channel.socket.sent ++ s'.channel.outgoing)
    (hr : final r = { s' with channel := c })
    (hfatal : ∀ halt, halt? r = some halt → ∃ e, halt = .failed e ∧ e.isFatal = true) :
    Puts s r := by
  obtain ⟨asides, hasides, haside⟩ := hkeeps.history
  refine .put h.spells (by rw [hr]; exact h.isClosed) (by rw [hr]; exact hout)
    (by rw [hr]; exact hsent.trans (by rw [h.sent, h.outgoing])) ?_ haside hfatal
  rw [hr]
  show c.history = _
  rw [hasides, show s'.channel.history = _ from h.history, List.append_assoc]

/-- A write that fails may have failed after everything was out. -/
theorem Drafted.failed {e : Error} (h : Drafted s names request octets s')
    (hflush : Channel.flush s'.channel = .error (.failed e) c) (hfatal : e.isFatal = true) :
    Puts s (.error (.failed e) { s' with channel := c }) := by
  have hempty := Channel.flush_outgoing s'.channel
  have hsent := Channel.flush_sent s'.channel
  rw [hflush] at hempty hsent
  rcases hsent with hsent | hsent
  · exact .lost (hsent.trans h.sent) hfatal
  · refine h.written (Channel.flush_keeps.error hflush) hempty hsent rfl fun halt hhalt => ?_
    cases hhalt
    exact ⟨e, rfl, hfatal⟩

end Drafted

theorem sendQuery_puts {sql : String} {s : Session} {octets : Bytes}
    (hencode : encode s.channel.charset (.query sql) = .ok octets) :
    Puts s (sendQuery (s.drafts [.query sql] octets)) := by
  have hspells : Spells octets (closing [] ++ (Request.text sql).messages) := by
    have hparts : [FrontendMessage.query sql].mapM (encode s.channel.charset) = .ok [octets] := by
      rw [List.mapM_cons, hencode]
      rfl
    have := Spells.of_mapM hparts (Request.messages_tagged (.text sql))
    rwa [List.flatten_singleton] at this
  have hdrafted : Drafted s [] (.text sql) octets (s.drafts [.query sql] octets) :=
    ⟨hspells, rfl, rfl, rfl, history_drafts s _ _⟩
  rcases sendQuery_cases (s.drafts [.query sql] octets) with
    ⟨c, hflush, hsend⟩ | ⟨e, c, hflush, hfatal, -, hsend⟩
  · obtain ⟨hout, hsent, -⟩ := Channel.flush_ok hflush
    rw [hsend]
    exact hdrafted.written (Channel.flush_keeps.ok hflush) hout hsent rfl nofun
  · rw [hsend]
    exact hdrafted.failed hflush hfatal

theorem Sends.puts {st : Statement} {parameters : List (Option Bytes)} {s : Session}
    {r : EStateM.Result Halt Session (Option String)} (h : Sends st parameters s r) : Puts s r := by
  have hdrafted : ∀ {closed run : List Bytes},
      s.closings.mapM (encode s.channel.charset) = .ok closed →
      (s.running st parameters).mapM (encode s.channel.charset) = .ok run →
      Drafted s s.pendingClose (s.asked st parameters) (closed.flatten ++ run.flatten)
        ((s.emptied.named st).drafts (s.closings ++ s.running st parameters)
          (closed.flatten ++ run.flatten)) := by
    intro closed run hclosed hrun
    rw [running_eq] at hrun ⊢
    exact ⟨(Spells.of_mapM hclosed (closing_tagged _)).append
      (Spells.of_mapM hrun (Request.messages_tagged _)), rfl, rfl, rfl,
      history_drafts (s.emptied.named st) _ _⟩
  cases h with
  | unclosed _ _ hkept hparts =>
      obtain ⟨names, hspells⟩ := spells_of_closings hkept hparts
      exact .kept hspells rfl rfl rfl rfl
  | refused hclosing =>
      exact .kept (Spells.of_mapM hclosing (closing_tagged s.pendingClose)) rfl rfl rfl rfl
  | unwritten hclosing hrun hfatal _ _ hflush => exact (hdrafted hclosing hrun).failed hflush hfatal
  | written hclosing hrun hkeeps hout _ hwritten =>
      refine (hdrafted hclosing hrun).written hkeeps hout (hwritten.trans ?_) rfl nofun
      rw [List.append_assoc]
      rfl

/-! ### From the request to the end of the call -/

section Converse

variable {send : Exchange Session (Option String)} {statement : Option Statement}
  {s₀ s s₁ : Session}

/-- A request that was not sent is not spoken of again. -/
theorem converse_unheeded {e : Error} (h : send s = .error (.failed e) s₁) :
    (final (converse { session := s₀, statement } (request send) s)).channel.socket.sent =
      s₁.channel.socket.sent := by
  have hrun := request_apply send statement s
  rw [h] at hrun
  unfold converse
  rw [attempt_of_failed hrun]
  exact (unheeded_composes.bind (checkFatal_unheeded _)
    (fun _ => unheeded_composes.pure _) s₁).sent

/-- While the reply is read, the session may have to take its leave. -/
theorem converse_parts {preparing : Option String} (h : send s = .ok preparing s₁) :
    Parts s₁ none (final (converse { session := s₀, statement } (request send) s)) := by
  have hrun := request_apply send statement s
  have hreply := readReply_parts { session := s₁, statement, preparing }
  rw [h] at hrun
  simp only [] at hrun
  rw [← hrun] at hreply
  have hchecked : ∀ (result : Except Error Unit) (reply : Reply),
      Obeys Parts (do checkFatal result; return reply : Exchange Session Reply) :=
    fun result _ => parts_composes.bind (checkFatal_parts result) fun _ => parts_composes.pure _
  unfold converse
  cases hr : request send { session := s, statement } with
  | ok _ c =>
      rw [hr] at hreply
      rw [attempt_of_ok hr]
      exact parts_composes.trans hreply.any (hchecked _ _ c.session).any
  | error halt c =>
      rw [hr] at hreply
      cases halt with
      | waiting =>
          rw [attempt_of_waiting hr]
          exact hreply.any
      | failed e =>
          rw [attempt_of_failed hr]
          exact parts_composes.trans hreply.any (hchecked _ _ c.session).any

/-- A failure of the sending ends the session, or it does nothing to it. -/
theorem converse_ends {e : Error} (h : send s = .error (.failed e) s₁) :
    Ends e s₁ (final (converse { session := s₀, statement } (request send) s)) := by
  have hrun := request_apply send statement s
  rw [h] at hrun
  obtain ⟨s₂, hends, hconverse⟩ :=
    converse_of_failed (c := { session := s₀, statement }) hrun
  rw [hconverse]
  exact hends

end Converse

theorem Ends.of_mild {e : Error} {s s' : Session} (h : Ends e s s') (hmild : e.isFatal = false) :
    s' = s := by
  rw [Ends, hmild] at h
  exact h

theorem Ends.of_fatal {e : Error} {s s' : Session} (h : Ends e s s') (hfatal : e.isFatal = true) :
    s'.isClosed = true := by
  rw [Ends, hfatal] at h
  exact h.2

/-- A request that leaves the session open and comes back has read its reply. -/
theorem Answers.concludes {statement : Option Statement}
    {sent : EStateM.Result Halt Session (Option String)} {r : EStateM.Result Halt Session Reply}
    {events : List Event} (h : Answers statement sent r)
    (hhistory : (final r).history = (final sent).history ++ events)
    (hfatal : ∀ halt, halt? sent = some halt → ∃ e, halt = .failed e ∧ e.isFatal = true)
    (hopen : (final r).isClosed = false) (hends : halt? r ≠ some .waiting) : Concludes events := by
  cases h with
  | unsent hend =>
      obtain ⟨e, he, hfatal⟩ := hfatal _ rfl
      cases he
      rw [final_ok, hend.of_fatal hfatal] at hopen
      cases hopen
  | answered _ hready => exact hready.concludes hhistory
  | broken _ _ hclosed =>
      rw [final_ok, hclosed] at hopen
      cases hopen
  | waiting => exact absurd rfl hends

/-- A request that was written was written as a whole, whatever comes of it. -/
theorem Puts.speaks {s s₀ s₁ : Session} {send : Exchange Session (Option String)}
    {statement : Option Statement} (h : Puts s (send s₁)) (hopen : s.isClosed = false) :
    Speaks s (halt? (converse { session := s₀, statement } (request send) s₁))
      (final (converse { session := s₀, statement } (request send) s₁)) := by
  have hends : ∀ {e : Error} {s₂ : Session}, send s₁ = .error (.failed e) s₂ →
      Ends e s₂ (final (converse { session := s₀, statement } (request send) s₁)) := converse_ends
  have hunheeded : ∀ {e : Error} {s₂ : Session}, send s₁ = .error (.failed e) s₂ →
      (final (converse { session := s₀, statement } (request send) s₁)).channel.socket.sent =
        s₂.channel.socket.sent := converse_unheeded
  generalize hr : send s₁ = r at h
  cases h with
  | kept hspells hclosed hout hsent hmild =>
      refine .aside hspells hclosed hout hsent ?_
      rw [(hends hr).of_mild hmild]
      exact parts_composes.refl _
  | lost hsent hfatal =>
      have hparts : Parts s none _ :=
        .parts hopen ((hends hr).of_fatal hfatal) (.inl ((hunheeded hr).trans hsent))
      exact hparts.speaks
  | put hspells hclosed hout hsent hhistory haside hfatal =>
      have hwaits : halt? (send s₁) ≠ some .waiting := by
        rw [hr]
        intro hwaits
        obtain ⟨e, he, -⟩ := hfatal _ hwaits
        cases he
      have hanswers := request_answers statement s₀ hwaits
      obtain ⟨events, a, hhears⟩ := hanswers.hears
      have hparts : Parts (final (send s₁)) none
          (final (converse { session := s₀, statement } (request send) s₁)) := by
        cases r with
        | ok preparing s₂ =>
            rw [hr]
            exact converse_parts hr
        | error halt s₂ =>
            obtain ⟨e, rfl, hlost⟩ := hfatal _ rfl
            rw [hr]
            exact .parts (hclosed.trans hopen) ((hends hr).of_fatal hlost) (.inl (hunheeded hr))
      rw [hr] at hparts hanswers hhears
      refine .asks hopen hspells (hclosed.trans hopen) hout hsent hparts ?_ fun hopen' hends' =>
        (hanswers.concludes hhears.history hfatal hopen' hends').after haside
      rw [hhears.history, hhistory, List.append_assoc, List.append_assoc]

theorem query_speaks (sql : String) (s : Session) :
    Speaks s (halt? (query sql s)) (final (query sql s)) := by
  rcases query_refused_or_sent sql s with ⟨e, hrun, -⟩ | ⟨hopen, octets, hencode⟩
  · rw [hrun]
    exact (parts_composes.refl s).speaks
  · rw [query_eq hopen hencode]
    exact (sendQuery_puts hencode).speaks hopen

theorem execute_speaks (st : Statement) (parameters : List (Option Bytes)) (s : Session) :
    Speaks s (halt? (execute st parameters s)) (final (execute st parameters s)) := by
  cases hopen : s.isClosed with
  | true =>
      rw [execute_of_closed hopen]
      exact (parts_composes.refl s).speaks
  | false =>
      rw [execute_eq hopen]
      exact (sendStatement_sends (s.readied st) parameters s).puts.speaks hopen

/-! ## What was said so far -/

/-- The octets that went out behind `sent` are those of a transcript, and as long as the session
is open there is no farewell among them, and nothing but Closes has to wait. -/
structure Said (sent : Bytes) (s : Session) (t : Transcript) : Prop where
  sent : ∃ octets, s.channel.socket.sent = sent ++ octets ∧ Spells octets t.messages
  kept : s.isClosed = false → t.farewell = none ∧
    ∃ names, Spells s.channel.outgoing (closing names)

section Said

variable {sent : Bytes} {s s₁ s' : Session} {t : Transcript}

theorem Said.parts {h : Option Halt} (hsaid : Said sent s t) (hparts : Parts s h s') :
    ∃ farewell, Said sent s' { t with farewell } ∧ (s.isClosed = true →
      s'.isClosed = true ∧ farewell = t.farewell) := by
  obtain ⟨octets, hsent, hspells⟩ := hsaid.sent
  cases hparts with
  | stays hclosed hsame hout =>
      refine ⟨t.farewell, ⟨⟨octets, hsame.trans hsent, hspells⟩, fun hopen => ?_⟩,
        fun hover => ⟨hclosed.trans hover, rfl⟩⟩
      have hwas := hclosed.symm.trans hopen
      rw [hout hwas]
      exact hsaid.kept hwas
  | parts hopen hclosed hsaying =>
      obtain ⟨hnone, names, hnames⟩ := hsaid.kept hopen
      have hended : ∀ {farewell : Option (List String)}, s'.isClosed = false → farewell = none ∧
          ∃ names, Spells s'.channel.outgoing (closing names) := fun hopen' => by
        rw [hclosed] at hopen'
        cases hopen'
      have hwas : s.isClosed = true → ∀ {P : Prop}, P := fun hover => by
        rw [hopen] at hover
        cases hover
      rcases hsaying with hsame | hsaying
      · exact ⟨t.farewell, ⟨⟨octets, hsame.trans hsent, hspells⟩, hended⟩, fun hover => hwas hover⟩
      · refine ⟨some names, ⟨⟨octets ++ (s.channel.outgoing ++ farewell), ?_, ?_⟩, hended⟩,
          fun hover => hwas hover⟩
        · rw [hsaying, hsent, List.append_assoc]
        · have hmessages : t.messages = t.utterances.flatMap Utterance.messages := by
            unfold Transcript.messages
            rw [hnone]
            exact List.append_nil _
          rw [hmessages] at hspells
          exact hspells.append (hnames.append .farewell)

/-- Closes that have to wait stand behind those that already do. -/
theorem Said.keeps {names : List String} {octets : Bytes} (hsaid : Said sent s t)
    (hspells : Spells octets (closing names)) (hclosed : s₁.isClosed = s.isClosed)
    (hout : s₁.channel.outgoing = s.channel.outgoing ++ octets)
    (hsent : s₁.channel.socket.sent = s.channel.socket.sent) : Said sent s₁ t := by
  obtain ⟨said, hsaidsent, hsaidspells⟩ := hsaid.sent
  refine ⟨⟨said, hsent.trans hsaidsent, hsaidspells⟩, fun hopen => ?_⟩
  obtain ⟨hnone, names', hkept⟩ := hsaid.kept (hclosed.symm.trans hopen)
  refine ⟨hnone, names' ++ names, ?_⟩
  rw [hout, closing_append]
  exact hkept.append hspells

/-- A request stands behind all Closes that had to wait. -/
theorem Said.asks {names : List String} {request : Request} {octets : Bytes} (turn : Nat)
    (hsaid : Said sent s t) (hopen : s.isClosed = false)
    (hspells : Spells octets (closing names ++ request.messages))
    (hout : s₁.channel.outgoing = [])
    (hsent : s₁.channel.socket.sent = s.channel.socket.sent ++ (s.channel.outgoing ++ octets)) :
    ∃ closes, names <:+ closes ∧
      Said sent s₁ { t with utterances := t.utterances ++ [⟨turn, closes, request⟩] } := by
  obtain ⟨said, hsaidsent, hsaidspells⟩ := hsaid.sent
  obtain ⟨hnone, names', hkept⟩ := hsaid.kept hopen
  refine ⟨names' ++ names, List.suffix_append _ _,
    ⟨said ++ (s.channel.outgoing ++ octets), ?_, ?_⟩, fun _ => ⟨hnone, [], ?_⟩⟩
  · rw [hsent, hsaidsent, List.append_assoc]
  · have hmessages : ({ t with utterances := t.utterances ++ [⟨turn, names' ++ names, request⟩] } :
        Transcript).messages =
          t.messages ++ (closing names' ++ (closing names ++ request.messages)) := by
      unfold Transcript.messages
      rw [hnone, List.flatMap_append, List.flatMap_singleton]
      simp only [Utterance.messages, closing_append, Option.elim_none, List.append_nil,
        List.append_assoc]
    rw [hmessages]
    exact hsaidspells.append (hkept.append hspells)
  · rw [hout]
    exact .nil

/-- A call makes at most one request, and it makes none once the session has ended. -/
theorem Said.speaks {h : Option Halt} (turn : Nat) (hsaid : Said sent s t)
    (hspeaks : Speaks s h s') :
    (∃ farewell, Said sent s' { t with farewell } ∧ (s.isClosed = true →
      s'.isClosed = true ∧ farewell = t.farewell)) ∨
    s.isClosed = false ∧ ∃ closes names request farewell since, names <:+ closes ∧
      Said sent s' { utterances := t.utterances ++ [⟨turn, closes, request⟩], farewell } ∧
      s'.history = s.history ++
        ((closing names ++ request.messages).map Event.sending ++ since) ∧
      (s'.isClosed = false → h ≠ some .waiting → Concludes since) := by
  cases hspeaks with
  | aside hspells hclosed hout hsent hparts =>
      obtain ⟨farewell, hsaid', hended⟩ := (hsaid.keeps hspells hclosed hout hsent).parts hparts
      exact .inl ⟨farewell, hsaid', fun hover => hended (hclosed.trans hover)⟩
  | @asks names request octets s₁ since hopen hspells hclosed hout hsent hparts hhistory hreads =>
      obtain ⟨closes, hsuffix, hasked⟩ := hsaid.asks turn hopen hspells hout hsent
      obtain ⟨farewell, hsaid', -⟩ := hasked.parts hparts
      exact .inr ⟨hopen, closes, names, request, farewell, since, hsuffix, hsaid', hhistory, hreads⟩

end Said

end Session

/-! ## What a run says -/

/-- What happened in the course of a call. -/
def eventsOf (log : List Entry) (turn : Nat) : List Event :=
  (log.filter (·.turn == turn)).map Entry.event

/-- A call is over when the next one begins. -/
theorem eventsOf_of_past {log : List Entry} {turn turn' : Nat} {runner : Option Handle}
    {events : List Event} (h : turn < turn') :
    eventsOf (log ++ events.map (Entry.mk turn' runner)) turn = eventsOf log turn := by
  have hother : (events.map (Entry.mk turn' runner)).filter (·.turn == turn) = [] := by
    refine List.filter_eq_nil_iff.2 fun e he => ?_
    obtain ⟨event, -, rfl⟩ := List.mem_map.1 he
    simpa using Nat.ne_of_gt h
  unfold eventsOf
  rw [List.filter_append, hother, List.append_nil]

theorem eventsOf_current {log : List Entry} {turn : Nat} {runner : Option Handle}
    {events : List Event} (h : ∀ e ∈ log, e.turn < turn) :
    eventsOf (log ++ events.map (Entry.mk turn runner)) turn = events := by
  have hpast : log.filter (·.turn == turn) = [] :=
    List.filter_eq_nil_iff.2 fun e he => by simpa using Nat.ne_of_lt (h e he)
  have hall : (events.map (Entry.mk turn runner)).filter (·.turn == turn) =
      events.map (Entry.mk turn runner) := by
    refine List.filter_eq_self.2 fun e he => ?_
    obtain ⟨event, -, rfl⟩ := List.mem_map.1 he
    exact beq_self_eq_true turn
  unfold eventsOf
  rw [List.filter_append, hpast, hall, List.nil_append, List.map_map]
  exact List.map_id events

namespace Utterance

/-- The request was put together in the course of its call, behind the last of the Closes, and
this is what happened afterwards. -/
def MadeIn (u : Utterance) (log : List Entry) (since : List Event) : Prop :=
  ∃ names, names <:+ u.closes ∧
    eventsOf log u.turn = (closing names ++ u.request.messages).map Event.sending ++ since

theorem MadeIn.later {u : Utterance} {log : List Entry} {since : List Event}
    {turn : Nat} {runner : Option Handle} {events : List Event} (h : u.MadeIn log since)
    (hpast : u.turn < turn) : u.MadeIn (log ++ events.map (Entry.mk turn runner)) since := by
  unfold MadeIn
  rw [eventsOf_of_past hpast]
  exact h

/-- The reply to the request was read to its end. -/
def Answered (u : Utterance) (log : List Entry) : Prop :=
  ∃ since, u.MadeIn log since ∧ Concludes since

end Utterance

namespace World

/-- Nothing more will be said. -/
def IsOver (w : World) : Prop :=
  w.session.isClosed = true ∨ w.isStuck = true

/-- What was said is a transcript, in the order of the calls, and a request that was not answered
is the last one there will ever be. -/
structure Tells (sent : Bytes) (w : World) (t : Transcript) : Prop where
  said : Session.Said sent w.session t
  order : (t.utterances.map Utterance.turn).Pairwise (· < ·)
  past : ∀ u ∈ t.utterances, u.turn < w.turn
  log : ∀ e ∈ w.log, e.turn < w.turn
  made : ∀ u ∈ t.utterances, ∃ since, u.MadeIn w.log since ∧
    (Concludes since ∨ t.utterances.getLast? = some u ∧ w.IsOver)

/-- What was said stays said, and what comes later was said later, if anything is. -/
structure Continues (w : World) (t : Transcript) (w' : World) (t' : Transcript) : Prop where
  turn : w.turn ≤ w'.turn
  utterances : ∃ later, t'.utterances = t.utterances ++ later ∧ ∀ u ∈ later, w.turn ≤ u.turn
  ended : w.IsOver → w'.IsOver ∧ t' = t

variable {sent : Bytes} {w w' w'' : World} {t t' t'' : Transcript}

theorem Tells.answered (h : Tells sent w t) (hover : ¬ w.IsOver) :
    ∀ u ∈ t.utterances, u.Answered w.log := by
  intro u hu
  obtain ⟨since, hmade, hconcludes | ⟨-, hlast⟩⟩ := h.made u hu
  · exact ⟨since, hmade, hconcludes⟩
  · exact absurd hlast hover

theorem Continues.refl (w : World) (t : Transcript) : Continues w t w t :=
  ⟨Nat.le_refl _, ⟨[], (List.append_nil _).symm, List.forall_mem_nil _⟩, fun h => ⟨h, rfl⟩⟩

theorem Continues.trans (h : Continues w t w' t') (h' : Continues w' t' w'' t'') :
    Continues w t w'' t'' := by
  obtain ⟨later, hlater, hturns⟩ := h.utterances
  obtain ⟨later', hlater', hturns'⟩ := h'.utterances
  refine ⟨Nat.le_trans h.turn h'.turn, ⟨later ++ later', ?_, List.forall_mem_append.2
    ⟨hturns, fun u hu => Nat.le_trans h.turn (hturns' u hu)⟩⟩, fun hover => ?_⟩
  · rw [hlater', hlater, List.append_assoc]
  · obtain ⟨hover', rfl⟩ := h.ended hover
    exact h'.ended hover'

/-- A call adds at most one request to what was said, and it adds it last. -/
theorem Tells.called {α : Type} {r : EStateM.Result Halt Session α}
    (h : Tells sent w t) (runner : Option Handle) (hrunning : w.isStuck = false)
    (hspeaks : Session.Speaks w.session (halt? r) (final r)) :
    ∃ t', Tells sent (w.called runner r) t' ∧ Continues w t (w.called runner r) t' := by
  have hlog : ∀ e ∈ (w.called runner r).log, e.turn < w.turn + 1 := by
    intro e he
    rcases List.mem_append.1 he with he | he
    · exact Nat.lt_succ_of_lt (h.log e he)
    · obtain ⟨event, -, rfl⟩ := List.mem_map.1 he
      exact Nat.lt_succ_self _
  have hpast : ∀ u ∈ t.utterances, u.turn < w.turn + 1 := fun u hu =>
    Nat.lt_succ_of_lt (h.past u hu)
  rcases h.said.speaks w.turn hspeaks with ⟨farewell, hsaid, hended⟩ |
    ⟨hopen, closes, names, request, farewell, since, hsuffix, hsaid, hhistory, hreads⟩
  · have hover : w.IsOver → (w.called runner r).IsOver ∧ farewell = t.farewell := by
      rintro (hclosed | hstuck)
      · obtain ⟨hclosed', hsame⟩ := hended hclosed
        exact ⟨.inl hclosed', hsame⟩
      · rw [hrunning] at hstuck
        cases hstuck
    refine ⟨{ t with farewell }, ⟨hsaid, h.order, hpast, hlog, fun u hu => ?_⟩, Nat.le_succ _,
      ⟨[], (List.append_nil _).symm, List.forall_mem_nil _⟩, fun hover' => ?_⟩
    · obtain ⟨since, hmade, hends⟩ := h.made u hu
      exact ⟨since, hmade.later (h.past u hu),
        hends.imp_right fun ⟨hlast, hover'⟩ => ⟨hlast, (hover hover').1⟩⟩
    · obtain ⟨hover'', rfl⟩ := hover hover'
      exact ⟨hover'', rfl⟩
  · have hrest : ¬ w.IsOver := by
      rintro (hclosed | hstuck)
      · rw [hopen] at hclosed
        cases hclosed
      · rw [hrunning] at hstuck
        cases hstuck
    refine ⟨_, ⟨hsaid, ?_, ?_, hlog, List.forall_mem_append.2 ⟨fun u hu => ?_,
      List.forall_mem_singleton.2 ⟨since, ⟨names, hsuffix, ?_⟩, ?_⟩⟩⟩, Nat.le_succ _,
      ⟨_, rfl, List.forall_mem_singleton.2 (Nat.le_refl _)⟩, fun hover => absurd hover hrest⟩
    · rw [List.map_append]
      refine List.pairwise_append.2 ⟨h.order, List.pairwise_singleton _ _, fun a ha b hb => ?_⟩
      obtain ⟨u, hu, rfl⟩ := List.mem_map.1 ha
      obtain rfl := List.mem_singleton.1 hb
      exact h.past u hu
    · exact List.forall_mem_append.2 ⟨hpast, List.forall_mem_singleton.2 (Nat.lt_succ_self _)⟩
    · obtain ⟨since', hmade, hconcludes⟩ := h.answered hrest u hu
      exact ⟨since', hmade.later (h.past u hu), .inl hconcludes⟩
    · rw [called_log hhistory]
      exact eventsOf_current h.log
    · cases hclosed : (final r).isClosed with
      | true => exact .inr ⟨List.getLast?_concat, .inl hclosed⟩
      | false =>
          by_cases hwaits : halt? r = some .waiting
          · exact .inr ⟨List.getLast?_concat, .inr (decide_eq_true hwaits)⟩
          · exact .inl (hreads hclosed hwaits)

/-- Who has which statement is not spoken of. -/
theorem Continues.handed (hands : List Handle) (resident : StatementKey → Nat) (made : Nat)
    (h : ∃ t', Tells sent w' t' ∧ Continues w t w' t') :
    ∃ t', Tells sent { w' with hands, resident, made } t' ∧
      Continues w t { w' with hands, resident, made } t' := by
  obtain ⟨t', htells, hcontinues⟩ := h
  exact ⟨t', ⟨htells.said, htells.order, htells.past, htells.log, htells.made⟩,
    ⟨hcontinues.turn, hcontinues.utterances, hcontinues.ended⟩⟩

theorem Tells.obtained {r : EStateM.Result Halt Session Statement} (h : Tells sent w t)
    (hrunning : w.isStuck = false) (id : Nat) (hchannel : (final r).channel = w.session.channel)
    (hclosed : (final r).isClosed = w.session.isClosed) :
    ∃ t', Tells sent (w.obtained id r) t' ∧ Continues w t (w.obtained id r) t' := by
  have hparts : Session.Parts w.session none (final r) := Session.parts_of_channel hchannel hclosed
  have hcalled := h.called none hrunning hparts.speaks
  cases r with
  | ok st s => exact Continues.handed _ _ _ hcalled
  | error halt s => exact hcalled

theorem Tells.borrow (h : Tells sent w t) (hrunning : w.isStuck = false) (key : StatementKey) :
    ∃ t', Tells sent (w.borrow key) t' ∧ Continues w t (w.borrow key) t' := by
  have hfinal : (final (Session.borrowStatement key w.session)).channel = w.session.channel ∧
      (final (Session.borrowStatement key w.session)).isClosed = w.session.isClosed := by
    obtain ⟨statements, hborrow, -⟩ := borrowStatement_session key w.session
    rw [hborrow]
    exact ⟨rfl, rfl⟩
  have hobtained := fun id => h.obtained hrunning id hfinal.1 hfinal.2
  unfold World.borrow
  simp only []
  split
  · exact hobtained _
  · exact Continues.handed _ _ _ (hobtained _)

theorem Tells.create (h : Tells sent w t) (hrunning : w.isStuck = false) (key : StatementKey) :
    ∃ t', Tells sent (w.create key) t' ∧ Continues w t (w.create key) t' := by
  have hfinal : final (Session.createStatement key w.session) = w.session := by
    rw [createStatement_apply, final_lift]
  exact Continues.handed _ _ _
    (h.obtained hrunning w.made (congrArg Session.channel hfinal)
      (congrArg Session.isClosed hfinal))

theorem Tells.release (h : Tells sent w t) (hrunning : w.isStuck = false) (handle : Handle) :
    ∃ t', Tells sent (w.release handle) t' ∧ Continues w t (w.release handle) t' := by
  rcases hput : w.session.statements.put handle.statement.key handle.statement with
    ⟨given, statements⟩
  obtain ⟨journal, asides, hrun, -, -⟩ := releaseStatement_apply hput
  have hparts : Session.Parts w.session none
      (final (Session.releaseStatement handle.statement w.session)) := by
    rw [hrun]
    exact .stays rfl rfl fun _ => rfl
  exact Continues.handed _ _ _ (h.called none hrunning hparts.speaks)

/-- Whatever is done to a world, what was said stays a transcript. -/
theorem Tells.step (h : Tells sent w t) (operation : Operation) :
    ∃ t', Tells sent (w.step operation) t' ∧ Continues w t (w.step operation) t' := by
  cases hstuck : w.isStuck with
  | true =>
      rw [step_of_stuck hstuck]
      exact ⟨t, h, .refl w t⟩
  | false =>
      rw [step_of_running hstuck]
      cases operation with
      | borrow key => exact h.borrow hstuck key
      | create key => exact h.create hstuck key
      | release id =>
          rcases w.act_release id with hact | ⟨handle, -, hact⟩
          · rw [hact]
            exact ⟨t, h, .refl w t⟩
          · rw [hact]
            exact h.release hstuck handle
      | query sql => exact h.called none hstuck (Session.query_speaks sql w.session)
      | execute id parameters =>
          rcases w.act_execute id parameters with hact | ⟨handle, -, hact⟩
          · rw [hact]
            exact ⟨t, h, .refl w t⟩
          · rw [hact]
            exact Continues.handed _ _ _ (h.called (some handle) hstuck
              (Session.execute_speaks handle.statement parameters w.session))
      | takeNotices wait =>
          exact h.called none hstuck (Session.takeNotices_parts wait w.session).speaks
      | close => exact h.called none hstuck (Session.close_parts w.session).speaks
      | abort => exact h.called none hstuck (Session.abort_parts w.session).speaks
      | setFetchSize id rows =>
          exact ⟨t, ⟨h.said, h.order, h.past, h.log, h.made⟩, Nat.le_refl _,
            ⟨[], (List.append_nil _).symm, List.forall_mem_nil _⟩, fun hover => ⟨hover, rfl⟩⟩
      | arrive octets ended faults =>
          exact ⟨t, ⟨⟨h.said.sent, h.said.kept⟩, h.order, h.past, h.log, h.made⟩, Nat.le_refl _,
            ⟨[], (List.append_nil _).symm, List.forall_mem_nil _⟩, fun hover => ⟨hover, rfl⟩⟩

theorem Tells.run (h : Tells sent w t) (operations : List Operation) :
    ∃ t', Tells sent (w.run operations) t' ∧ Continues w t (w.run operations) t' := by
  induction operations generalizing w t with
  | nil => exact ⟨t, h, .refl w t⟩
  | cons operation operations ih =>
      obtain ⟨t₁, h₁, hcontinues⟩ := h.step operation
      obtain ⟨t', h', hcontinues'⟩ := ih h₁
      exact ⟨t', h', hcontinues.trans hcontinues'⟩

/-- The world of a client that was let in, after the server announced itself. -/
def opened (channel : Channel) (user database : String) (options : SessionOptions) : World :=
  start (final (Session.begin (Session.new channel user database options)))

theorem opened_tells {channel : Channel} (user database : String) (options : SessionOptions)
    (hout : channel.outgoing = []) :
    ∃ t, Tells channel.socket.sent (opened channel user database options) t := by
  have hnew : Session.Said channel.socket.sent (Session.new channel user database options)
      { utterances := [], farewell := none } := by
    refine ⟨⟨[], (List.append_nil _).symm, .nil⟩, fun _ => ⟨rfl, [], ?_⟩⟩
    show Spells channel.outgoing (closing [])
    rw [hout]
    exact .nil
  obtain ⟨farewell, hsaid, -⟩ := hnew.parts (Session.begin_parts _)
  exact ⟨_, hsaid, List.Pairwise.nil, List.forall_mem_nil _, List.forall_mem_nil _,
    List.forall_mem_nil _⟩

/-- At any moment between two calls, what the server was told since the login is a transcript; and
when something is said later, it is said behind all of it, after every request was answered, and
not behind a farewell. That nothing waits to be sent at first is how a login leaves a channel
(`Channel.login_outgoing`). -/
theorem requests_whole (channel : Channel) (user database : String) (options : SessionOptions)
    (hout : channel.outgoing = []) (operations more : List Operation) :
    ∃ t t', Tells channel.socket.sent ((opened channel user database options).run operations) t ∧
      Tells channel.socket.sent
        ((opened channel user database options).run (operations ++ more)) t' ∧
      (∃ later, t'.utterances = t.utterances ++ later ∧
        ∀ u ∈ later, ((opened channel user database options).run operations).turn ≤ u.turn) ∧
      (t' ≠ t → t.farewell = none ∧ ∀ u ∈ t.utterances,
        u.Answered ((opened channel user database options).run operations).log) := by
  obtain ⟨t₀, h₀⟩ := opened_tells user database options hout
  obtain ⟨t, h, -⟩ := h₀.run operations
  obtain ⟨t', h', hcontinues⟩ := h.run more
  rw [run_append]
  refine ⟨t, t', h, h', hcontinues.utterances, fun hmore => ?_⟩
  have hrest : ¬ ((opened channel user database options).run operations).IsOver := fun hover =>
    hmore (hcontinues.ended hover).2
  have hopen : ((opened channel user database options).run operations).session.isClosed = false :=
    eq_false_of_ne_true fun hclosed => hrest (.inl hclosed)
  exact ⟨(h.said.kept hopen).1, h.answered hrest⟩

/-- A server that lets the client in, and the replies to come. -/
def greetedChannel : Channel where
  socket := { inbound := Session.Conversation.readyFrame 0x49 ++
    (sampleSession displacedReplies).channel.unread }
  host := { name := "localhost", port := 5432 }

/-- A session that gives every statement a name from its first run on. -/
def greetedWorld : World :=
  opened greetedChannel "postgres" "postgres" { queryMode := .extendedCacheEverything }

/-- A statement is run behind the Close of another one, and then the session takes its leave. -/
theorem requests_whole_farewell :
    (closedNames (greetedWorld.run (displacedRun ++ (displacedRest ++ [.close]))).log = ["S_1"] ∧
      (greetedWorld.run displacedRun).session.isClosed = false ∧
      (greetedWorld.run (displacedRun ++ (displacedRest ++ [.close]))).session.isClosed = true) ∧
    ∃ t t', Tells greetedChannel.socket.sent (greetedWorld.run displacedRun) t ∧
      Tells greetedChannel.socket.sent
        (greetedWorld.run (displacedRun ++ (displacedRest ++ [.close]))) t' ∧
      (∃ later, t'.utterances = t.utterances ++ later ∧
        ∀ u ∈ later, (greetedWorld.run displacedRun).turn ≤ u.turn) ∧
      (t' ≠ t → t.farewell = none ∧
        ∀ u ∈ t.utterances, u.Answered (greetedWorld.run displacedRun).log) := by
  obtain ⟨t, t', htells, htells', hlater, hanswered⟩ :=
    requests_whole greetedChannel "postgres" "postgres" { queryMode := .extendedCacheEverything }
      rfl displacedRun (displacedRest ++ [.close])
  exact ⟨⟨by decide +kernel, by decide +kernel, by decide +kernel⟩, t, t', htells, htells', hlater,
    hanswered⟩

end World

end PgClient
