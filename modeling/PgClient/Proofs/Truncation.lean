import PgClient.Proofs.Causes
import PgClient.Proofs.EarlyEnd

/-!
# Replies that are cut short

A connection may break at any octet. What the client then knows must be something the
server said: not the first half of a row, not a setting without the end of its value, and
not a success of which the server did not tell. All of it follows from comparing the
request with the same request on a longer stream. Everything a request is made of bears
being cut short (`Bears`), so the two do the same until the shorter stream ends. Then the
first one fails in the one way there is, and its session is closed; and since no message
has an effect before its last octet was read, what it has to show for itself is what the
other one had at that point.

The loop that reads a reply needs a word of its own, as the number of its rounds is taken
from the octets there are, and so differs between the two.
-/

namespace PgClient

open Exchange

namespace Session

/-! ## Sessions -/

/-- The sessions differ in nothing but what is left to read. -/
structure Short (more : Bytes) (s s' : Session) : Prop where
  channel : s.channel.Short more s'.channel
  same : s' = { s with channel := s'.channel }

/-- A session and another one with more to read. -/
def tandem (more : Bytes) : Tandem Session where
  alike := Short more
  grows s s' := s.channel.Grows s'.channel
  refl s := (Channel.tandem []).refl s.channel
  trans h h' := (Channel.tandem []).trans h h'
  of_alike h := (Channel.tandem _).of_alike h.channel

variable {more : Bytes} {reads : Prop}

theorem Short.refill {s s' : Session} (h : Short more s s') :
    s' = s.refill s'.channel.buffer s'.channel.socket.inbound := by
  conv_lhs => rw [h.same, h.channel.same]
  rfl

theorem onChannel_part : Tandem.Part (Channel.tandem more) (tandem more) channel
    (fun c s => { s with channel := c }) where
  parts h := h.channel
  joins h ht := ⟨ht, by rw [h.same]⟩
  grows _ ht := ht
  self _ := rfl

theorem onChannel_bears {α : Type} {x : Exchange Channel α}
    (hx : Bears (Channel.tandem more) reads x) : Bears (tandem more) reads (onChannel x) :=
  onChannel_part.zoom hx

/-- A change that does not look at the channel. -/
theorem modify_bears {f : Session → Session}
    (hf : ∀ s c, f { s with channel := c } = { f s with channel := c }) :
    Bears (tandem more) reads (modify f : Exchange Session PUnit) := by
  have hkept : ∀ s, (f s).channel = s.channel := by
    intro s
    have hself : f s = { f s with channel := s.channel } := hf s s.channel
    rw [hself]
  refine .modify (fun {s s'} (h : Short more s s') => ⟨?_, ?_⟩) fun s => ?_
  · rw [hkept, hkept]
    exact h.channel
  · rw [hkept]
    conv_lhs => rw [h.same]
    exact hf s s'.channel
  · show s.channel.Grows (f s).channel
    rw [hkept]
    exact (Channel.tandem more).refl s.channel

theorem bears_assembles : Assembles (Bears (tandem more) reads) where
  pure a := .pure a
  bind hx hf := hx.bind hf
  ask hsame hf := .ask (fun {s s'} (h : Short more s s') => by
    rw [← hsame s', ← hsame s, h.refill]
    rfl) hf

theorem record_bears (event : Event) : Bears (tandem more) reads (record event) :=
  onChannel_bears (Channel.record_bears event)

theorem bears_endures : Endures (Bears (tandem more) reads) where
  toAssembles := bears_assembles
  told event _ := record_bears event
  sends octets := onChannel_bears (Channel.send_bears octets)
  flushes := (onChannel_bears Channel.flush_bears).attempt
  shuts := (onChannel_bears Channel.close_bears).attempt
  marks _ := (modify_bears fun _ _ => rfl).bind fun _ =>
    bears_assembles.ask (fun _ => rfl) fun _ => record_bears _

theorem checkFatal_bears {α : Type} (result : Except Error α) :
    Bears (tandem more) reads (checkFatal result) :=
  bears_assembles.checkFatal (fun event _ => record_bears event) bears_endures.abort result

theorem bears_governs : Governs (Bears (tandem more) reads) where
  toAssembles := bears_assembles
  told event _ := record_bears event
  recodes charset := onChannel_bears (Channel.setCharset_bears charset)
  sets _ h := modify_bears h.blind
  leaves _ := bears_endures.close.bind fun _ => .fail _
  fails e _ := .fail e

theorem receive_bears (phase : Phase) : Bears (tandem more) True (receive phase) :=
  bears_assembles.ask (fun _ => rfl) fun _ => onChannel_bears (Channel.receive_bears phase _)

/-! ### What a message means -/

theorem onReady_bears (status : UInt8) : Bears (tandem more) reads (onReady status) := by
  unfold onReady
  simp only []
  split
  · exact modify_bears fun _ _ => rfl
  · exact modify_bears fun _ _ => rfl
  · exact modify_bears fun _ _ => rfl
  · exact .fail _

theorem onParameter_bears (name value : String) :
    Bears (tandem more) reads (onParameter name value) := by
  have hsetting : Bears (tandem more) reads (onSetting name value) :=
    bears_governs.onSetting name value
  unfold onParameter
  split
  · exact hsetting
  · exact (modify_bears fun _ _ => rfl).bind fun _ => hsetting

theorem onWarning_bears (report : Report) : Bears (tandem more) reads (onWarning report) :=
  modify_bears fun _ _ => rfl

theorem onNotification_bears (notification : Notification) :
    Bears (tandem more) reads (onNotification notification) :=
  modify_bears fun _ _ => rfl

theorem onError_bears (report : Report) : Bears (tandem more) reads (onError report) := by
  refine ⟨fun s => ?_, fun {s s'} (h : Short more s s') => ?_⟩
  · rw [Conversation.onError_apply]
    exact (tandem more).refl s
  · rw [Conversation.onError_apply, Conversation.onError_apply, h.same]
    exact .value ⟨h.channel, rfl⟩

theorem forgetStatements_bears : Bears (tandem more) reads forgetStatements := by
  refine bears_assembles.ask (fun _ => rfl) fun s => ?_
  split
  · exact (record_bears _).bind fun _ => modify_bears fun _ _ => rfl
  · exact .pure _

/-! ### What is sent -/

theorem freshName_bears : Bears (tandem more) reads freshName :=
  ⟨fun s => (tandem more).refl s, fun {s s'} (h : Short more s s') => by
    rw [h.same]
    exact .value ⟨h.channel, rfl⟩⟩

theorem bears_writes : Writes (Bears (tandem more) reads) where
  toAssembles := bears_assembles
  drafted _ := record_bears _
  sends octets := onChannel_bears (Channel.send_bears octets)
  flushes := onChannel_bears Channel.flush_bears
  refuses e := .fail e
  empties := modify_bears fun _ _ => rfl
  names := freshName_bears

theorem sendStatement_bears (st : Statement) (parameters : List (Option Bytes)) :
    Bears (tandem more) reads (sendStatement st parameters) :=
  bears_writes.sendStatement st parameters

theorem sendQuery_bears : Bears (tandem more) reads sendQuery :=
  bears_writes.sendQuery

/-! ## Replies -/

namespace Conversation

/-- The requests differ in nothing but what is left to read of the reply. -/
structure Short (more : Bytes) (c c' : Conversation) : Prop where
  session : c.session.Short more c'.session
  same : c' = { c with session := c'.session }

/-- The second request has got at least as far. -/
structure Grows (c c' : Conversation) : Prop where
  session : c.session.channel.Grows c'.session.channel
  deliveries : c.deliveries.toList <+: c'.deliveries.toList

theorem Short.deliveries {more : Bytes} {c c' : Conversation} (h : Short more c c') :
    c'.deliveries = c.deliveries := by
  rw [h.same]

/-- A request and another one with more to read of the reply. -/
def tandem (more : Bytes) : Tandem Conversation where
  alike := Short more
  grows := Grows
  refl c := ⟨(Session.tandem []).refl c.session, List.prefix_refl _⟩
  trans h h' := ⟨(Session.tandem []).trans h.session h'.session,
    h.deliveries.trans h'.deliveries⟩
  of_alike h :=
    ⟨(Session.tandem _).of_alike h.session, h.deliveries ▸ List.prefix_refl _⟩

theorem onSession_part : Tandem.Part (Session.tandem more) (tandem more) session
    (fun s c => { c with session := s }) where
  parts h := h.session
  joins h ht := ⟨ht, by rw [h.same]⟩
  grows h ht := ⟨ht, h.deliveries⟩
  self _ := rfl

theorem onSession_bears {α : Type} {x : Exchange Session α}
    (hx : Bears (Session.tandem more) reads x) : Bears (tandem more) reads (onSession x) :=
  onSession_part.zoom hx

/-- A change that does not look at the session. -/
theorem modify_bears {f : Conversation → Conversation}
    (hf : ∀ c s, f { c with session := s } = { f c with session := s })
    (hdeliveries : ∀ c, c.deliveries.toList <+: (f c).deliveries.toList) :
    Bears (tandem more) reads (modify f : Exchange Conversation PUnit) := by
  have hkept : ∀ c, (f c).session = c.session := by
    intro c
    have hself : f c = { f c with session := c.session } := hf c c.session
    rw [hself]
  refine .modify (fun {c c'} (h : Short more c c') => ⟨?_, ?_⟩) fun c => ⟨?_, hdeliveries c⟩
  · rw [hkept, hkept]
    exact h.session
  · rw [hkept]
    conv_lhs => rw [h.same]
    exact hf c c'.session
  · rw [hkept]
    exact (Channel.tandem more).refl c.session.channel

theorem deliver_bears (delivery : Delivery) : Bears (tandem more) reads (deliver delivery) :=
  modify_bears (fun _ _ => rfl) fun c => by
    rw [Array.toList_push]
    exact List.prefix_append _ _

theorem updateStatement_bears (f : Statement → Statement) :
    Bears (tandem more) reads (updateStatement f) :=
  modify_bears (fun _ _ => rfl) fun _ => List.prefix_refl _

theorem onParsed_bears : Bears (tandem more) reads onParsed := by
  refine .ask (fun {c c'} (h : Short more c c') => ?_) fun c => ?_
  · rw [h.same, h.session.same]
  · split
    · exact updateStatement_bears _
    · exact .pure _

theorem onReport_bears (report : Report) : Bears (tandem more) reads (onReport report) := by
  have hdeliver : ∀ error : Error, Bears (tandem more) reads (do
      deliver (.error error)
      modify fun c => { c with firstError := c.firstError.or (some error) }) := fun error =>
    (deliver_bears _).bind fun _ => modify_bears (fun _ _ => rfl) fun _ => List.prefix_refl _
  refine (onSession_bears (onError_bears report)).bind fun e => ?_
  simp only []
  split
  · refine .ask (fun {c c'} (h : Short more c c') => by rw [h.same]) fun c => ?_
    split
    · exact (updateStatement_bears _).bind fun _ =>
        (onSession_bears (Session.modify_bears fun _ _ => rfl)).bind fun _ => hdeliver _
    · exact hdeliver _
  · exact hdeliver _

/-- Taking a message in takes no octet. -/
theorem take_bears (m : BackendMessage) : Bears (tandem more) reads (take m) := by
  have honSession : ∀ {x : Exchange Session Unit} {last : Bool},
      Bears (Session.tandem more) reads x →
      Bears (tandem more) reads (onSession x >>= fun _ => pure last) :=
    fun hx => (onSession_bears hx).bind fun _ => .pure _
  cases m with
  | readyForQuery status => exact honSession (onReady_bears status)
  | parseComplete => exact onParsed_bears.bind fun _ => .pure _
  | portalSuspended =>
      exact (updateStatement_bears _).bind fun _ => (deliver_bears _).bind fun _ => .pure _
  | rowDescription columns => exact (deliver_bears _).bind fun _ => .pure _
  | dataRow length row => exact (deliver_bears _).bind fun _ => .pure _
  | commandComplete tag =>
      have hstatus : Bears (tandem more) reads (do
          deliver (.status tag)
          return false) := (deliver_bears _).bind fun _ => .pure _
      unfold take
      simp only []
      split
      · exact (onSession_bears forgetStatements_bears).bind fun _ => hstatus
      · exact hstatus
  | errorResponse report => exact (onReport_bears report).bind fun _ => .pure _
  | noticeResponse report => exact honSession (onWarning_bears report)
  | notificationResponse notification => exact honSession (onNotification_bears notification)
  | parameterStatus name value => exact honSession (onParameter_bears name value)
  | bindComplete | closeComplete | noData | emptyQuery | parameterDescription | authentication
  | backendKeyData => exact .pure _

theorem take_grows (m : BackendMessage) : Obeys (fun c _ c' => Grows c c') (take m) :=
  (take_bears m : Bears (tandem []) False (take m)).grows

theorem takeAll_grows (rounds : Nat) : Obeys (fun c _ c' => Grows c c') (takeAll rounds) := by
  have hreceive : Bears (tandem []) True (onSession (receive .reply)) :=
    onSession_bears (receive_bears .reply)
  exact takeAll_obeys (tandem []).composes (tandem []).refl hreceive.grows take_grows rounds

theorem takeNext_bears : Bears (tandem more) True takeNext :=
  (onSession_bears (receive_bears .reply)).bind take_bears

/-- A message takes at least its tag. -/
theorem unread_lt_of_take {c c' : Conversation} {last : Bool} (h : takeNext c = .ok last c') :
    c'.session.channel.unread.length < c.session.channel.unread.length := by
  obtain ⟨m, c₁, hread, htake⟩ := bind_ok h
  obtain ⟨s, hreceive, rfl⟩ := onSession_ok hread
  obtain ⟨body, -, hunread, -⟩ := taken (receive_reads (by decide) hreceive) htake
  rw [hunread]
  simp only [List.cons_append, List.length_cons, List.length_append]
  omega

/-- The loop on the longer stream has more rounds; it needs as few as the other one until that one
comes to the end of its stream. -/
theorem takeAll_cut {rounds rounds' : Nat} {c c' : Conversation} (h : Short more c c')
    (hrounds : c.session.channel.unread.length < rounds)
    (hrounds' : c'.session.channel.unread.length < rounds') :
    Cut (tandem more) True (takeAll rounds c) (takeAll rounds' c') := by
  have hcomposes : Composes fun c (_ : Option Halt) c' => Grows c c' := (tandem []).composes
  induction rounds generalizing rounds' c c' with
  | zero => omega
  | succ rounds ih =>
      cases rounds' with
      | zero => omega
      | succ rounds' =>
          have hloop : ∀ last : Bool,
              Obeys (fun c _ c' => Grows c c') (unless last do takeAll rounds') := by
            intro last
            split
            · exact hcomposes.pure _
            · exact takeAll_grows rounds'
          refine (takeNext_bears.cut h).bind (fun last t t' htake htake' ht => ?_) hloop
          have hless := unread_lt_of_take htake
          have hless' := unread_lt_of_take htake'
          split
          · exact .value ht
          · exact ih ht (by omega) (by omega)

/-- The reply is not told to be over unless it was before. -/
def Pending (c : Conversation) (_ : Option Halt) (c' : Conversation) : Prop :=
  .completed ∈ c'.deliveries.toList → .completed ∈ c.deliveries.toList

theorem pending_composes : Composes Pending where
  refl _ := id
  trans h h' := h ∘ h'

theorem take_pending (m : BackendMessage) : Obeys Pending (take m) := by
  refine take_obeys (fun {c c'} hadvances hmem => ?_) fun _ _ _ _ => id
  have hdeliveries := hadvances.deliveries
  rw [hdeliveries] at hmem
  refine (List.mem_append.1 hmem).resolve_right fun hmem => ?_
  cases m with
  | _ => simp [BackendMessage.allDelivered, BackendMessage.delivered] at hmem

theorem takeAll_pending (rounds : Nat) : Obeys Pending (takeAll rounds) := by
  have hreceive : Obeys Pending (onSession (receive .reply)) := by
    intro c
    rw [final_onSession]
    exact id
  exact takeAll_obeys pending_composes (fun _ => id) hreceive take_pending rounds

/-- A reply that broke off with an error of the connection was not told to be over. -/
theorem readReply_incomplete {c c' : Conversation} {e : Error} (hfirst : c.firstError = none)
    (hnew : .completed ∉ c.deliveries.toList) (hfatal : e.isFatal = true)
    (h : readReply c = .error (.failed e) c') : .completed ∉ c'.deliveries.toList := by
  have hreplies := takeAll_replies (Nat.lt_succ_self c.session.channel.unread.length)
  have hpending := takeAll_pending (c.session.channel.unread.length + 1) c
  cases htake : takeAll (c.session.channel.unread.length + 1) c with
  | error halt c₁ =>
      rw [readReply_of_error htake] at h
      cases h
      rw [htake] at hpending
      exact fun hmem => hnew (hpending hmem)
  | ok _ c₁ =>
      -- The only error after the end of a reply is one the server reported.
      rw [htake] at hreplies
      rw [readReply_of_ok htake] at h
      rcases hreplies.follows.firstError with hsame | ⟨error, herror⟩
      · rw [show c₁.firstError = none from hsame.trans hfirst] at h
        cases h
      · rw [show c₁.firstError = _ from herror] at h
        cases h
        cases hfatal

theorem conclude_bears : Bears (tandem more) reads conclude := by
  refine (deliver_bears _).bind fun _ => ?_
  refine .ask (fun {c c'} (h : Short more c c') => by rw [h.same]) fun c => ?_
  split
  · exact .fail _
  · exact .pure _

theorem readReply_apply (c : Conversation) :
    readReply c = (takeAll (c.session.channel.unread.length + 1) >>= fun _ => conclude) c := by
  unfold readReply
  rw [bind_of_ok (get_apply c)]

/-- How many rounds there are depends on what there is to read, but nothing depends on that. -/
theorem readReply_bears : Bears (tandem more) True readReply := by
  have hconclude : Bears (tandem more) True conclude := conclude_bears
  refine ⟨fun c => ?_, fun {c c'} h => ?_⟩
  · rw [readReply_apply]
    exact (tandem more).composes.bind (takeAll_grows _) (fun _ => hconclude.grows) c
  · rw [readReply_apply, readReply_apply]
    exact (takeAll_cut h (Nat.lt_succ_self _) (Nat.lt_succ_self _)).bind
      (fun _ _ _ _ _ ht => hconclude.cut ht) fun _ => hconclude.grows

theorem request_bears {send : Exchange Session (Option String)}
    (hsend : Bears (Session.tandem more) True send) : Bears (tandem more) True (request send) := by
  have hprepares : ∀ preparing, Bears (tandem more) True
      (modify fun c => { c with preparing } : Exchange Conversation PUnit) :=
    fun _ => modify_bears (fun _ _ => rfl) fun _ => List.prefix_refl _
  exact (onSession_bears hsend).bind fun preparing =>
    (hprepares preparing).bind fun _ => readReply_bears

end Conversation

/-! ## Requests -/

open Conversation FrontendMessage

/-- The messages of the server in the journal. -/
def received (s : Session) : List BackendMessage :=
  s.history.filterMap Event.message?

theorem Keeps.received {s s' : Session} (h : Keeps s s') : s'.received = s.received := by
  obtain ⟨events, hevents, haside⟩ := h.channel.history
  unfold Session.received
  rw [show s'.history = s.history ++ events from hevents, List.filterMap_append,
    filterMap_message?_of_isAside haside, List.append_nil]

theorem Learns.received {s s' : Session} {ms : List BackendMessage} (h : Learns s ms s') :
    s'.received = s.received ++ ms := by
  obtain ⟨events, hevents, rfl⟩ := h.history
  unfold Session.received
  rw [hevents, List.filterMap_append]

theorem Short.received {s s' : Session} (h : Short more s s') : s'.received = s.received := by
  have hjournal : s'.channel.journal = s.channel.journal := by
    rw [h.channel.same]
    rfl
  unfold Session.received history Channel.history
  rw [hjournal]

/-- A request came to nothing because the stream ended before the reply did. What it did until then
the other one did as well. -/
structure Severed (reply : Reply) (t : Session) (reply' : Reply) (t' : Session) : Prop where
  result : reply.result = .error (.connectionFailure .closedByServer)
  isClosed : t.isClosed = true
  deliveries : reply.deliveries <+: reply'.deliveries
  incomplete : .completed ∉ reply.deliveries
  received : t.received <+: t'.received

/-- Both requests come back, and with the same, unless the first one was cut short. -/
def Parallel (more : Bytes) : EStateM.Result Halt Session Reply →
    EStateM.Result Halt Session Reply → Prop
  | .ok reply t, .ok reply' t' => reply = reply' ∧ Short more t t' ∨ Severed reply t reply' t'
  | _, _ => False

/-- A request that ends in some way comes back with what was delivered until then. -/
theorem converse_returns {c : Conversation} {request : Exchange Conversation Unit} {s : Session}
    (hends : halt? (request { c with session := s }) ≠ some .waiting) :
    ∃ reply t, converse c request s = .ok reply t ∧
      reply.deliveries = (final (request { c with session := s })).deliveries.toList ∧
      Keeps (final (request { c with session := s })).session t := by
  cases hrun : request { c with session := s } with
  | ok _ c' => exact ⟨_, _, converse_of_ok hrun, rfl, .refl _⟩
  | error halt c' =>
      cases halt with
      | waiting =>
          rw [hrun] at hends
          exact absurd rfl hends
      | failed e =>
          obtain ⟨t, hend, hconverse⟩ := converse_of_failed hrun
          exact ⟨_, t, hconverse, rfl, hend.keeps⟩

/-- Nobody waits for a server that has closed its side. -/
theorem request_ends {send : Exchange Session (Option String)}
    (hsend : Bears (tandem []) True send) (hends : ∀ s, halt? (send s) ≠ some .waiting)
    (statement : Option Statement) {s : Session} (hended : s.channel.socket.ended = true) :
    halt? (request send { session := s, statement }) ≠ some .waiting := by
  have hgrows := (request_bears hsend).grows { session := s, statement }
  intro hwaiting
  rw [request_apply] at hwaiting hgrows
  cases hs : send s with
  | error halt s₁ =>
      rw [hs] at hwaiting
      exact hends s (by rw [hs]; exact hwaiting)
  | ok preparing s₁ =>
      rw [hs] at hwaiting hgrows
      simp only [] at hwaiting hgrows
      rcases readReply_ends (c := { session := s₁, statement, preparing }) rfl with
        ⟨-, -, hhalt⟩ | ⟨halt, hhalt, hfollows⟩
      · rw [hwaiting] at hhalt
        rcases hhalt with hhalt | ⟨e, hhalt⟩ <;> cases hhalt
      · rw [hwaiting] at hhalt
        have hgoesOn := (hfollows.silent hhalt.symm).goesOn
        rw [hgrows.session.ended, hended] at hgoesOn
        cases hgoesOn

/-- A request that failed for good was not told that its reply is over. -/
theorem request_incomplete {send : Exchange Session (Option String)} {statement : Option Statement}
    {s : Session} {e : Error} {c : Conversation} (hfatal : e.isFatal = true)
    (h : request send { session := s, statement } = .error (.failed e) c) :
    .completed ∉ c.deliveries.toList := by
  rw [request_apply] at h
  cases hs : send s with
  | error halt s₁ =>
      rw [hs] at h
      cases h
      exact List.not_mem_nil
  | ok preparing s₁ =>
      rw [hs] at h
      exact readReply_incomplete rfl List.not_mem_nil hfatal h

/-- A request that lost the connection, and another one that has got at least as far. -/
theorem converse_severed {send : Exchange Session (Option String)} {statement : Option Statement}
    {s₀ s₀' s s' : Session} {c : Conversation}
    (hrun : request send { session := s, statement } =
      .error (.failed (.connectionFailure .closedByServer)) c)
    (hgrows : Conversation.Grows c (final (request send { session := s', statement })))
    (hends : halt? (request send { session := s', statement }) ≠ some .waiting) :
    Parallel more (converse { session := s₀, statement } (request send) s)
      (converse { session := s₀', statement } (request send) s') := by
  obtain ⟨t, hend, hconverse⟩ := converse_of_failed (c := { session := s₀, statement }) hrun
  obtain ⟨reply', t', hconverse', hdeliveries, hkeeps⟩ :=
    converse_returns (c := { session := s₀', statement }) hends
  rw [hconverse, hconverse']
  refine .inr ⟨rfl, hend.2, ?_, request_incomplete rfl hrun, ?_⟩
  · rw [hdeliveries]
    exact hgrows.deliveries
  · rw [hend.keeps.received, hkeeps.received]
    exact hgrows.session.history.filterMap _

theorem converse_parallel {send : Exchange Session (Option String)}
    (hsend : ∀ more, Bears (tandem more) True send) (hends : ∀ s, halt? (send s) ≠ some .waiting)
    (statement : Option Statement) (s₀ s₀' : Session) {s s' : Session} (h : Short more s s') :
    Parallel more (converse { session := s₀, statement } (request send) s)
      (converse { session := s₀', statement } (request send) s') := by
  have hcut := (request_bears (hsend more)).cut
    (⟨h, rfl⟩ : Conversation.Short more { session := s, statement } { session := s', statement })
  have hended : s'.channel.socket.ended = true := by
    rw [h.channel.same]
    exact h.channel.ended
  have hlast := request_ends (hsend []) hends statement hended
  generalize hrun : request send { session := s, statement } = r at hcut
  generalize hrun' : request send { session := s', statement } = r' at hcut hlast
  cases hcut with
  | @value _ c c' hc =>
      rw [converse_of_ok (c := { session := s₀, statement }) hrun,
        converse_of_ok (c := { session := s₀', statement }) hrun']
      refine .inl ⟨?_, hc.session⟩
      rw [hc.same]
  | @halt halt c c' hc =>
      cases halt with
      | waiting => exact absurd rfl hlast
      | failed e =>
          obtain ⟨t, ht, -⟩ := checkFatal_ends (α := Unit) e c.session
          obtain ⟨t', ht', -⟩ := checkFatal_ends (α := Unit) e c'.session
          have hcheck : Bears (Session.tandem more) False (checkFatal (α := Unit) (.error e)) :=
            checkFatal_bears _
          have hboth := hcheck.cut hc.session
          rw [ht, ht'] at hboth
          rw [converse_of_checked (c := { session := s₀, statement }) hrun ht,
            converse_of_checked (c := { session := s₀', statement }) hrun' ht']
          cases hboth with
          | value halike =>
              refine .inl ⟨?_, halike⟩
              rw [hc.same]
  | lost _ hgrows =>
      subst hrun'
      exact converse_severed hrun hgrows hlast

theorem Short.drafts {s s' : Session} (h : Short more s s') (ms : List FrontendMessage)
    (octets : Bytes) : Short more (s.drafts ms octets) (s'.drafts ms octets) := by
  refine ⟨⟨?_, h.channel.unread, h.channel.ended, h.channel.healthy⟩, ?_⟩
  · show Channel.mk _ _ _ _ _ _ _ = _
    rw [h.channel.same]
    rfl
  · conv_lhs => rw [h.same]
    rfl

theorem query_parallel (sql : String) {s s' : Session} (h : Short more s s') :
    Parallel more (query sql s) (query sql s') := by
  have hclosed : s'.isClosed = s.isClosed := by rw [h.same]
  have hcharset : s'.channel.charset = s.channel.charset := by rw [h.channel.same]; rfl
  cases hs : s.isClosed with
  | true =>
      rw [query_of_closed hs, query_of_closed (hclosed.trans hs)]
      exact .inl ⟨rfl, h⟩
  | false =>
      cases hencode : encode s.channel.charset (.query sql) with
      | error e =>
          rw [query_of_refused hs hencode,
            query_of_refused (hclosed.trans hs) (hcharset ▸ hencode)]
          exact .inl ⟨rfl, h⟩
      | ok octets =>
          rw [query_eq hs hencode, query_eq (hclosed.trans hs) (hcharset ▸ hencode)]
          refine converse_parallel (fun _ => sendQuery_bears) (fun s => ?_) none s s'
            (h.drafts _ octets)
          rcases sendQuery_cases s with ⟨c, -, hok⟩ | ⟨e, c, -, -, -, herror⟩
          · rw [hok]
            nofun
          · rw [herror]
            nofun

theorem execute_parallel (st : Statement) (parameters : List (Option Bytes)) {s s' : Session}
    (h : Short more s s') : Parallel more (execute st parameters s) (execute st parameters s') := by
  have hclosed : s'.isClosed = s.isClosed := by rw [h.same]
  have hreadied : s'.readied st = s.readied st := by rw [h.same]; rfl
  cases hs : s.isClosed with
  | true =>
      rw [execute_of_closed hs, execute_of_closed (hclosed.trans hs)]
      exact .inl ⟨rfl, h⟩
  | false =>
      rw [execute_eq hs, execute_eq (hclosed.trans hs), hreadied]
      exact converse_parallel (fun _ => sendStatement_bears _ parameters)
        (fun s => (sendStatement_sends _ parameters s).halt) (some (s.readied st)) s s' h

/-! ## Every cut of every stream -/

/-- The session, with a server that sends these octets and then closes its side. -/
def hearing (s : Session) (octets : Bytes) : Session :=
  { s with channel := { s.channel with socket := { s.channel.socket with
    inbound := octets
    ended := true
    faults := { s.channel.socket.faults with read := false } } } }

theorem hearing_short (s : Session) (front rest : Bytes) :
    Short rest (s.hearing front) (s.hearing (front ++ rest)) :=
  ⟨⟨rfl, (List.append_assoc _ _ _).symm, rfl, rfl⟩, rfl⟩

/-- A request on a stream that lacks its last octets, and the same request on all of it. -/
structure Truncates (rest : Bytes) (s : Session) (reply : Reply) (t : Session) (s' : Session)
    (reply' : Reply) (t' : Session) : Prop where
  /-- Either nothing was missing, or the request came to nothing. -/
  either : reply = reply' ∧ Short rest t t' ∨ Severed reply t reply' t'
  /-- Something was missing if the other request needed any of the octets. -/
  missing : t'.channel.unread.length < rest.length → Severed reply t reply' t'
  /-- A request that succeeds has read its reply to the end. -/
  whole : reply.result = .ok () → UpToReady s t
  /-- What the server reported is known from whole messages alone. -/
  learned : ∃ ms ms', Learns s ms t ∧ Learns s' ms' t' ∧ ms <+: ms'

/-- Both requests come back. -/
def Truncated (rest : Bytes) (request : Exchange Session Reply) (s s' : Session) : Prop :=
  ∃ reply t reply' t', request s = .ok reply t ∧ request s' = .ok reply' t' ∧
    Truncates rest s reply t s' reply' t'

theorem Parallel.truncated {rest : Bytes} {request : Exchange Session Reply} {s s' : Session}
    (h : Parallel rest (request s) (request s')) (hshort : Short rest s s')
    (hsettled : Settled s (request s)) (hgathered : Gathered s (request s))
    (hgathered' : Gathered s' (request s')) : Truncated rest request s s' := by
  cases hrun : request s with
  | error halt t => rw [hrun] at h; exact h.elim
  | ok reply t =>
      cases hrun' : request s' with
      | error halt t' => rw [hrun, hrun'] at h; exact h.elim
      | ok reply' t' =>
          rw [hrun, hrun'] at h
          rw [hrun] at hsettled hgathered
          rw [hrun'] at hgathered'
          obtain ⟨ms, hms⟩ := hgathered
          obtain ⟨ms', hms'⟩ := hgathered'
          refine ⟨reply, t, reply', t', hrun, hrun', h, fun hneeded => ?_, fun hok =>
            hsettled.ready (.inl hok), ms, ms', hms.learns, hms'.learns, ?_⟩
          · refine h.resolve_left fun ⟨_, halike⟩ => ?_
            rw [halike.channel.unread, List.length_append] at hneeded
            omega
          · have hprefix : t.received <+: t'.received := by
              rcases h with ⟨-, halike⟩ | hsevered
              · exact halike.received ▸ List.prefix_refl _
              · exact hsevered.received
            rw [hms.learns.received, hms'.learns.received, hshort.received] at hprefix
            exact (List.prefix_append_right_inj _).1 hprefix

/-- Whatever the stream, and wherever it is cut, a request comes to the same as on all of the stream
or to a failure of the connection that closes the session. In the second case what it delivered, and
the messages it went by, are the first of those on all of the stream. -/
theorem replies_truncated (s : Session) (front rest : Bytes) :
    (∀ sql, Truncated rest (query sql) (s.hearing front) (s.hearing (front ++ rest))) ∧
      ∀ st parameters,
        Truncated rest (execute st parameters) (s.hearing front) (s.hearing (front ++ rest)) := by
  have hshort := s.hearing_short front rest
  exact ⟨fun sql => (query_parallel sql hshort).truncated hshort (query_settled sql _)
      (query_gathered sql _) (query_gathered sql _),
    fun st parameters => (execute_parallel st parameters hshort).truncated hshort
      (execute_settled st parameters _) (execute_gathered st parameters _)
      (execute_gathered st parameters _)⟩

/-- A reply without the last octet of its ReadyForQuery. -/
def unfinishedReply : Bytes :=
  sampleReply.flatMap WireMessage.encode ++ (readyFrame 0x49).dropLast

/-- One octet is missing: all that the reply had to say was delivered, but not that it was all. -/
theorem replies_truncated_sample : ∃ reply t reply' t',
    query "SELECT 1" (sampleSession.hearing unfinishedReply) = .ok reply t ∧
      query "SELECT 1" (sampleSession.hearing (unfinishedReply ++ [0x49])) = .ok reply' t' ∧
      reply.deliveries.length = 5 ∧ Severed reply t reply' t' := by
  obtain ⟨reply, t, reply', t', hrun, hrun', htruncates⟩ :=
    (replies_truncated sampleSession unfinishedReply [0x49]).1 "SELECT 1"
  have hread : (final (query "SELECT 1"
      (sampleSession.hearing (unfinishedReply ++ [0x49])))).channel.unread = [] := by
    decide +kernel
  have hdelivered : ((query "SELECT 1").run' (sampleSession.hearing unfinishedReply)).map
      (·.deliveries.length) = some 5 := by
    decide +kernel
  rw [hrun'] at hread
  delta EStateM.run' EStateM.run at hdelivered
  rw [hrun] at hdelivered
  refine ⟨reply, t, reply', t', hrun, hrun', Option.some.inj hdelivered, htruncates.missing ?_⟩
  rw [show t'.channel.unread = [] from hread]
  decide

end Session

end PgClient
