import PgClient.Login
import PgClient.Proofs.Calls
import PgClient.Proofs.Deciding
import PgClient.Proofs.Notices
import PgClient.Proofs.Settled
import PgClient.Session.Startup

/-!
# A connection is read message by message

What `Frames` and `Deciding` say of one message is carried here to whole runs: logging in,
starting up, a request and what is read between requests. `Framing` is the account
of a run. The octets it has consumed are those of the messages it accepted, in
order and without a gap, and whatever else is gone was lost to a failure the
connection does not survive. The journal tells of the same messages, so that the
account is of what the client really took in.
-/

namespace PgClient

open Exchange

namespace Channel

/-! ## Messages in a row -/

/-- Whether the connection can be used after a halt, or there was none. -/
def Survives : Option Halt → Prop
  | none => True
  | some (.failed e) => e.isFatal = false
  | some .waiting => False

/-- The octets of these messages were consumed, and then some that were lost; the journal tells of
the messages. -/
structure Framed (frames : List Frame) (lost : Bytes) (c c' : Channel) : Prop where
  accepted : ∀ f ∈ frames, f.Accepted
  unread : c.unread = frames.flatMap Frame.octets ++ (lost ++ c'.unread)
  history : ∃ events, c'.history = c.history ++ events ∧
    events.filterMap Event.message? = (frames.map Frame.message).filter keeps

/-- Whole messages were consumed, and no octet besides unless the connection is lost. -/
def Framing (c : Channel) (h : Option Halt) (c' : Channel) : Prop :=
  ∃ frames lost, Framed frames lost c c' ∧ (Survives h → lost = [])

theorem Framed.append {fs gs : List Frame} {lost : Bytes} {c d e : Channel}
    (h : Framed fs [] c d) (h' : Framed gs lost d e) : Framed (fs ++ gs) lost c e := by
  obtain ⟨events, hevents, hmessages⟩ := h.history
  obtain ⟨events', hevents', hmessages'⟩ := h'.history
  refine ⟨?_, ?_, events ++ events', ?_, ?_⟩
  · intro f hf
    exact (List.mem_append.1 hf).elim (h.accepted f) (h'.accepted f)
  · rw [h.unread, h'.unread, List.nil_append, List.flatMap_append, List.append_assoc]
  · rw [hevents', hevents, List.append_assoc]
  · rw [List.filterMap_append, hmessages, hmessages', List.map_append, List.filter_append]

theorem Framing.of_keeps {c c' : Channel} (h : Keeps c c') (halt : Option Halt) :
    Framing c halt c' := by
  obtain ⟨events, hevents, haside⟩ := h.history
  exact ⟨[], [], ⟨List.forall_mem_nil _, h.unread.symm, events, hevents,
    filterMap_message?_of_isAside haside⟩, fun _ => rfl⟩

theorem framing_composes : Composes Framing where
  refl c := .of_keeps (.refl c) none
  trans := by
    intro c d e h hcd hde
    obtain ⟨fs, lost, hframed, hlost⟩ := hcd
    obtain ⟨gs, lost', hframed', hlost'⟩ := hde
    rw [hlost trivial] at hframed
    exact ⟨fs ++ gs, lost', hframed.append hframed', hlost'⟩

theorem keeps_framing {α : Type} {x : Exchange Channel α}
    (hx : Obeys (fun c _ c' => Keeps c c') x) : Obeys Framing x :=
  fun c => .of_keeps (hx c) _

theorem Framing.of_lost {c c₁ c' : Channel} {octets : Bytes} {halt : Halt}
    (hoff : ReadsOff octets c c₁) (h : Keeps c₁ c') (hhalt : ¬ Survives (some halt)) :
    Framing c (some halt) c' := by
  obtain ⟨events, hevents, haside⟩ := h.history
  refine ⟨[], octets, ⟨List.forall_mem_nil _, ?_, events, ?_, filterMap_message?_of_isAside haside⟩,
    fun hs => absurd hs hhalt⟩
  · rw [hoff.unread, h.unread]
    rfl
  · rw [hevents, history, history, hoff.journal]

theorem Reading.dies {c c' : Channel} {halt : Halt} (h : Reading c (some halt) c') :
    ¬ Survives (some halt) := by
  intro hs
  cases halt with
  | failed e =>
      have hfatal := h.fatal e rfl
      rw [show e.isFatal = false from hs] at hfatal
      cases hfatal
  | waiting => exact hs

/-- One message, from its tag on: it is consumed whole, or the connection is lost. -/
theorem receiveAfter_framing (phase : Phase) {octet : UInt8} (detail : Bool) {c₀ c : Channel}
    (hoctet : ReadsOff [octet] c₀ c) :
    Framing c₀ (halt? (receiveAfter phase octet detail c))
      (final (receiveAfter phase octet detail c)) := by
  generalize hrun : receiveAfter phase octet detail c = r
  cases arrival_of_run hrun with
  | undue =>
      refine .of_lost hoctet ?_ nofun
      split
      · exact c.told_keeps rfl
      · exact .refl c
  | broken _ _ hread =>
      have hr := (receiveMessage_reading _).error hread
      obtain ⟨octets, hoff⟩ := hr.reads
      exact .of_lost (hoctet.trans hoff) (.refl _) hr.dies
  | @whole m c₁ htag _ hread =>
      obtain ⟨body, hoff, declared, fields, rfl, haccepted⟩ := consumes_message m.tag c m c₁ hread
      have hall := hoctet.trans hoff
      have hunread : c₀.unread = [Frame.mk m declared fields].flatMap Frame.octets ++
          ([] ++ c₁.unread) := by
        rw [hall.unread, List.flatMap_singleton, Frame.octets, htag]
        rfl
      have hone : ∀ f ∈ [Frame.mk m declared fields], f.Accepted :=
        List.forall_mem_singleton.2 haccepted
      have hhistory : c₁.history = c₀.history := congrArg Array.toList hall.journal
      split
      · next hkeeps =>
          refine ⟨_, [], ⟨hone, hunread, [.received m detail], ?_, ?_⟩, fun _ => rfl⟩
          · rw [← hhistory]
            exact c₁.history_told _
          · simp [Event.message?, hkeeps]
      · next hnot =>
          refine ⟨_, [], ⟨hone, hunread, [], ?_, ?_⟩, fun _ => rfl⟩
          · rw [List.append_nil]
            exact hhistory
          · simp [hnot]

theorem receive_framing (phase : Phase) (detail : Bool) : Obeys Framing (receive phase detail) := by
  intro c
  unfold receive
  rw [bind_apply]
  cases hread : receiveOctet c with
  | error halt c' =>
      have hr := receiveOctet_reading.error hread
      obtain ⟨octets, hoff⟩ := hr.reads
      exact .of_lost hoff (.refl c') hr.dies
  | ok octet c₁ => exact receiveAfter_framing phase detail (receiveOctet_ok hread)

theorem Framing.then_keeps {c d e : Channel} {h : Option Halt} (hcd : Framing c h d)
    (hde : Keeps d e) : Framing c h e := by
  obtain ⟨frames, lost, ⟨haccepted, hunread, events, hevents, hmessages⟩, hlost⟩ := hcd
  obtain ⟨events', hevents', haside⟩ := hde.history
  refine ⟨frames, lost, ⟨haccepted, ?_, events ++ events', ?_, ?_⟩, hlost⟩
  · rw [hunread, hde.unread]
  · rw [hevents', hevents, List.append_assoc]
  · rw [List.filterMap_append, hmessages, filterMap_message?_of_isAside haside, List.append_nil]

/-! ## Logging in -/

theorem keeps_composes : Composes fun c (_ : Option Halt) c' => Keeps c c' where
  refl := Keeps.refl
  trans := Keeps.trans

theorem lift_keeps {α : Type} (r : Except Error α) :
    Obeys (fun c _ c' => Keeps c c') (lift r : Exchange Channel α) := by
  intro c
  rw [final_lift]
  exact .refl c

theorem record_keeps {event : Event} (h : event.isAside = true) :
    Obeys (fun c _ c' => Keeps c c') (record event) :=
  fun c => c.told_keeps h

theorem sendMessage_keeps (m : FrontendMessage) :
    Obeys (fun c _ c' => Keeps c c') (sendMessage m) :=
  keeps_composes.bind (lift_keeps _) fun octets => send_keeps octets

theorem sendPassword_keeps {m : FrontendMessage} (h : (Event.sending m).isAside = true) :
    Obeys (fun c _ c' => Keeps c c') (sendPassword m) :=
  keeps_composes.bind (record_keeps h) fun _ =>
    keeps_composes.bind (sendMessage_keeps m) fun _ => flush_keeps

theorem authenticate_framing (settings : ConnectionSettings) (detail : Bool) :
    Obeys Framing (authenticate settings detail) := by
  have hstops : ∀ c halt, Framing c (some halt) c := fun c _ => .of_keeps (.refl c) _
  exact authenticate_obeys framing_composes hstops (receive_framing .login detail)
    (answer_obeys framing_composes hstops (fun _ => keeps_framing (record_keeps rfl))
      (fun _ h => keeps_framing (sendPassword_keeps h)) settings)

end Channel

/-! ## A session -/

namespace Session

open Channel (Framing framing_composes keeps_framing)

def Frames (s : Session) (h : Option Halt) (s' : Session) : Prop :=
  Framing s.channel h s'.channel

theorem frames_composes : Composes Frames where
  refl s := framing_composes.refl s.channel
  trans := framing_composes.trans

theorem Aside.frames {s s' : Session} {h : Option Halt} (ha : Aside s h s') : Frames s h s' :=
  .of_keeps ha.keeps.channel h

theorem onChannel_frames {α : Type} {x : Exchange Channel α} (hx : Obeys Framing x) :
    Obeys Frames (onChannel x) :=
  hx.zoom fun _ _ _ h => h

theorem fail_frames {α : Type} (e : Error) : Obeys Frames (fail e : Exchange Session α) :=
  fun s => .of_keeps (.refl s.channel) _

theorem receive_frames (phase : Phase) : Obeys Frames (receive phase) :=
  frames_composes.bind frames_composes.get fun _ =>
    onChannel_frames (Channel.receive_framing phase _)

theorem readAnnouncement_frames (limit : Nat) : Obeys Frames (readAnnouncement limit) :=
  frames_composes.loop readAnnouncement_succ (fail_frames _)
    (frames_composes.bind (receive_frames .startup) (announce_of_aside frames_composes Aside.frames
      (fun s _ => .of_keeps (.refl s.channel) _) fun s _ => .of_keeps (.refl s.channel) _)) limit

theorem begin_frames : Obeys Frames begin := by
  refine begin_obeys frames_composes (readAnnouncement_frames _)
    (fun party pid => onChannel_frames (keeps_framing fun c => c.told_keeps rfl)) ?_
  intro s t u e hr habort
  exact hr.then_keeps (abort_keeps.ok habort).channel

/-! ## Between requests -/

theorem takeIdle_frames (m : BackendMessage) : Obeys Frames (takeIdle m) :=
  takeIdle_of_aside frames_composes Aside.frames (fun s _ => .of_keeps (.refl s.channel) _) m

theorem noticeNext_frames (wait : Nat) : Obeys Frames (noticeNext wait) := by
  refine noticeNext_of_message frames_composes wait (fun s c hkeeps => .of_keeps hkeeps _) ?_ ?_
    takeIdle_frames
  · intro s c halt hawait
    have hr := (Channel.awaitOctet_reading wait).error hawait
    obtain ⟨octets, hoff⟩ := hr.reads
    exact .of_lost hoff (.refl c) hr.dies
  · intro s c octet detail hoff
    exact Channel.receiveAfter_framing .idle detail hoff

/-! ## A request -/

theorem Prepares.frames {s s' : Session} (h : Prepares s s') (halt : Option Halt) :
    Frames s halt s' := by
  obtain ⟨events, hevents, hnone⟩ := h.history
  exact ⟨[], [], ⟨List.forall_mem_nil _, h.unread.symm, events, hevents, hnone⟩, fun _ => rfl⟩

theorem sendStatement_frames (st : Statement) (parameters : List (Option Bytes)) :
    Obeys Frames (sendStatement st parameters) :=
  fun s => (sendStatement_sends st parameters s).prepares.frames _

theorem frames_callLaw : CallLaw Frames where
  toComposes := frames_composes
  stops s halt := .of_keeps (.refl s.channel) halt
  drafts s _ octets := (drafts_prepares s _ octets (.refl _)).frames none
  flushes := onChannel_frames (keeps_framing Channel.flush_keeps)
  sends := sendStatement_frames
  replies := (Conversation.composes_session frames_composes).bind
    (Conversation.onSession_obeys (receive_frames .reply)) fun m c =>
      .of_keeps (Conversation.take_handles m c).channel _
  notices := noticeNext_frames
  checks := by
    intro s t e hr
    obtain ⟨t', ht', hends⟩ := checkFatal_ends (α := Unit) e t
    rw [ht']
    exact Channel.Framing.then_keeps hr hends.keeps.channel

/-- Whatever arrives, a call consumes whole messages, each of them up to where `Frame.Spelt` says
that its fields end. Of the kinds that are held to their length that is where the length says, and
a message of these kinds that cannot be read up to there breaks the protocol. -/
theorem calls_framed (s : Session) :
    (∀ settings detail c, Framing c (halt? (Channel.authenticate settings detail c))
      (final (Channel.authenticate settings detail c))) ∧
    Frames s (halt? (begin s)) (final (begin s)) ∧
    (∀ sql, Frames s (replyHalt (query sql s)) (final (query sql s))) ∧
    (∀ st parameters, Frames s (replyHalt (execute st parameters s))
      (final (execute st parameters s))) ∧
    (∀ wait, Frames s (halt? (takeNotices wait s)) (final (takeNotices wait s))) ∧
    (∀ f : Frame, f.Accepted → f.message.tag.isMeasured = true →
      (f.octets.length : Int) = 1 + f.declared) ∧
    ∀ (phase : Phase) (tag : Tag) (declared : Int) (fields : Bytes), phase.accepts tag = true →
      tag.isMeasured = true → FitsInt32 declared → fields.length = (declared - 4).toNat →
      ∀ detail c rest, Channel.unread c = tag.octet :: (Bytes.int32 declared ++ fields) ++ rest →
        (∃ m c', Channel.receive phase detail c = .ok m c' ∧ c'.unread = rest) ∨
          ∃ cause c', Channel.receive phase detail c =
            .error (.failed (.protocolViolation cause)) c' :=
  ⟨fun settings detail => Channel.authenticate_framing settings detail, begin_frames s,
    fun sql => frames_callLaw.query sql s,
    fun st parameters => frames_callLaw.execute st parameters s,
    fun wait => frames_callLaw.takeNotices wait s, fun _ hf htag => hf.spelt.length htag,
    fun _ _ _ _ haccepts htag hfits hlen detail _ _ hc =>
      Channel.receive_judges haccepts htag hfits hlen detail hc⟩

/-- The kinds that are not held to their length are accepted whatever they declare. -/
theorem lengths_ignored :
    let read (phase : Phase) (octets : Bytes) : Option (BackendMessage × Bytes) :=
      match Channel.receive phase false
        { socket := { inbound := octets, ended := true }, host := { name := "h", port := 5432 } }
      with
      | .ok m c => some (m, c.unread)
      | .error _ _ => none
    read .login (Tag.authentication.octet :: Bytes.int32 99 ++ Bytes.int32 0) =
        some (.authentication .ok, []) ∧
      read .startup (Tag.parameterStatus.octet :: Bytes.int32 4 ++ [0x61, 0, 0x62, 0]) =
        some (.parameterStatus "a" "b", []) ∧
      read .idle (Tag.notificationResponse.octet :: Bytes.int32 4 ++
        (Bytes.int32 7 ++ [0x61, 0, 0x62, 0])) =
        some (.notificationResponse { channel := "a", payload := "b", pid := 7 }, []) := by
  decide +kernel

end Session

end PgClient
