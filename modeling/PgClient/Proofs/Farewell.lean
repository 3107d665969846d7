import PgClient.Proofs.Calls

/-!
# The last word

Whatever a session does with what arrives, it has nothing to say about it, with one
exception. If the server reports something that the client cannot live with, the
session takes its leave: one Terminate goes out, behind what the buffer held, and
the session has ended. An error that ends the session says nothing at all, and what
the buffer held is dropped. `Parts` is this alternative, and it composes, because a
session that has ended never says another word.
-/

namespace PgClient

open Exchange

/-- The octets of a Terminate. -/
def farewell : Bytes :=
  FrontendMessage.frame 'X' []

namespace Channel

/-- Nothing is said. -/
def Mute (c : Channel) (_ : Option Halt) (c' : Channel) : Prop :=
  c'.outgoing = c.outgoing ∧ c'.socket.sent = c.socket.sent

theorem mute_composes : Composes Mute where
  refl _ := ⟨rfl, rfl⟩
  trans h h' := ⟨h'.1.trans h.1, h'.2.trans h.2⟩

theorem Reading.mute {c c' : Channel} {h h' : Option Halt} (hr : Reading c h c') :
    Mute c h' c' := by
  obtain ⟨octets, hoff⟩ := hr.reads
  exact ⟨hoff.outgoing, hoff.sent⟩

theorem reading_mute {α : Type} {x : Exchange Channel α} (hx : Obeys Reading x) : Obeys Mute x :=
  fun c => (hx c).mute

theorem record_mute (event : Event) : Obeys Mute (record event) :=
  fun _ => ⟨rfl, rfl⟩

theorem receiveAfter_mute (phase : Phase) (octet : UInt8) (detail : Bool) :
    Obeys Mute (receiveAfter phase octet detail) :=
  receiveAfter_obeys mute_composes reading_mute record_mute phase octet detail

theorem receive_mute (phase : Phase) (detail : Bool) : Obeys Mute (receive phase detail) :=
  receive_obeys mute_composes reading_mute record_mute phase detail

/-- A write that does not fail takes everything. -/
theorem flush_writes {c : Channel} (hwrite : c.socket.faults.write = false) :
    (final (flush c)).socket.sent = c.socket.sent ++ c.outgoing := by
  rw [flush_apply, hwrite]
  split
  · next hempty => rw [hempty, List.append_nil, final_ok]
  · simp only [Bool.false_eq_true, if_false]
    split <;> exact c.socket.sent_write _

/-- A write that fails takes nothing. -/
theorem flush_unwritten {c : Channel} (hwrite : c.socket.faults.write = true) :
    (final (flush c)).socket = c.socket := by
  rw [flush_apply, hwrite]
  split <;> rfl

/-- A write takes everything or nothing. -/
theorem flush_sent (c : Channel) :
    (final (flush c)).socket.sent = c.socket.sent ∨
      (final (flush c)).socket.sent = c.socket.sent ++ c.outgoing := by
  cases hwrite : c.socket.faults.write with
  | false => exact .inr (flush_writes hwrite)
  | true => exact .inl (congrArg Socket.sent (flush_unwritten hwrite))

/-- Nothing is left behind by a write, not even by one that fails. -/
theorem flush_outgoing (c : Channel) : (final (flush c)).outgoing = [] := by
  rw [flush_apply]
  split
  · next hempty => exact hempty
  · split
    · rfl
    · simp only []
      split <;> rfl

theorem close_sent (c : Channel) : (final (close c)).socket.sent = c.socket.sent := by
  rw [close_apply]
  split <;> rfl

theorem close_faults (c : Channel) : (final (close c)).socket.faults = c.socket.faults := by
  rw [close_apply]
  split <;> rfl

end Channel

namespace Session

/-! ## Taking leave -/

/-- No octet goes out, so what fails is what failed before. -/
structure Unheeded (s : Session) (h : Option Halt) (s' : Session) : Prop where
  sent : s'.channel.socket.sent = s.channel.socket.sent
  faults : s'.channel.socket.faults = s.channel.socket.faults

theorem unheeded_composes : Composes Unheeded where
  refl _ := ⟨rfl, rfl⟩
  trans h h' := ⟨h'.sent.trans h.sent, h'.faults.trans h.faults⟩

theorem record_unheeded (event : Event) : Obeys Unheeded (record event) :=
  fun _ => ⟨rfl, rfl⟩

theorem unheeded_lapses : Lapses (Obeys Unheeded) where
  toAssembles := assembles_of_composes unheeded_composes
  told event _ := record_unheeded event
  shuts s := by
    rw [final_attempt, final_onChannel]
    exact ⟨Channel.close_sent s.channel, Channel.close_faults s.channel⟩
  marks _ _ := ⟨rfl, rfl⟩

theorem checkFatal_unheeded {α : Type} (result : Except Error α) :
    Obeys Unheeded (checkFatal result) :=
  unheeded_lapses.toAssembles.checkFatal (fun event _ => record_unheeded event)
    unheeded_lapses.abort result

/-- The session with its last word in the buffer. -/
def leaving (s : Session) : Session :=
  { s with channel :=
    { s.channel.told (.sending .terminate) with outgoing := s.channel.outgoing ++ farewell } }

theorem close_of_open {s : Session} (hopen : s.isClosed = false) : close s = hangUp s.leaving := by
  unfold close
  rw [bind_of_ok (get_apply s), hopen]
  rfl

/-- Once the last word was written, or was not, no other one follows. -/
theorem hangUp_unheeded (s : Session) :
    Unheeded { s with channel := final (Channel.flush s.channel) } (halt? (hangUp s))
      (final (hangUp s)) := by
  obtain ⟨r, t, ht, -⟩ := reaches_attempt Channel.flush_ends s
  have hflush := final_attempt (onChannel Channel.flush) s
  rw [ht, final_onChannel] at hflush
  rw [show { s with channel := final (Channel.flush s.channel) } = t from hflush.symm]
  unfold hangUp
  rw [bind_of_ok ht]
  cases r with
  | ok _ => exact unheeded_lapses.shut t
  | error e => exact unheeded_composes.bind (record_unheeded _) (fun _ => unheeded_lapses.shut) t

/-- A session that takes its leave says so behind everything else, or fails to say
anything more. -/
theorem close_sent {s : Session} (hopen : s.isClosed = false) :
    (final (close s)).channel.socket.sent = s.channel.socket.sent ∨
      (final (close s)).channel.socket.sent =
        s.channel.socket.sent ++ (s.channel.outgoing ++ farewell) := by
  rw [close_of_open hopen, (hangUp_unheeded s.leaving).sent]
  exact Channel.flush_sent s.leaving.channel

/-! ## What a session says about what arrives -/

/-- The session goes on as before and has said nothing, or it has ended, with a
farewell or without. -/
inductive Parts (s : Session) (h : Option Halt) (s' : Session) : Prop where
  | stays (hclosed : s'.isClosed = s.isClosed)
      (hsent : s'.channel.socket.sent = s.channel.socket.sent)
      (hout : s.isClosed = false → s'.channel.outgoing = s.channel.outgoing)
  | parts (hopen : s.isClosed = false) (hclosed : s'.isClosed = true)
      (hsent : s'.channel.socket.sent = s.channel.socket.sent ∨
        s'.channel.socket.sent = s.channel.socket.sent ++ (s.channel.outgoing ++ farewell))

/-- It does not matter how the session came to it. -/
theorem Parts.any {s s' : Session} {h h' : Option Halt} (hparts : Parts s h s') :
    Parts s h' s' := by
  cases hparts with
  | stays hclosed hsent hout => exact .stays hclosed hsent hout
  | parts hopen hclosed hsent => exact .parts hopen hclosed hsent

theorem parts_composes : Composes Parts where
  refl _ := .stays rfl rfl fun _ => rfl
  trans := by
    intro s t u h hst htu
    cases hst with
    | stays hclosed hsent hout =>
        cases htu with
        | stays hclosed' hsent' hout' =>
            exact .stays (hclosed'.trans hclosed) (hsent'.trans hsent) fun hopen =>
              (hout' (hclosed.trans hopen)).trans (hout hopen)
        | parts hopen hclosed' hsent' =>
            have hwas : s.isClosed = false := hclosed.symm.trans hopen
            rw [hsent, hout hwas] at hsent'
            exact .parts hwas hclosed' hsent'
    | parts hopen hclosed hsent =>
        cases htu with
        | stays hclosed' hsent' _ =>
            exact .parts hopen (hclosed'.trans hclosed) (by rwa [hsent'])
        | parts hopen' =>
            rw [hclosed] at hopen'
            cases hopen'

theorem onChannel_parts {α : Type} {x : Exchange Channel α} (hx : Obeys Channel.Mute x) :
    Obeys Parts (onChannel x) :=
  hx.zoom fun _ _ _ h => .stays rfl h.2 fun _ => h.1

/-- What is noted about the session is not said to the server. -/
theorem parts_of_channel {s s' : Session} {h : Option Halt} (hchannel : s'.channel = s.channel)
    (hclosed : s'.isClosed = s.isClosed) : Parts s h s' :=
  .stays hclosed (by rw [hchannel]) fun _ => by rw [hchannel]

theorem fail_parts {α : Type} (e : Error) : Obeys Parts (fail e : Exchange Session α) :=
  fun _ => parts_of_channel rfl rfl

theorem close_parts : Obeys Parts close := by
  intro s
  cases hclosed : s.isClosed with
  | true =>
      have hrun : close s = .ok () s := by
        unfold close
        rw [bind_of_ok (get_apply s), hclosed]
        rfl
      rw [hrun]
      exact parts_composes.refl s
  | false =>
      have hsent := close_sent hclosed
      obtain ⟨_, s', hs', hc⟩ := close_reaches s
      rw [hs'] at hsent ⊢
      exact .parts hclosed hc hsent

theorem abort_parts : Obeys Parts abort := by
  intro s
  have hsent := (unheeded_lapses.abort s).sent
  obtain ⟨_, s', hs', hc⟩ := abort_reaches s
  rw [hs'] at hsent ⊢
  cases hclosed : s.isClosed with
  | true =>
      refine .stays (hc.trans hclosed.symm) hsent fun hopen => ?_
      rw [hclosed] at hopen
      cases hopen
  | false => exact .parts hclosed hc (.inl hsent)

theorem checkFatal_parts {α : Type} (result : Except Error α) :
    Obeys Parts (checkFatal result) :=
  (assembles_of_composes parts_composes).checkFatal
    (fun event _ => onChannel_parts (Channel.record_mute event)) abort_parts result

theorem parts_governs : Governs (Obeys Parts) where
  toAssembles := assembles_of_composes parts_composes
  told event _ := onChannel_parts (Channel.record_mute event)
  recodes _ := onChannel_parts fun _ => ⟨rfl, rfl⟩
  sets _ h s := by
    rw [modify_apply, final_ok, halt?_ok, h.settings s]
    exact parts_of_channel rfl rfl
  leaves _ := parts_composes.bind close_parts fun _ => fail_parts _
  fails e _ := fail_parts e

theorem onParameter_parts (name value : String) : Obeys Parts (onParameter name value) := by
  refine onParameter_obeys parts_governs (fun {s _ _ parameters} h => ?_) name value
  have hnoted : Parts s none { s with parameters } := parts_of_channel rfl rfl
  exact parts_composes.trans hnoted h

theorem Plain.parts {s s' : Session} {h : Option Halt} (hplain : Plain s h s') :
    Parts s h s' := by
  rw [hplain]
  exact .stays rfl rfl fun _ => rfl

theorem receive_parts (phase : Phase) : Obeys Parts (receive phase) :=
  parts_composes.bind parts_composes.get fun _ =>
    onChannel_parts (Channel.receive_mute phase _)

theorem announce_parts (m : BackendMessage) : Obeys Parts (announce m) :=
  announce_obeys parts_composes Plain.parts (fun _ _ => parts_of_channel rfl rfl)
    onParameter_parts m

theorem noticeNext_parts (wait : Nat) : Obeys Parts (noticeNext wait) :=
  noticeNext_obeys parts_composes wait
    (onChannel_parts fun c => (Channel.awaitOctet_reading wait c).mute)
    (fun _ _ => onChannel_parts (Channel.receiveAfter_mute _ _ _))
    (takeIdle_obeys Plain.parts onParameter_parts)

theorem takeNext_parts :
    Obeys (fun c h c' => Parts c.session h c'.session) Conversation.takeNext :=
  (Conversation.composes_session parts_composes).bind
    (Conversation.onSession_obeys (receive_parts .reply))
    (Conversation.take_session_obeys Plain.parts onParameter_parts)

/-! ## Calls that send nothing -/

theorem takeNotices_parts (wait : Option Nat) : Obeys Parts (takeNotices wait) :=
  takeNotices_obeys parts_composes (fun _ => parts_of_channel rfl rfl) noticeNext_parts
    (fun h => parts_composes.trans h.any (checkFatal_parts _ _).any) wait

theorem begin_parts : Obeys Parts begin := by
  have hstart : Obeys Parts start :=
    parts_composes.loop readAnnouncement_succ (fail_parts _)
      (parts_composes.bind (receive_parts .startup) announce_parts) maxStartupMessages
  refine begin_obeys parts_composes hstart
    (fun _ _ => onChannel_parts (Channel.record_mute _)) fun hs habort => ?_
  exact parts_composes.trans hs.any (abort_parts.ok habort).any

theorem readReply_parts :
    Obeys (fun c h c' => Parts c.session h c'.session) Conversation.readReply := by
  have hreply := Conversation.composes_session parts_composes
  have hstays : ∀ (c : Conversation) (h : Option Halt), Parts c.session h c.session :=
    fun _ _ => parts_of_channel rfl rfl
  exact Conversation.readReply_obeys hreply
    (hreply.loop Conversation.takeAll_succ (fun c => hstays c _) takeNext_parts)
    (fun c => hstays c none) fun _ c => hstays c _

end Session

end PgClient
