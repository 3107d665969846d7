import PgClient.Proofs.Announcement

/-!
# Waiting while nothing is asked

Between requests a server may still have something to say: notifications, notices and changed
settings. A client that has a moment takes in what there is and waits for more. Whatever arrives is
taken in, one message after the other, and is not lost whatever the wait comes to (`Takes`).

Two limits run while nothing arrives: that of the wait, and that of every single read. If the wait
is the shorter one, it is over and nothing has happened; otherwise the read takes too long, and that
ends the session although nobody owed it an answer (`takeNotices_waits`).
-/

namespace PgClient

open Exchange

/-- Whether a message tells of something that happened on its own. -/
def WireMessage.isTiding : WireMessage → Bool
  | notificationResponse .. | noticeResponse _ | parameterStatus .. => true
  | _ => false

theorem WireMessage.accepts_of_isTiding {w : WireMessage} (h : w.isTiding = true) :
    Phase.idle.accepts w.tag = true := by
  cases w with
  | notificationResponse | noticeResponse | parameterStatus => rfl
  | _ => cases h

/-- The character set that the next message is read in is that of the manner. -/
theorem Manner.charset_on (allows : Bool) (o : Manner) (m : BackendMessage) :
    (o.on allows m).charset = m.charsetAfter allows o.charset := by
  cases m with
  | parameterStatus name value =>
      by_cases hname : name = "client_encoding"
      · subst hname
        rfl
      · have hsame : (BackendMessage.parameterStatus name value).charsetAfter allows o.charset =
            o.charset := by
          unfold BackendMessage.charsetAfter
          split
          · next heq => exact absurd (BackendMessage.parameterStatus.inj heq).1 hname
          · rfl
        rw [hsame]
        unfold Manner.on
        rw [reported?_other value hname]
        cases allows <;> rfl
  | _ => cases allows <;> rfl

namespace Channel

theorem exhausted_of_unread {c : Channel} (h : c.unread = []) : c.exhausted = c := by
  obtain ⟨hbuffer, hinbound⟩ :=
    List.append_eq_nil_iff.1 (show c.buffer ++ c.socket.inbound = [] from h)
  rcases c with ⟨socket, host, buffer⟩
  cases hbuffer
  cases socket
  cases hinbound
  rfl

/-- An octet that has arrived is the next one to be read, and no time passes. -/
theorem awaitOctet_octet {c : Channel} {octet : UInt8} {rest : Bytes} (wait : Nat)
    (h : c.unread = octet :: rest) :
    ∃ c', awaitOctet wait c = .ok (some octet) c' ∧ receiveOctet c = .ok octet c' := by
  obtain ⟨c', htake, -⟩ := takeExactly_append (show c.unread = [octet] ++ rest from h)
  have htake : takeExactly 1 c = (some [octet], c') := htake
  refine ⟨c', ?_, ?_⟩
  · unfold awaitOctet
    rw [bind_of_ok (modifyGet_apply _ c), htake]
    rfl
  · unfold receiveOctet receiveExactly
    rw [bind_apply, bind_of_ok (modifyGet_apply _ c), htake]
    rfl

/-- Of the two limits that run while nothing arrives, the shorter one counts. -/
theorem awaitOctet_silence {c : Channel} (wait : Nat) (hunread : c.unread = [])
    (hended : c.socket.ended = false) (hhealthy : c.socket.faults.read = false) :
    awaitOctet wait c =
      if c.readTimeout.all (wait < ·) then .ok none c else .error c.dryHalt c := by
  have htake : takeExactly 1 c = (none, c) := by
    rw [takeExactly_short (by rw [hunread]; exact Nat.zero_lt_one), exhausted_of_unread hunread]
  unfold awaitOctet
  rw [bind_of_ok (modifyGet_apply _ c), htake]
  simp only []
  rw [bind_of_ok (get_apply c), hended, hhealthy]
  simp only [Bool.not_false, Bool.and_self, Bool.true_and]
  split
  · rfl
  · exact runDry_apply c

end Channel

namespace Session

/-! ## What is taken in -/

/-- Messages were taken in, and all that came of them is what they tell. -/
structure Takes (ms : List BackendMessage) (s s' : Session) : Prop extends Learns s ms s' where
  manner : s'.manner = ms.foldl (Manner.on s.options.allowEncodingChanges) s.manner
  warnings : s'.status.warnings = s.status.warnings ++ ms.filterMap BackendMessage.notice?
  notifications : s'.status.notifications =
    s.status.notifications ++ ms.filterMap BackendMessage.notification?
  ledger : s'.ledger = s.ledger

theorem Takes.nil (s : Session) : Takes [] s s :=
  ⟨.refl s, rfl, (List.append_nil _).symm, (List.append_nil _).symm, rfl⟩

theorem Takes.append {s t u : Session} {ms ms' : List BackendMessage} (h : Takes ms s t)
    (h' : Takes ms' t u) : Takes (ms ++ ms') s u := by
  refine ⟨h.toLearns.trans h'.toLearns, ?_, ?_, ?_, h'.ledger.trans h.ledger⟩
  · rw [h'.manner, h.options, h.manner, List.foldl_append]
  · rw [h'.warnings, h.warnings, List.append_assoc, List.filterMap_append]
  · rw [h'.notifications, h.notifications, List.append_assoc, List.filterMap_append]

/-- A message that was read is taken in, if it is one the client can live with. -/
theorem takeIdle_ok {m : BackendMessage} {s : Session} (htag : Phase.idle.accepts m.tag = true)
    (hreport : m.report? = none)
    (haccept : m.isAcceptable s.options.allowEncodingChanges = true) :
    ∃ s', takeIdle m s = .ok () s' ∧
      s'.status.warnings = s.status.warnings ++ m.notice?.toList ∧
      s'.status.notifications = s.status.notifications ++ m.notification?.toList := by
  cases m with
  | notificationResponse notification => exact ⟨_, rfl, (List.append_nil _).symm, rfl⟩
  | noticeResponse report => exact ⟨_, rfl, rfl, (List.append_nil _).symm⟩
  | parameterStatus name value =>
      obtain ⟨s', hrun, hheeds⟩ := onParameter_heeds haccept
      exact ⟨s', hrun, hheeds.warnings.trans (List.append_nil _).symm,
        hheeds.notifications.trans (List.append_nil _).symm⟩
  | errorResponse => cases hreport
  | _ => cases htag

theorem takeIdle_steady (m : BackendMessage) : Obeys Steady (takeIdle m) :=
  takeIdle_obeys Plain.steady (onParameter_obeys steady_governs fun h => h) m

/-- What has arrived is read and taken in, however long the wait. -/
theorem noticeNext_eq {s : Session} {octet : UInt8} {rest : Bytes} (wait : Nat)
    (h : s.channel.unread = octet :: rest) :
    noticeNext wait s = (do
      takeIdle (← receive .idle)
      return false : Exchange Session Bool) s := by
  obtain ⟨c, hawait, hoctet⟩ := Channel.awaitOctet_octet wait h
  have hfront : onChannel (Channel.awaitOctet wait) s =
      .ok (some octet) { s with channel := c } :=
    onChannel_of_ok hawait
  have hreceive : receive .idle s = onChannel
      (Channel.receiveAfter .idle octet s.options.showErrorDetail) { s with channel := c } := by
    rw [receive_apply, onChannel_apply, onChannel_apply]
    unfold Channel.receive
    rw [bind_of_ok hoctet]
  unfold noticeNext
  rw [bind_of_ok hfront]
  simp only []
  rw [bind_of_ok (get_apply _), bind_apply, bind_apply, hreceive]

/-- Taking in what arrives leaves the limits and the session's end alone. -/
structure Lasts (s s' : Session) : Prop where
  dryness : s'.dryness = s.dryness
  isClosed : s'.isClosed = s.isClosed

theorem Lasts.trans {s t u : Session} (h : Lasts s t) (h' : Lasts t u) : Lasts s u :=
  ⟨h'.dryness.trans h.dryness, h'.isClosed.trans h.isClosed⟩

theorem noticeNext_takes {w : WireMessage} (hw : w.WellFormed) (htiding : w.isTiding = true)
    (wait : Nat) {s : Session} {rest : Bytes} (hunread : s.channel.unread = w.encode ++ rest)
    (haccept : (w.decode s.channel.charset).isAcceptable s.options.allowEncodingChanges = true) :
    ∃ s', noticeNext wait s = .ok false s' ∧ Takes [w.decode s.channel.charset] s s' ∧
      s'.channel.unread = rest ∧ Lasts s s' := by
  have haccepts := WireMessage.accepts_of_isTiding htiding
  obtain ⟨c, hoff, hread⟩ := Channel.receive_yields .idle (by decide) s.options.showErrorDetail
    (w.tag_decode _) haccepts (Channel.yields_message hw) hunread
  generalize hm : w.decode s.channel.charset = m at haccept hread
  have htag : Phase.idle.accepts m.tag = true := by
    rw [← hm, w.tag_decode]
    exact haccepts
  have hreport : m.report? = none := by
    rw [← hm]
    cases w with
    | errorResponse => cases htiding
    | _ => rfl
  have hreceive : receive .idle s =
      .ok m { s with channel := c.told (.received m s.options.showErrorDetail) } :=
    receive_of_ok hread
  obtain ⟨s', htake, hwarnings, hnotifications⟩ := takeIdle_ok (s := { s with
    channel := c.told (.received m s.options.showErrorDetail) }) htag hreport haccept
  have hminds := (takeIdle_minds htag).ok htake
  have hidles := (takeIdle_idles m).ok htake
  obtain ⟨asides, hweighed⟩ := (takeIdle_weighs m).ok htake
  have hlearns := (receive_reads (by decide) hreceive).receives.learns hminds.channel
    hminds.options hminds.standing
  have hsteady : s'.dryness = s.dryness :=
    ((takeIdle_steady m).ok htake).trans ((receive_talks .idle).ok hreceive).steady
  refine ⟨s', ?_, ⟨hlearns, ?_, ?_, ?_, hidles.ledger⟩, ?_, hsteady, hidles.mild nofun⟩
  · rw [noticeNext_eq wait hunread, bind_of_ok hreceive, bind_of_ok htake]
    rfl
  · refine hweighed.manner.trans (congrArg (Manner.on _ · m) ?_)
    exact (receive_mannered .idle).ok hreceive
  · rw [hwarnings]
    cases hnotice : m.notice? <;> simp [hnotice]
  · rw [hnotifications]
    cases hnotification : m.notification? <;> simp [hnotification]
  · exact hminds.channel.unread.trans (hoff.unread_eq hunread)

/-- A server has something to say between requests, and falls silent. -/
structure Tidings (s : Session) (ws : List WireMessage) : Prop where
  wellFormed : ∀ w ∈ ws, w.WellFormed
  tidings : ∀ w ∈ ws, w.isTiding = true
  acceptable : ∀ m ∈ WireMessage.decodeAll s.options.allowEncodingChanges s.channel.charset ws,
    m.isAcceptable s.options.allowEncodingChanges = true
  octets : s.channel.unread = ws.flatMap WireMessage.encode
  goesOn : s.channel.socket.ended = false
  healthy : s.channel.socket.faults.read = false

/-- All that has arrived is taken in, and then there is silence. -/
theorem takeArriving_tidings {ws : List WireMessage} (wait rounds : Nat) {s : Session}
    (h : Tidings s ws) :
    ∃ s', takeArriving wait (ws.length + rounds) s = takeArriving wait rounds s' ∧
      Takes (WireMessage.decodeAll s.options.allowEncodingChanges s.channel.charset ws) s s' ∧
      s'.channel.unread = [] ∧ Lasts s s' := by
  -- each message may change the character set that the next ones are read in
  induction ws generalizing s with
  | nil =>
      refine ⟨s, by rw [List.length_nil, Nat.zero_add], .nil s, h.octets, rfl, rfl⟩
  | cons w ws ih =>
      obtain ⟨hw, hws⟩ := List.forall_mem_cons.1 h.wellFormed
      obtain ⟨htiding, htidings⟩ := List.forall_mem_cons.1 h.tidings
      obtain ⟨hm, hms⟩ := List.forall_mem_cons.1 h.acceptable
      obtain ⟨t, ht, htakes, hunread, hlasts⟩ := noticeNext_takes hw htiding wait h.octets hm
      have hcharset : t.channel.charset = (w.decode s.channel.charset).charsetAfter
          s.options.allowEncodingChanges s.channel.charset := by
        have hmanner : t.manner.charset = _ := congrArg Manner.charset htakes.manner
        exact hmanner.trans (Manner.charset_on _ _ _)
      obtain ⟨hended, hfault, -⟩ : t.channel.socket.ended = s.channel.socket.ended ∧
          t.channel.socket.faults.read = s.channel.socket.faults.read ∧
          t.channel.readTimeout = s.channel.readTimeout := by
        simpa [dryness] using hlasts.dryness
      rw [← hcharset, ← htakes.options] at hms
      obtain ⟨s', hs', htakes', hunread', hlasts'⟩ := ih ⟨hws, htidings, hms, hunread,
        hended.trans h.goesOn, hfault.trans h.healthy⟩
      refine ⟨s', ?_, ?_, hunread', hlasts.trans hlasts'⟩
      · rw [List.length_cons, Nat.add_right_comm, takeArriving_succ, bind_of_ok ht, ← hs']
        rfl
      · rw [WireMessage.decodeAll, ← hcharset, ← htakes.options]
        exact htakes.append htakes'

/-! ## Giving up on what is not owed -/

/-- What there is to collect is what it was. -/
def Collected (s : Session) (_ : Option Halt) (s' : Session) : Prop :=
  s'.status.warnings = s.status.warnings ∧ s'.status.notifications = s.status.notifications

theorem collected_lapses : Lapses (Obeys Collected) where
  toAssembles := assembles_of_composes
    ⟨fun _ => ⟨rfl, rfl⟩, fun h h' => ⟨h'.1.trans h.1, h'.2.trans h.2⟩⟩
  told _ _ := fun _ => ⟨rfl, rfl⟩
  shuts s := by
    rw [final_attempt, final_onChannel]
    exact ⟨rfl, rfl⟩
  marks _ _ := ⟨rfl, rfl⟩

/-- A session that is aborted over an error keeps what it took in. -/
theorem Takes.checked {s t u : Session} {ms : List BackendMessage} {e : Error}
    (h : Takes ms s t) (hcheck : checkFatal (.error e : Except Error Unit) t = .ok () u) :
    Takes ms s u := by
  have hhushed := checkFatal_hushed hcheck
  obtain ⟨hwarnings, hnotifications⟩ := (collected_lapses.toAssembles.checkFatal
    (fun _ _ _ => ⟨rfl, rfl⟩) collected_lapses.abort (.error e : Except Error Unit)).ok hcheck
  exact ⟨h.toLearns.trans_nil (.of_keeps hhushed.keeps ((checkFatal_unmoved _).ok hcheck)),
    hhushed.manner.trans h.manner, hwarnings.trans h.warnings,
    hnotifications.trans h.notifications, hhushed.keeps.ledger.trans h.ledger⟩

/-- What comes of messages that arrive between requests and of the silence after them. -/
structure Waits (s : Session) (ws : List WireMessage) (wait : Option Nat) : Prop where
  takes : Takes (WireMessage.decodeAll s.options.allowEncodingChanges s.channel.charset ws) s
    (final (takeNotices wait s))
  unread : (final (takeNotices wait s)).channel.unread = []
  /-- The wait is over before a read takes too long. -/
  outlives : s.channel.readTimeout.all (wait.getD 0 < ·) = true →
    halt? (takeNotices wait s) = none ∧ (final (takeNotices wait s)).isClosed = false
  /-- A read takes too long before the wait is over. -/
  lapses : ∀ millis, s.channel.readTimeout = some millis → millis ≤ wait.getD 0 →
    halt? (takeNotices wait s) = some (.failed (.connectionFailure (.readTimeout millis))) ∧
      (final (takeNotices wait s)).isClosed = true

/-- The end of a wait on a channel that is silent. -/
theorem takeArriving_silence {s : Session} (wait rounds : Nat) (hunread : s.channel.unread = [])
    (hended : s.channel.socket.ended = false) (hhealthy : s.channel.socket.faults.read = false) :
    takeArriving wait (rounds + 1) s =
      if s.channel.readTimeout.all (wait < ·) then .ok () s else .error s.channel.dryHalt s := by
  have hawait := Channel.awaitOctet_silence wait hunread hended hhealthy
  rw [takeArriving_succ]
  by_cases hshort : s.channel.readTimeout.all (wait < ·) = true
  · rw [if_pos hshort] at hawait ⊢
    have hnext : noticeNext wait s = .ok true s := by
      unfold noticeNext
      rw [bind_of_ok (onChannel_of_ok hawait)]
      rfl
    rw [bind_of_ok hnext]
    rfl
  · rw [if_neg hshort] at hawait ⊢
    refine bind_of_error ?_
    unfold noticeNext
    exact bind_of_error (onChannel_of_error hawait)

/-- Whatever is told between requests is taken in. Silence after it is nothing to a client whose
wait is shorter than a read may take, and otherwise the end of the session. -/
theorem takeNotices_waits {s : Session} (hopen : s.isClosed = false)
    (hidle : s.status.transaction = .idle) {ws : List WireMessage} (h : Tidings s ws)
    (wait : Option Nat) : Waits s ws wait := by
  obtain ⟨rounds, hrounds⟩ : ∃ rounds, s.channel.unread.length + 1 = ws.length + (rounds + 1) := by
    have hfew := Conversation.length_le_flatMap_encode ws
    rw [← h.octets] at hfew
    exact ⟨s.channel.unread.length - ws.length, by omega⟩
  obtain ⟨t, ht, htakes, hunread, hlasts⟩ :=
    takeArriving_tidings (wait.getD 0) (rounds + 1) h
  obtain ⟨hended, hfault, htimeout⟩ : t.channel.socket.ended = s.channel.socket.ended ∧
      t.channel.socket.faults.read = s.channel.socket.faults.read ∧
      t.channel.readTimeout = s.channel.readTimeout := by
    simpa [dryness] using hlasts.dryness
  rw [h.goesOn] at hended
  rw [takeArriving_silence _ _ hunread hended (hfault.trans h.healthy), htimeout] at ht
  have hrun := takeNotices_of_idle hopen hidle wait
  rw [hrounds, bind_apply, attempt_apply, ht] at hrun
  by_cases hshort : s.channel.readTimeout.all (wait.getD 0 < ·) = true
  · rw [if_pos hshort] at hrun
    have hrun : takeNotices wait s = .ok () t := hrun
    refine ⟨hrun ▸ htakes, hrun ▸ hunread, fun _ => ?_, fun millis hmillis hlong => ?_⟩
    · rw [hrun]
      exact ⟨rfl, hlasts.isClosed.trans hopen⟩
    · rw [hmillis] at hshort
      have hless : wait.getD 0 < millis := by simpa using hshort
      omega
  · obtain ⟨millis, hmillis⟩ : ∃ millis, s.channel.readTimeout = some millis := by
      cases hlimit : s.channel.readTimeout with
      | none => exact absurd (by rw [hlimit]; rfl) hshort
      | some millis => exact ⟨millis, rfl⟩
    have hdry : t.channel.dryHalt = .failed (.connectionFailure (.readTimeout millis)) := by
      unfold Channel.dryHalt
      rw [hended, hfault, h.healthy, htimeout, hmillis]
      rfl
    obtain ⟨u, hu, hclosed, -⟩ := checkFatal_fatal (α := Unit)
      (e := .connectionFailure (.readTimeout millis)) rfl t
    rw [if_neg hshort, hdry] at hrun
    simp only [] at hrun
    rw [bind_of_ok hu] at hrun
    have hrun : takeNotices wait s =
        .error (.failed (.connectionFailure (.readTimeout millis))) u :=
      hrun
    refine ⟨hrun ▸ htakes.checked hu, ?_, fun hlong => absurd hlong hshort, fun millis' hm _ => ?_⟩
    · rw [hrun]
      exact ((checkFatal_hushed hu).keeps.channel.unread).trans hunread
    · obtain rfl := Option.some.inj (hmillis.symm.trans hm)
      rw [hrun]
      exact ⟨rfl, hclosed⟩

/-- A notification without a payload. -/
def whisper : WireMessage :=
  .notificationResponse 7 (Utf8.encode "jobs") []

/-- A session with a server that whispers and falls silent, where a read may take a tenth of a
second. -/
def whisperedSession : Session :=
  new
    { socket := { inbound := whisper.encode }
      host := { name := "localhost", port := 5432 }
      readTimeout := some 100 }
    "postgres" "postgres" {}

theorem whispered_tidings : Tidings whisperedSession [whisper] := by
  refine ⟨?_, by decide, ?_, by decide +kernel, rfl, rfl⟩
  · exact List.forall_mem_singleton.2 ⟨⟨⟨by decide, by decide⟩, by decide +kernel, by decide⟩,
      by decide +kernel⟩
  · exact List.forall_mem_singleton.2 rfl

/-- One notification arrives, and the wait is the shorter one. -/
theorem takeNotices_waits_whisper :
    (whisperedSession.isClosed = false ∧ whisperedSession.status.transaction = .idle ∧
      Tidings whisperedSession [whisper]) ∧ Waits whisperedSession [whisper] (some 50) :=
  ⟨⟨rfl, rfl, whispered_tidings⟩, takeNotices_waits rfl rfl whispered_tidings (some 50)⟩

/-- The same, and the wait is the longer one: silence ends the session. -/
theorem wait_outlasts_limit :
    Tidings whisperedSession [whisper] ∧ whisperedSession.isClosed = false ∧
      whisperedSession.status.transaction = .idle ∧
      halt? (takeNotices (some 200) whisperedSession) =
        some (.failed (.connectionFailure (.readTimeout 100))) ∧
      (final (takeNotices (some 200) whisperedSession)).isClosed = true :=
  ⟨whispered_tidings, rfl, rfl, by decide +kernel, by decide +kernel⟩

end Session

end PgClient
