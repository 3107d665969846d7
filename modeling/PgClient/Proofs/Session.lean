import PgClient.Proofs.Receive
import PgClient.Proofs.Text
import PgClient.Session.Messages

/-!
# What the work of a session leaves alone

Most of what a session does while it talks to the server has nothing to do with
what the server sent so far, and nothing with the names of its statements: it
writes the journal, keeps a setting, or takes its leave. `Keeps` says what all
of that leaves alone, and holds even of an ending session. `Aside` says in
addition what goes for a message that was taken in while a request is under way:
a session that is still open is as open as before and has sent nothing, and if
the message ends the reply, it does so with an error no connection survives.

The second half is the classification the whole client hangs on. No error can
leave the handling of a message without being fatal, except the one the server
reported, and that one is kept for later and does not leave it at all.
-/

namespace PgClient

open Exchange

/-- The octets that went to the server. -/
def Socket.sent (s : Socket) : Bytes :=
  match s.medium with
  | .tls => s.encrypted
  | .tcp | .localSocket => s.clear

theorem Socket.sent_write (s : Socket) (octets : Bytes) :
    (s.write octets).sent = s.sent ++ octets := by
  unfold Socket.write Socket.sent
  cases s.medium <;> rfl

theorem Socket.inbound_write (s : Socket) (octets : Bytes) :
    (s.write octets).inbound = s.inbound := by
  unfold Socket.write
  cases s.medium <;> rfl

/-- Events that neither tell of a message of the server nor of one that has to
do with a statement's name. -/
def Event.isAside : Event → Bool
  | .received _ _ | .sending (.parse ..) | .sending (.bind ..) | .sending (.close ..) => false
  | _ => true

namespace Channel

/-- What happened so far, first one first. -/
def history (c : Channel) : List Event :=
  c.journal.toList

/-- The second channel has the same octets to read as the first one, and its
journal tells of nothing but other things. -/
structure Keeps (c c' : Channel) : Prop where
  unread : c'.unread = c.unread
  history : ∃ events, c'.history = c.history ++ events ∧ ∀ e ∈ events, e.isAside

theorem Keeps.of_journal {c c' : Channel} (hunread : c'.unread = c.unread)
    (hjournal : c'.journal = c.journal) : Keeps c c' := by
  refine ⟨hunread, [], ?_, List.forall_mem_nil _⟩
  rw [Channel.history, Channel.history, hjournal, List.append_nil]

theorem Keeps.refl (c : Channel) : Keeps c c :=
  .of_journal rfl rfl

theorem Keeps.trans {c d e : Channel} (h : Keeps c d) (h' : Keeps d e) : Keeps c e := by
  obtain ⟨hu, es, hes, ha⟩ := h
  obtain ⟨hu', fs, hfs, hb⟩ := h'
  refine ⟨hu'.trans hu, es ++ fs, by rw [hfs, hes, List.append_assoc], fun x hx => ?_⟩
  rcases List.mem_append.1 hx with hx | hx
  · exact ha x hx
  · exact hb x hx

theorem ReadsOff.outgoing {octets : Bytes} {c c' : Channel} (h : ReadsOff octets c c') :
    c'.outgoing = c.outgoing := by
  rw [h.same]

theorem ReadsOff.sent {octets : Bytes} {c c' : Channel} (h : ReadsOff octets c c') :
    c'.socket.sent = c.socket.sent := by
  rw [h.same]
  rfl

theorem history_told (c : Channel) (event : Event) :
    (c.told event).history = c.history ++ [event] := by
  unfold history told
  rw [Array.toList_push]

theorem told_keeps {event : Event} (h : event.isAside = true) (c : Channel) :
    Keeps c (c.told event) :=
  ⟨rfl, [event], c.history_told event, by simpa using h⟩

theorem flush_apply (c : Channel) :
    flush c =
      if c.outgoing = [] then .ok () c
      else if c.socket.faults.write then
        .error (.failed (.socket (.writing .brokenPipe))) { c with outgoing := [] }
      else
        let written := { c with outgoing := [], socket := c.socket.write c.outgoing }
        if c.socket.faults.flush then .error (.failed (.socket (.flushing .brokenPipe))) written
        else .ok () written := by
  unfold flush
  rw [bind_of_ok (get_apply c)]
  simp only [List.isEmpty_iff]
  by_cases hempty : c.outgoing = []
  · rw [if_pos hempty, if_pos hempty]
    rfl
  · rw [if_neg hempty, if_neg hempty]
    cases hwrite : c.socket.faults.write <;> cases hflush : c.socket.faults.flush <;> rfl

theorem flush_keeps : Obeys (fun c _ c' => Keeps c c') flush := by
  intro c
  have hwritten : ∀ octets,
      ({ c with outgoing := [], socket := c.socket.write octets } : Channel).unread = c.unread :=
    fun octets => congrArg (c.buffer ++ ·) (c.socket.inbound_write octets)
  rw [flush_apply]
  split
  · exact .refl c
  · split
    · exact .of_journal rfl rfl
    · simp only []
      split <;> exact .of_journal (hwritten _) rfl

theorem close_apply (c : Channel) :
    close c =
      if c.socket.faults.shutdown then
        .error (.failed (.socket (.closing .notConnected))) { c with outgoing := [] }
      else .ok () { c with outgoing := [], socket := { c.socket with isShut := true } } := by
  unfold close
  rw [bind_of_ok (modify_apply _ c), bind_of_ok (get_apply _)]
  simp only []
  split <;> rfl

theorem close_keeps : Obeys (fun c _ c' => Keeps c c') close := by
  intro c
  rw [close_apply]
  split <;> exact .of_journal rfl rfl

theorem flush_ok {c c' : Channel} (h : flush c = .ok () c') :
    c'.outgoing = [] ∧ c'.socket.sent = c.socket.sent ++ c.outgoing ∧ c'.charset = c.charset := by
  rw [flush_apply] at h
  split at h
  · next hempty =>
      cases h
      exact ⟨hempty, by rw [hempty, List.append_nil], rfl⟩
  · split at h
    · cases h
    · simp only [] at h
      split at h
      · cases h
      · cases h
        exact ⟨rfl, c.socket.sent_write _, rfl⟩

theorem flush_error {c c' : Channel} {halt : Halt} (h : flush c = .error halt c') :
    ∃ e, halt = .failed e ∧ e.isFatal = true ∧
      (c.socket.faults.write = true ∨ c.socket.faults.flush = true) := by
  rw [flush_apply] at h
  split at h
  · cases h
  · split at h
    · next hwrite =>
        cases h
        exact ⟨_, rfl, rfl, .inl hwrite⟩
    · simp only [] at h
      split at h
      · next hflush =>
          cases h
          exact ⟨_, rfl, rfl, .inr hflush⟩
      · cases h

theorem flush_ends (c : Channel) : halt? (flush c) ≠ some .waiting := by
  cases h : flush c with
  | ok _ c' => nofun
  | error halt c' =>
      obtain ⟨e, rfl, -⟩ := flush_error h
      nofun

theorem close_ends (c : Channel) : halt? (close c) ≠ some .waiting := by
  rw [close_apply]
  split <;> nofun

theorem send_keeps (octets : Bytes) : Obeys (fun c _ c' => Keeps c c') (send octets) :=
  fun _ => .of_journal rfl rfl

end Channel

/-- The server's memory as a session keeps track of it: which statements it
holds and which names are still to be closed. -/
structure Ledger where
  statements : Cache StatementKey Statement
  pendingClose : List String
  epoch : Nat
  nextName : Nat

namespace Session

def ledger (s : Session) : Ledger :=
  { statements := s.statements, pendingClose := s.pendingClose, epoch := s.epoch,
    nextName := s.nextName }

def history (s : Session) : List Event :=
  s.channel.history

/-- Neither what there is to read nor anything about names has changed. -/
structure Keeps (s s' : Session) : Prop where
  channel : s.channel.Keeps s'.channel
  ledger : s'.ledger = s.ledger
  options : s'.options = s.options
  forgets : s'.forgetsOnDrop = s.forgetsOnDrop

theorem Keeps.refl (s : Session) : Keeps s s :=
  ⟨.refl _, rfl, rfl, rfl⟩

theorem Keeps.trans {s t u : Session} (h : Keeps s t) (h' : Keeps t u) : Keeps s u :=
  ⟨h.channel.trans h'.channel, h'.ledger.trans h.ledger, h'.options.trans h.options,
    h'.forgets.trans h.forgets⟩

theorem keeps_composes : Composes fun s (_ : Option Halt) s' => Keeps s s' where
  refl := Keeps.refl
  trans := Keeps.trans

theorem onChannel_keeps {α : Type} {x : Exchange Channel α}
    (hx : Obeys (fun c _ c' => c.Keeps c') x) : Obeys (fun s _ s' => Keeps s s') (onChannel x) :=
  hx.zoom fun _ _ _ hc => ⟨hc, rfl, rfl, rfl⟩

section

variable {α : Type} {x : Exchange Channel α} {s s' : Session} {a : α} {halt : Halt}

theorem onChannel_apply (x : Exchange Channel α) (s : Session) :
    onChannel x s = match x s.channel with
      | .ok a c => .ok a { s with channel := c }
      | .error halt c => .error halt { s with channel := c } := by
  unfold onChannel
  rw [zoom_apply]
  cases x s.channel <;> rfl

theorem final_onChannel (x : Exchange Channel α) (s : Session) :
    final (onChannel x s) = { s with channel := final (x s.channel) } :=
  final_zoom ..

theorem onChannel_of_ok {c : Channel} (h : x s.channel = .ok a c) :
    onChannel x s = .ok a { s with channel := c } :=
  zoom_of_ok h

theorem onChannel_of_error {c : Channel} (h : x s.channel = .error halt c) :
    onChannel x s = .error halt { s with channel := c } :=
  zoom_of_error h

theorem onChannel_ok (h : onChannel x s = .ok a s') :
    ∃ c, x s.channel = .ok a c ∧ s' = { s with channel := c } :=
  zoom_ok h

theorem onChannel_error (h : onChannel x s = .error halt s') :
    ∃ c, x s.channel = .error halt c ∧ s' = { s with channel := c } :=
  zoom_error h

end

theorem attempt_keeps {α : Type} {x : Exchange Session α}
    (hx : Obeys (fun s _ s' => Keeps s s') x) : Obeys (fun s _ s' => Keeps s s') x.attempt := by
  intro s
  rw [final_attempt]
  exact hx s

theorem record_apply (event : Event) (s : Session) :
    record event s = .ok () { s with channel := s.channel.told event } := rfl

theorem record_keeps {event : Event} (h : event.isAside = true) :
    Obeys (fun s _ s' => Keeps s s') (record event) :=
  onChannel_keeps fun c => c.told_keeps h

theorem markClosed_apply (how : String) (s : Session) :
    markClosed how s = .ok ()
      { s with isClosed := true, channel := s.channel.told (.disconnected how s.party) } := rfl

theorem markClosed_keeps (how : String) : Obeys (fun s _ s' => Keeps s s') (markClosed how) :=
  fun s => ⟨s.channel.told_keeps rfl, rfl, rfl, rfl⟩

/-! ## Operations that do not look at what there is to read, or what was told -/

/-- The session with other octets to read. -/
def refill (s : Session) (buffer inbound : Bytes) : Session :=
  { s with channel := s.channel.refill buffer inbound }

/-- The session with nothing to read and nothing to tell: without a journal, and without what the
server reported of errors and warnings. -/
def bare (s : Session) : Session :=
  { s with
    channel := { s.channel with
      buffer := []
      socket := { s.channel.socket with inbound := [], handshake := .fails "" }
      journal := #[] }
    status := { s.status with warnings := [] }
    failCause := none }

/-- A law of everything that is put together without a look at more than the bare session. -/
structure Assembles (P : ∀ {α : Type}, Exchange Session α → Prop) : Prop where
  pure : ∀ {α : Type} (a : α), P (pure a : Exchange Session α)
  bind : ∀ {α β : Type} {x : Exchange Session α} {f : α → Exchange Session β}, P x →
    (∀ a, P (f a)) → P (x >>= f)
  ask : ∀ {α : Type} {f : Session → Exchange Session α},
    (∀ s, f s.bare = f s) → (∀ s, P (f s)) → P (get >>= f)

theorem assembles_of_composes {R : Session → Option Halt → Session → Prop} (hR : Composes R) :
    Assembles (Obeys R) where
  pure a := hR.pure a
  bind hx hf := hR.bind hx hf
  ask _ hf := hR.bind hR.get hf

/-! ## Ending a session -/

/-- A law of everything that the ending of a session without a word is made of. -/
structure Lapses (P : ∀ {α : Type}, Exchange Session α → Prop) : Prop extends Assembles P where
  told : ∀ event : Event, event.isAside = true → P (record event)
  shuts : P (onChannel Channel.close).attempt
  marks : ∀ how, P (markClosed how)

/-- The same for an orderly ending. -/
structure Endures (P : ∀ {α : Type}, Exchange Session α → Prop) : Prop extends Lapses P where
  sends : ∀ octets, P (onChannel (Channel.send octets))
  flushes : P (onChannel Channel.flush).attempt

section

variable {P : ∀ {α : Type}, Exchange Session α → Prop}

theorem Lapses.shut (hP : Lapses P) : P shut := by
  refine hP.bind hP.shuts fun r => ?_
  cases r with
  | ok _ => exact hP.marks _
  | error e => exact hP.bind (hP.told _ rfl) fun _ => hP.marks _

theorem Lapses.abort (hP : Lapses P) : P abort := by
  have hmark : P (do unless (← get).isClosed do markClosed "terminated") := by
    refine hP.ask (fun _ => rfl) fun s => ?_
    split
    · exact hP.pure _
    · exact hP.marks _
  refine hP.bind hP.shuts fun r => ?_
  cases r with
  | ok _ => exact hmark
  | error e => exact hP.bind (hP.told _ rfl) fun _ => hmark

theorem Endures.hangUp (hP : Endures P) : P hangUp := by
  refine hP.bind hP.flushes fun r => ?_
  cases r with
  | ok _ => exact hP.shut
  | error e => exact hP.bind (hP.told _ rfl) fun _ => hP.shut

theorem Endures.close (hP : Endures P) : P close := by
  refine hP.ask (fun _ => rfl) fun s => ?_
  split
  · exact hP.pure _
  · exact hP.bind (hP.told _ rfl) fun _ => hP.bind (hP.sends _) fun _ => hP.hangUp

theorem Assembles.checkFatal (hP : Assembles P)
    (htold : ∀ event : Event, event.isAside = true → P (record event))
    (habort : P Session.abort) {α : Type} (result : Except Error α) : P (checkFatal result) := by
  cases result with
  | ok a => exact hP.pure _
  | error e =>
      refine hP.ask (fun _ => rfl) fun s => ?_
      split
      · exact hP.ask (fun _ => rfl) fun s => hP.bind (htold _ rfl) fun _ => habort
      · exact hP.pure _

end

theorem keeps_endures : Endures (Obeys fun s _ s' => Keeps s s') where
  toAssembles := assembles_of_composes keeps_composes
  told _ h := record_keeps h
  sends octets := onChannel_keeps (Channel.send_keeps octets)
  flushes := attempt_keeps (onChannel_keeps Channel.flush_keeps)
  shuts := attempt_keeps (onChannel_keeps Channel.close_keeps)
  marks := markClosed_keeps

theorem close_keeps : Obeys (fun s _ s' => Keeps s s') close :=
  keeps_endures.close

theorem abort_keeps : Obeys (fun s _ s' => Keeps s s') abort :=
  keeps_endures.abort

/-- Every run ends with a value, in a state of this kind. -/
def Reaches {σ α : Type} (P : σ → Prop) (x : Exchange σ α) : Prop :=
  ∀ s, ∃ a t, x s = .ok a t ∧ P t

theorem Reaches.final {σ α : Type} {P : σ → Prop} {x : Exchange σ α} (hx : Reaches P x) (s : σ) :
    P (final (x s)) := by
  obtain ⟨a, t, ht, hP⟩ := hx s
  rw [ht]
  exact hP

theorem Reaches.bind {σ α β : Type} {P Q : σ → Prop} {x : Exchange σ α} {f : α → Exchange σ β}
    (hx : Reaches Q x) (hf : ∀ a, Reaches P (f a)) : Reaches P (x >>= f) := by
  intro s
  obtain ⟨a, t, ht, -⟩ := hx s
  obtain ⟨b, u, hu, hP⟩ := hf a t
  exact ⟨b, u, (bind_of_ok ht).trans hu, hP⟩

/-- An operation that never waits has a value or an error to show. -/
theorem reaches_attempt {x : Exchange Channel Unit} (hx : ∀ c, halt? (x c) ≠ some .waiting) :
    Reaches (fun _ => True) (onChannel x).attempt := by
  intro s
  have hwait := halt?_zoom channel (fun c s => { s with channel := c }) x s
  cases h : onChannel x s with
  | ok a t => exact ⟨_, t, attempt_of_ok h, trivial⟩
  | error halt t =>
      cases halt with
      | failed e => exact ⟨_, t, attempt_of_failed h, trivial⟩
      | waiting =>
          rw [show zoom channel _ x s = _ from h] at hwait
          exact absurd hwait.symm (hx _)

theorem record_reaches (event : Event) : Reaches (fun _ : Session => True) (record event) :=
  fun s => ⟨_, _, record_apply event s, trivial⟩

theorem markClosed_reaches (how : String) :
    Reaches (fun s : Session => s.isClosed = true) (markClosed how) :=
  fun s => ⟨_, _, markClosed_apply how s, rfl⟩

theorem close_reaches : Reaches (fun s : Session => s.isClosed = true) close := by
  have hmark := markClosed_reaches "closed"
  have hshut : Reaches (fun s : Session => s.isClosed = true) shut := by
    refine (reaches_attempt Channel.close_ends).bind fun r => ?_
    cases r with
    | ok _ => exact hmark
    | error e => exact (record_reaches _).bind fun _ => hmark
  intro s
  unfold close
  rw [bind_of_ok (get_apply s)]
  split
  · next hclosed => exact ⟨(), s, rfl, hclosed⟩
  · refine (record_reaches _).bind (fun _ => ?_) s
    refine Reaches.bind (Q := fun _ => True) (fun s => ⟨_, _, rfl, trivial⟩) fun _ => ?_
    refine (reaches_attempt Channel.flush_ends).bind fun r => ?_
    cases r with
    | ok _ => exact hshut
    | error e => exact (record_reaches _).bind fun _ => hshut

theorem abort_reaches : Reaches (fun s : Session => s.isClosed = true) abort := by
  have hmark : Reaches (fun s : Session => s.isClosed = true) (do
      unless (← get).isClosed do markClosed "terminated") := by
    intro s
    rw [bind_of_ok (get_apply s)]
    split
    · next hclosed => exact ⟨(), s, rfl, hclosed⟩
    · exact markClosed_reaches _ s
  refine (reaches_attempt Channel.close_ends).bind fun r => ?_
  cases r with
  | ok _ => exact hmark
  | error e => exact (record_reaches _).bind fun _ => hmark

/-- An error the session cannot survive leaves it closed. -/
theorem checkFatal_fatal {α : Type} {e : Error} (h : e.isFatal = true) (s : Session) :
    ∃ s', checkFatal (α := α) (.error e) s = .ok () s' ∧ s'.isClosed = true ∧ Keeps s s' := by
  unfold checkFatal
  simp only []
  rw [bind_of_ok (get_apply s)]
  cases hclosed : s.isClosed with
  | true => exact ⟨s, by rw [h]; rfl, hclosed, .refl s⟩
  | false =>
      simp only [h, Bool.not_false, Bool.and_self, if_true]
      rw [bind_of_ok (get_apply s), bind_of_ok (record_apply _ s)]
      obtain ⟨_, s', hs', hc⟩ := abort_reaches { s with
        channel := s.channel.told (.unusable s.party e) }
      exact ⟨s', hs', hc, ((record_keeps rfl).ok (record_apply _ s)).trans (abort_keeps.ok hs')⟩

/-- Any other result leaves it alone. -/
theorem checkFatal_mild {α : Type} {result : Except Error α}
    (h : ∀ e, result = .error e → e.isFatal = false) (s : Session) :
    checkFatal result s = .ok () s := by
  unfold checkFatal
  cases result with
  | ok a => rfl
  | error e =>
      simp only []
      rw [bind_of_ok (get_apply s), h e rfl]
      rfl

/-! ## Taking a message in -/

/-- What the handling of a message may do besides what the message is for. -/
structure Aside (s : Session) (h : Option Halt) (s' : Session) : Prop where
  keeps : Keeps s s'
  quiet : s'.isClosed = false → s.isClosed = false ∧ s'.channel.outgoing = s.channel.outgoing ∧
    s'.channel.socket.sent = s.channel.socket.sent
  calm : h = none → s'.isClosed = s.isClosed
  fatal : ∀ x, h = some x → ∃ e, x = .failed e ∧ e.isFatal = true

theorem aside_composes : Composes Aside where
  refl s := ⟨.refl s, fun h => ⟨h, rfl, rfl⟩, fun _ => rfl, nofun⟩
  trans := by
    rintro s t u h ⟨hk, hq, hc, -⟩ ⟨hk', hq', hc', hf'⟩
    refine ⟨hk.trans hk', fun hopen => ?_, fun hn => (hc' hn).trans (hc rfl), hf'⟩
    obtain ⟨hto, hout, hsent⟩ := hq' hopen
    obtain ⟨hso, hout', hsent'⟩ := hq hto
    exact ⟨hso, hout.trans hout', hsent.trans hsent'⟩

/-- A change to what the session was told about is nothing but an aside. -/
theorem modify_aside {f : Session → Session}
    (hchannel : ∀ s, (f s).channel = s.channel) (hledger : ∀ s, (f s).ledger = s.ledger)
    (hoptions : ∀ s, (f s).options = s.options)
    (hforgets : ∀ s, (f s).forgetsOnDrop = s.forgetsOnDrop)
    (hclosed : ∀ s, (f s).isClosed = s.isClosed) :
    Obeys Aside (modify f : Exchange Session PUnit) := by
  intro s
  rw [modify_apply, final_ok, halt?_ok]
  refine ⟨⟨?_, hledger s, hoptions s, hforgets s⟩, fun h => ?_, fun _ => hclosed s, fun x hx => ?_⟩
  · rw [hchannel]
    exact .refl _
  · rw [hchannel]
    exact ⟨(hclosed s).symm.trans h, rfl, rfl⟩
  · cases hx

theorem fail_aside {α : Type} {e : Error} (h : e.isFatal = true) :
    Obeys Aside (fail e : Exchange Session α) := by
  intro s
  rw [fail_apply, final_error, halt?_error]
  refine ⟨.refl s, fun hopen => ⟨hopen, rfl, rfl⟩, fun hnone => ?_, fun x hx => ?_⟩
  · cases hnone
  · cases hx
    exact ⟨e, rfl, h⟩

theorem record_aside {event : Event} (h : event.isAside = true) :
    Obeys Aside (record event) := by
  intro s
  have hkeeps := (record_keeps h).ok (record_apply event s)
  rw [record_apply, final_ok, halt?_ok]
  refine ⟨hkeeps, fun hopen => ⟨hopen, rfl, rfl⟩, fun _ => rfl, fun x hx => ?_⟩
  cases hx

/-- Taking leave closes the session, so that what it sent no longer matters. -/
theorem leave_aside {α : Type} (cause : LinkFault) : Obeys Aside (leave (α := α) cause) := by
  intro s
  obtain ⟨_, s', hs', hclosed⟩ := close_reaches s
  have hfail : leave (α := α) cause s = .error (.failed (.connectionFailure cause)) s' := by
    unfold leave
    rw [bind_of_ok hs']
    rfl
  rw [hfail, halt?_error, final_error]
  refine ⟨close_keeps.ok hs', fun hopen => ?_, fun hnone => ?_, fun x hx => ?_⟩
  · rw [hclosed] at hopen
    cases hopen
  · cases hnone
  · cases hx
    exact ⟨_, rfl, rfl⟩

/-- A change to nothing but the settings the server reports, whatever the channel is like. -/
structure IsSetting (f : Session → Session) : Prop where
  settings : ∀ s, f s = { s with
    status := { s.status with conformingStrings := (f s).status.conformingStrings }
    timeZone := (f s).timeZone
    applicationName := (f s).applicationName
    serverVersion := (f s).serverVersion
    serverVersionNumber := (f s).serverVersionNumber
    integerDatetimes := (f s).integerDatetimes }
  blind : ∀ s c, f { s with channel := c } = { f s with channel := c }
  bare : ∀ s, f s.bare = (f s).bare

/-- A law of everything that is done about a reported setting. -/
structure Governs (P : ∀ {α : Type}, Exchange Session α → Prop) : Prop extends Assembles P where
  told : ∀ event : Event, event.isAside = true → P (record event)
  recodes : ∀ charset, P (onChannel (Channel.setCharset charset))
  sets : ∀ f, IsSetting f → P (modify f : Exchange Session PUnit)
  leaves : ∀ cause, P (leave cause : Exchange Session Unit)
  fails : ∀ e : Error, e.isFatal = true → P (fail e : Exchange Session Unit)

theorem Governs.onSetting {P : ∀ {α : Type}, Exchange Session α → Prop} (hP : Governs P)
    (name value : String) : P (onSetting name value) := by
  have hset : ∀ {f : Session → Session}, IsSetting f → P (modify f : Exchange Session PUnit) :=
    fun h => hP.sets _ h
  unfold Session.onSetting
  split
  · unfold onEncoding
    simp only []
    refine hP.ask (fun _ => rfl) fun s => ?_
    split
    · split
      · exact hP.recodes _
      · exact hP.bind (hP.told _ rfl) fun _ => hP.recodes _
    · split
      · exact hP.pure _
      · exact hP.leaves _
  · split
    · exact hP.pure _
    · exact hP.leaves _
  · split
    · exact hset ⟨fun _ => rfl, fun _ _ => rfl, fun _ => rfl⟩
    · exact hP.leaves _
  · exact hset ⟨fun _ => rfl, fun _ _ => rfl, fun _ => rfl⟩
  · exact hset ⟨fun _ => rfl, fun _ _ => rfl, fun _ => rfl⟩
  · split
    · exact hset ⟨fun _ => rfl, fun _ _ => rfl, fun _ => rfl⟩
    · exact hP.fails _ rfl
  · exact hset ⟨fun _ => rfl, fun _ _ => rfl, fun _ => rfl⟩
  · split
    · exact hset ⟨fun _ => rfl, fun _ _ => rfl, fun _ => rfl⟩
    · exact hP.fails _ rfl
  · exact hP.pure _

theorem setCharset_apply (charset : Charset) (s : Session) :
    onChannel (Channel.setCharset charset) s = .ok () { s with
      channel := { s.channel.told (.charsetSet s.channel.host charset) with charset } } := rfl

theorem setCharset_aside (charset : Charset) :
    Obeys Aside (onChannel (Channel.setCharset charset)) := by
  intro s
  rw [setCharset_apply, final_ok, halt?_ok]
  refine ⟨⟨⟨rfl, _, s.channel.history_told _, ?_⟩, rfl, rfl, rfl⟩,
    fun hopen => ⟨hopen, rfl, rfl⟩, fun _ => rfl, fun x hx => ?_⟩
  · exact List.forall_mem_singleton.2 rfl
  · cases hx

theorem aside_governs : Governs (Obeys Aside) where
  toAssembles := assembles_of_composes aside_composes
  told _ h := record_aside h
  recodes := setCharset_aside
  sets _ h := modify_aside (fun s => by rw [h.settings s]) (fun s => by rw [h.settings s]; rfl)
    (fun s => by rw [h.settings s]) (fun s => by rw [h.settings s]) fun s => by rw [h.settings s]
  leaves := leave_aside
  fails _ h := fail_aside h

theorem onParameter_aside (name value : String) : Obeys Aside (onParameter name value) := by
  have hsetting := aside_governs.onSetting name value
  unfold onParameter
  split
  · exact hsetting
  · exact aside_composes.bind
      (modify_aside (fun _ => rfl) (fun _ => rfl) (fun _ => rfl) (fun _ => rfl) fun _ => rfl)
      fun _ => hsetting

theorem onWarning_aside (report : Report) : Obeys Aside (onWarning report) :=
  modify_aside (fun _ => rfl) (fun _ => rfl) (fun _ => rfl) (fun _ => rfl) fun _ => rfl

theorem onNotification_aside (notification : Notification) :
    Obeys Aside (onNotification notification) :=
  modify_aside (fun _ => rfl) (fun _ => rfl) (fun _ => rfl) (fun _ => rfl) fun _ => rfl

/-- The letters of the states a transaction can be in. -/
def IsStatus (status : UInt8) : Prop :=
  status = 0x49 ∨ status = 0x54 ∨ status = 0x45

theorem onReady_aside (status : UInt8) : Obeys Aside (onReady status) := by
  unfold onReady
  simp only []
  split
  · exact modify_aside (fun _ => rfl) (fun _ => rfl) (fun _ => rfl) (fun _ => rfl) fun _ => rfl
  · exact modify_aside (fun _ => rfl) (fun _ => rfl) (fun _ => rfl) (fun _ => rfl) fun _ => rfl
  · exact modify_aside (fun _ => rfl) (fun _ => rfl) (fun _ => rfl) (fun _ => rfl) fun _ => rfl
  · exact fail_aside rfl

theorem onReady_ok {status : UInt8} {s s' : Session} (h : onReady status s = .ok () s') :
    IsStatus status := by
  unfold onReady at h
  simp only [] at h
  generalize hletter : Char.ofNat status.toNat = letter at h
  split at h
  · exact .inl (charOfNat_toNat_inj hletter)
  · exact .inr (.inl (charOfNat_toNat_inj hletter))
  · exact .inr (.inr (charOfNat_toNat_inj hletter))
  · cases h

/-- An error that was reported is told to the caller as it came, whatever is
remembered about an earlier one. -/
theorem onError_ok (report : Report) (s : Session) :
    ∃ e s', onError report s = .ok e s' ∧ e.report = report ∧ Aside s none s' := by
  unfold onError
  rw [bind_of_ok (get_apply s)]
  cases hcause : s.failCause with
  | none =>
      refine ⟨.first report s.options.showErrorDetail,
        { s with failCause := some (.first report s.options.showErrorDetail) }, rfl, rfl, ?_⟩
      exact ⟨⟨.refl _, rfl, rfl, rfl⟩, fun h => ⟨h, rfl, rfl⟩, fun _ => rfl, nofun⟩
  | some cause =>
      exact ⟨.after report s.options.showErrorDetail cause, s, rfl, rfl, aside_composes.refl s⟩

end Session

end PgClient
