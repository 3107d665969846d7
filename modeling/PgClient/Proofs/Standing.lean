import Mathlib.Data.List.DropRight
import PgClient.Proofs.Calls
import PgClient.Proofs.Custody
import PgClient.Proofs.Opening
import PgClient.Proofs.Reports

/-!
# Where a session stands

A session keeps three things that nobody but the server decides: the state of the
transaction, the error that made it fail, and the settings the server reported.
`Standing.on` says what one message does to them. `Learns` says that this is all
that is ever done to them: what was received is in the journal, and the standing
is that of the messages, one after the other, wherever a run breaks off.

The same is then said without going through the messages one by one. The state of
the transaction is the one reported last, and the error that made it fail is the
first one since a state that is not a failure was reported. So an error names as
its cause the first error of the failed transaction, and that one has no cause.
-/

namespace PgClient

open Exchange

/-! ## What messages say about the transaction -/

namespace BackendMessage

/-- The state of the transaction that a message reports. A letter that stands for
no state reports nothing. -/
def transaction? : BackendMessage → Option TransactionState
  | .readyForQuery status =>
    if status = 0x49 then some .idle
    else if status = 0x54 then some .active
    else if status = 0x45 then some .failed
    else none
  | _ => none

/-- Whether a message reports a transaction that has not failed. -/
def settles (m : BackendMessage) : Bool :=
  m.transaction?.any (· ≠ .failed)

/-- The settings after a message. -/
def parametersAfter (parameters : Parameters) : BackendMessage → Parameters
  | .parameterStatus name value =>
    if name.isEmpty then parameters else parameters.insert name value
  | _ => parameters

end BackendMessage

/-- The state of the transaction after messages. -/
def transactionOf (ms : List BackendMessage) : TransactionState :=
  (ms.filterMap BackendMessage.transaction?).getLast?.getD .idle

/-- The messages since the last one that reported a transaction that has not failed. -/
def sinceSettled (ms : List BackendMessage) : List BackendMessage :=
  ms.rtakeWhile (!·.settles)

/-- The error that made the transaction fail. -/
def causeOf (showDetail : Bool) (ms : List BackendMessage) : Option ServerError :=
  (reportsOf (sinceSettled ms)).head?.map (.first · showDetail)

/-- The errors that messages are handed on as, if others came before. -/
def errorsAfter (showDetail : Bool) :
    List BackendMessage → List BackendMessage → List ServerError
  | _, [] => []
  | before, m :: ms =>
    (m.report?.map (BackendMessage.reported showDetail (causeOf showDetail before))).toList ++
      errorsAfter showDetail (before ++ [m]) ms

/-- What the server alone decides about a session. -/
structure Standing where
  transaction : TransactionState := .idle
  failCause : Option ServerError := none
  parameters : Parameters := []

namespace Standing

/-- The standing after a message. -/
def on (showDetail : Bool) (o : Standing) (m : BackendMessage) : Standing where
  transaction := m.transaction?.getD o.transaction
  failCause := if m.settles then none else m.causeAfter showDetail o.failCause
  parameters := m.parametersAfter o.parameters

/-- The errors that messages are handed on as. -/
def errors (showDetail : Bool) : Standing → List BackendMessage → List ServerError
  | _, [] => []
  | o, m :: ms =>
    (m.report?.map (BackendMessage.reported showDetail o.failCause)).toList ++
      (o.on showDetail m).errors showDetail ms

theorem errors_append (d : Bool) (o : Standing) (ms ms' : List BackendMessage) :
    o.errors d (ms ++ ms') = o.errors d ms ++ (ms.foldl (on d) o).errors d ms' := by
  induction ms generalizing o with
  | nil => rfl
  | cons m ms ih =>
      rw [List.cons_append, errors, errors, ih, List.append_assoc]
      rfl

end Standing

/-! ## The same of whole histories -/

theorem transactionOf_append (ms : List BackendMessage) (m : BackendMessage) :
    transactionOf (ms ++ [m]) = m.transaction?.getD (transactionOf ms) := by
  unfold transactionOf
  rw [List.filterMap_append]
  cases hm : m.transaction? with
  | none => rw [List.filterMap_cons_none hm, List.filterMap_nil, List.append_nil]; rfl
  | some state => rw [List.filterMap_cons_some hm, List.filterMap_nil, List.getLast?_concat]; rfl

theorem sinceSettled_append (ms : List BackendMessage) (m : BackendMessage) :
    sinceSettled (ms ++ [m]) = if m.settles then [] else sinceSettled ms ++ [m] := by
  unfold sinceSettled
  rw [List.rtakeWhile_concat]
  cases m.settles <;> rfl

theorem causeOf_append (d : Bool) (ms : List BackendMessage) (m : BackendMessage) :
    causeOf d (ms ++ [m]) = if m.settles then none else m.causeAfter d (causeOf d ms) := by
  unfold causeOf
  rw [sinceSettled_append]
  cases m.settles with
  | true => rfl
  | false =>
      have happend : reportsOf (sinceSettled ms ++ [m]) =
          reportsOf (sinceSettled ms) ++ reportsOf [m] := List.filterMap_append
      simp only [Bool.false_eq_true, if_false, happend]
      cases m with
      | errorResponse report => cases reportsOf (sinceSettled ms) <;> rfl
      | _ => exact congrArg _ (congrArg List.head? (List.append_nil _))

/-- Going through the messages one by one comes to the same. -/
theorem foldl_standing (d : Bool) (ms : List BackendMessage) :
    (ms.foldl (Standing.on d) {}).transaction = transactionOf ms ∧
      (ms.foldl (Standing.on d) {}).failCause = causeOf d ms := by
  induction ms using List.reverseRecOn with
  | nil => exact ⟨rfl, rfl⟩
  | append_singleton ms m ih =>
      rw [List.foldl_append, transactionOf_append, causeOf_append, ← ih.1, ← ih.2]
      exact ⟨rfl, rfl⟩

theorem errors_foldl (d : Bool) (before ms : List BackendMessage) :
    (before.foldl (Standing.on d) {}).errors d ms = errorsAfter d before ms := by
  induction ms generalizing before with
  | nil => rfl
  | cons m ms ih =>
      rw [errorsAfter, ← ih, ← (foldl_standing d before).2, List.foldl_append]
      rfl

/-- The error that made a transaction fail has no cause of its own. -/
theorem causeOf_first {d : Bool} {ms : List BackendMessage} {cause : ServerError}
    (h : causeOf d ms = some cause) : ∃ report, cause = .first report d := by
  obtain ⟨report, -, rfl⟩ := Option.map_eq_some_iff.1 h
  exact ⟨report, rfl⟩

/-- An error was reported after messages: its cause is the first error of the
transaction, and the chain of causes ends there. -/
structure Blames (showDetail : Bool) (before : List BackendMessage) (report : Report)
    (e : ServerError) : Prop where
  words : e.report = report
  cause : e.cause? = causeOf showDetail before
  causes : ∀ cause ∈ e.causes, cause.causes = []
  chain : (e :: e.causes).length ≤ 2
  root : causeOf showDetail (before ++ [.errorResponse report]) = some e.rootCause

theorem reported_blames (d : Bool) (before : List BackendMessage) (report : Report) :
    Blames d before report (BackendMessage.reported d (causeOf d before) report) := by
  have hroot := causeOf_append d before (.errorResponse report)
  cases hcause : causeOf d before with
  | none =>
      rw [hcause] at hroot
      exact ⟨rfl, hcause.symm, nofun, Nat.le_succ 1, hroot⟩
  | some cause =>
      rw [hcause] at hroot
      obtain ⟨first, rfl⟩ := causeOf_first hcause
      refine ⟨rfl, hcause.symm, ?_, Nat.le_refl 2, hroot⟩
      intro cause hmem
      rw [List.mem_singleton.1 hmem]
      rfl

/-- Every error that is handed on is that of a message among those received. -/
theorem errorsAfter_blames {d : Bool} {before ms : List BackendMessage} {e : ServerError}
    (h : e ∈ errorsAfter d before ms) : ∃ front report back,
      ms = front ++ .errorResponse report :: back ∧ Blames d (before ++ front) report e := by
  induction ms generalizing before with
  | nil => cases h
  | cons m ms ih =>
      rcases List.mem_append.1 h with hm | hms
      · cases m with
        | errorResponse report =>
            refine ⟨[], report, ms, rfl, ?_⟩
            rw [List.append_nil, List.mem_singleton.1 hm]
            exact reported_blames d before report
        | _ => cases hm
      · obtain ⟨front, report, back, rfl, hblames⟩ := ih hms
        refine ⟨m :: front, report, back, rfl, ?_⟩
        rwa [List.append_assoc] at hblames

namespace Session

/-! ## What leaves the standing alone -/

def standing (s : Session) : Standing :=
  { transaction := s.status.transaction, failCause := s.failCause, parameters := s.parameters }

/-- The standing is what it was. -/
def Unmoved (s : Session) (_ : Option Halt) (s' : Session) : Prop :=
  s'.standing = s.standing

theorem unmoved_composes : Composes Unmoved where
  refl _ := rfl
  trans h h' := Eq.trans h' h

theorem fail_unmoved {α : Type} (e : Error) : Obeys Unmoved (fail e : Exchange Session α) :=
  fun _ => rfl

theorem onChannel_unmoved {α : Type} (x : Exchange Channel α) : Obeys Unmoved (onChannel x) := by
  intro s
  rw [final_onChannel]
  rfl

theorem attempt_unmoved {α : Type} {x : Exchange Session α} (hx : Obeys Unmoved x) :
    Obeys Unmoved x.attempt := by
  intro s
  rw [final_attempt]
  exact hx s

theorem record_unmoved (event : Event) : Obeys Unmoved (record event) :=
  onChannel_unmoved _

theorem markClosed_unmoved (how : String) : Obeys Unmoved (markClosed how) :=
  fun _ => rfl

theorem unmoved_endures : Endures (Obeys Unmoved) where
  toAssembles := assembles_of_composes unmoved_composes
  told event _ := record_unmoved event
  sends _ := onChannel_unmoved _
  flushes := attempt_unmoved (onChannel_unmoved _)
  shuts := attempt_unmoved (onChannel_unmoved _)
  marks := markClosed_unmoved

theorem checkFatal_unmoved {α : Type} (result : Except Error α) :
    Obeys Unmoved (checkFatal result) :=
  unmoved_endures.toAssembles.checkFatal (fun event _ => record_unmoved event) unmoved_endures.abort
    result

theorem leave_unmoved {α : Type} (cause : LinkFault) : Obeys Unmoved (leave (α := α) cause) :=
  unmoved_composes.bind unmoved_endures.close fun _ => fail_unmoved _

theorem unmoved_governs : Governs (Obeys Unmoved) where
  toAssembles := assembles_of_composes unmoved_composes
  told event _ := record_unmoved event
  recodes _ := onChannel_unmoved _
  sets _ h s := by
    rw [modify_apply, final_ok, Unmoved, h.settings s]
    rfl
  leaves := leave_unmoved
  fails e _ := fail_unmoved e

/-! ## What was received -/

/-- Messages were received, and the standing is what they make of it. -/
structure Learns (s : Session) (ms : List BackendMessage) (s' : Session) : Prop where
  history : ∃ events, s'.history = s.history ++ events ∧ events.filterMap Event.message? = ms
  options : s'.options = s.options
  standing : s'.standing = ms.foldl (Standing.on s.options.showErrorDetail) s.standing

theorem Learns.refl (s : Session) : Learns s [] s :=
  ⟨⟨[], (List.append_nil _).symm, rfl⟩, rfl, rfl⟩

theorem Learns.trans {s t u : Session} {ms ms' : List BackendMessage} (h : Learns s ms t)
    (h' : Learns t ms' u) : Learns s (ms ++ ms') u := by
  obtain ⟨es, hes, rfl⟩ := h.history
  obtain ⟨fs, hfs, rfl⟩ := h'.history
  refine ⟨⟨es ++ fs, ?_, List.filterMap_append⟩, h'.options.trans h.options, ?_⟩
  · rw [hfs, hes, List.append_assoc]
  · rw [h'.standing, h.options, h.standing, List.foldl_append]

theorem Learns.trans_nil {s t u : Session} {ms : List BackendMessage} (h : Learns s ms t)
    (h' : Learns t [] u) : Learns s ms u := by
  have hboth := h.trans h'
  rwa [List.append_nil] at hboth

theorem Learns.of_keeps {s s' : Session} (h : Keeps s s') (hs : s'.standing = s.standing) :
    Learns s [] s' := by
  obtain ⟨events, hevents, haside⟩ := h.channel.history
  exact ⟨⟨events, hevents, filterMap_message?_of_isAside haside⟩, h.options, hs⟩

theorem Learns.of_prepares {s s' : Session} (h : Prepares s s') (hoptions : s'.options = s.options)
    (hs : s'.standing = s.standing) : Learns s [] s' :=
  ⟨h.history, hoptions, hs⟩

/-- A message was received, and nothing was made of it yet. -/
structure Receives (s : Session) (m : BackendMessage) (s' : Session) : Prop where
  history : s'.history = s.history ++ [.received m s.options.showErrorDetail]
  others : { s' with channel := s.channel } = s

theorem Reads.receives {phase : Phase} {s s' : Session} {m : BackendMessage}
    (h : Reads phase s m s') : Receives s m s' :=
  ⟨h.history, h.others⟩

theorem Receives.same {s s' : Session} {m : BackendMessage} (h : Receives s m s') :
    s'.options = s.options ∧ s'.standing = s.standing := by
  rw [← h.others]
  exact ⟨rfl, rfl⟩

theorem receives_of_receiveAfter {phase : Phase} (hphase : phase ≠ .login) {octet : UInt8}
    {s : Session} {m : BackendMessage} {c : Channel}
    (h : Channel.receiveAfter phase octet s.options.showErrorDetail s.channel = .ok m c) :
    phase.accepts m.tag = true ∧ Receives s m { s with channel := c } := by
  obtain ⟨-, haccepts, c₁, hread, rfl⟩ := Channel.receiveAfter_ok hphase h
  obtain ⟨octets, hoff⟩ := ((Channel.receiveMessage_reading _).ok hread).reads
  refine ⟨haccepts, (c₁.history_told _).trans ?_, rfl⟩
  exact congrArg (· ++ _) (congrArg Array.toList hoff.journal)

/-- Once it is made of a message what it is for, the session has learned it. -/
theorem Receives.learns {s s₁ s' : Session} {m : BackendMessage} (h : Receives s m s₁)
    (hkeeps : s₁.channel.Keeps s'.channel) (hoptions : s'.options = s₁.options)
    (hs : s'.standing = s₁.standing.on s₁.options.showErrorDetail m) : Learns s [m] s' := by
  obtain ⟨events, hevents, haside⟩ := hkeeps.history
  refine ⟨⟨.received m s.options.showErrorDetail :: events, ?_, ?_⟩,
    hoptions.trans h.same.1, ?_⟩
  · rw [show s'.history = s₁.history ++ events from hevents, h.history, List.append_assoc]
    rfl
  · rw [List.filterMap_cons, filterMap_message?_of_isAside haside]
    rfl
  · rw [hs, h.same.1, h.same.2]
    rfl

/-- What cannot be read is not a message. -/
theorem receive_unheard {phase : Phase} {s s' : Session} {halt : Halt}
    (h : receive phase s = .error halt s') :
    Learns s [] s' ∧ ∀ e, halt = .failed e → e.isFatal = true := by
  rw [receive_apply] at h
  obtain ⟨c', hc, rfl⟩ := onChannel_error h
  obtain ⟨c, hreading, hkept⟩ := Channel.receive_failed hc
  obtain ⟨octets, hoff⟩ := hreading.reads
  have hhistory : c.history = s.history := congrArg Array.toList hoff.journal
  refine ⟨?_, fun e he => hreading.fatal e (he ▸ rfl)⟩
  rcases hkept with rfl | ⟨octet, -, rfl⟩
  · exact ⟨⟨[], hhistory.trans (List.append_nil _).symm, rfl⟩, rfl, rfl⟩
  · refine ⟨⟨[.unexpectedAtStartup octet], ?_, rfl⟩, rfl, rfl⟩
    rw [← hhistory]
    exact c.history_told _

/-! ## What a message means -/

theorem onReady_standing (status : UInt8) :
    Obeys (fun s _ s' => s'.standing =
      s.standing.on s.options.showErrorDetail (.readyForQuery status)) (onReady status) := by
  intro s
  unfold onReady
  simp only []
  generalize hletter : Char.ofNat status.toNat = letter
  split
  · obtain rfl : status = 0x49 := charOfNat_toNat_inj hletter
    rfl
  · obtain rfl : status = 0x54 := charOfNat_toNat_inj hletter
    rfl
  · obtain rfl : status = 0x45 := charOfNat_toNat_inj hletter
    rfl
  · next hidle hactive hfailed =>
      have hnone : (BackendMessage.readyForQuery status).transaction? = none := by
        unfold BackendMessage.transaction?
        simp only []
        rw [if_neg, if_neg, if_neg]
        · rintro rfl
          exact hfailed hletter.symm
        · rintro rfl
          exact hactive hletter.symm
        · rintro rfl
          exact hidle hletter.symm
      unfold Standing.on BackendMessage.settles
      rw [hnone]
      rfl

theorem onParameter_standing (name value : String) :
    Obeys (fun s _ s' => s'.standing =
      s.standing.on s.options.showErrorDetail (.parameterStatus name value))
      (onParameter name value) := by
  intro s
  have hon : s.standing.on s.options.showErrorDetail (.parameterStatus name value) =
      { s.standing with parameters :=
          if name.isEmpty then s.parameters else s.parameters.insert name value } := rfl
  rw [hon]
  unfold onParameter
  split
  · exact unmoved_governs.onSetting name value s
  · rw [bind_of_ok (modify_apply _ s)]
    exact unmoved_governs.onSetting name value _

/-- The error of the server that an operation came to. -/
def Halt.serverError? : Halt → Option ServerError
  | .failed e => e.serverError?
  | .waiting => none

theorem Halt.serverError?_of_isFatal {e : Error} (h : e.isFatal = true) :
    serverError? (.failed e) = none := by
  cases e with
  | server error => cases h
  | _ => rfl

/-- An operation makes of a message what it is for. -/
structure Minds (m : BackendMessage) (s : Session) (h : Option Halt) (s' : Session) : Prop where
  channel : s.channel.Keeps s'.channel
  options : s'.options = s.options
  standing : s'.standing = s.standing.on s.options.showErrorDetail m
  errors : s.standing.errors s.options.showErrorDetail [m] = (h.bind Halt.serverError?).toList

theorem Minds.of_aside {m : BackendMessage} {s s' : Session} {h : Option Halt}
    (hm : m.report? = none) (ha : Aside s h s')
    (hs : s'.standing = s.standing.on s.options.showErrorDetail m) : Minds m s h s' := by
  refine ⟨ha.keeps.channel, ha.keeps.options, hs, ?_⟩
  have hnone : h.bind Halt.serverError? = none := by
    cases h with
    | none => rfl
    | some halt =>
        obtain ⟨e, rfl, hfatal⟩ := ha.fatal _ rfl
        exact Halt.serverError?_of_isFatal hfatal
  rw [hnone, Standing.errors, hm]
  rfl

theorem onReport_minds {α : Type} (report : Report) :
    Obeys (Minds (.errorResponse report))
      (onError report >>= fun e => (fail (.server e) : Exchange Session α)) := by
  intro s
  rw [bind_of_ok (Conversation.onError_apply report s)]
  exact ⟨.refl _, rfl, rfl, rfl⟩

/-- What a session learns, and the error of the server it comes to. -/
def Relays (s : Session) (h : Option Halt) (s' : Session) : Prop :=
  ∃ ms, Learns s ms s' ∧
    s.standing.errors s.options.showErrorDetail ms = (h.bind Halt.serverError?).toList

theorem relays_composes : Composes Relays where
  refl s := ⟨[], .refl s, rfl⟩
  trans := by
    rintro s t u h ⟨ms, hlearns, hnone⟩ ⟨ms', hlearns', herrors⟩
    refine ⟨ms ++ ms', hlearns.trans hlearns', ?_⟩
    rw [Standing.errors_append, hnone, ← hlearns.standing, ← hlearns.options, herrors]
    rfl

theorem receive_error_relays {phase : Phase} {s s' : Session} {halt : Halt}
    (h : receive phase s = .error halt s') : Relays s (some halt) s' := by
  obtain ⟨hlearns, hfatal⟩ := receive_unheard h
  refine ⟨[], hlearns, ?_⟩
  cases halt with
  | waiting => rfl
  | failed e => rw [Option.bind_some, Halt.serverError?_of_isFatal (hfatal e rfl)]; rfl

theorem Receives.relays {s s₁ s' : Session} {m : BackendMessage} {h : Option Halt}
    (hm : Receives s m s₁) (hs : Minds m s₁ h s') : Relays s h s' := by
  refine ⟨[m], hm.learns hs.channel hs.options hs.standing, ?_⟩
  rw [← hs.errors, hm.same.1, hm.same.2]

theorem fail_relays {α : Type} {e : Error} (h : e.serverError? = none) :
    Obeys Relays (fail e : Exchange Session α) :=
  fun s => ⟨[], .refl s, (congrArg Option.toList h).symm⟩

theorem onWarning_minds (report : Report) :
    Obeys (Minds (.noticeResponse report)) (onWarning report) :=
  fun s => .of_aside rfl (onWarning_aside report s) rfl

theorem onParameter_minds (name value : String) :
    Obeys (Minds (.parameterStatus name value)) (onParameter name value) :=
  fun s => .of_aside rfl (onParameter_aside name value s) (onParameter_standing name value s)

/-! ## Announcements, and what arrives between requests -/

theorem announce_minds (m : BackendMessage) : Obeys (Minds m) (announce m) := by
  intro s
  cases m with
  | readyForQuery status =>
      have hready : Obeys (Minds (.readyForQuery status)) (onReady status) := fun t =>
        .of_aside rfl (onReady_aside status t) (onReady_standing status t)
      exact hready.followed true s
  | errorResponse report => exact onReport_minds report s
  | backendKeyData key => exact ⟨.refl _, rfl, rfl, rfl⟩
  | noticeResponse report => exact (onWarning_minds report).followed false s
  | parameterStatus name value => exact (onParameter_minds name value).followed false s
  | _ => exact .of_aside rfl (fail_aside (α := Bool) rfl s) rfl

theorem announceNext_relays : Obeys Relays announceNext := by
  intro s
  unfold announceNext
  rw [bind_apply]
  cases hread : receive .startup s with
  | error halt t => exact receive_error_relays hread
  | ok m t => exact (receive_reads (by decide) hread).receives.relays (announce_minds m t)

theorem readAnnouncement_relays (limit : Nat) : Obeys Relays (readAnnouncement limit) :=
  relays_composes.loop readAnnouncement_succ (fail_relays rfl) announceNext_relays limit

theorem takeIdle_minds {m : BackendMessage} (h : Phase.idle.accepts m.tag = true) :
    Obeys (Minds m) (takeIdle m) := by
  cases m with
  | notificationResponse notification =>
      exact fun s => .of_aside rfl (onNotification_aside notification s) rfl
  | errorResponse report => exact onReport_minds report
  | noticeResponse report => exact onWarning_minds report
  | parameterStatus name value => exact onParameter_minds name value
  | _ => cases h

/-- Octets were read, and there is no message among them. -/
theorem relays_of_reading {s : Session} {h : Option Halt} {c : Channel}
    (hr : Channel.Reading s.channel h c) : Relays s h { s with channel := c } := by
  obtain ⟨octets, hoff⟩ := hr.reads
  refine ⟨[], ⟨⟨[], ?_, rfl⟩, rfl, rfl⟩, ?_⟩
  · rw [List.append_nil]
    exact congrArg Array.toList hoff.journal
  · have hnone : h.bind Halt.serverError? = none := by
      cases h with
      | none => rfl
      | some halt =>
          cases halt with
          | waiting => rfl
          | failed e => exact Halt.serverError?_of_isFatal (hr.fatal e rfl)
    rw [hnone]
    rfl

/-- What goes for octets that are read, and for a message together with what is made of it, goes
for what arrives next. -/
theorem noticeNext_of_receives {R : Session → Option Halt → Session → Prop} (hR : Composes R)
    (hreading : ∀ {s : Session} {h : Option Halt} {c : Channel},
      Channel.Reading s.channel h c → R s h { s with channel := c })
    (hmessage : ∀ {s s₁ : Session} {octet : UInt8} {m : BackendMessage},
      onChannel (Channel.receiveAfter .idle octet s.options.showErrorDetail) s = .ok m s₁ →
      Phase.idle.accepts m.tag = true → Receives s m s₁ →
      R s (halt? (takeIdle m s₁)) (final (takeIdle m s₁)))
    (wait : Nat) : Obeys R (noticeNext wait) := by
  have hawait : Obeys R (onChannel (Channel.awaitOctet wait)) :=
    (Channel.awaitOctet_reading wait).zoom fun _ _ _ hr => hreading hr
  refine hR.bind hawait fun octet => ?_
  cases octet with
  | none => exact hR.pure true
  | some octet =>
      intro s
      simp only []
      rw [bind_of_ok (get_apply s), bind_apply]
      cases hrun : onChannel (Channel.receiveAfter .idle octet s.options.showErrorDetail) s with
      | error halt s₁ =>
          obtain ⟨c, hc, rfl⟩ := onChannel_error hrun
          exact hreading (Channel.receiveAfter_error (by decide) hc)
      | ok m s₁ =>
          obtain ⟨c, hc, rfl⟩ := onChannel_ok hrun
          obtain ⟨haccepts, hm⟩ := receives_of_receiveAfter (by decide) hc
          have htaken := hmessage hrun haccepts hm
          simp only []
          rw [bind_apply]
          cases htake : takeIdle m { s with channel := c } with
          | error halt s' =>
              rw [htake] at htaken
              exact htaken
          | ok _ s' =>
              rw [htake] at htaken
              exact htaken

theorem noticeNext_relays (wait : Nat) : Obeys Relays (noticeNext wait) :=
  noticeNext_of_receives relays_composes relays_of_reading
    (fun _ haccepts hm => hm.relays (takeIdle_minds haccepts _)) wait

theorem takeArriving_relays (wait rounds : Nat) : Obeys Relays (takeArriving wait rounds) :=
  relays_composes.loop (takeArriving_succ wait) (relays_composes.pure ())
    (noticeNext_relays wait) rounds

/-- A halt that is looked into, and then goes on, is still the same halt. -/
theorem Relays.learns {s t u : Session} {h : Option Halt} (hr : Relays s h t)
    (hl : Learns t [] u) : Relays s h u := by
  obtain ⟨ms, hlearns, herrors⟩ := hr
  exact ⟨ms, hlearns.trans_nil hl, herrors⟩

theorem ends_learns {e : Error} {s s' : Session} (hends : Ends e s s')
    (hs : s'.standing = s.standing) : Learns s [] s' :=
  .of_keeps hends.keeps hs

theorem takeNotices_relays (wait : Option Nat) : Obeys Relays (takeNotices wait) := by
  refine takeNotices_obeys relays_composes (fun s => ⟨[], .refl s, rfl⟩) noticeNext_relays
    (fun {s t e} hr => ?_) wait
  obtain ⟨t', ht', hends⟩ := checkFatal_ends (α := Unit) e t
  rw [ht']
  exact hr.learns (ends_learns hends ((checkFatal_unmoved _).ok ht'))

theorem begin_relays : Obeys Relays begin := by
  refine begin_obeys relays_composes (readAnnouncement_relays _) (fun party pid s => ?_) ?_
  · exact ⟨[], .of_keeps ((record_keeps rfl).ok (record_apply (.ready party pid) s)) rfl, rfl⟩
  · intro s t u e hr habort
    exact hr.learns (.of_keeps (abort_keeps.ok habort) (unmoved_endures.abort.ok habort))

end Session

end PgClient
