import PgClient.Proofs.Request
import PgClient.Proofs.Wire

/-!
# A reply reaches the caller

A reply is a run of messages, and each of them means something to the caller: a
piece of the result, a warning, a notification, or nothing. The definitions of
the first section say what, for messages that are already decoded, with the two
things one message leaves behind for the next: the character set of its texts,
and the error that a failed transaction began with. The rest of the module shows
that the client says the same of every run of well-formed messages, however they
are ordered, and that it stops reading behind the one that ends the reply.

Octets and meaning are kept apart. `receive_message` is about octets alone, and
`take_delivers` about meaning alone; the induction over the messages joins them.
-/

namespace PgClient

open Exchange

/-! ## What messages mean to the caller -/

namespace BackendMessage

/-- An error as it is handed to the caller. -/
def reported (showDetail : Bool) (cause : Option ServerError) (report : Report) : ServerError :=
  match cause with
  | none => .first report showDetail
  | some cause => .after report showDetail cause

/-- What a message delivers; `cause` is the first error of the transaction. -/
def delivered (showDetail : Bool) (cause : Option ServerError) : BackendMessage → List Delivery
  | .rowDescription columns => [.columns columns]
  | .dataRow _ row => [.row row]
  | .commandComplete tag => [.status tag]
  | .portalSuspended => [.suspended]
  | .errorResponse report => [.error (.server (reported showDetail cause report))]
  | _ => []

/-- The first error of the transaction after a message. -/
def causeAfter (showDetail : Bool) (cause : Option ServerError) :
    BackendMessage → Option ServerError
  | .errorResponse report => some (cause.getD (reported showDetail cause report))
  | _ => cause

/-- What a run of messages delivers. -/
def allDelivered (showDetail : Bool) : Option ServerError → List BackendMessage → List Delivery
  | _, [] => []
  | cause, m :: ms =>
    m.delivered showDetail cause ++ allDelivered showDetail (m.causeAfter showDetail cause) ms

def notice? : BackendMessage → Option Report
  | .noticeResponse report => some report
  | _ => none

def notification? : BackendMessage → Option Notification
  | .notificationResponse notification => some notification
  | _ => none

/-- The character set after a message. -/
def charsetAfter (allowsEncodings : Bool) (charset : Charset) : BackendMessage → Charset
  | .parameterStatus "client_encoding" value =>
    if allowsEncodings then Charset.ofName value else charset
  | _ => charset

/-- Whether a client lives on after a setting is reported. -/
def acceptsSetting (allowsEncodings : Bool) (name value : String) : Bool :=
  match name with
  | "client_encoding" =>
    allowsEncodings || (Ascii.eqIgnoringCase value "UTF8" || Ascii.eqIgnoringCase value "UTF-8")
  | "DateStyle" => (Ascii.upper value).startsWith "ISO"
  | "standard_conforming_strings" | "integer_datetimes" => (Session.switch? value).isSome
  | "server_version_num" => (Decimal.int? Decimal.int32Max value).isSome
  | _ => true

/-- Whether a client lives on after a message. -/
def isAcceptable (allowsEncodings : Bool) : BackendMessage → Bool
  | .parameterStatus name value => acceptsSetting allowsEncodings name value
  | _ => true

end BackendMessage

/-- The first error among deliveries. -/
def Delivery.firstError (deliveries : List Delivery) : Option Error :=
  deliveries.findSome? fun
    | .error e => some e
    | _ => none

/-- Messages in the order they travel, each decoded under the character set the
ones before it have left. -/
def WireMessage.decodeAll (allowsEncodings : Bool) :
    Charset → List WireMessage → List BackendMessage
  | _, [] => []
  | charset, w :: ws =>
    w.decode charset ::
      decodeAll allowsEncodings ((w.decode charset).charsetAfter allowsEncodings charset) ws

theorem Delivery.firstError_append (ds ds' : List Delivery) :
    firstError (ds ++ ds') = (firstError ds).or (firstError ds') := by
  unfold firstError
  rw [List.findSome?_append]

theorem WireMessage.tag_decode (charset : Charset) (w : WireMessage) :
    (w.decode charset).tag = w.tag := by
  cases w <;> rfl

/-! ## Reading the messages -/

namespace Channel

theorem accepts_tag (w : WireMessage) : Phase.reply.accepts w.tag = true := by
  cases w <;> rfl

/-- A message that stands in front is read, told to the journal if that keeps it,
and nothing else. -/
theorem receive_kept (phase : Phase) {c : Channel} {tag : Tag} {fields rest : Bytes}
    {m : BackendMessage} (detail : Bool) (hkeeps : keeps m = true)
    (haccepts : phase.accepts tag = true)
    (hread : Yields c.charset (receiveMessage tag) fields m)
    (hc : c.unread = tag.octet :: fields ++ rest) :
    ∃ c', ReadsOff (tag.octet :: fields) c c' ∧
      receive phase detail c = .ok m (c'.told (.received m detail)) := by
  have hoctet : Yields c.charset receiveOctet [tag.octet] tag.octet := yields_octet tag.octet
  obtain ⟨c₁, h₁, hoff₁⟩ := hoctet c (fields ++ rest) rfl hc
  obtain ⟨c₂, h₂, hoff₂⟩ := hread c₁ rest hoff₁.charset (hoff₁.unread_eq hc)
  refine ⟨c₂, hoff₁.trans hoff₂, ?_⟩
  unfold receive
  rw [bind_of_ok h₁, receiveAfter_due haccepts, receiveJournaled_of_ok h₂, if_pos hkeeps]

/-- After the login, no message is kept out of the journal. -/
theorem receive_yields (phase : Phase) (hphase : phase ≠ .login) {c : Channel} {tag : Tag}
    {fields rest : Bytes} {m : BackendMessage} (detail : Bool) (htag : m.tag = tag)
    (haccepts : phase.accepts tag = true)
    (hread : Yields c.charset (receiveMessage tag) fields m)
    (hc : c.unread = tag.octet :: fields ++ rest) :
    ∃ c', ReadsOff (tag.octet :: fields) c c' ∧
      receive phase detail c = .ok m (c'.told (.received m detail)) := by
  have hkeeps : keeps m = true := by
    refine keeps_of_tag ?_
    rw [htag]
    exact ne_authentication_of_accepts hphase haccepts
  exact receive_kept phase detail hkeeps haccepts hread hc

theorem receive_message {c : Channel} {w : WireMessage} (hw : w.WellFormed) {rest : Bytes}
    (detail : Bool) (hc : c.unread = w.encode ++ rest) :
    ∃ c', ReadsOff w.encode c c' ∧
      receive .reply detail c = .ok (w.decode c.charset)
        (c'.told (.received (w.decode c.charset) detail)) :=
  receive_yields .reply (by decide) detail (w.tag_decode _) (accepts_tag w) (yields_message hw) hc

theorem receive_ready (phase : Phase) (hphase : phase ≠ .login)
    (haccepts : phase.accepts .readyForQuery = true) {c : Channel} {status : UInt8} {rest : Bytes}
    (detail : Bool) (hc : c.unread = Session.Conversation.readyFrame status ++ rest) :
    ∃ c', ReadsOff (Session.Conversation.readyFrame status) c c' ∧
      receive phase detail c = .ok (.readyForQuery status)
        (c'.told (.received (.readyForQuery status) detail)) := by
  refine receive_yields phase hphase detail rfl haccepts ?_ hc
  refine (yields_int32 (by decide) (by decide)).bind ?_
  rw [if_neg (by decide)]
  exact (yields_octet status).map (.pure _)

end Channel

namespace Session

/-! ## Taking the messages in -/

/-- A setting was taken in: nothing of it concerns the caller but the character
set. -/
structure Heeds (charset : Charset) (s s' : Session) : Prop where
  unread : s'.channel.unread = s.channel.unread
  charset : s'.channel.charset = charset
  options : s'.options = s.options
  warnings : s'.status.warnings = s.status.warnings
  notifications : s'.status.notifications = s.status.notifications
  failCause : s'.failCause = s.failCause

theorem Heeds.refl (s : Session) : Heeds s.channel.charset s s :=
  ⟨rfl, rfl, rfl, rfl, rfl, rfl⟩

theorem onEncoding_heeds {value : String} {s : Session}
    (h : BackendMessage.acceptsSetting s.options.allowEncodingChanges "client_encoding" value
      = true) :
    ∃ s', onEncoding value s = .ok () s' ∧
      Heeds (if s.options.allowEncodingChanges then Charset.ofName value else s.channel.charset)
        s s' := by
  have hvalue : s.options.allowEncodingChanges ||
    (Ascii.eqIgnoringCase value "UTF8" || Ascii.eqIgnoringCase value "UTF-8") := h
  unfold onEncoding
  rw [bind_of_ok (get_apply s)]
  cases hallows : s.options.allowEncodingChanges with
  | true =>
      have hset : ∀ t : Session, ∃ t', onChannel (Channel.setCharset (Charset.ofName value)) t =
          .ok () t' ∧ Heeds (Charset.ofName value) t t' :=
        fun t => ⟨_, rfl, rfl, rfl, rfl, rfl, rfl, rfl⟩
      simp only [if_true]
      split
      · exact hset s
      · rw [bind_of_ok (record_apply _ s)]
        obtain ⟨s', hs', hh⟩ := hset { s with channel := s.channel.told (.foreignEncoding value) }
        exact ⟨s', hs', hh.unread, hh.charset, hh.options, hh.warnings, hh.notifications,
          hh.failCause⟩
  | false =>
      rw [hallows, Bool.false_or] at hvalue
      simp only [Bool.false_eq_true, if_false, hvalue, if_true]
      exact ⟨s, rfl, .refl s⟩

theorem onSetting_heeds {name value : String} {s : Session}
    (h : BackendMessage.acceptsSetting s.options.allowEncodingChanges name value = true) :
    ∃ s', onSetting name value s = .ok () s' ∧
      Heeds ((BackendMessage.parameterStatus name value).charsetAfter
        s.options.allowEncodingChanges s.channel.charset) s s' := by
  unfold onSetting
  split
  · exact onEncoding_heeds h
  · refine ⟨s, ?_, .refl s⟩
    rw [if_pos (show (Ascii.upper value).startsWith "ISO" from h)]
    rfl
  · obtain ⟨isOn, hisOn⟩ := Option.isSome_iff_exists.1 (show (switch? value).isSome from h)
    rw [hisOn]
    exact ⟨_, rfl, rfl, rfl, rfl, rfl, rfl, rfl⟩
  · exact ⟨_, rfl, rfl, rfl, rfl, rfl, rfl, rfl⟩
  · exact ⟨_, rfl, rfl, rfl, rfl, rfl, rfl, rfl⟩
  · obtain ⟨number, hnumber⟩ := Option.isSome_iff_exists.1
      (show (Decimal.int? Decimal.int32Max value).isSome from h)
    rw [hnumber]
    exact ⟨_, rfl, rfl, rfl, rfl, rfl, rfl, rfl⟩
  · exact ⟨_, rfl, rfl, rfl, rfl, rfl, rfl, rfl⟩
  · obtain ⟨isOn, hisOn⟩ := Option.isSome_iff_exists.1 (show (switch? value).isSome from h)
    rw [hisOn]
    exact ⟨_, rfl, rfl, rfl, rfl, rfl, rfl, rfl⟩
  · next hencoding _ _ _ _ _ _ _ =>
      refine ⟨s, rfl, ?_⟩
      have hsame : (BackendMessage.parameterStatus name value).charsetAfter
          s.options.allowEncodingChanges s.channel.charset = s.channel.charset := by
        unfold BackendMessage.charsetAfter
        split
        · next heq => exact absurd (BackendMessage.parameterStatus.inj heq).1 hencoding
        · rfl
      rw [hsame]
      exact .refl s

theorem onParameter_heeds {name value : String} {s : Session}
    (h : BackendMessage.acceptsSetting s.options.allowEncodingChanges name value = true) :
    ∃ s', onParameter name value s = .ok () s' ∧
      Heeds ((BackendMessage.parameterStatus name value).charsetAfter
        s.options.allowEncodingChanges s.channel.charset) s s' := by
  unfold onParameter
  split
  · exact onSetting_heeds h
  · rw [bind_of_ok (modify_apply _ s)]
    obtain ⟨s', hs', hh⟩ := onSetting_heeds (s := { s with
      parameters := s.parameters.insert name value }) h
    exact ⟨s', hs', hh.unread, hh.charset, hh.options, hh.warnings, hh.notifications,
      hh.failCause⟩

namespace Conversation

open BackendMessage

/-- Messages were taken in, and the caller knows of them. -/
structure Delivers (ms : List BackendMessage) (c c' : Conversation) : Prop where
  options : c'.session.options = c.session.options
  warnings : c'.session.status.warnings = c.session.status.warnings ++ ms.filterMap notice?
  notifications : c'.session.status.notifications =
    c.session.status.notifications ++ ms.filterMap notification?
  deliveries : c'.deliveries.toList = c.deliveries.toList ++
    allDelivered c.session.options.showErrorDetail c.session.failCause ms
  firstError : c'.firstError = c.firstError.or (Delivery.firstError
    (allDelivered c.session.options.showErrorDetail c.session.failCause ms))
  suspended : c'.statement.map Statement.isSuspended =
    (c.statement.map Statement.isSuspended).map (· || ms.contains .portalSuspended)

/-- One message was taken in, and the next one can be. -/
structure Advances (m : BackendMessage) (c c' : Conversation) : Prop extends
    Delivers [m] c c' where
  unread : c'.session.channel.unread = c.session.channel.unread
  charset : c'.session.channel.charset =
    m.charsetAfter c.session.options.allowEncodingChanges c.session.channel.charset
  failCause : c'.session.failCause =
    m.causeAfter c.session.options.showErrorDetail c.session.failCause

/-- A message about the session alone. -/
theorem advances_of_session {m : BackendMessage} {c : Conversation} {s' : Session}
    (hdelivered : m.delivered c.session.options.showErrorDetail c.session.failCause = [])
    (hsuspended : m ≠ .portalSuspended) (hunread : s'.channel.unread = c.session.channel.unread)
    (hcharset : s'.channel.charset =
      m.charsetAfter c.session.options.allowEncodingChanges c.session.channel.charset)
    (hoptions : s'.options = c.session.options)
    (hwarnings : s'.status.warnings = c.session.status.warnings ++ [m].filterMap notice?)
    (hnotifications : s'.status.notifications =
      c.session.status.notifications ++ [m].filterMap notification?)
    (hcause : s'.failCause = m.causeAfter c.session.options.showErrorDetail c.session.failCause) :
    Advances m c { c with session := s' } := by
  have hnone : allDelivered c.session.options.showErrorDetail c.session.failCause [m] = [] := by
    rw [allDelivered, hdelivered]
    rfl
  refine ⟨⟨hoptions, hwarnings, hnotifications, ?_, ?_, ?_⟩, hunread, hcharset, hcause⟩
  · rw [hnone, List.append_nil]
  · rw [hnone, Delivery.firstError, List.findSome?_nil, Option.or_none]
  · have hnot : [m].contains .portalSuspended = false := by
      simpa using hsuspended.symm
    simp only [hnot, Bool.or_false, Option.map_id']

/-- A message that is handed to the caller, and changes nothing else. -/
theorem advances_of_deliver {m : BackendMessage} {d : Delivery} {c : Conversation}
    (hdelivered : m.delivered c.session.options.showErrorDetail c.session.failCause = [d])
    (herror : Delivery.firstError [d] = none) (hsuspended : m ≠ .portalSuspended)
    {s' : Session} (hsame : Heeds c.session.channel.charset c.session s')
    (hcharset : m.charsetAfter c.session.options.allowEncodingChanges c.session.channel.charset =
      c.session.channel.charset)
    (hnotice : m.notice? = none) (hnotification : m.notification? = none)
    (hcause : m.causeAfter c.session.options.showErrorDetail c.session.failCause =
      c.session.failCause) :
    Advances m c { c with session := s', deliveries := c.deliveries.push d } := by
  have hone : allDelivered c.session.options.showErrorDetail c.session.failCause [m] = [d] := by
    rw [allDelivered, hdelivered]
    rfl
  refine ⟨⟨hsame.options, ?_, ?_, ?_, ?_, ?_⟩, hsame.unread, hsame.charset.trans hcharset.symm,
    hsame.failCause.trans hcause.symm⟩
  · rw [List.filterMap_cons_none hnotice, List.filterMap_nil, List.append_nil]
    exact hsame.warnings
  · rw [List.filterMap_cons_none hnotification, List.filterMap_nil, List.append_nil]
    exact hsame.notifications
  · rw [hone, Array.toList_push]
  · rw [hone, herror, Option.or_none]
  · have hnot : [m].contains .portalSuspended = false := by
      simpa using hsuspended.symm
    simp only [hnot, Bool.or_false, Option.map_id']

theorem onError_apply (report : Report) (s : Session) :
    onError report s = .ok (reported s.options.showErrorDetail s.failCause report)
      { s with
        failCause := (BackendMessage.errorResponse report).causeAfter
          s.options.showErrorDetail s.failCause } := by
  unfold onError
  rw [bind_of_ok (get_apply s)]
  rcases s with ⟨channel, user, database, options, status, _ | cause, parameters⟩ <;> rfl

/-- An error is delivered, and it is the result unless there was one before. -/
theorem advances_of_error {report : Report} {e : ServerError} {c c' : Conversation}
    (he : reported c.session.options.showErrorDetail c.session.failCause report = e)
    (hoptions : c'.session.options = c.session.options)
    (hstatus : c'.session.status = c.session.status)
    (hchannel : c'.session.channel = c.session.channel)
    (hcause : c'.session.failCause = (BackendMessage.errorResponse report).causeAfter
      c.session.options.showErrorDetail c.session.failCause)
    (hdeliveries : c'.deliveries = c.deliveries.push (.error (.server e)))
    (hfirst : c'.firstError = c.firstError.or (some (.server e)))
    (hsuspended : c'.statement.map Statement.isSuspended =
      c.statement.map Statement.isSuspended) :
    Advances (.errorResponse report) c c' := by
  have hall : allDelivered c.session.options.showErrorDetail c.session.failCause
      [.errorResponse report] = [.error (.server e)] := by
    rw [← he]
    rfl
  refine ⟨⟨hoptions, ?_, ?_, ?_, ?_, ?_⟩, by rw [hchannel], by rw [hchannel]; rfl, hcause⟩
  · rw [hstatus]
    exact (List.append_nil _).symm
  · rw [hstatus]
    exact (List.append_nil _).symm
  · rw [hall, hdeliveries, Array.toList_push]
  · rw [hall, hfirst]
    rfl
  · have hnot : [BackendMessage.errorResponse report].contains .portalSuspended = false := by
      simp
    simp only [hnot, Bool.or_false, Option.map_id']
    exact hsuspended

theorem onReport_advances (report : Report) (c : Conversation) :
    ∃ c', onReport report c = .ok () c' ∧ Advances (.errorResponse report) c c' := by
  have hsession := onSession_of_ok (c := c) (onError_apply report c.session)
  unfold onReport
  rw [bind_of_ok hsession]
  generalize he : reported c.session.options.showErrorDetail c.session.failCause report = e
  split
  · rw [bind_of_ok (get_apply _)]
    simp only []
    cases hname : c.statement.bind Statement.name with
    | none => exact ⟨_, rfl, advances_of_error he rfl rfl rfl rfl rfl rfl rfl⟩
    | some name =>
        refine ⟨_, rfl, advances_of_error he rfl rfl rfl rfl rfl rfl ?_⟩
        cases c.statement <;> rfl
  · exact ⟨_, rfl, advances_of_error he rfl rfl rfl rfl rfl rfl rfl⟩

/-- The caller learns from a message what it says, and the session lives on. -/
theorem take_advances {m : BackendMessage} {c : Conversation} (hm : m.tag ≠ .readyForQuery)
    (haccept : m.isAcceptable c.session.options.allowEncodingChanges = true) :
    ∃ c', take m c = .ok false c' ∧ Advances m c c' := by
  cases m with
  | readyForQuery status => exact absurd rfl hm
  | parseComplete =>
      refine ⟨_, bind_of_ok (onParsed_apply c), ⟨rfl, (List.append_nil _).symm,
        (List.append_nil _).symm, (List.append_nil _).symm, (Option.or_none).symm, ?_⟩, rfl, rfl,
        rfl⟩
      rcases c with ⟨session, _ | st, _ | name, deliveries, first⟩ <;>
        simp [Statement.prepare]
  | portalSuspended =>
      refine ⟨_, rfl, ⟨rfl, (List.append_nil _).symm, (List.append_nil _).symm,
        Array.toList_push, (Option.or_none).symm, ?_⟩, rfl, rfl, rfl⟩
      rcases c with ⟨session, _ | st, preparing, deliveries, first⟩ <;> simp
  | rowDescription columns =>
      exact ⟨_, rfl, advances_of_deliver (m := .rowDescription columns) (c := c) rfl rfl nofun
        (.refl _) rfl rfl rfl rfl⟩
  | dataRow length row =>
      exact ⟨_, rfl, advances_of_deliver (m := .dataRow length row) (c := c) rfl rfl nofun
        (.refl _) rfl rfl rfl rfl⟩
  | commandComplete tag =>
      have hkept : ∀ s' : Session, Heeds c.session.channel.charset c.session s' →
          Advances (.commandComplete tag) c
            { c with session := s', deliveries := c.deliveries.push (.status tag) } :=
        fun s' hs' =>
          advances_of_deliver (m := .commandComplete tag) rfl rfl nofun hs' rfl rfl rfl rfl
      unfold take
      simp only []
      split
      · rw [bind_of_ok (onSession_of_ok (forgetStatements_apply c.session))]
        refine ⟨_, rfl, hkept _ ?_⟩
        split
        · exact ⟨rfl, rfl, rfl, rfl, rfl, rfl⟩
        · exact .refl _
      · exact ⟨_, rfl, hkept _ (.refl _)⟩
  | errorResponse report =>
      obtain ⟨c', hc', hadvances⟩ := onReport_advances report c
      exact ⟨c', bind_of_ok hc', hadvances⟩
  | noticeResponse report =>
      exact ⟨_, rfl, advances_of_session rfl nofun rfl rfl rfl rfl (List.append_nil _).symm rfl⟩
  | notificationResponse notification =>
      exact ⟨_, rfl, advances_of_session rfl nofun rfl rfl rfl (List.append_nil _).symm rfl rfl⟩
  | parameterStatus name value =>
      obtain ⟨s', hs', hheeds⟩ := onParameter_heeds (s := c.session) haccept
      refine ⟨_, bind_of_ok (onSession_of_ok hs'), advances_of_session rfl nofun hheeds.unread
        hheeds.charset hheeds.options ?_ ?_ hheeds.failCause⟩
      · exact hheeds.warnings.trans (List.append_nil _).symm
      · exact hheeds.notifications.trans (List.append_nil _).symm
  | bindComplete | closeComplete | noData | emptyQuery | parameterDescription | authentication
  | backendKeyData =>
      exact ⟨c, rfl, advances_of_session rfl nofun rfl rfl rfl (List.append_nil _).symm
        (List.append_nil _).symm rfl⟩

/-! ## The whole reply -/

theorem Delivers.nil (c : Conversation) : Delivers [] c c := by
  refine ⟨rfl, (List.append_nil _).symm, (List.append_nil _).symm, (List.append_nil _).symm,
    (Option.or_none).symm, ?_⟩
  rcases c with ⟨session, _ | st, preparing, deliveries, first⟩ <;> simp

theorem Delivers.cons {m : BackendMessage} {ms : List BackendMessage} {c c₁ c' : Conversation}
    (hs : Delivers ms c₁ c') (h : Delivers [m] c c₁) (hcause : c₁.session.failCause =
      m.causeAfter c.session.options.showErrorDetail c.session.failCause) :
    Delivers (m :: ms) c c' := by
  have hall : allDelivered c.session.options.showErrorDetail c.session.failCause (m :: ms) =
      allDelivered c.session.options.showErrorDetail c.session.failCause [m] ++
        allDelivered c₁.session.options.showErrorDetail c₁.session.failCause ms := by
    rw [h.options, hcause, allDelivered, allDelivered, allDelivered, List.append_nil]
  refine ⟨hs.options.trans h.options, ?_, ?_, ?_, ?_, ?_⟩
  · rw [hs.warnings, h.warnings, List.append_assoc, ← List.filterMap_append]
    rfl
  · rw [hs.notifications, h.notifications, List.append_assoc, ← List.filterMap_append]
    rfl
  · rw [hs.deliveries, h.deliveries, hall, List.append_assoc]
  · rw [hs.firstError, h.firstError, hall, Delivery.firstError_append, Option.or_assoc]
  · rw [hs.suspended, h.suspended, Option.map_map]
    refine congrArg (fun f => Option.map f _) (funext fun isSuspended => ?_)
    simp [Bool.or_assoc]

/-- The server is ready: the transaction has a state, and the reply is over. -/
theorem take_ready {status : UInt8} (hstatus : IsStatus status) (c : Conversation) :
    ∃ s', take (.readyForQuery status) c = .ok true { c with session := s' } ∧
      s'.channel = c.session.channel ∧ s'.options = c.session.options ∧
      s'.status.warnings = c.session.status.warnings ∧
      s'.status.notifications = c.session.status.notifications := by
  have hready : ∃ s', onReady status c.session = .ok () s' ∧ s'.channel = c.session.channel ∧
      s'.options = c.session.options ∧ s'.status.warnings = c.session.status.warnings ∧
      s'.status.notifications = c.session.status.notifications := by
    rcases hstatus with rfl | rfl | rfl <;> exact ⟨_, rfl, rfl, rfl, rfl, rfl⟩
  obtain ⟨s', hs', hrest⟩ := hready
  exact ⟨s', bind_of_ok (onSession_of_ok hs'), hrest⟩

/-- A message was read: octets are gone, and the caller knows nothing of it yet. -/
structure Passes (rest : Bytes) (s s' : Session) : Prop where
  unread : s'.channel.unread = rest
  charset : s'.channel.charset = s.channel.charset
  options : s'.options = s.options
  status : s'.status = s.status
  failCause : s'.failCause = s.failCause

theorem receive_passes {s : Session} {octets rest : Bytes} {m : BackendMessage} {c : Channel}
    (hoff : s.channel.ReadsOff octets c) (hunread : s.channel.unread = octets ++ rest)
    (hread : Channel.receive .reply s.options.showErrorDetail s.channel =
      .ok m (c.told (.received m s.options.showErrorDetail))) :
    ∃ s', receive .reply s = .ok m s' ∧ Passes rest s s' := by
  refine ⟨{ s with channel := c.told (.received m s.options.showErrorDetail) }, ?_,
    hoff.unread_eq hunread, hoff.charset, rfl, rfl, rfl⟩
  exact receive_of_ok hread

theorem Advances.of_passes {m : BackendMessage} {rest : Bytes} {c c' : Conversation} {s : Session}
    (hp : Passes rest c.session s) (h : Advances m { c with session := s } c') :
    Delivers [m] c c' ∧ c'.session.channel.unread = rest ∧
      c'.session.channel.charset =
        m.charsetAfter c.session.options.allowEncodingChanges c.session.channel.charset ∧
      c'.session.failCause =
        m.causeAfter c.session.options.showErrorDetail c.session.failCause := by
  obtain ⟨⟨hoptions, hwarnings, hnotifications, hdeliveries, hfirst, hsuspended⟩, hunread,
    hcharset, hcause⟩ := h
  simp only [hp.options, hp.status, hp.failCause, hp.charset] at *
  exact ⟨⟨hoptions, hwarnings, hnotifications, hdeliveries, hfirst, hsuspended⟩,
    hunread.trans hp.unread, hcharset, hcause⟩

/-- The loop takes in any run of well-formed messages, in order, a round for each. -/
theorem takeAll_advances {ws : List WireMessage} {rest : Bytes} (hws : ∀ w ∈ ws, w.WellFormed)
    (rounds : Nat) {c : Conversation}
    (hunread : c.session.channel.unread = ws.flatMap WireMessage.encode ++ rest)
    (haccept : ∀ m ∈ WireMessage.decodeAll c.session.options.allowEncodingChanges
      c.session.channel.charset ws,
      m.isAcceptable c.session.options.allowEncodingChanges = true) :
    ∃ c', takeAll (ws.length + rounds) c = takeAll rounds c' ∧ c'.session.channel.unread = rest ∧
      Delivers (WireMessage.decodeAll c.session.options.allowEncodingChanges
        c.session.channel.charset ws) c c' := by
  induction ws generalizing c with
  | nil =>
      refine ⟨c, ?_, hunread, .nil c⟩
      rw [List.length_nil, Nat.zero_add]
  | cons w ws ih =>
      have hfront : c.session.channel.unread =
          w.encode ++ (ws.flatMap WireMessage.encode ++ rest) := by
        rw [hunread, List.flatMap_cons, List.append_assoc]
      obtain ⟨channel, hoff, hread⟩ := Channel.receive_message (hws w List.mem_cons_self)
        c.session.options.showErrorDetail hfront
      obtain ⟨s, hs, hpasses⟩ := receive_passes hoff hfront hread
      have hmore : (w.decode c.session.channel.charset).tag ≠ .readyForQuery := by
        rw [WireMessage.tag_decode]
        cases w <;> nofun
      obtain ⟨c₁, htake, hadvances⟩ := take_advances (c := { c with session := s }) hmore
        (by rw [show s.options = _ from hpasses.options]; exact haccept _ List.mem_cons_self)
      obtain ⟨hdelivers, hrest, hcharset, hcause⟩ := hadvances.of_passes hpasses
      have hdecode : WireMessage.decodeAll c.session.options.allowEncodingChanges
          c.session.channel.charset (w :: ws) = w.decode c.session.channel.charset ::
            WireMessage.decodeAll c₁.session.options.allowEncodingChanges
              c₁.session.channel.charset ws := by
        rw [hdelivers.options, hcharset]
        rfl
      obtain ⟨c', hc', hunread', hall⟩ := ih (fun w' hw' => hws w' (List.mem_cons_of_mem _ hw'))
        hrest fun m hm => by
          rw [hdelivers.options]
          exact haccept m (by rw [hdecode]; exact List.mem_cons_of_mem _ hm)
      rw [List.length_cons, Nat.add_right_comm, takeAll_step hs, bind_of_ok htake, hdecode]
      exact ⟨c', hc', hunread', hall.cons hdelivers hcause⟩

/-- The loop stops behind the message that ends the reply. -/
theorem takeAll_delivers {ws : List WireMessage} {status : UInt8} {rest : Bytes}
    (hws : ∀ w ∈ ws, w.WellFormed) (hstatus : IsStatus status) {rounds : Nat}
    (hrounds : ws.length < rounds) {c : Conversation}
    (hunread : c.session.channel.unread =
      ws.flatMap WireMessage.encode ++ readyFrame status ++ rest)
    (haccept : ∀ m ∈ WireMessage.decodeAll c.session.options.allowEncodingChanges
      c.session.channel.charset ws,
      m.isAcceptable c.session.options.allowEncodingChanges = true) :
    ∃ c', takeAll rounds c = .ok () c' ∧ c'.session.channel.unread = rest ∧
      Delivers (WireMessage.decodeAll c.session.options.allowEncodingChanges
        c.session.channel.charset ws) c c' := by
  obtain ⟨more, rfl⟩ := Nat.exists_eq_add_of_lt hrounds
  rw [List.append_assoc] at hunread
  obtain ⟨c₁, hc₁, hrest, hdelivers⟩ := takeAll_advances hws (more + 1) hunread haccept
  obtain ⟨channel, hoff, hread⟩ :=
    Channel.receive_ready .reply (by decide) (by decide) c₁.session.options.showErrorDetail hrest
  obtain ⟨s, hs, hpasses⟩ := receive_passes hoff hrest hread
  obtain ⟨s', htake, hchannel, hoptions, hwarnings, hnotifications⟩ :=
    take_ready hstatus { c₁ with session := s }
  refine ⟨{ c₁ with session := s' }, ?_, ?_, ?_⟩
  · rw [Nat.add_assoc, hc₁, takeAll_step hs, bind_of_ok htake]
    rfl
  · rw [hchannel]
    exact hpasses.unread
  · exact ⟨(hoptions.trans hpasses.options).trans hdelivers.options,
      hwarnings.trans ((congrArg Status.warnings hpasses.status).trans hdelivers.warnings),
      hnotifications.trans
        ((congrArg Status.notifications hpasses.status).trans hdelivers.notifications),
      hdelivers.deliveries, hdelivers.firstError, hdelivers.suspended⟩

theorem length_le_flatMap_encode (ws : List WireMessage) :
    ws.length ≤ (ws.flatMap WireMessage.encode).length := by
  induction ws with
  | nil => exact Nat.le_refl 0
  | cons w ws ih =>
      have hpos : 1 ≤ w.encode.length := by
        unfold WireMessage.encode
        rw [List.length_cons]
        omega
      rw [List.flatMap_cons, List.length_append, List.length_cons]
      omega

/-- Every error a run of messages delivers is one of the server. -/
theorem firstError_server {detail : Bool} {cause : Option ServerError} {ms : List BackendMessage}
    {e : Error} (h : Delivery.firstError (allDelivered detail cause ms) = some e) :
    ∃ error, e = .server error := by
  induction ms generalizing cause with
  | nil => cases h
  | cons m ms ih =>
      rw [allDelivered, Delivery.firstError_append] at h
      cases m with
      | errorResponse report =>
          cases h
          exact ⟨_, rfl⟩
      | _ => exact ih h

end Conversation

open BackendMessage Conversation FrontendMessage

/-- A request has handed on what these messages say, and the octets behind the
reply are still there. -/
structure Dispatched (s : Session) (ms : List BackendMessage) (rest : Bytes) (reply : Reply)
    (s' : Session) : Prop where
  deliveries : reply.deliveries =
    allDelivered s.options.showErrorDetail s.failCause ms ++ [.completed]
  warnings : s'.status.warnings = s.status.warnings ++ ms.filterMap notice?
  notifications : s'.status.notifications = s.status.notifications ++ ms.filterMap notification?
  result : reply.result = (Delivery.firstError reply.deliveries).elim (.ok ()) .error
  unread : s'.channel.unread = rest

/-- A reply as the server sends it: well-formed messages the client can live
with, and the one that ends it. -/
structure WellFormedReply (s : Session) (ws : List WireMessage) (status : UInt8) : Prop where
  messages : ∀ w ∈ ws, w.WellFormed
  acceptable : ∀ m ∈ WireMessage.decodeAll s.options.allowEncodingChanges s.channel.charset ws,
    m.isAcceptable s.options.allowEncodingChanges = true
  status : IsStatus status

theorem request_dispatched {s₀ s s₁ : Session} {statement : Option Statement}
    {preparing : Option String} {send : Exchange Session (Option String)} {ws : List WireMessage}
    {status : UInt8} {rest : Bytes} (hreply : WellFormedReply s ws status)
    (hpasses : Passes (ws.flatMap WireMessage.encode ++ readyFrame status ++ rest) s s₁)
    {s₂ : Session} (hsend : send s₂ = .ok preparing s₁) :
    ∃ reply s', converse { session := s₀, statement } (request send) s₂ = .ok reply s' ∧
      Dispatched s (WireMessage.decodeAll s.options.allowEncodingChanges s.channel.charset ws)
        rest reply s' ∧
      reply.statement.map Statement.isSuspended =
        (statement.map Statement.isSuspended).map (· ||
          (WireMessage.decodeAll s.options.allowEncodingChanges s.channel.charset ws).contains
            .portalSuspended) := by
  have hunread : s₁.channel.unread =
      ws.flatMap WireMessage.encode ++ readyFrame status ++ rest := hpasses.unread
  have hrounds : ws.length < s₁.channel.unread.length + 1 := by
    have := length_le_flatMap_encode ws
    rw [hunread, List.length_append, List.length_append]
    omega
  obtain ⟨c, htake, hrest, hdelivers⟩ := takeAll_delivers
    (c := { session := s₁, statement, preparing }) hreply.messages hreply.status hrounds hunread
    (by rw [show s₁.options = _ from hpasses.options, hpasses.charset]; exact hreply.acceptable)
  simp only [hpasses.options, hpasses.charset] at hdelivers
  generalize WireMessage.decodeAll s.options.allowEncodingChanges s.channel.charset ws = ms
    at hdelivers
  obtain ⟨-, hwarnings, hnotifications, hdeliveries, hfirst, hsuspended⟩ := hdelivers
  simp only [hpasses.options, hpasses.status, hpasses.failCause, Option.none_or,
    List.nil_append] at hwarnings hnotifications hdeliveries hfirst hsuspended
  have hall : (c.deliveries.push .completed).toList =
      allDelivered s.options.showErrorDetail s.failCause ms ++ [.completed] := by
    rw [Array.toList_push, hdeliveries]
  have hresult : Delivery.firstError (c.deliveries.push .completed).toList = c.firstError := by
    rw [hall, Delivery.firstError_append, hfirst]
    exact Option.or_none
  have hrun : request send { session := s₂, statement } =
      (lift (c.firstError.elim (.ok ()) .error) : Exchange Conversation Unit)
        { c with deliveries := c.deliveries.push .completed } := by
    rw [request_apply, hsend]
    exact readReply_of_ok htake
  cases herror : c.firstError with
  | none =>
      rw [herror] at hrun hresult
      refine ⟨_, _, converse_of_ok (c := { session := s₀, statement }) hrun,
        ⟨hall, hwarnings, hnotifications, ?_, hrest⟩, hsuspended⟩
      simp only [hresult]
      rfl
  | some e =>
      rw [herror] at hrun hresult hfirst
      obtain ⟨error, rfl⟩ := firstError_server hfirst.symm
      obtain ⟨s', hends, hconverse⟩ :=
        converse_of_failed (c := { session := s₀, statement }) hrun
      cases hends
      refine ⟨_, _, hconverse, ⟨hall, hwarnings, hnotifications, ?_, hrest⟩, hsuspended⟩
      simp only [hresult]
      rfl

theorem contains_portalSuspended (allowsEncodings : Bool) (charset : Charset)
    (ws : List WireMessage) :
    (WireMessage.decodeAll allowsEncodings charset ws).contains .portalSuspended = true ↔
      .portalSuspended ∈ ws := by
  rw [List.contains_iff_mem]
  induction ws generalizing charset with
  | nil => exact ⟨nofun, nofun⟩
  | cons w ws ih =>
      rw [WireMessage.decodeAll, List.mem_cons, List.mem_cons, ih]
      have hhead : BackendMessage.portalSuspended = w.decode charset ↔
          WireMessage.portalSuspended = w := by
        cases w with
        | portalSuspended => exact ⟨fun _ => rfl, fun _ => rfl⟩
        | _ => exact ⟨nofun, nofun⟩
      rw [hhead]

theorem isSuspended_readied (s : Session) (st : Statement) :
    (s.readied st).isSuspended = false := by
  unfold readied aboutToRun
  split <;> rfl

/-- Whatever well-formed messages the server answers with, in whatever order,
the caller is handed what each of them says, once and in that order; the first
error is the result, and nothing behind the reply is read. The request only has
to be one that can be sent. -/
theorem reply_dispatched {s : Session} {ws : List WireMessage} {status : UInt8} {rest : Bytes}
    (hopen : s.isClosed = false) (hwrite : s.channel.socket.faults.write = false)
    (hflush : s.channel.socket.faults.flush = false) (hreply : WellFormedReply s ws status)
    (hunread : s.channel.unread = ws.flatMap WireMessage.encode ++ readyFrame status ++ rest) :
    (∀ sql octets, encode s.channel.charset (.query sql) = .ok octets →
      ∃ reply s', query sql s = .ok reply s' ∧
        Dispatched s (WireMessage.decodeAll s.options.allowEncodingChanges s.channel.charset ws)
          rest reply s') ∧
    ∀ st parameters, (∀ m ∈ s.closings ++ s.running (s.readied st) parameters,
        ∃ octets, encode s.channel.charset m = .ok octets) →
      ∃ reply s', execute st parameters s = .ok reply s' ∧
        Dispatched s (WireMessage.decodeAll s.options.allowEncodingChanges s.channel.charset ws)
          rest reply s' ∧
        ∃ st', reply.statement = some st' ∧
          (st'.isSuspended = true ↔ .portalSuspended ∈ ws) := by
  have hhealthy : ¬ (s.channel.socket.faults.write = true ∨
      s.channel.socket.faults.flush = true) := by
    rw [hwrite, hflush]
    decide
  constructor
  · intro sql octets hencode
    rcases sendQuery_cases (s.drafts [.query sql] octets) with
      ⟨c, hc, hsend⟩ | ⟨e, c, -, -, hfaults, -⟩
    · obtain ⟨-, -, hcharset⟩ := Channel.flush_ok hc
      have hkept : c.unread = s.channel.unread := (Channel.flush_keeps.ok hc).unread
      have hpasses : Passes (ws.flatMap WireMessage.encode ++ readyFrame status ++ rest) s
          { s.drafts [.query sql] octets with channel := c } :=
        ⟨hkept.trans hunread, hcharset, rfl, rfl, rfl⟩
      obtain ⟨reply, s', hrun, hdispatched, -⟩ := request_dispatched hreply hpasses hsend
      exact ⟨reply, s', (query_eq hopen hencode).trans hrun, hdispatched⟩
    · exact absurd hfaults hhealthy
  · intro st parameters hencode
    obtain ⟨closing, hclosing⟩ := mapM_ok fun m hm => hencode m (List.mem_append_left _ hm)
    obtain ⟨run, hrunning⟩ := mapM_ok fun m hm => hencode m (List.mem_append_right _ hm)
    have hsends := sendStatement_sends (s.readied st) parameters s
    generalize hsend : sendStatement (s.readied st) parameters s = sent at hsends
    cases hsends with
    | unclosed _ hfails =>
        rw [hclosing] at hfails
        cases hfails
    | refused _ _ hfails =>
        rw [hrunning] at hfails
        cases hfails
    | unwritten _ _ _ hfaults => exact absurd hfaults hhealthy
    | @written closing run c _ _ hkeeps _ hcharset _ =>
        have hkept : c.unread = s.channel.unread := hkeeps.unread
        have hpasses : Passes (ws.flatMap WireMessage.encode ++ readyFrame status ++ rest) s
            { (s.emptied.named (s.readied st)).drafts
                (s.closings ++ s.running (s.readied st) parameters)
                (closing.flatten ++ run.flatten) with channel := c } :=
          ⟨hkept.trans hunread, hcharset, rfl, rfl, rfl⟩
        obtain ⟨reply, s', hrun, hdispatched, hsuspended⟩ :=
          request_dispatched hreply hpasses hsend
        refine ⟨reply, s', (execute_eq hopen st parameters).trans hrun, hdispatched, ?_⟩
        rw [Option.map_some, isSuspended_readied, Option.map_some, Bool.false_or] at hsuspended
        cases hst : reply.statement with
        | none =>
            rw [hst] at hsuspended
            cases hsuspended
        | some st' =>
            rw [hst, Option.map_some, Option.some_inj] at hsuspended
            exact ⟨st', rfl, by rw [hsuspended, contains_portalSuspended]⟩

def sampleColumn : WireColumn where
  name := Utf8.encode "n"
  tableOid := 0
  attributeNumber := 0
  typeOid := 23
  typeSize := 4
  typeModifier := -1
  format := 0

/-- A reply of one row, with a notice, a notification and a setting in between,
that stops for want of more room and then fails. -/
def sampleReply : List WireMessage :=
  [.parseComplete, .bindComplete, .rowDescription [sampleColumn],
    .noticeResponse (Utf8.encode "SNOTICE"), .dataRow [some (Utf8.encode "1"), none],
    .parameterStatus (Utf8.encode "TimeZone") (Utf8.encode "UTC"),
    .notificationResponse 7 (Utf8.encode "c") (Utf8.encode "p"), .portalSuspended,
    .commandComplete (Utf8.encode "SELECT 1"), .errorResponse (Utf8.encode "SERROR")]

/-- What is about to arrive: that reply, and one octet more. -/
def sampleSocket : Socket :=
  { inbound := sampleReply.flatMap WireMessage.encode ++ readyFrame 0x49 ++ [0x21] }

def sampleSession : Session :=
  new { socket := sampleSocket, host := { name := "localhost", port := 5432 } } "postgres"
    "postgres" {}

theorem sampleReply_wellFormed : WellFormedReply sampleSession sampleReply 0x49 :=
  ⟨by decide +kernel, by decide +kernel, .inl rfl⟩

theorem reply_dispatched_sample :
    (∃ reply s', query "SELECT 1" sampleSession = .ok reply s' ∧
      Dispatched sampleSession (WireMessage.decodeAll false .utf8 sampleReply) [0x21] reply s') ∧
    ∃ reply s', execute { key := .parameterized "SELECT $1", native := "SELECT $1" } [none]
        sampleSession = .ok reply s' ∧
      Dispatched sampleSession (WireMessage.decodeAll false .utf8 sampleReply) [0x21] reply s' ∧
      ∃ st', reply.statement = some st' ∧
        (st'.isSuspended = true ↔ .portalSuspended ∈ sampleReply) := by
  have hsample := reply_dispatched rfl rfl rfl sampleReply_wellFormed rfl
  refine ⟨hsample.1 "SELECT 1" (frame 'Q' (Utf8.encode "SELECT 1" ++ [0])) (by decide +kernel),
    hsample.2 _ _ fun m hm => encode_of_zero_free fun text htext => ?_⟩
  exact (show ∀ m ∈ sampleSession.closings ++ sampleSession.running (sampleSession.readied
    { key := .parameterized "SELECT $1", native := "SELECT $1" }) [none], ∀ text ∈ m.texts,
      '\x00' ∉ text.toList by decide +kernel) m hm text htext

end Session

end PgClient
