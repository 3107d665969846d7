import PgClient.Login
import PgClient.Proofs.Dispatch
import PgClient.Proofs.Notices
import PgClient.Session.Startup

/-!
# What goes for every message goes for every call

A session takes messages in at three places: while the server announces itself, in the
reply to a request, and between requests. Each is a loop over messages, and around the
loop there is little more: a request is sent ahead of it, and an error that the session
cannot survive is looked into behind it. `CallLaw` lists what has to be shown of these
parts for a relation to hold of whole calls.

Before there is a session, a client proves who it is, which is a loop of the same kind.
-/

namespace PgClient

open Exchange

/-! ## Logging in -/

namespace Channel

variable {R : Channel → Option Halt → Channel → Prop}

/-- All that is said in answer to a request is a password. -/
theorem answer_obeys (hR : Composes R) (hstops : ∀ c halt, R c (some halt) c)
    (hsasl : ∀ host, Obeys R (record (.saslRequested host)))
    (hpassword : ∀ m, (Event.sending m).isAside = true → Obeys R (sendPassword m))
    (settings : ConnectionSettings) (request : AuthenticationRequest) :
    Obeys R (answer settings request) := by
  have hrequired : Obeys R (requiredPassword settings) := by
    unfold requiredPassword
    split
    · exact hR.pure _
    · exact fun c => hstops c _
  cases request with
  | ok => exact hR.pure true
  | cleartextPassword | md5Password =>
      exact hR.bind hrequired fun _ => (hpassword _ rfl).followed false
  | sasl => exact hR.bind hR.get fun _ => hR.bind (hsasl _) fun _ c => hstops c _
  | other method => exact fun c => hstops c _

/-- What goes for a message and for an answer goes for all of them. -/
theorem authenticate_obeys (hR : Composes R) (hstops : ∀ c halt, R c (some halt) c)
    {settings : ConnectionSettings} {detail : Bool} (hreceive : Obeys R (receive .login detail))
    (hanswer : ∀ request, Obeys R (answer settings request)) :
    Obeys R (authenticate settings detail) := by
  have hanswerAll : ∀ rounds, Obeys R (answerAll settings detail rounds) := by
    intro rounds
    induction rounds with
    | zero => exact fun c => hstops c _
    | succ rounds ih =>
        refine hR.bind hreceive fun m => ?_
        cases m with
        | authentication request =>
            refine hR.bind (hanswer request) fun last => ?_
            cases last with
            | true => exact hR.pure ()
            | false => exact ih
        | errorResponse report => exact fun c => hstops c _
        | _ => exact ih
  exact hR.bind hR.get fun _ => hanswerAll _

/-- An octet that is waited for has come, or the wait is over. -/
theorem awaitOctet_ok {wait : Nat} {c c' : Channel} {octet? : Option UInt8}
    (h : awaitOctet wait c = .ok octet? c') :
    (octet? = none ∧ Keeps c c') ∨ ∃ octet, octet? = some octet ∧ ReadsOff [octet] c c' := by
  unfold awaitOctet at h
  rw [bind_of_ok (modifyGet_apply _ c)] at h
  rcases htake : takeExactly 1 c with ⟨_ | octets, c₁⟩
  · rw [htake] at h
    rcases Nat.lt_or_ge c.unread.length 1 with hlt | hge
    · rw [takeExactly_short hlt] at htake
      obtain rfl := (Prod.mk.inj htake).2
      have hnone : c.unread = [] := List.length_eq_zero_iff.1 (by omega)
      simp only [] at h
      rw [bind_of_ok (get_apply _)] at h
      split at h
      · cases h
        exact .inl ⟨rfl, .of_journal hnone.symm rfl⟩
      · exact absurd ((runDry_apply _).symm.trans h) (by simp)
    · obtain ⟨c₂, h₂, -⟩ := takeExactly_append (List.take_append_drop 1 c.unread).symm
      rw [List.length_take_of_le hge, htake] at h₂
      cases (Prod.mk.inj h₂).1
  · rw [htake] at h
    cases h
    obtain ⟨hlen, hoff⟩ := takeExactly_some htake
    obtain ⟨octet, rfl⟩ := List.length_eq_one_iff.1 hlen
    exact .inr ⟨octet, rfl, hoff⟩

end Channel

namespace Session

/-- The messages of the announcement are read in a loop, as those of a reply are, and those that
arrive between requests. -/
theorem readAnnouncement_succ (limit : Nat) :
    readAnnouncement (limit + 1) = (do unless ← announceNext do readAnnouncement limit) := rfl

/-! ## Messages that report no setting -/

/-- What may become of a session through a message that reports no setting. -/
def Plain (s : Session) (_ : Option Halt) (s' : Session) : Prop :=
  s' = { s with
    channel := { s.channel with journal := s'.channel.journal }
    status := { s'.status with
      conformingStrings := s.status.conformingStrings
      backendKey := s.status.backendKey }
    failCause := s'.failCause
    statements := s'.statements
    pendingClose := s'.pendingClose
    epoch := s'.epoch }

theorem plain_composes : Composes Plain where
  refl _ := rfl
  trans := by
    intro s t u h hst htu
    unfold Plain at hst htu ⊢
    rw [htu, hst]

theorem onReady_plain (status : UInt8) : Obeys Plain (onReady status) := by
  unfold onReady
  simp only []
  split
  · exact fun _ => rfl
  · exact fun _ => rfl
  · exact fun _ => rfl
  · exact fun _ => rfl

theorem onError_plain (report : Report) : Obeys Plain (onError report) := by
  intro s
  rw [Conversation.onError_apply]
  rfl

theorem forgetStatements_plain : Obeys Plain forgetStatements := by
  intro s
  rw [Conversation.forgetStatements_apply]
  split <;> exact rfl

theorem takeIdle_plain {m : BackendMessage} (hm : m.tag ≠ .parameterStatus) :
    Obeys Plain (takeIdle m) := by
  cases m with
  | parameterStatus => exact absurd rfl hm
  | errorResponse report => exact plain_composes.bind (onError_plain report) fun _ _ => rfl
  | _ => exact fun _ => rfl

namespace Conversation

theorem onReport_plain (report : Report) :
    Obeys (fun c h c' => Plain c.session h c'.session) (onReport report) := by
  have hR := composes_session plain_composes
  refine hR.bind (onSession_obeys (onError_plain report)) fun e => ?_
  split
  · refine hR.bind hR.get fun c => ?_
    split <;> exact fun _ => rfl
  · exact fun _ => rfl

theorem take_plain {m : BackendMessage} (hm : m.tag ≠ .parameterStatus) :
    Obeys (fun c h c' => Plain c.session h c'.session) (take m) := by
  have hR := composes_session plain_composes
  cases m with
  | parameterStatus => exact absurd rfl hm
  | readyForQuery status =>
      exact hR.bind (onSession_obeys (onReady_plain status)) fun _ _ => rfl
  | parseComplete =>
      intro c
      rw [show take .parseComplete c = _ from bind_of_ok (onParsed_apply c)]
      rfl
  | commandComplete tag =>
      unfold take
      simp only []
      split
      · exact hR.bind (onSession_obeys forgetStatements_plain) fun _ _ => rfl
      · exact fun _ => rfl
  | errorResponse report => exact hR.bind (onReport_plain report) fun _ => hR.pure false
  | _ => exact fun _ => rfl

end Conversation

/-! ## Reports of settings -/

/-- A report is noted, whatever it says, before anything is made of it. -/
theorem onParameter_apply (name value : String) (s : Session) :
    ∃ parameters, onParameter name value s = onSetting name value { s with parameters } := by
  unfold onParameter
  split
  · exact ⟨s.parameters, rfl⟩
  · exact ⟨s.parameters.insert name value, rfl⟩

section

variable {R : Session → Option Halt → Session → Prop}

theorem onParameter_obeys (hR : Governs (Obeys R))
    (hnoted : ∀ {s s' : Session} {h : Option Halt} {parameters : List (String × String)},
      R { s with parameters } h s' → R s h s') (name value : String) :
    Obeys R (onParameter name value) := by
  intro s
  obtain ⟨parameters, hparameter⟩ := onParameter_apply name value s
  rw [hparameter]
  exact hnoted (hR.onSetting name value { s with parameters })

/-- The announcement is taken in by what takes settings in, and by what changes nothing of note. -/
theorem announce_obeys (hR : Composes R)
    (hplain : ∀ {s s' : Session} {h : Option Halt}, Plain s h s' → R s h s')
    (hkey : ∀ (s : Session) (key : BackendKey),
      R s none { s with status := { s.status with backendKey := some key } })
    (hparameter : ∀ name value, Obeys R (onParameter name value)) (m : BackendMessage) :
    Obeys R (announce m) := by
  cases m with
  | readyForQuery status => exact Obeys.followed (fun s => hplain (onReady_plain status s)) true
  | errorResponse report =>
      exact hR.bind (fun s => hplain (onError_plain report s)) fun _ _ => hplain rfl
  | backendKeyData key => exact Obeys.followed (fun s => hkey s key) false
  | noticeResponse report =>
      have hwarning : Obeys R (onWarning report) := fun _ => hplain rfl
      exact hwarning.followed false
  | parameterStatus name value => exact (hparameter name value).followed false
  | _ => exact fun _ => hplain rfl

theorem onError_of_aside
    (haside : ∀ {s s' : Session} {h : Option Halt}, Aside s h s' → R s h s') (report : Report) :
    Obeys R (onError report) := by
  intro s
  obtain ⟨e, s', hs', -, ha⟩ := onError_ok report s
  rw [hs']
  exact haside ha

/-- Apart from the key, and from what ends it, an announcement is asides. -/
theorem announce_of_aside (hR : Composes R)
    (haside : ∀ {s s' : Session} {h : Option Halt}, Aside s h s' → R s h s')
    (hkey : ∀ (s : Session) (key : BackendKey),
      R s none { s with status := { s.status with backendKey := some key } })
    (hfails : ∀ s halt, R s (some halt) s) (m : BackendMessage) : Obeys R (announce m) := by
  have hasides : ∀ {x : Exchange Session Unit}, Obeys Aside x → Obeys R x :=
    fun hx s => haside (hx s)
  cases m with
  | readyForQuery status => exact (hasides (onReady_aside status)).followed true
  | errorResponse report => exact hR.bind (onError_of_aside haside report) fun _ s => hfails s _
  | backendKeyData key => exact Obeys.followed (fun s => hkey s key) false
  | noticeResponse report => exact (hasides (onWarning_aside report)).followed false
  | parameterStatus name value => exact (hasides (onParameter_aside name value)).followed false
  | _ => exact fun s => hfails s _

/-- Apart from a report, what arrives between requests is asides. -/
theorem takeIdle_of_aside (hR : Composes R)
    (haside : ∀ {s s' : Session} {h : Option Halt}, Aside s h s' → R s h s')
    (hfails : ∀ s halt, R s (some halt) s) (m : BackendMessage) : Obeys R (takeIdle m) := by
  cases m with
  | notificationResponse notification => exact fun s => haside (onNotification_aside notification s)
  | noticeResponse report => exact fun s => haside (onWarning_aside report s)
  | parameterStatus name value => exact fun s => haside (onParameter_aside name value s)
  | errorResponse report => exact hR.bind (onError_of_aside haside report) fun _ s => hfails s _
  | _ => exact hR.refl

/-- What takes settings in takes in all that arrives between requests, if nothing of note comes of
the rest. -/
theorem takeIdle_obeys
    (hplain : ∀ {s s' : Session} {h : Option Halt}, Plain s h s' → R s h s')
    (hparameter : ∀ name value, Obeys R (onParameter name value)) (m : BackendMessage) :
    Obeys R (takeIdle m) := by
  by_cases hm : m.tag = .parameterStatus
  · cases m with
    | parameterStatus name value => exact hparameter name value
    | _ => cases hm
  · exact fun s => hplain (takeIdle_plain hm s)

/-- The same of the messages of a reply. -/
theorem Conversation.take_session_obeys
    (hplain : ∀ {s s' : Session} {h : Option Halt}, Plain s h s' → R s h s')
    (hparameter : ∀ name value, Obeys R (onParameter name value)) (m : BackendMessage) :
    Obeys (fun c h c' => R c.session h c'.session) (take m) := by
  by_cases hm : m.tag = .parameterStatus
  · cases m with
    | parameterStatus name value => exact (onSession_obeys (hparameter name value)).followed false
    | _ => cases hm
  · exact fun c => hplain (take_plain hm c)

/-- The tag of the next message is read by one operation and the rest by another. What only goes
for both of them together goes for the next message all the same. -/
theorem noticeNext_of_message (hR : Composes R) (wait : Nat)
    (hsilent : ∀ (s : Session) (c : Channel), s.channel.Keeps c → R s none { s with channel := c })
    (hlost : ∀ (s : Session) (c : Channel) (halt : Halt),
      Channel.awaitOctet wait s.channel = .error halt c → R s (some halt) { s with channel := c })
    (hmessage : ∀ (s : Session) (c : Channel) (octet : UInt8) (detail : Bool),
      s.channel.ReadsOff [octet] c → R s (halt? (Channel.receiveAfter .idle octet detail c))
        { s with channel := final (Channel.receiveAfter .idle octet detail c) })
    (htake : ∀ m, Obeys R (takeIdle m)) : Obeys R (noticeNext wait) := by
  intro s
  unfold noticeNext
  rw [bind_apply, onChannel_apply]
  cases hawait : Channel.awaitOctet wait s.channel with
  | error halt c => exact hlost s c halt hawait
  | ok octet? c =>
      rcases Channel.awaitOctet_ok hawait with ⟨rfl, hkeeps⟩ | ⟨octet, rfl, hoff⟩
      · exact hsilent s c hkeeps
      · simp only []
        rw [bind_of_ok (get_apply _), bind_apply, onChannel_apply]
        have hafter := hmessage s c octet s.options.showErrorDetail hoff
        cases hrest : Channel.receiveAfter .idle octet s.options.showErrorDetail c with
        | error halt c' =>
            rw [hrest] at hafter
            exact hafter
        | ok m c' =>
            rw [hrest] at hafter
            exact hR.trans hafter ((htake m).followed false { s with channel := c' })

end

/-! ## Calls -/

/-- What a request came to, as the halt of an operation. -/
def replyHalt : EStateM.Result Halt Session Reply → Option Halt
  | .ok reply _ =>
    match reply.result with
    | .ok () => none
    | .error e => some (.failed e)
  | .error halt _ => some halt

/-- What goes for a message that arrives between requests goes for all of them, if it is not lost
when an error is looked into. -/
theorem takeNotices_obeys {R : Session → Option Halt → Session → Prop} (hR : Composes R)
    (hended : ∀ s, R s (some (.failed .closed)) s) (hnext : ∀ wait, Obeys R (noticeNext wait))
    (hchecks : ∀ {s t : Session} {e : Error}, R s (some (.failed e)) t →
      R s (some (.failed e)) (final (checkFatal (.error e : Except Error Unit) t)))
    (wait : Option Nat) : Obeys R (takeNotices wait) := by
  have hensure : Obeys R ensureOpen := by
    refine hR.bind hR.get fun s => ?_
    split
    · exact hended
    · exact hR.pure ()
  refine hR.bind hensure fun _ => hR.bind hR.get fun s => ?_
  split
  · exact hR.pure ()
  · refine hR.bind hR.get fun s₁ => ?_
    generalize s₁.channel.unread.length + 1 = rounds
    intro s
    have hrun := hR.loop (takeArriving_succ (wait.getD 0)) (hR.pure ()) (hnext _) rounds s
    rw [bind_apply, attempt_apply]
    cases h : takeArriving (wait.getD 0) rounds s with
    | ok _ t =>
        rw [h] at hrun
        exact hrun
    | error halt t =>
        rw [h] at hrun
        cases halt with
        | waiting => exact hrun
        | failed e =>
            obtain ⟨t', ht', -⟩ := checkFatal_ends (α := Unit) e t
            have hchecked := hchecks hrun
            rw [final_error, ht'] at hchecked
            simp only []
            rw [bind_of_ok ht']
            exact hchecked

/-- What has to be shown of a relation for it to hold of every call. -/
structure CallLaw (R : Session → Option Halt → Session → Prop) : Prop extends Composes R where
  stops : ∀ s halt, R s (some halt) s
  drafts : ∀ s sql octets, R s none (s.drafts [.query sql] octets)
  flushes : Obeys R (onChannel Channel.flush)
  sends : ∀ st parameters, Obeys R (sendStatement st parameters)
  replies : Obeys (fun c h c' => R c.session h c'.session) Conversation.takeNext
  notices : ∀ wait, Obeys R (noticeNext wait)
  checks : ∀ {s t : Session} {e : Error}, R s (some (.failed e)) t →
    R s (some (.failed e)) (final (checkFatal (.error e : Except Error Unit) t))

namespace CallLaw

variable {R : Session → Option Halt → Session → Prop}

theorem readReply (hR : CallLaw R) :
    Obeys (fun c h c' => R c.session h c'.session) Conversation.readReply := by
  have hwaits : Obeys (fun c h c' => R c.session h c'.session) (Conversation.takeAll 0) :=
    fun c => hR.stops c.session _
  have hreply := Conversation.composes_session hR.toComposes
  exact Conversation.readReply_obeys hreply
    (hreply.loop Conversation.takeAll_succ hwaits hR.replies) (fun c => hR.refl c.session)
    fun e c => hR.stops c.session _

theorem converse (hR : CallLaw R) {send : Exchange Session (Option String)} (hsend : Obeys R send)
    (statement : Option Statement) (s₀ s : Session) :
    R s (replyHalt (converse { session := s₀, statement } (request send) s))
      (final (Session.converse { session := s₀, statement } (request send) s)) := by
  have hrequest : Obeys (fun c h c' => R c.session h c'.session) (request send) := by
    have hreply := Conversation.composes_session hR.toComposes
    refine hreply.bind (Conversation.onSession_obeys hsend) fun preparing => ?_
    exact hreply.bind (fun c => hR.refl c.session) fun _ => hR.readReply
  have hrun := hrequest { session := s, statement }
  cases hr : request send { session := s, statement } with
  | ok _ c =>
      rw [hr] at hrun
      rw [converse_of_ok (c := { session := s₀, statement }) hr]
      exact hrun
  | error halt c =>
      rw [hr] at hrun
      cases halt with
      | waiting =>
          rw [converse_of_waiting (c := { session := s₀, statement }) hr]
          exact hrun
      | failed e =>
          obtain ⟨s', hs', -⟩ := checkFatal_ends (α := Unit) e c.session
          have hchecked := hR.checks hrun
          rw [final_error, hs'] at hchecked
          rw [converse_of_checked (c := { session := s₀, statement }) hr hs']
          exact hchecked

theorem query (hR : CallLaw R) (sql : String) (s : Session) :
    R s (replyHalt (query sql s)) (final (Session.query sql s)) := by
  rcases query_refused_or_sent sql s with ⟨e, hrun, -⟩ | ⟨hopen, octets, hencode⟩
  · rw [hrun]
    exact hR.stops s _
  · rw [query_eq hopen hencode]
    have hsend : Obeys R sendQuery := hR.bind hR.flushes fun _ => hR.pure none
    exact hR.trans (hR.drafts s sql octets) (hR.converse hsend none s _)

theorem execute (hR : CallLaw R) (st : Statement) (parameters : List (Option Bytes))
    (s : Session) :
    R s (replyHalt (execute st parameters s)) (final (Session.execute st parameters s)) := by
  cases hclosed : s.isClosed with
  | true =>
      rw [execute_of_closed hclosed]
      exact hR.stops s _
  | false =>
      rw [execute_eq hclosed]
      exact hR.converse (hR.sends _ _) _ s s

theorem takeNotices (hR : CallLaw R) (wait : Option Nat) : Obeys R (takeNotices wait) :=
  takeNotices_obeys hR.toComposes (fun s => hR.stops s _) hR.notices hR.checks wait

end CallLaw

/-- How the beginning of a session ends. -/
inductive Begins (s : Session) : EStateM.Result Halt Session Unit → Prop where
  | begun {t : Session} (hstart : start s = .ok () t) :
      Begins s (.ok () { t with channel := t.channel.told (.ready t.party t.backendPid) })
  | waiting {t : Session} (hstart : start s = .error .waiting t) : Begins s (.error .waiting t)
  | failed {t s' : Session} {e : Error} (hstart : start s = .error (.failed e) t)
      (habort : abort t = .ok () s') : Begins s (.error (.failed e) s')

theorem begin_begins (s : Session) : Begins s (begin s) := by
  unfold begin
  rw [bind_apply, attempt_apply]
  cases hstart : start s with
  | ok _ t => exact .begun hstart
  | error halt t =>
      cases halt with
      | waiting => exact .waiting hstart
      | failed e =>
          obtain ⟨_, t', ht', -⟩ := abort_reaches t
          simp only []
          rw [bind_of_ok ht']
          exact .failed hstart ht'

/-- What goes for the announcement goes for the beginning of a session, if it is not lost when the
session is aborted. -/
theorem begin_obeys {R : Session → Option Halt → Session → Prop} (hR : Composes R)
    (hstart : Obeys R start) (hready : ∀ party pid, Obeys R (record (.ready party pid)))
    (haborts : ∀ {s t u : Session} {e : Error}, R s (some (.failed e)) t → abort t = .ok () u →
      R s (some (.failed e)) u) : Obeys R begin := by
  intro s
  have hbegins := begin_begins s
  generalize begin s = r at hbegins
  cases hbegins with
  | begun h => exact hR.trans (hstart.ok h) (hready _ _ _)
  | waiting h => exact hstart.error h
  | failed h habort => exact haborts (hstart.error h) habort

end Session

end PgClient
