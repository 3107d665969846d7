import PgClient.Dialer
import PgClient.Proofs.Calls
import PgClient.Proofs.Frontend
import PgClient.Proofs.Talk

/-!
# What is said before the channel is encrypted

Before a client says who it is, it may ask for TLS. The request is all that it says
until then (`Reserved`), and a handshake that goes wrong says nothing more. Once TLS was
put over a channel, what is said goes there and nowhere else (`Secured`); so what a
session's channel sent in the clear tells of everything that could be overheard.

The other half is what a login says first. Whoever it talks to, the octets begin with the
message that says who the client is, or nothing was said at all and the client itself
found the fault (`Introduces`). So an error of the server always is an answer to it.
-/

namespace PgClient

open Exchange

/-- The octets that ask for TLS. -/
def sslRequest : Bytes :=
  FrontendMessage.withLength (Bytes.int32 FrontendMessage.sslRequestCode)

/-- A socket over which nothing was said. -/
structure Socket.IsNew (s : Socket) : Prop where
  medium : s.medium ≠ .tls
  clear : s.clear = []
  encrypted : s.encrypted = []

namespace Channel

variable {connector : Connector} {tls : TlsOptions} {c c' : Channel}

/-! ## Saying nothing -/

/-- Nothing is said. -/
structure Quiet (c : Channel) (_ : Option Halt) (c' : Channel) : Prop where
  host : c'.host = c.host
  outgoing : c'.outgoing = c.outgoing
  took : c.socket.Took [] c'.socket

theorem quiet_composes : Composes Quiet where
  refl _ := ⟨rfl, rfl, Socket.took_nil rfl⟩
  trans h h' := ⟨h'.host.trans h.host, h'.outgoing.trans h.outgoing, h.took.trans h'.took⟩

theorem record_quiet (event : Event) : Obeys Quiet (record event) :=
  fun _ => ⟨rfl, rfl, Socket.took_nil rfl⟩

theorem fail_quiet {α : Type} (e : Error) : Obeys Quiet (fail e : Exchange Channel α) :=
  fun _ => ⟨rfl, rfl, Socket.took_nil rfl⟩

theorem reading_quiet {α : Type} {x : Exchange Channel α} (hx : Obeys Reading x) :
    Obeys Quiet x := by
  intro c
  obtain ⟨octets, hoff⟩ := (hx c).reads
  rw [hoff.same]
  exact ⟨rfl, rfl, Socket.took_nil rfl⟩

/-- Events are written down whatever happens. -/
theorem records_quiet {α : Type} (event : α → Event) (xs : List α) (c : Channel) :
    ∃ t, xs.forM (fun x => record (event x)) c = .ok () t ∧ Quiet c none t := by
  induction xs generalizing c with
  | nil => exact ⟨c, rfl, quiet_composes.refl c⟩
  | cons x xs ih =>
      obtain ⟨t, ht, hquiet⟩ := ih (c.told (event x))
      exact ⟨t, ht, quiet_composes.trans (record_quiet (event x) c) hquiet⟩

/-! ## Saying one message -/

/-- How saying a message ends. -/
inductive Utters (m : FrontendMessage) (c : Channel) (h : Option Halt) (c' : Channel) : Prop where
  | said {octets : Bytes} (hencode : m.encode .utf8 = .ok octets) (hhost : c'.host = c.host)
      (hout : c'.outgoing = []) (htook : c.socket.Took octets c'.socket)
  | unsaid {e : Error} (hhalt : h = some (.failed e)) (hclient : e.serverError? = none)
      (hhost : c'.host = c.host) (htook : c.socket.Took [] c'.socket)

/-- Writing takes everything, or fails on this side. -/
theorem flush_utters {m : FrontendMessage} (hencode : m.encode .utf8 = .ok c.outgoing) :
    Utters m c (halt? (flush c)) (final (flush c)) := by
  have hwritten : c.socket.Took c.outgoing (c.socket.write c.outgoing) :=
    Socket.took_write _ _
  rw [flush_apply]
  split
  · next hempty =>
      rw [hempty] at hencode
      exact .said hencode rfl hempty (Socket.took_nil rfl)
  · split
    · exact .unsaid rfl rfl rfl (Socket.took_nil rfl)
    · simp only []
      split <;> exact .said hencode rfl rfl hwritten

theorem utter_utters (m : FrontendMessage) (hout : c.outgoing = []) :
    Utters m c (halt? (utter m c)) (final (utter m c)) := by
  unfold utter sendMessage
  rw [bind_assoc]
  cases hencode : m.encode .utf8 with
  | error e =>
      obtain ⟨fault, rfl⟩ := FrontendMessage.encode_blames .utf8 m e hencode
      exact .unsaid rfl rfl rfl (Socket.took_nil rfl)
  | ok octets =>
      have hsend : (Exchange.lift (.ok octets) >>= send) c =
          .ok () { c with outgoing := octets } := by
        rw [show ({ c with outgoing := octets } : Channel) =
          { c with outgoing := c.outgoing ++ octets } by rw [hout]; rfl]
        rfl
      rw [← bind_assoc, bind_of_ok hsend]
      cases flush_utters (c := { c with outgoing := octets }) hencode with
      | said hencode hhost hout htook => exact .said hencode hhost hout htook
      | unsaid hhalt hclient hhost htook => exact .unsaid hhalt hclient hhost htook

/-! ## Asking for TLS -/

/-- What goes for reading octets, for a word to the journal and for a failure goes for reading
the answer. -/
theorem sslAnswer_obeys {R : Channel → Option Halt → Channel → Prop} (hR : Composes R)
    (hreading : ∀ {α : Type} {x : Exchange Channel α}, Obeys Reading x → Obeys R x)
    (hrecord : ∀ event, Obeys R (record event))
    (hfail : ∀ {α : Type} (e : Error), Obeys R (fail e : Exchange Channel α)) :
    Obeys R sslAnswer := by
  refine hR.bind (hreading receiveOctet_reading) fun octet => ?_
  unfold sslVerdict
  split
  · exact hR.bind (hrecord _) fun _ => hR.bind hR.get fun _ => hR.guard (hfail _) (hR.pure true)
  · exact hR.bind (hrecord _) fun _ => hR.pure false
  · exact hR.bind (hrecord _) fun _ => hfail _
  · exact hfail _

theorem sslAnswer_quiet : Obeys Quiet sslAnswer :=
  sslAnswer_obeys quiet_composes reading_quiet record_quiet fail_quiet

/-- Nothing was said but, unless the server is on this machine, that TLS is wanted. -/
structure Reserved (c : Channel) : Prop where
  medium : c.socket.medium ≠ .tls
  clear : c.socket.clear = [] ∨ c.socket.clear = sslRequest ∧ c.host.isLocal = false
  encrypted : c.socket.encrypted = []

/-- A channel over which nothing was said and nothing is about to be. -/
structure IsNew (c : Channel) : Prop where
  socket : c.socket.IsNew
  outgoing : c.outgoing = []

theorem IsNew.reserved (h : c.IsNew) : c.Reserved :=
  ⟨h.socket.medium, .inl h.socket.clear, h.socket.encrypted⟩

/-- Saying nothing does not give anything away. -/
theorem Reserved.quiet (h : c.Reserved) (hhost : c'.host = c.host)
    (htook : c.socket.Took [] c'.socket) : c'.Reserved := by
  obtain ⟨hclear, hencrypted⟩ := htook.plain h.medium
  rw [List.append_nil] at hclear
  refine ⟨htook.medium ▸ h.medium, ?_, hencrypted.trans h.encrypted⟩
  rw [hclear, hhost]
  exact h.clear

theorem IsNew.quiet {h : Option Halt} (hnew : c.IsNew) (hquiet : Quiet c h c') : c'.IsNew := by
  have hreserved := hnew.reserved.quiet hquiet.host hquiet.took
  obtain ⟨hclear, -⟩ := hquiet.took.plain hnew.socket.medium
  rw [hnew.socket.clear] at hclear
  exact ⟨⟨hreserved.medium, hclear, hreserved.encrypted⟩, hquiet.outgoing.trans hnew.outgoing⟩

/-- The request for TLS is the one thing that may be said over a new channel. -/
theorem IsNew.asked {h : Option Halt} (hnew : c.IsNew) (hlocal : c.host.isLocal = false)
    (hasked : Utters .sslRequest c h c') : c'.Reserved := by
  cases hasked with
  | unsaid _ _ hhost htook => exact hnew.reserved.quiet hhost htook
  | said hencode hhost _ htook =>
      cases hencode
      obtain ⟨hclear, hencrypted⟩ := htook.plain hnew.socket.medium
      rw [hnew.socket.clear, List.nil_append] at hclear
      refine ⟨htook.medium ▸ hnew.socket.medium, .inr ⟨hclear, ?_⟩, ?_⟩
      · rw [hhost, hlocal]
      · exact hencrypted.trans hnew.socket.encrypted

/-- What is left once the server was asked for TLS, or could not be asked. -/
structure Negotiates (c : Channel) (h : Option Halt) (c' : Channel) : Prop where
  reserved : c'.Reserved
  host : c'.host = c.host
  outgoing : h = none → c'.outgoing = []

theorem negotiateSsl_negotiates (hnew : c.IsNew) (hlocal : c.host.isLocal = false) :
    Negotiates c (halt? (negotiateSsl c)) (final (negotiateSsl c)) := by
  have htold : (c.told (.sending .sslRequest)).IsNew :=
    hnew.quiet (record_quiet (.sending .sslRequest) c)
  have hutter := utter_utters .sslRequest htold.outgoing
  have hreserved := htold.asked hlocal hutter
  unfold negotiateSsl
  rw [bind_of_ok (record_apply _ c), bind_apply]
  cases hrun : utter .sslRequest (c.told (.sending .sslRequest)) with
  | error halt c' =>
      rw [hrun] at hutter hreserved
      cases hutter with
      | said _ hhost => exact ⟨hreserved, hhost, nofun⟩
      | unsaid _ _ hhost => exact ⟨hreserved, hhost, nofun⟩
  | ok _ c' =>
      rw [hrun] at hutter hreserved
      have hanswer := sslAnswer_quiet c'
      cases hutter with
      | unsaid hhalt => cases hhalt
      | said _ hhost hout _ =>
          exact ⟨hreserved.quiet hanswer.host hanswer.took, hanswer.host.trans hhost,
            fun _ => hanswer.outgoing.trans hout⟩

/-! ## Putting TLS over a channel -/

/-- The server's name is confirmed as far as the options leave that to their verifier. -/
def Confirms (tls : TlsOptions) (domain : String) (showsCertificate : Bool) : Prop :=
  tls.mode ≠ .disable → ∀ verifier ∈ tls.verifier, verifier.accepts domain showsCertificate = true

theorem confirmIdentity_quiet (connector : Connector) (tls : TlsOptions) (hello : Hello)
    (showsCertificate : Bool) :
    Obeys Quiet (confirmIdentity connector tls hello showsCertificate) := by
  have hset : ∀ hello, Obeys Quiet (setHello hello) :=
    fun _ _ => ⟨rfl, rfl, Socket.took_nil rfl⟩
  unfold confirmIdentity
  split
  · exact quiet_composes.pure ()
  · exact quiet_composes.pure ()
  · exact fail_quiet _
  · split
    · refine quiet_composes.bind (hset _) fun _ => ?_
      split
      · exact quiet_composes.pure ()
      · exact fail_quiet _
    · exact quiet_composes.pure ()

theorem confirmIdentity_ok {hello : Hello} {showsCertificate : Bool}
    (h : confirmIdentity connector tls hello showsCertificate c = .ok () c') :
    Confirms tls hello.domain showsCertificate := by
  intro hmode verifier hverifier
  have hcheck : hostnameCheck tls.mode connector tls.verifier.isSome = .custom := by
    rw [hostnameCheck, if_neg hmode, Option.mem_def.1 hverifier]
    rfl
  unfold confirmIdentity at h
  rw [hcheck, Option.mem_def.1 hverifier] at h
  obtain ⟨_, _, -, hverdict⟩ := bind_ok h
  by_cases haccepts : verifier.accepts hello.domain showsCertificate = true
  · exact haccepts
  · rw [if_neg haccepts] at hverdict
    cases hverdict

/-- How putting TLS over a channel ends. -/
inductive StartsTls (connector : Connector) (tls : TlsOptions) (c : Channel) :
    EStateM.Result Halt Channel Unit → Prop where
  | fails {halt : Halt} {c' : Channel} (hhost : c'.host = c.host)
      (htook : c.socket.Took [] c'.socket) : StartsTls connector tls c (.error halt c')
  | starts {inbound : Bytes} {showsCertificate : Bool} {c' : Channel}
      (hmedium : c.socket.medium = .tcp)
      (hhandshake : c.socket.handshake = .succeeds inbound showsCertificate)
      (hconfirmed : Confirms tls c.host.name showsCertificate) (hquiet : Quiet c none c') :
      StartsTls connector tls c (.ok () (c'.withinTls inbound))

theorem establish_starts {t : Channel} {h : Option Halt} {hello : Hello} {inbound : Bytes}
    {showsCertificate : Bool} (hquiet : Quiet c h t) (hmedium : t.socket.medium = .tcp)
    (hhandshake : t.socket.handshake = .succeeds inbound showsCertificate)
    (hdomain : hello.domain = t.host.name) (host : Host) :
    StartsTls connector tls c (establish connector tls host hello inbound showsCertificate t) := by
  have hconfirm := confirmIdentity_quiet connector tls hello showsCertificate t
  unfold establish
  rw [bind_apply]
  cases hrun : confirmIdentity connector tls hello showsCertificate t with
  | error halt c' =>
      rw [hrun] at hconfirm
      exact .fails (hconfirm.host.trans hquiet.host) (hquiet.took.trans hconfirm.took)
  | ok _ c' =>
      rw [hrun] at hconfirm
      have hconfirmed := confirmIdentity_ok hrun
      rw [hdomain, hquiet.host] at hconfirmed
      exact .starts (hquiet.took.medium ▸ hmedium) (hquiet.took.handshake ▸ hhandshake) hconfirmed
        ⟨hconfirm.host.trans hquiet.host, hconfirm.outgoing.trans hquiet.outgoing,
          hquiet.took.trans hconfirm.took⟩

theorem shakeHands_starts {t : Channel} (hquiet : Quiet c none t)
    (hmedium : t.socket.medium = .tcp) :
    StartsTls connector tls c (shakeHands connector tls t.host t.socket.handshake t) := by
  -- the client's first word of TLS is noted on the socket, and no octet of it counts as said
  let hello : Hello := { domain := t.host.name, settings := connector.settings }
  have hhello : Quiet t none { t with socket := { t.socket with hello := some hello } } :=
    ⟨rfl, rfl, Socket.took_nil rfl⟩
  have hready := quiet_composes.trans hquiet hhello
  unfold shakeHands
  rw [bind_of_ok (show setHello hello t = .ok () _ from rfl)]
  cases hhandshake : t.socket.handshake with
  | fails reason =>
      cases connector.keyError? with
      | none => exact .fails hready.host hready.took
      | some text => exact .fails hready.host hready.took
  | succeeds inbound showsCertificate =>
      exact establish_starts hready hmedium hhandshake rfl _

/-- TLS is put over a plain socket that nothing was read ahead of. -/
theorem startTls_apply (connector : Connector) (tls : TlsOptions) (c : Channel) :
    startTls connector tls c =
      if c.hasBuffered then
        .error (.failed (.protocolViolation .unencryptedData)) (c.told .sslStarting)
      else if c.socket.medium = .tcp then
        shakeHands connector tls c.host c.socket.handshake (c.told .sslStarting)
      else .error (.failed (.tls (.notOverTcp c.host))) (c.told .sslStarting) := by
  have hrelease : (c.told .sslStarting).release? =
      if c.hasBuffered then .error (.protocolViolation .unencryptedData) else .ok c.socket := rfl
  unfold startTls
  rw [bind_of_ok (record_apply _ c), bind_of_ok (get_apply _), hrelease]
  by_cases hbuffered : c.hasBuffered = true
  · rw [if_pos hbuffered, if_pos hbuffered]
    rfl
  · rw [if_neg hbuffered, if_neg hbuffered, bind_of_ok
      (show Exchange.lift (.ok c.socket) (c.told .sslStarting) = .ok c.socket _ from rfl)]
    by_cases hmedium : c.socket.medium = .tcp
    · simp only [hmedium, ne_eq, not_true_eq_false, if_false, if_true]
      rfl
    · simp only [hmedium, ne_eq, not_false_eq_true, if_true, if_false]
      rfl

theorem startTls_starts (connector : Connector) (tls : TlsOptions) (c : Channel) :
    StartsTls connector tls c (startTls connector tls c) := by
  have htold : Quiet c none (c.told .sslStarting) := record_quiet .sslStarting c
  rw [startTls_apply]
  split
  · exact .fails htold.host htold.took
  · split
    · next hmedium => exact shakeHands_starts htold hmedium
    · exact .fails htold.host htold.took

theorem startTls_ok (h : startTls connector tls c = .ok () c') :
    ∃ t inbound showsCertificate, Quiet c none t ∧ c' = t.withinTls inbound ∧
      c.socket.handshake = .succeeds inbound showsCertificate ∧
      Confirms tls c.host.name showsCertificate := by
  have hstarts := startTls_starts connector tls c
  rw [h] at hstarts
  cases hstarts with
  | starts _ hhandshake hconfirmed hquiet =>
      exact ⟨_, _, _, hquiet, rfl, hhandshake, hconfirmed⟩

/-- TLS was put over the channel before anything but the request for it was said. -/
inductive Secured (connector : Connector) (tls : TlsOptions) (c : Channel) : Prop where
  | intro {before after : Channel} (hreserved : before.Reserved)
      (hstart : startTls connector tls before = .ok () after) (hserves : Serves after c)

theorem Secured.serves (h : c.Secured connector tls) (hserves : Serves c c') :
    c'.Secured connector tls := by
  obtain ⟨hreserved, hstart, hbefore⟩ := h
  exact ⟨hreserved, hstart, hbefore.trans hserves⟩

/-- What is said over a channel with TLS is not said in the clear. -/
theorem Secured.clear (h : c.Secured connector tls) : c.socket.medium = .tls ∧
    (c.socket.clear = [] ∨ c.socket.clear = sslRequest ∧ c.host.isLocal = false) := by
  obtain ⟨hreserved, hstart, hserves⟩ := h
  obtain ⟨octets, htook⟩ := hserves.took
  obtain ⟨t, inbound, -, hquiet, rfl, -⟩ := startTls_ok hstart
  refine ⟨htook.medium, ?_⟩
  rw [(htook.tls rfl).1, hserves.host]
  exact (hreserved.quiet hquiet.host hquiet.took).clear

/-- How a new channel comes out of an attempt to encrypt it. -/
inductive Encrypts (connector : Connector) (tls : TlsOptions) (isRequired : Bool) (c : Channel) :
    EStateM.Result Halt Channel Unit → Prop where
  /-- The server was not asked, or is not ready for it. -/
  | plain {c' : Channel} (hoptional : isRequired = false) (hreserved : c'.Reserved)
      (hhost : c'.host = c.host) (hout : c'.outgoing = []) :
      Encrypts connector tls isRequired c (.ok () c')
  | secured {c' : Channel} (hsecured : c'.Secured connector tls) (hhost : c'.host = c.host)
      (hout : c'.outgoing = []) (hencrypted : c'.socket.encrypted = []) :
      Encrypts connector tls isRequired c (.ok () c')
  | fails {halt : Halt} {c' : Channel} (hreserved : c'.Reserved) (hhost : c'.host = c.host) :
      Encrypts connector tls isRequired c (.error halt c')

/-- A server that is ready for TLS is talked to within TLS, or not at all. -/
theorem encrypts_of_ready (isRequired : Bool) {t : Channel} (hreserved : t.Reserved)
    (hhost : t.host = c.host) :
    Encrypts connector tls isRequired c (startTls connector tls t) := by
  have hstarts := startTls_starts connector tls t
  cases hrun : startTls connector tls t with
  | error halt c' =>
      rw [hrun] at hstarts
      cases hstarts with
      | fails hhost' htook =>
          exact .fails (hreserved.quiet hhost' htook) (hhost'.trans hhost)
  | ok _ c' =>
      obtain ⟨u, inbound, -, hquiet, rfl, -⟩ := startTls_ok hrun
      exact .secured ⟨hreserved, hrun, .refl _⟩ (hquiet.host.trans hhost) rfl
        (hreserved.quiet hquiet.host hquiet.took).encrypted

theorem enableSsl_encrypts (connector : Connector) (tls : TlsOptions) (isRequired : Bool)
    (hnew : c.IsNew) :
    Encrypts connector tls isRequired c (enableSsl connector tls isRequired c) := by
  unfold enableSsl
  rw [bind_of_ok (get_apply c)]
  cases hlocal : c.host.isLocal with
  | true =>
      cases isRequired with
      | true => exact .fails hnew.reserved rfl
      | false =>
          have hskipped := hnew.quiet (record_quiet (.sslSkipped c.host) c)
          exact .plain rfl hskipped.reserved rfl hskipped.outgoing
  | false =>
      have hasks := negotiateSsl_negotiates hnew hlocal
      simp only [Bool.false_eq_true, if_false]
      rw [bind_apply]
      cases hrun : negotiateSsl c with
      | error halt c' =>
          rw [hrun] at hasks
          exact .fails hasks.reserved hasks.host
      | ok ready c' =>
          rw [hrun] at hasks
          cases ready with
          | true => exact encrypts_of_ready isRequired hasks.reserved hasks.host
          | false =>
              cases isRequired with
              | true => exact .fails hasks.reserved hasks.host
              | false =>
                  have htold := record_quiet (.sslUnavailable c.host) c'
                  exact .plain rfl (hasks.reserved.quiet htold.host htold.took) hasks.host
                    (hasks.outgoing rfl)

/-! ## Saying who the client is -/

/-- How a login ends: what is said first is who the client is. -/
inductive Introduces (s : ConnectionSettings) (c : Channel) (h : Option Halt) (c' : Channel) :
    Prop where
  | said {octets rest : Bytes}
      (hencode : (FrontendMessage.startup s.startupParameters).encode .utf8 = .ok octets)
      (hhost : c'.host = c.host) (htook : c.socket.Took (octets ++ rest) c'.socket)
  | unsaid {e : Error} (hhalt : h = some (.failed e)) (hclient : e.serverError? = none)
      (hhost : c'.host = c.host) (htook : c.socket.Took [] c'.socket)

variable {s : ConnectionSettings}

theorem Introduces.host {h : Option Halt} (hi : Introduces s c h c') : c'.host = c.host := by
  cases hi with
  | said _ hhost _ => exact hhost
  | unsaid _ _ hhost _ => exact hhost

theorem sendStartup_utters (hout : c.outgoing = []) :
    Utters (.startup s.startupParameters) c (halt? (sendStartup s c))
      (final (sendStartup s c)) := by
  obtain ⟨t, ht, hquiet⟩ := records_quiet (fun p => Event.startupParameter p.1 p.2)
    s.startupParameters c
  have hrun : sendStartup s c = utter (.startup s.startupParameters) t := bind_of_ok ht
  rw [hrun]
  cases utter_utters (.startup s.startupParameters) (hquiet.outgoing.trans hout) with
  | said hencode hhost hout htook =>
      exact .said hencode (hhost.trans hquiet.host) hout (hquiet.took.trans htook)
  | unsaid hhalt hclient hhost htook =>
      exact .unsaid hhalt hclient (hhost.trans hquiet.host) (hquiet.took.trans htook)

/-! ## Proving who the client is -/

theorem sendMessage_talks (m : FrontendMessage) : Obeys Talks (sendMessage m) := by
  unfold sendMessage
  cases m.encode .utf8 with
  | error e => exact talks_composes.bind (fail_talks e) send_talks
  | ok octets => exact talks_composes.bind (talks_composes.pure octets) send_talks

theorem sendPassword_talks (m : FrontendMessage) : Obeys Talks (sendPassword m) :=
  talks_composes.bind (record_talks _) fun _ =>
    talks_composes.bind (sendMessage_talks m) fun _ => flush_talks

theorem authenticate_talks (s : ConnectionSettings) (showDetail : Bool) :
    Obeys Talks (authenticate s showDetail) := by
  have hstops : ∀ (c : Channel) (halt : Halt), Talks c (some halt) c :=
    fun c _ => talks_composes.refl c
  exact authenticate_obeys talks_composes hstops (receive_talks .login showDetail)
    (answer_obeys talks_composes hstops (fun _ => record_talks _)
      (fun m _ => sendPassword_talks m) s)

/-! ## Logging in -/

/-- What was said first stays what was said first. -/
theorem Introduces.serves {h : Option Halt} {d : Channel} (hi : Introduces s c none c')
    (hserves : Serves c' d) : Introduces s c h d := by
  cases hi with
  | unsaid hhalt => cases hhalt
  | said hencode hhost htook =>
      obtain ⟨more, hmore⟩ := hserves.took
      have hboth := htook.trans hmore
      rw [List.append_assoc] at hboth
      exact .said hencode (hserves.host.trans hhost) hboth

theorem Utters.introduces {h : Option Halt}
    (hu : Utters (.startup s.startupParameters) c h c') : Introduces s c h c' := by
  cases hu with
  | @said octets hencode hhost _ htook =>
      rw [← List.append_nil octets] at htook
      exact .said hencode hhost htook
  | unsaid hhalt hclient hhost htook => exact .unsaid hhalt hclient hhost htook

theorem refuse_failed (e : Error) (c : Channel) : ∃ c', refuse e c = .error (.failed e) c' ∧
    c'.host = c.host ∧ c.socket.Took [] c'.socket := by
  unfold refuse
  rw [bind_apply, attempt_apply, close_apply]
  cases c.socket.faults.shutdown with
  | true => exact ⟨_, rfl, rfl, Socket.took_nil rfl⟩
  | false => exact ⟨_, rfl, rfl, Socket.took_nil rfl⟩

theorem present_introduces (hout : c.outgoing = []) (showDetail : Bool) :
    Introduces s c (halt? (present s showDetail c)) (final (present s showDetail c)) := by
  have hstartup := (sendStartup_utters (s := s) hout).introduces
  unfold present
  rw [bind_apply]
  cases hrun : sendStartup s c with
  | error halt c' =>
      rw [hrun] at hstartup
      exact hstartup
  | ok _ c' =>
      rw [hrun] at hstartup
      exact hstartup.serves (authenticate_talks s showDetail c').toServes

theorem login_introduces (hout : c.outgoing = []) (showDetail : Bool) :
    Introduces s c (halt? (login s showDetail c)) (final (login s showDetail c)) := by
  have hpresent := present_introduces (s := s) hout showDetail
  rw [show login s showDetail c = ((present s showDetail).attempt >>= _) c from rfl, bind_apply,
    attempt_apply]
  cases hrun : present s showDetail c with
  | ok _ c' =>
      rw [hrun] at hpresent
      exact hpresent
  | error halt c' =>
      rw [hrun] at hpresent
      cases halt with
      | waiting => exact hpresent
      | failed e =>
          obtain ⟨d, hrefuse, hhost, htook⟩ := refuse_failed e c'
          have hfinal : Introduces s c (some (.failed e)) d := by
            cases hpresent with
            | said hencode hhost' htook' =>
                have hboth := htook'.trans htook
                rw [List.append_nil] at hboth
                exact .said hencode (hhost.trans hhost') hboth
            | unsaid hhalt hclient hhost' htook' =>
                exact .unsaid hhalt hclient (hhost.trans hhost') (htook'.trans htook)
          show Introduces s c (halt? (refuse e c')) (final (refuse e c'))
          rw [hrefuse]
          exact hfinal

end Channel

namespace Session

/-! ## The beginning of a session -/

/-- Something may be said over the channel of a session, which stays the one it is. -/
def Serves (s : Session) (_ : Option Halt) (s' : Session) : Prop :=
  Channel.Serves s.channel s'.channel

/-- What happens to the channel of a session. -/
def OnChannel (R : Channel → Channel → Prop) (s : Session) (_ : Option Halt) (s' : Session) :
    Prop :=
  R s.channel s'.channel

theorem Plain.remains {s s' : Session} {h : Option Halt} (hplain : Plain s h s') :
    s.channel.Remains s'.channel := by
  rw [hplain]
  exact ⟨⟨rfl, [], Socket.took_nil rfl⟩, rfl⟩

/-- A session begins with talking over its channel, and perhaps another character set. -/
theorem begin_onChannel {R : Channel → Channel → Prop} (htrans : ∀ {c d e}, R c d → R d e → R c e)
    (htalks : ∀ {c d : Channel}, c.Remains d → R c d)
    (hrecodes : ∀ (c : Channel) charset, R c { c with charset }) :
    Obeys (OnChannel R) begin := by
  have hcomposes : Composes (OnChannel R) :=
    ⟨fun s => htalks (talks_composes.refl s), fun hst htu => htrans hst htu⟩
  have hsame : ∀ {s s' : Session}, s'.channel = s.channel → R s.channel s'.channel :=
    fun {s s'} hchannel => by
      rw [hchannel]
      exact hcomposes.refl s
  have hgoverns : Governs (Obeys (OnChannel R)) :=
    { assembles_of_composes hcomposes with
      told := fun event _ s => htalks (onChannel_talks (Channel.record_talks event) s)
      recodes := fun charset s => htrans
        (htalks (onChannel_talks (Channel.record_talks (.charsetSet s.channel.host charset)) s))
        (hrecodes _ charset)
      sets := fun f h s => hsame (by rw [modify_apply, final_ok, h.settings s])
      leaves := fun cause => hcomposes.bind (fun s => htalks (talks_endures.close s)) fun _ =>
        hcomposes.refl
      fails := fun _ _ => hcomposes.refl }
  have hannounce : ∀ m, Obeys (OnChannel R) (announce m) :=
    announce_obeys hcomposes (fun hplain => htalks hplain.remains) (fun _ _ => hsame rfl)
      (onParameter_obeys hgoverns fun h => h)
  have hnext : Obeys (OnChannel R) announceNext :=
    hcomposes.bind (fun s => htalks (receive_talks .startup s)) hannounce
  have hstart : Obeys (OnChannel R) start :=
    hcomposes.loop readAnnouncement_succ hcomposes.refl hnext maxStartupMessages
  refine begin_obeys hcomposes hstart (fun party pid s => ?_) fun hs habort => ?_
  · exact htalks (onChannel_talks (Channel.record_talks (.ready party pid)) s)
  · exact htrans hs (htalks (talks_endures.abort.ok habort))

theorem begin_serves : Obeys Serves begin :=
  begin_onChannel .trans (·.toServes) fun _ _ => ⟨rfl, [], Socket.took_nil rfl⟩

end Session

end PgClient
