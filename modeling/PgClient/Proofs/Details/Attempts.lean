import PgClient.Proofs.Attempts
import PgClient.Proofs.Details.Logins

/-!
# Attempts that differ in details

Whether a client asks for TLS is settled before it reads a first octet, by the mode, the host and
how many attempts it made (`TlsOptions.asks`). So what it makes of the octets that arrive over a
new socket is settled as well, and two sockets can be told to be the same up to details
(`Opening`, `Dialer.Same`). Attempts over such sockets come to the same stage, to errors that look
the same, and therefore to the same decision about another attempt.
-/

namespace PgClient

open Exchange

/-! ## Before the login -/

/-- Streams that are the same up to details for a client over a new socket, which asks for TLS
first or does not. The answer to that is one octet, `S` or `N`. -/
inductive Opening : Bool → Bytes → Bytes → Prop where
  | plain {u u' : Bytes} (h : AtLogin u u') : Opening false u u'
  | silent : Opening true [] []
  | refused {u u' : Bytes} (h : AtLogin u u') : Opening true (0x4E :: u) (0x4E :: u')
  /-- Nothing else may arrive before the handshake. -/
  | accepted {u u' : Bytes} (h : u = [] ↔ u' = []) : Opening true (0x53 :: u) (0x53 :: u')
  /-- Whatever else comes ends the attempt. -/
  | other {octet : UInt8} {u u' : Bytes} (hrefused : octet ≠ 0x4E) (haccepted : octet ≠ 0x53) :
      Opening true (octet :: u) (octet :: u')

/-- Handshakes after which the streams within TLS are the same up to details. -/
inductive Handshake.Same : Handshake → Handshake → Prop where
  | fails (reason : String) : Same (.fails reason) (.fails reason)
  | succeeds {inbound inbound' : Bytes} (h : AtLogin inbound inbound') (showsCertificate : Bool) :
      Same (.succeeds inbound showsCertificate) (.succeeds inbound' showsCertificate)

namespace Channel

variable {α : Type} {c c' : Channel} {connector : Connector} {tls : TlsOptions}
  {L : Bytes → Bytes → Prop} {seeming : Channel → Channel → Prop}

/-- Channels over new sockets. -/
structure Fresh (asks : Bool) (c c' : Channel) : Prop where
  veil : c'.veil = c.veil
  buffer : c.buffer = []
  buffer' : c'.buffer = []
  opening : Opening asks c.socket.inbound c'.socket.inbound
  handshake : c.socket.handshake.Same c'.socket.handshake

theorem host_of_veil (h : c'.veil = c.veil) : c'.host = c.host := by
  show c'.veil.host = c.veil.host
  rw [h]

/-- Nothing was read, and nothing was made of the handshake. -/
structure Unread (c : Channel) (_ : Option Halt) (c' : Channel) : Prop where
  buffer : c'.buffer = c.buffer
  inbound : c'.socket.inbound = c.socket.inbound
  handshake : c'.socket.handshake = c.socket.handshake

theorem unread_composes : Composes Unread where
  refl _ := ⟨rfl, rfl, rfl⟩
  trans h h' := ⟨h'.buffer.trans h.buffer, h'.inbound.trans h.inbound,
    h'.handshake.trans h.handshake⟩

theorem utter_unread (m : FrontendMessage) : Obeys Unread (utter m) := by
  have hlift : ∀ r : Except Error Bytes, Obeys Unread (Exchange.lift r : Exchange Channel Bytes) :=
    fun r c => by
      rw [final_lift]
      exact ⟨rfl, rfl, rfl⟩
  have hflush : Obeys Unread flush := by
    intro c
    have hwritten :
        Unread c none { c with outgoing := [], socket := c.socket.write c.outgoing } := by
      unfold Socket.write
      cases c.socket.medium <;> exact ⟨rfl, rfl, rfl⟩
    rw [flush_apply]
    split
    · exact unread_composes.refl c
    · split
      · exact ⟨rfl, rfl, rfl⟩
      · simp only []
        split <;> exact ⟨hwritten.buffer, hwritten.inbound, hwritten.handshake⟩
  refine unread_composes.bind (unread_composes.bind (hlift _) fun octets => ?_) fun _ => hflush
  exact fun _ => ⟨rfl, rfl, rfl⟩

/-- How channels compare after the server said whether it is ready for TLS. -/
structure Answered (ready ready' : Bool) (t t' : Channel) : Prop where
  same : ready' = ready
  veil : t'.veil = t.veil
  handshake : t.socket.handshake.Same t'.socket.handshake
  /-- What is read next is read within TLS. -/
  buffer : ready = true → t.hasBuffered = false ∧ t'.hasBuffered = false
  left : ready = false → AtLogin t.unread t'.unread

theorem unread_of_buffer (h : c.buffer = []) : c.unread = c.socket.inbound := by
  unfold unread
  rw [h]
  rfl

/-- The first octet over a new socket brings along what arrived with it. -/
theorem receiveOctet_first {octet : UInt8} {v : Bytes} (hbuffer : c.buffer = [])
    (hc : c.socket.inbound = octet :: v) :
    ∃ t, receiveOctet c = .ok octet t ∧ ReadsOff [octet] c t ∧
      (t.hasBuffered = false ↔ v = []) := by
  have htake : takeExactly 1 c = (some [octet], c.drawn 1 bufferSize) := by
    unfold takeExactly
    rw [hbuffer, hc]
    rfl
  obtain ⟨t, htake', hoff⟩ :=
    takeExactly_append (show c.unread = [octet] ++ v from (unread_of_buffer hbuffer).trans hc)
  obtain rfl : c.drawn 1 bufferSize = t :=
    congrArg Prod.snd (htake.symm.trans (show takeExactly 1 c = _ from htake'))
  refine ⟨_, ?_, hoff, ?_⟩
  · unfold receiveOctet receiveExactly
    rw [bind_assoc, bind_of_ok (modifyGet_apply _ c), htake]
    rfl
  · unfold hasBuffered drawn
    rw [hc]
    cases v <;> simp [bufferSize]

theorem sslVerdict_accepted (c : Channel) : sslVerdict 0x53 c =
    if c.hasBuffered then
      .error (.failed (.protocolViolation .unencryptedData)) (c.told .sslAccepted)
    else .ok true (c.told .sslAccepted) := by
  have hbuffered : (c.told .sslAccepted).hasBuffered = c.hasBuffered := rfl
  have hverdict : sslVerdict 0x53 = (do
      record .sslAccepted
      if (← get).hasBuffered then Exchange.fail (.protocolViolation .unencryptedData)
      return true) := rfl
  rw [hverdict, bind_of_ok (record_apply _ c), bind_of_ok (get_apply _), hbuffered]
  cases c.hasBuffered <;> rfl

/-- An octet that is no answer ends the attempt, and nothing else is looked at. -/
theorem sslVerdict_mirrors {octet : UInt8} (hrefused : octet ≠ 0x4E) (haccepted : octet ≠ 0x53) :
    Mirrors (Alike L) seeming (fun _ _ => False) (sslVerdict octet) (sslVerdict octet) := by
  have hletter : ∀ letter : UInt8, Char.ofNat octet.toNat = Char.ofNat letter.toNat →
      octet = letter := fun _ => charOfNat_toNat_inj
  unfold sslVerdict
  split
  · next h => exact absurd (hletter 0x53 h) haccepted
  · next h => exact absurd (hletter 0x4E h) hrefused
  · exact (record_mirrors rfl).bind fun _ _ _ => .fail rfl
  · exact .fail rfl

/-- Both runs begin with the same octet. -/
theorem Fresh.sslAnswer_step {asks : Bool} (h : Fresh asks c c') {octet : UInt8} {v v' : Bytes}
    (hc : c.socket.inbound = octet :: v) (hc' : c'.socket.inbound = octet :: v')
    (hverdict : ∀ {t t' : Channel}, t'.veil = t.veil →
      t.socket.handshake.Same t'.socket.handshake → t.unread = v → t'.unread = v' →
      (t.hasBuffered = false ↔ v = []) → (t'.hasBuffered = false ↔ v' = []) →
      Ends Answered Seems (sslVerdict octet t) (sslVerdict octet t')) :
    Ends Answered Seems (sslAnswer c) (sslAnswer c') := by
  obtain ⟨t, hrun, hoff, hbuffer⟩ := receiveOctet_first h.buffer hc
  obtain ⟨t', hrun', hoff', hbuffer'⟩ := receiveOctet_first h.buffer' hc'
  unfold sslAnswer
  rw [bind_of_ok hrun, bind_of_ok hrun']
  refine hverdict (by rw [hoff.veil, hoff'.veil, h.veil]) ?_
    (hoff.unread_eq ((unread_of_buffer h.buffer).trans hc))
    (hoff'.unread_eq ((unread_of_buffer h.buffer').trans hc')) hbuffer hbuffer'
  rw [hoff.same, hoff'.same]
  exact h.handshake

theorem sslAnswer_ends (h : Fresh true c c') :
    Ends Answered Seems (sslAnswer c) (sslAnswer c') := by
  have hopening := h.opening
  generalize hu : c.socket.inbound = u at hopening
  generalize hu' : c'.socket.inbound = u' at hopening
  cases hopening with
  | silent =>
      have hread : Twin (Alike fun _ _ => False) Seems Eq (receiveOctet c) (receiveOctet c') :=
        (dry_octet ((unread_of_buffer h.buffer).trans hu)).lost
          (dry_octet ((unread_of_buffer h.buffer').trans hu')) h.veil
      unfold sslAnswer
      exact (hread.ends fun h => h.seems).bind fun _ _ ⟨_, hnever⟩ => hnever.left.elim
  | refused hleft =>
      refine h.sslAnswer_step hu hu' fun {t t'} hveil hhandshake hv hv' _ _ => ?_
      refine .value ⟨rfl, ?_, hhandshake, nofun, fun _ => ?_⟩
      · show (t'.told .sslRefused).veil = (t.told .sslRefused).veil
        rw [veil_told, veil_told, hveil]
      · show AtLogin t.unread t'.unread
        rwa [hv, hv']
  | accepted hempty =>
      refine h.sslAnswer_step hu hu' fun {t t'} hveil hhandshake _ _ hbuffer hbuffer' => ?_
      have htold : (t'.told .sslAccepted).veil = (t.told .sslAccepted).veil := by
        rw [veil_told, veil_told, hveil]
      have hiff : t'.hasBuffered = false ↔ t.hasBuffered = false :=
        hbuffer'.trans (hempty.symm.trans hbuffer.symm)
      rw [sslVerdict_accepted, sslVerdict_accepted]
      cases hbuffered : t.hasBuffered with
      | false =>
          rw [hiff.2 hbuffered]
          exact .value ⟨rfl, htold, hhandshake, fun _ => ⟨hbuffered, hiff.2 hbuffered⟩, nofun⟩
      | true =>
          have hbuffered' : t'.hasBuffered = true :=
            eq_true_of_ne_false fun h => Bool.noConfusion (hbuffered.symm.trans (hiff.1 h))
          rw [hbuffered']
          exact .halted rfl ⟨htold, trivial⟩
  | other hrefused haccepted =>
      refine h.sslAnswer_step hu hu' fun hveil _ _ _ _ _ => ?_
      have hends : Twin Seems Seems _ _ _ :=
        (sslVerdict_mirrors hrefused haccepted).twin ⟨hveil, trivial⟩
      exact (hends.ends fun h => h).mono (fun h => h.1.elim) fun h => h

/-- What is said before the answer does not touch what arrives. -/
theorem negotiateSsl_ends (h : Fresh true c c') :
    Ends Answered Seems (negotiateSsl c) (negotiateSsl c') := by
  have hask : Mirrors Seems Seems Eq
      (do record (.sending .sslRequest); utter .sslRequest)
      (do record (.sending .sslRequest); utter .sslRequest) :=
    (record_mirrors rfl).andThen fun _ => utter_mirrors _
  have hkept : Obeys Unread (do record (.sending .sslRequest); utter .sslRequest) :=
    unread_composes.bind (fun _ => ⟨rfl, rfl, rfl⟩) fun _ => utter_unread _
  unfold negotiateSsl
  rw [← bind_assoc]
  refine ((hask.twin ⟨h.veil, trivial⟩).ends fun h => h).bind fun hrun hrun' ⟨_, ht⟩ => ?_
  have hsame := hkept.ok hrun
  have hsame' := hkept.ok hrun'
  refine sslAnswer_ends
    ⟨ht.veil, hsame.buffer.trans h.buffer, hsame'.buffer.trans h.buffer', ?_, ?_⟩
  · rw [hsame.inbound, hsame'.inbound]
    exact h.opening
  · rw [hsame.handshake, hsame'.handshake]
    exact h.handshake

/-! ## Putting TLS over a channel -/

theorem setHello_mirrors (hello : Hello) :
    Mirrors (Alike L) seeming Eq (setHello hello) (setHello hello) :=
  modify_mirrors (g := fun c => { c with socket := { c.socket with hello := some hello } })
    (fun _ => rfl) (fun _ => rfl) (fun _ => rfl) fun _ => rfl

theorem confirmIdentity_mirrors (connector : Connector) (tls : TlsOptions) (hello : Hello)
    (showsCertificate : Bool) :
    Mirrors (Alike L) seeming Eq (confirmIdentity connector tls hello showsCertificate)
      (confirmIdentity connector tls hello showsCertificate) := by
  unfold confirmIdentity
  split
  · exact .pure rfl
  · exact .pure rfl
  · exact .fail rfl
  · split
    · refine (setHello_mirrors _).andThen fun _ => ?_
      split
      · exact .pure rfl
      · exact .fail rfl
    · exact .pure rfl

/-- Within TLS a channel shows nothing that it did not show before. -/
theorem veil_withinTls (c : Channel) (inbound : Bytes) : (c.withinTls inbound).veil = { c.veil with
    outgoing := []
    charset := .utf8
    socket := { c.veil.socket with medium := .tls } } :=
  rfl

theorem establish_ends (host : Host) (hello : Hello) (showsCertificate : Bool)
    {inbound inbound' : Bytes} (hleft : AtLogin inbound inbound') (h : Seems c c') :
    Ends (fun _ _ => Alike AtLogin) Seems
      (establish connector tls host hello inbound showsCertificate c)
      (establish connector tls host hello inbound' showsCertificate c') := by
  have hconfirms : Mirrors Seems Seems Eq
      (do
        confirmIdentity connector tls hello showsCertificate
        record (.sslEstablished host tls.mode))
      (do
        confirmIdentity connector tls hello showsCertificate
        record (.sslEstablished host tls.mode)) :=
    (confirmIdentity_mirrors connector tls hello showsCertificate).andThen fun _ =>
      record_mirrors rfl
  unfold establish
  rw [← bind_assoc, ← bind_assoc]
  refine ((hconfirms.twin h).ends fun h => h).bind fun {_ _ t t'} _ _ ⟨_, ht⟩ =>
    .value ⟨?_, hleft⟩
  show (t'.withinTls inbound').veil = (t.withinTls inbound).veil
  rw [veil_withinTls, veil_withinTls, ht.veil]

theorem shakeHands_ends (host : Host) {handshake handshake' : Handshake}
    (hsame : handshake.Same handshake') (h : Seems c c') :
    Ends (fun _ _ => Alike AtLogin) Seems (shakeHands connector tls host handshake c)
      (shakeHands connector tls host handshake' c') := by
  let hello : Hello := { domain := host.name, settings := connector.settings }
  refine (((setHello_mirrors hello).twin h).ends fun h => h).bind fun _ _ ⟨_, ht⟩ => ?_
  cases hsame with
  | fails reason => cases connector.keyError? <;> exact .halted rfl ht
  | succeeds hleft showsCertificate => exact establish_ends host hello showsCertificate hleft ht

theorem startTls_ends (h : Answered true true c c') :
    Ends (fun _ _ => Alike AtLogin) Seems (startTls connector tls c)
      (startTls connector tls c') := by
  obtain ⟨hbuffer, hbuffer'⟩ := h.buffer rfl
  have hmedium : c'.socket.medium = c.socket.medium := by
    show c'.veil.socket.medium = c.veil.socket.medium
    rw [h.veil]
  have htold : Seems (c.told .sslStarting) (c'.told .sslStarting) :=
    ⟨by rw [veil_told, veil_told, h.veil], trivial⟩
  rw [startTls_apply, startTls_apply, hbuffer, hbuffer', hmedium, host_of_veil h.veil]
  simp only [Bool.false_eq_true, if_false]
  split
  · exact shakeHands_ends _ h.handshake htold
  · exact .halted rfl htold

/-! ## Encrypting -/

/-- A client that does not ask for TLS logs in right away. -/
theorem Fresh.plain (h : Fresh false c c') : AtLogin c.unread c'.unread := by
  have hopening := h.opening
  rw [← unread_of_buffer h.buffer, ← unread_of_buffer h.buffer'] at hopening
  cases hopening with
  | plain hleft => exact hleft

theorem enableSsl_ends (isRequired : Bool) (h : Fresh (!c.host.isLocal) c c') :
    Ends (fun _ _ => Alike AtLogin) Seems (enableSsl connector tls isRequired c)
      (enableSsl connector tls isRequired c') := by
  unfold enableSsl
  rw [bind_of_ok (get_apply c), bind_of_ok (get_apply c'), host_of_veil h.veil]
  cases hlocal : c.host.isLocal with
  | true =>
      rw [hlocal] at h
      cases isRequired with
      | true => exact .halted rfl ⟨h.veil, trivial⟩
      | false =>
          refine .value ⟨?_, h.plain⟩
          show (c'.told (.sslSkipped c.host)).veil = (c.told (.sslSkipped c.host)).veil
          rw [veil_told, veil_told, h.veil]
  | false =>
      rw [hlocal] at h
      simp only [Bool.false_eq_true, if_false]
      refine (negotiateSsl_ends h).bind fun {ready _ t t'} _ _ hanswer => ?_
      cases hanswer.same
      cases ready with
      | true => exact startTls_ends hanswer
      | false =>
          cases isRequired with
          | true => exact .halted rfl ⟨hanswer.veil, trivial⟩
          | false =>
              refine .value ⟨?_, hanswer.left rfl⟩
              show (t'.told (.sslUnavailable c.host)).veil = (t.told (.sslUnavailable c.host)).veil
              rw [veil_told, veil_told, hanswer.veil]

end Channel

/-- Whether a client that means to do this about TLS asks a server for it. Within one machine there
is nothing to ask for. -/
def Encryption.asks (host : Host) : Encryption → Bool
  | off => false
  | optional _ | required _ => !host.isLocal

theorem Channel.encrypt_ends {c c' : Channel} (tls : TlsOptions) (e : Encryption)
    (h : Fresh (e.asks c.host) c c') :
    Ends (fun _ _ => Alike AtLogin) Seems (encrypt tls e c) (encrypt tls e c') := by
  cases e with
  | off => exact .value ⟨h.veil, h.plain⟩
  | optional connector => exact enableSsl_ends false h
  | required connector => exact enableSsl_ends true h

/-! ## Attempts -/

/-- What comes of connecting a socket, up to details. -/
inductive Dial.Same (asks : Bool) : Dial → Dial → Prop where
  | connected {socket : Socket} {inbound : Bytes} {handshake : Handshake}
      (h : Opening asks socket.inbound inbound) (hhandshake : socket.handshake.Same handshake) :
      Same asks (.connected socket) (.connected { socket with inbound, handshake })
  | refused (reason : String) : Same asks (.refused reason) (.refused reason)
  | silent : Same asks .silent .silent

/-- Whether the k-th attempt of a client, counted from zero, asks for TLS. -/
def TlsOptions.asks (tls : TlsOptions) (host : Host) (k : Nat) : Bool :=
  !host.isLocal && match tls.mode with
    | .disable => false
    | .allow => k != 0
    | .prefer => k == 0
    | .require | .verifyCa | .verifyFull => true

namespace Dialer

/-- The journals say the same. -/
def Told (d d' : Dialer) : Prop :=
  d'.journal.map Event.redacted = d.journal.map Event.redacted

/-- Clients whose next sockets are the same up to details; which of them asks for TLS is known. -/
structure Same (asks : Nat → Bool) (d d' : Dialer) : Prop where
  told : d.Told d'
  dials : ∀ k, Dial.Same (asks k) (d.dial (d.dialed + k)) (d'.dial (d'.dialed + k))

/-- What is left of such sockets after one of them. -/
abbrev Next (asks : Nat → Bool) (d d' : Dialer) : Prop :=
  Same (fun k => asks (k + 1)) d d'

/-- What comes of attempts that differ in details. -/
inductive Resembles :
    Except AttemptFailure Session → Except AttemptFailure Session → Prop where
  | opened {s s' : Session} (h : Session.After (Ahead Still) s s') : Resembles (.ok s) (.ok s')
  | failed {stage : Stage} {e e' : Error} (he : e'.redacted = e.redacted) :
      Resembles (.error { stage, error := e }) (.error { stage, error := e' })

variable {asks : Nat → Bool} {d d' : Dialer} {α σ : Type}

theorem Same.told_event (h : Same asks d d') {event event' : Event}
    (hevent : event'.redacted = event.redacted) : Same asks (d.told event) (d'.told event') := by
  refine ⟨?_, h.dials⟩
  show (d'.journal.push event').map _ = (d.journal.push event).map _
  rw [Array.map_push, Array.map_push, hevent, show d'.journal.map _ = _ from h.told]

theorem connect_ends (host : Host) (timeout : Option Nat) (h : Same asks d d') :
    Ends (fun c c' d d' => Channel.Fresh (asks 0) c c' ∧ c.host = host ∧ Next asks d d')
      (Next asks) (connect host timeout d) (connect host timeout d') := by
  have hnext : Next asks { d with dialed := d.dialed + 1 } { d' with dialed := d'.dialed + 1 } := by
    refine ⟨h.told, fun k => ?_⟩
    have hdial := h.dials (k + 1)
    rw [show d.dialed + (k + 1) = d.dialed + 1 + k by omega,
      show d'.dialed + (k + 1) = d'.dialed + 1 + k by omega] at hdial
    exact hdial
  have hdial := h.dials 0
  rw [Nat.add_zero, Nat.add_zero] at hdial
  unfold connect
  rw [bind_of_ok (get_apply d), bind_of_ok (get_apply d')]
  generalize d.dial d.dialed = dial at hdial ⊢
  generalize d'.dial d'.dialed = dial' at hdial ⊢
  cases hdial with
  | connected hopening hhandshake =>
      refine .value ⟨⟨?_, rfl, rfl, hopening, hhandshake⟩, rfl, hnext⟩
      unfold Channel.veil
      rw [show d'.journal.map Event.redacted = d.journal.map Event.redacted from h.told]
  | refused reason => exact .halted rfl (hnext.told_event rfl)
  | silent =>
      cases timeout with
      | none => exact .halted rfl hnext
      | some millis => exact .halted rfl (hnext.told_event rfl)

section

variable {after : α → α → σ → σ → Prop} {seeming : σ → σ → Prop} {y y' : Exchange σ α} {s s' : σ}

/-- What an operation of a channel adds to the journal is the dialer's as well. -/
theorem within_ends (channel : σ → Channel) (h : Same asks d d')
    (hy : Ends after seeming (y s) (y' s'))
    (hafter : ∀ {a a' t t'}, after a a' t t' → (channel t').veil = (channel t).veil)
    (hseeming : ∀ {t t'}, seeming t t' → (channel t').veil = (channel t).veil) :
    Ends (fun p p' d d' => after p.1 p'.1 p.2 p'.2 ∧ Same asks d d') (Same asks)
      (within channel y s d) (within channel y' s' d') := by
  unfold within
  generalize y s = r at hy
  generalize y' s' = r' at hy
  cases hy with
  | value ht => exact .value ⟨ht, congrArg Channel.journal (hafter ht), h.dials⟩
  | halted hhalt ht => exact .halted hhalt ⟨congrArg Channel.journal (hseeming ht), h.dials⟩

end

/-- How attempts compare that differ in details. -/
abbrev Likewise (P : Dialer → Dialer → Prop) :
    EStateM.Result Halt Dialer (Except AttemptFailure Session) →
      EStateM.Result Halt Dialer (Except AttemptFailure Session) → Prop :=
  Ends (fun outcome outcome' d d' => Resembles outcome outcome' ∧ P d d') P

variable {P : Dialer → Dialer → Prop} {after : α → α → Dialer → Dialer → Prop}
  {x x' : Exchange Dialer α} {f f' : α → ExceptT AttemptFailure (Exchange Dialer) Session}

/-- A stage that both come through is followed by another one. -/
theorem staged_ends {stage : Stage} (hx : Ends after P (x d) (x' d'))
    (hf : ∀ {a a' t t'}, after a a' t t' → Likewise P ((f a).run t) ((f' a').run t')) :
    Likewise P ((staged stage x >>= f).run d) ((staged stage x' >>= f').run d') := by
  generalize hrun : x d = r at hx
  generalize hrun' : x' d' = r' at hx
  cases hx with
  | value h =>
      rw [bind_reached (staged_of_ok hrun), bind_reached (staged_of_ok hrun')]
      exact hf h
  | @halted halt halt' _ _ hhalt h =>
      rw [bind_stopped (staged_of_error hrun), bind_stopped (staged_of_error hrun')]
      cases halt with
      | waiting =>
          cases halt' with
          | waiting => exact .halted rfl h
          | failed e' => cases hhalt
      | failed e =>
          cases halt' with
          | waiting => cases hhalt
          | failed e' => exact .value ⟨.failed (Halt.failed.inj hhalt), h⟩

/-- A session begins in the same way over channels that are the same up to details. -/
theorem begin_ends {s s' : Session} (h : Session.Alike (Ahead Still) s s') :
    Ends (fun _ _ => Session.After (Ahead Still)) (Session.Alike fun _ _ => True)
      (Session.begin s) (Session.begin s') := by
  have hpaired := Session.begin_paired (F := Still) ⟨rfl, rfl⟩ h
  generalize Session.begin s = r at hpaired
  generalize Session.begin s' = r' at hpaired
  cases hpaired with
  | value _ ht => exact .value ht
  | failed he ht => exact .halted (congrArg Halt.failed he) (ht.mono fun _ _ _ => trivial)
  | waiting ht => exact .halted rfl ht

theorem enter_ends {s s' : Session} (hs : Session.Alike (Ahead Still) s s') (h : Same asks d d') :
    Likewise (Same asks) ((enter s).run d) ((enter s').run d') := by
  refine staged_ends (within_ends Session.channel h (begin_ends hs)
    (fun h => congrArg Session.channel h.veil) fun h => congrArg Session.channel h.veil) ?_
  intro p p' t t' ⟨hp, ht⟩
  exact .value ⟨.opened hp, ht⟩

theorem logIn_ends (settings : ConnectionSettings) {o : SessionOptions}
    (hquiet : o.showErrorDetail = false) {c c' : Channel} (hc : Channel.Alike AtLogin c c')
    (h : Same asks d d') :
    Likewise (Same asks) ((logIn settings o c).run d) ((logIn settings o c').run d') := by
  unfold logIn
  rw [hquiet]
  refine staged_ends (within_ends id h (Channel.login_ends hc) (fun h => h.veil) fun h => h.veil) ?_
  intro p p' t t' ⟨hp, ht⟩
  have hveil : ∀ c : Channel, (Session.new { c with readTimeout := limit? settings.socketTimeout }
      settings.user settings.databaseName o).veil = { Session.new
        { c.veil with readTimeout := limit? settings.socketTimeout } settings.user
          settings.databaseName o with failCause := none } := fun _ => rfl
  exact enter_ends ⟨by rw [hveil, hveil, hp.veil], hp.left, hquiet⟩ ht

theorem attempt_ends (settings : ConnectionSettings) {o : SessionOptions}
    (hquiet : o.showErrorDetail = false) (tls : TlsOptions) (e : Encryption)
    (hasks : asks 0 = e.asks settings.address) (h : Same asks d d') :
    Likewise (Next asks) ((attempt settings o tls e).run d)
      ((attempt settings o tls e).run d') := by
  have htold : Same asks (d.told (.connecting settings.address))
      (d'.told (.connecting settings.address)) := h.told_event rfl
  rw [attempt, record_reached, record_reached]
  refine staged_ends (connect_ends settings.address (limit? settings.connectTimeout) htold) ?_
  intro c c' t t' hconnected
  obtain ⟨hfresh, hhost, ht⟩ := hconnected
  rw [hasks, ← hhost] at hfresh
  refine staged_ends (within_ends id ht (Channel.encrypt_ends tls e hfresh) (fun h => h.veil)
    fun h => h.veil) ?_
  intro p p' u u' hencrypted
  exact logIn_ends settings hquiet hencrypted.1 hencrypted.2

/-! ## Other attempts -/

variable {first second : ExceptT AttemptFailure (Exchange Dialer) Session}
  {again : AttemptFailure → Bool} {event : AttemptFailure → Event}

/-- Whether another attempt is made does not depend on details. -/
theorem retrying_ends
    (hagain : ∀ {stage e e'}, e'.redacted = e.redacted →
      again { stage, error := e' } = again { stage, error := e })
    (hevent : ∀ {stage e e'}, e'.redacted = e.redacted →
      (event { stage, error := e' }).redacted = (event { stage, error := e }).redacted)
    (hfirst : Likewise (Same asks) (first.run d) (first.run d'))
    (hsecond : ∀ {t t'}, Same asks t t' → Likewise (Next asks) (second.run t) (second.run t')) :
    Likewise Told ((retrying first second again event).run d)
      ((retrying first second again event).run d') := by
  rw [retrying_run, retrying_run]
  generalize first.run d = r at hfirst
  generalize first.run d' = r' at hfirst
  cases hfirst with
  | halted hhalt h => exact .halted hhalt h.told
  | value h =>
      obtain ⟨houtcome, ht⟩ := h
      cases houtcome with
      | opened hs => exact .value ⟨.opened hs, ht.told⟩
      | failed he =>
          simp only [hagain he]
          split
          · exact (hsecond (ht.told_event (hevent he))).mono (fun h => ⟨h.1, h.2.told⟩)
              fun h => h.told
          · exact .value ⟨.failed he, ht.told⟩

theorem isRejectedLogin_same {stage : Stage} {e e' : Error} (he : e'.redacted = e.redacted) :
    ({ stage, error := e' } : AttemptFailure).isRejectedLogin =
      ({ stage, error := e } : AttemptFailure).isRejectedLogin := by
  unfold AttemptFailure.isRejectedLogin
  simp only [Error.sqlState_congr he]

theorem attempts_ends (settings : ConnectionSettings) {o : SessionOptions}
    (hquiet : o.showErrorDetail = false) (tls : TlsOptions) (connector : Connector)
    (h : Same (tls.asks settings.address) d d') :
    Likewise Told ((attempts settings o tls connector).run d)
      ((attempts settings o tls connector).run d') := by
  have hone : ∀ {asks : Nat → Bool} {d d' : Dialer} (e : Encryption), Same asks d d' →
      asks 0 = e.asks settings.address →
      Likewise (Next asks) ((attempt settings o tls e).run d)
        ((attempt settings o tls e).run d') := fun e h hasks =>
    attempt_ends settings hquiet tls e hasks h
  have honly : ∀ e : Encryption, tls.asks settings.address 0 = e.asks settings.address →
      Likewise Told ((attempt settings o tls e).run d) ((attempt settings o tls e).run d') :=
    fun e hasks => (hone e h hasks).mono (fun h => ⟨h.1, h.2.told⟩) fun h => h.told
  unfold attempts
  cases hmode : tls.mode with
  | disable => exact honly .off (by rw [TlsOptions.asks, hmode, Bool.and_false]; rfl)
  | require | verifyCa | verifyFull =>
      exact honly (.required connector) (by rw [TlsOptions.asks, hmode, Bool.and_true]; rfl)
  | allow =>
      refine retrying_ends isRejectedLogin_same (fun _ => rfl) (hone .off h ?_)
        fun ht => hone (.required connector) ht ?_
      · rw [TlsOptions.asks, hmode, show (0 != 0) = false from rfl, Bool.and_false]
        rfl
      · rw [TlsOptions.asks, hmode, show (0 + 1 != 0) = true from rfl, Bool.and_true]
        rfl
  | prefer =>
      refine retrying_ends (fun he => by rw [isRejectedLogin_same he])
        (fun he => congrArg (Event.sslFailed _) he)
        (hone (.optional connector) h ?_) fun ht => hone .off ht ?_
      · rw [TlsOptions.asks, hmode, show (0 == 0) = true from rfl, Bool.and_true]
        rfl
      · rw [TlsOptions.asks, hmode, show (0 + 1 == 0) = false from rfl, Bool.and_false]
        rfl

/-- A client opens sessions that are alike, or fails in ways that look the same, over sockets that
are the same up to details. -/
theorem openSession_ends (store : KeyStore) (settings : ConnectionSettings) {o : SessionOptions}
    (hquiet : o.showErrorDetail = false) (tls : TlsOptions)
    (h : Same (tls.asks settings.address) d d') :
    Ends (fun s s' t t' => Session.After (Ahead Still) s s' ∧ Told t t') Told
      (openSession store settings o tls d) (openSession store settings o tls d') := by
  have hsettled : ∀ {r r'}, Likewise Told r r' →
      Ends (fun s s' t t' => Session.After (Ahead Still) s s' ∧ Told t t') Told (settled r)
        (settled r') := by
    intro r r' hr
    cases hr with
    | halted hhalt ht => exact .halted hhalt ht
    | value ht =>
        obtain ⟨houtcome, ht⟩ := ht
        cases houtcome with
        | opened hs => exact .value ⟨hs, ht⟩
        | failed he => exact .halted (congrArg Halt.failed he) ht
  have hattempts := fun connector => hsettled (attempts_ends settings hquiet tls connector h)
  unfold openSession
  split
  · have hrun := hattempts (Connector.custom {})
    rw [← settled_eq, ← settled_eq] at hrun
    exact hrun
  · cases Connector.ofOptions store tls with
    | error e => exact .halted rfl h.told
    | ok connector =>
        have hrun := hattempts connector
        rw [← settled_eq, ← settled_eq] at hrun
        exact hrun

end Dialer

end PgClient
