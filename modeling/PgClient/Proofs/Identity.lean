import Mathlib.Data.List.Basic
import PgClient.Proofs.Attempts

/-!
# A server that the verifier refuses

A verifier is asked after the handshake, and a refusal goes by the same stage as a handshake that
went wrong. `Refused` says of a channel what its socket and the options have to say for that: a
handshake was begun over it, it went well, and the verifier does not accept the host. Nothing that
follows the encryption of a channel changes any of it, so that a refused channel is one whose
encryption failed for that reason, and nothing but the request for TLS was said over it.

What becomes of the refusal is up to the mode. It is what opening a session comes to, and no
channel follows, unless the mode prefers encryption. Then it counts as a handshake that went
wrong, and the client says who it is to the same host in the clear.
-/

namespace PgClient

open Exchange

namespace Channel

variable {connector : Connector} {tls : TlsOptions} {c c' : Channel}

/-- A handshake over the channel went well, and the verifier does not accept the server. -/
inductive Refused (tls : TlsOptions) (c : Channel) : Prop where
  | intro {hello : Hello} {verifier : Verifier} {inbound : Bytes} {showsCertificate : Bool}
      (hbegun : c.socket.hello = some hello)
      (hhandshake : c.socket.handshake = .succeeds inbound showsCertificate)
      (hverifier : tls.verifier = some verifier)
      (hrefuses : verifier.accepts c.host.name showsCertificate = false)

/-- The verifier was asked, and what it said is the failure. -/
inductive Refusal (tls : TlsOptions) (c : Channel) : Halt → Prop where
  | intro {hello : Hello} {verifier : Verifier} {inbound : Bytes} {showsCertificate : Bool}
      (hhandshake : c.socket.handshake = .succeeds inbound showsCertificate)
      (hverifier : tls.verifier = some verifier)
      (hbegun : c.socket.hello = some hello) (hasked : hello.asked = some showsCertificate) :
      Refusal tls c (.failed (.connectionFailure (.identityRefused c.host.name verifier.name)))

/-- An operation after which a server is refused only if it failed for that reason. -/
def Vets (tls : TlsOptions) (h : Option Halt) (c : Channel) : Prop :=
  c.Refused tls → ∃ halt, h = some halt ∧ c.Refusal tls halt

theorem vets_of_unbegun {h : Option Halt} (hbegun : c.socket.hello = none) : Vets tls h c := by
  rintro ⟨hsome, -, -, -⟩
  rw [hbegun] at hsome
  cases hsome

theorem vets_of_unverified {h : Option Halt} (hverifier : tls.verifier = none) :
    Vets tls h c := by
  rintro ⟨-, -, hsome, -⟩
  rw [hverifier] at hsome
  cases hsome

theorem vets_of_handshake {h : Option Halt} {reason : String}
    (hfails : c.socket.handshake = .fails reason) : Vets tls h c := by
  rintro ⟨-, hsucceeds, -, -⟩
  rw [hfails] at hsucceeds
  cases hsucceeds

theorem vets_of_accepted {h : Option Halt} {verifier : Verifier} {inbound : Bytes}
    {showsCertificate : Bool} (hverifier : tls.verifier = some verifier)
    (hhandshake : c.socket.handshake = .succeeds inbound showsCertificate)
    (haccepts : verifier.accepts c.host.name showsCertificate = true) : Vets tls h c := by
  rintro ⟨-, hhandshake', hverifier', hrefuses⟩
  rw [hverifier] at hverifier'
  rw [hhandshake] at hhandshake'
  cases hverifier'
  cases hhandshake'
  rw [haccepts] at hrefuses
  cases hrefuses

/-! ## Encrypting a channel -/

/-- The channel once the verifier was asked. -/
def asking (c : Channel) (hello : Hello) (showsCertificate : Bool) : Channel :=
  { c with socket :=
    { c.socket with hello := some { hello with asked := some showsCertificate } } }

/-- With a verifier, no other check of the name is made. -/
theorem confirmIdentity_verified {verifier : Verifier} (hmode : tls.mode ≠ .disable)
    (hverifier : tls.verifier = some verifier) (hello : Hello) (showsCertificate : Bool) :
    confirmIdentity connector tls hello showsCertificate c =
      if verifier.accepts hello.domain showsCertificate then
        .ok () (c.asking hello showsCertificate)
      else .error (.failed (.connectionFailure (.identityRefused hello.domain verifier.name)))
        (c.asking hello showsCertificate) := by
  have hcheck : hostnameCheck tls.mode connector tls.verifier.isSome = .custom := by
    rw [hostnameCheck, if_neg hmode, hverifier]
    rfl
  unfold confirmIdentity
  rw [hcheck, hverifier]
  simp only []
  rw [bind_of_ok (show setHello _ c = .ok () (c.asking hello showsCertificate) from rfl)]
  cases verifier.accepts hello.domain showsCertificate <;> rfl

theorem establish_vets (connector : Connector) {hello : Hello} {inbound : Bytes}
    {showsCertificate : Bool} (hmode : tls.mode ≠ .disable)
    (hhandshake : c.socket.handshake = .succeeds inbound showsCertificate)
    (hdomain : hello.domain = c.host.name) (host : Host) :
    Vets tls (halt? (establish connector tls host hello inbound showsCertificate c))
      (final (establish connector tls host hello inbound showsCertificate c)) := by
  unfold establish
  cases hverifier : tls.verifier with
  | none => exact vets_of_unverified hverifier
  | some verifier =>
      have hconfirm : confirmIdentity connector tls hello showsCertificate c = _ :=
        confirmIdentity_verified hmode hverifier hello showsCertificate
      rw [hdomain] at hconfirm
      cases haccepts : verifier.accepts c.host.name showsCertificate with
      | true =>
          rw [haccepts, if_pos rfl] at hconfirm
          rw [bind_of_ok hconfirm]
          exact vets_of_accepted hverifier hhandshake haccepts
      | false =>
          rw [haccepts, if_neg Bool.false_ne_true] at hconfirm
          rw [bind_of_error hconfirm]
          exact fun _ => ⟨_, rfl, .intro (c := c.asking hello showsCertificate)
            hhandshake hverifier rfl rfl⟩

theorem shakeHands_vets (connector : Connector) (hmode : tls.mode ≠ .disable) (c : Channel) :
    Vets tls (halt? (shakeHands connector tls c.host c.socket.handshake c))
      (final (shakeHands connector tls c.host c.socket.handshake c)) := by
  -- the handshake is noted on the socket whatever comes of it
  let hello : Hello := { domain := c.host.name, settings := connector.settings }
  unfold shakeHands
  rw [bind_of_ok (show setHello hello c = .ok () _ from rfl)]
  cases hhandshake : c.socket.handshake with
  | fails reason => cases connector.keyError? <;> exact vets_of_handshake hhandshake
  | succeeds inbound showsCertificate =>
      exact establish_vets (c := { c with socket := { c.socket with hello := some hello } })
        connector hmode hhandshake rfl _

theorem startTls_vets (connector : Connector) (hmode : tls.mode ≠ .disable)
    (hbegun : c.socket.hello = none) :
    Vets tls (halt? (startTls connector tls c)) (final (startTls connector tls c)) := by
  have htold : (c.told .sslStarting).socket.hello = none := hbegun
  rw [startTls_apply]
  split
  · exact vets_of_unbegun htold
  · split
    · exact shakeHands_vets connector hmode (c.told .sslStarting)
    · exact vets_of_unbegun htold

/-! ## What is known of the server -/

/-- What is known of the server at the other side stays as it is. -/
structure Knows (c c' : Channel) : Prop where
  host : c'.host = c.host
  hello : c'.socket.hello = c.socket.hello
  handshake : c'.socket.handshake = c.socket.handshake

theorem Remains.knows (h : Remains c c') : Knows c c' := by
  refine ⟨h.host, ?_, ?_⟩ <;> rw [h.same]

theorem Knows.trans {d : Channel} (h : Knows c c') (h' : Knows c' d) : Knows c d :=
  ⟨h'.host.trans h.host, h'.hello.trans h.hello, h'.handshake.trans h.handshake⟩

/-- A server is not refused later on. -/
theorem Refused.known (h : c'.Refused tls) (hknows : Knows c c') : c.Refused tls := by
  obtain ⟨hbegun, hhandshake, hverifier, hrefuses⟩ := h
  rw [hknows.hello] at hbegun
  rw [hknows.handshake] at hhandshake
  rw [hknows.host] at hrefuses
  exact ⟨hbegun, hhandshake, hverifier, hrefuses⟩

theorem negotiateSsl_talks : Obeys Talks negotiateSsl := by
  unfold negotiateSsl
  refine talks_composes.bind (record_talks _) fun _ => ?_
  refine talks_composes.bind ?_ fun _ =>
    sslAnswer_obeys talks_composes reading_talks record_talks fail_talks
  exact talks_composes.bind (sendMessage_talks _) fun _ => flush_talks

theorem enableSsl_vets (connector : Connector) (isRequired : Bool) (hmode : tls.mode ≠ .disable)
    (hbegun : c.socket.hello = none) :
    Vets tls (halt? (enableSsl connector tls isRequired c))
      (final (enableSsl connector tls isRequired c)) := by
  have hsame := (negotiateSsl_talks c).knows.hello
  unfold enableSsl
  rw [bind_of_ok (get_apply c)]
  split
  · cases isRequired <;> exact vets_of_unbegun hbegun
  · rw [bind_apply]
    cases hrun : negotiateSsl c with
    | error halt c' =>
        rw [hrun, hbegun] at hsame
        exact vets_of_unbegun hsame
    | ok ready c' =>
        rw [hrun, hbegun] at hsame
        cases ready with
        | true => exact startTls_vets connector hmode hsame
        | false => cases isRequired <;> exact vets_of_unbegun hsame

theorem encrypt_vets (e : Encryption) (hmode : e ≠ .off → tls.mode ≠ .disable)
    (hbegun : c.socket.hello = none) :
    Vets tls (halt? (encrypt tls e c)) (final (encrypt tls e c)) := by
  cases e with
  | off => exact vets_of_unbegun hbegun
  | optional connector => exact enableSsl_vets connector false (hmode nofun) hbegun
  | required connector => exact enableSsl_vets connector true (hmode nofun) hbegun

theorem login_talks (s : ConnectionSettings) (showDetail : Bool) :
    Obeys Talks (login s showDetail) := by
  have hparameters : ∀ ps : List (String × String),
      Obeys Talks (ps.forM fun p => record (.startupParameter p.1 p.2)) := by
    intro ps
    induction ps with
    | nil => exact talks_composes.pure ()
    | cons p ps ih => exact talks_composes.bind (record_talks _) fun _ => ih
  have hpresent : Obeys Talks (present s showDetail) :=
    talks_composes.bind
      (talks_composes.bind (hparameters s.startupParameters) fun _ =>
        talks_composes.bind (sendMessage_talks _) fun _ => flush_talks)
      fun _ => authenticate_talks s showDetail
  have hattempt : ∀ {α : Type} {x : Exchange Channel α}, Obeys Talks x → Obeys Talks x.attempt := by
    intro α x hx c
    rw [final_attempt]
    exact hx c
  have hrefuse : ∀ e, Obeys Talks (refuse e) := by
    intro e
    refine talks_composes.bind (hattempt close_talks) fun closing => ?_
    cases closing with
    | ok _ => exact fail_talks e
    | error closing => exact talks_composes.bind (record_talks _) fun _ => fail_talks e
  refine talks_composes.bind (hattempt hpresent) fun result => ?_
  cases result with
  | ok _ => exact talks_composes.pure ()
  | error e => exact hrefuse e

end Channel

namespace Session

/-- The same of a session. -/
def Knows (s : Session) (_ : Option Halt) (s' : Session) : Prop :=
  Channel.Knows s.channel s'.channel

theorem begin_knows : Obeys Knows begin :=
  begin_onChannel .trans Channel.Remains.knows fun _ _ => ⟨rfl, rfl, rfl⟩

end Session

namespace Dialer

/-! ## Attempts -/

/-- A client whose sockets are new when they are connected, down to the first word of TLS. -/
def DialsFresh (d : Dialer) : Prop :=
  ∀ n socket, d.dial n = .connected socket → socket.IsNew ∧ socket.hello = none

variable {s : ConnectionSettings} {tls : TlsOptions} {e : Encryption} {d d₁ : Dialer}
  {c ready : Channel}

theorem DialsFresh.new (h : d.DialsFresh) : d.DialsNew :=
  fun n socket hdial => (h n socket hdial).1

theorem Tried.dialsFresh {given : List Channel} {d' : Dialer} (h : d.Tried given d')
    (hd : d.DialsFresh) : d'.DialsFresh := by
  rw [h]
  exact hd

theorem connect_dialed {host : Host} {timeout : Option Nat} {d' : Dialer}
    (h : connect host timeout d = .ok c d') : d.dial d.dialed = .connected c.socket := by
  cases connects_of_run h with
  | connected hdial => exact hdial

/-- How an attempt ends, by whether the verifier refused the server. -/
inductive Screened (s : ConnectionSettings) (tls : TlsOptions) (e : Encryption) (d : Dialer)
    (r : EStateM.Result Halt Dialer (Except AttemptFailure Session)) : Prop where
  | cleared {made : List Channel} (hmade : channels (settled r) = d.given ++ made)
      (hcleared : ∀ c ∈ made, ¬ c.Refused tls)
  | refused {halt : Halt} {d' : Dialer} {c : Channel} (hmeant : e ≠ .off)
      (hresult : r = stopped .ssl halt d') (htried : d.Tried [c] d') (hhost : c.host = s.address)
      (hreserved : c.Reserved) (hrefusal : c.Refusal tls halt)

variable {r : EStateM.Result Halt Dialer (Except AttemptFailure Session)}

theorem screened_of_stopped {stage : Stage} {halt : Halt} {d' : Dialer}
    {given : List Channel} (hresult : r = stopped stage halt d') (htried : d.Tried given d')
    (hcleared : ∀ c ∈ given, ¬ c.Refused tls) : Screened s tls e d r := by
  refine .cleared ?_ hcleared
  rw [hresult, settled_stopped, channels, htried]

theorem enter_screened {session : Session} (hcleared : ¬ session.channel.Refused tls)
    (htried : d.Tried [] d₁) : Screened s tls e d ((enter session).run d₁) := by
  have hknows := Session.begin_knows session
  unfold enter
  cases hbegin : Session.begin session with
  | error halt t =>
      rw [hbegin] at hknows
      rw [bind_stopped (staged_of_error (within_of_error Session.channel hbegin))]
      exact screened_of_stopped rfl (htried.abandon t.channel)
        (List.forall_mem_singleton.2 fun h => hcleared (h.known hknows))
  | ok _ t =>
      rw [hbegin] at hknows
      rw [bind_reached (staged_of_ok (within_of_ok Session.channel hbegin))]
      have hmade : (d₁.given ++ [t.channel] : List Channel) = d.given ++ [t.channel] := by
        rw [htried.given_eq, List.append_nil]
      exact .cleared hmade (List.forall_mem_singleton.2 fun h => hcleared (h.known hknows))

theorem logIn_screened (o : SessionOptions) (hcleared : ¬ ready.Refused tls)
    (htried : d.Tried [] d₁) : Screened s tls e d ((logIn s o ready).run d₁) := by
  have hknows := (Channel.login_talks s o.showErrorDetail ready).knows
  unfold logIn
  cases hrun : Channel.login s o.showErrorDetail ready with
  | error halt c =>
      rw [hrun] at hknows
      rw [bind_stopped (staged_of_error (within_of_error id hrun))]
      exact screened_of_stopped rfl (htried.abandon c)
        (List.forall_mem_singleton.2 fun h => hcleared (h.known hknows))
  | ok _ c =>
      rw [hrun] at hknows
      rw [bind_reached (staged_of_ok (within_of_ok id hrun))]
      exact enter_screened (fun h => hcleared (h.known ⟨hknows.1, hknows.2, hknows.3⟩))
        (htried.written _)

theorem equip_screened (o : SessionOptions) (hmode : e ≠ .off → tls.mode ≠ .disable)
    (hnew : c.IsNew) (hbegun : c.socket.hello = none) (hhost : c.host = s.address)
    (htried : d.Tried [] d₁) : Screened s tls e d ((equip s o tls e c).run d₁) := by
  have hvets := Channel.encrypt_vets e hmode hbegun
  unfold equip
  cases hrun : Channel.encrypt tls e c with
  | error halt c' =>
      rw [hrun] at hvets
      obtain ⟨hmeant, hreserved, hsame⟩ := Channel.encrypt_error hnew hrun
      rw [bind_stopped (staged_of_error (within_of_error id hrun))]
      by_cases hrefused : c'.Refused tls
      · obtain ⟨_, ⟨⟩, hrefusal⟩ := hvets hrefused
        exact .refused hmeant rfl (htried.abandon c') (hsame.trans hhost) hreserved hrefusal
      · exact screened_of_stopped rfl (htried.abandon c') (List.forall_mem_singleton.2 hrefused)
  | ok _ c' =>
      rw [hrun] at hvets
      rw [bind_reached (staged_of_ok (within_of_ok id hrun))]
      refine logIn_screened o (fun hrefused => ?_) (htried.written _)
      obtain ⟨_, hnone, -⟩ := hvets hrefused
      cases hnone

theorem attempt_screened (s : ConnectionSettings) (o : SessionOptions) (tls : TlsOptions)
    (e : Encryption) (hd : d.DialsFresh) (hmode : e ≠ .off → tls.mode ≠ .disable) :
    Screened s tls e d ((attempt s o tls e).run d) := by
  rw [attempt, record_reached]
  cases hconnect : connect s.address (limit? s.connectTimeout)
      (d.told (.connecting s.address)) with
  | error halt d' =>
      rw [bind_stopped (staged_of_error hconnect)]
      exact screened_of_stopped rfl (Tried.of_told (connect_error hconnect))
        (List.forall_mem_nil _)
  | ok c d' =>
      have htold : (d.told (.connecting s.address)).DialsFresh := hd
      obtain ⟨hnew, hhost, htried⟩ := connect_ok htold.new hconnect
      have hbegun := (htold _ _ (connect_dialed hconnect)).2
      rw [bind_reached (staged_of_ok hconnect)]
      exact equip_screened o hmode hnew hbegun hhost htried.of_told

/-- An attempt without TLS asks no verifier. -/
theorem Screened.off (h : Screened s tls .off d r) :
    ∃ made, channels (settled r) = d.given ++ made ∧ ∀ c ∈ made, ¬ c.Refused tls := by
  cases h with
  | cleared hmade hcleared => exact ⟨_, hmade, hcleared⟩
  | refused hmeant => exact absurd rfl hmeant

/-! ## Opening a session -/

/-- What a client does about a channel whose server the verifier refused. Nothing but the request
for TLS was said over it, and the refusal is the end of it, unless the mode prefers encryption:
then the client goes on without. -/
structure Heeds (s : ConnectionSettings) (tls : TlsOptions) (d : Dialer)
    (r : EStateM.Result Halt Dialer Session) (made : List Channel) (c : Channel) : Prop where
  host : c.host = s.address
  reserved : c.Reserved
  stops : ∃ halt, c.Refusal tls halt ∧
    (tls.mode ≠ .prefer → made.getLast? = some c ∧ r = .error halt (final r))
  resumes : tls.mode = .prefer → ∃ next, made = c :: next ∧
    (final r).dialed = d.dialed + 2 ∧ ∀ c' ∈ next, c'.host = s.address ∧ c'.Bare s

/-- Every refused channel of a client is dealt with. -/
def Heeded (s : ConnectionSettings) (tls : TlsOptions) (d : Dialer)
    (r : EStateM.Result Halt Dialer Session) : Prop :=
  ∃ made, channels r = d.given ++ made ∧ ∀ c ∈ made, c.Refused tls → Heeds s tls d r made c

theorem heeded_of_cleared {r : EStateM.Result Halt Dialer Session}
    (h : ∃ made, channels r = d.given ++ made ∧ ∀ c ∈ made, ¬ c.Refused tls) :
    Heeded s tls d r := by
  obtain ⟨made, hmade, hcleared⟩ := h
  exact ⟨made, hmade, fun c hc hrefused => absurd hrefused (hcleared c hc)⟩

/-- What an attempt leads to after others that no verifier had to do with. -/
theorem cleared_append {r : EStateM.Result Halt Dialer Session} {before made : List Channel}
    (hbefore : d₁.given = d.given ++ before) (hcleared : ∀ c ∈ before, ¬ c.Refused tls)
    (hmade : channels r = d₁.given ++ made) (hcleared' : ∀ c ∈ made, ¬ c.Refused tls) :
    ∃ made, channels r = d.given ++ made ∧ ∀ c ∈ made, ¬ c.Refused tls := by
  refine ⟨before ++ made, ?_, fun c hc => ?_⟩
  · rw [hmade, hbefore, List.append_assoc]
  · exact (List.mem_append.1 hc).elim (hcleared c) (hcleared' c)

/-- The last attempt of a client that does not prefer encryption. -/
theorem Screened.heeded {before : List Channel} (h : Screened s tls e d₁ r)
    (hmode : tls.mode ≠ .prefer) (hbefore : d₁.given = d.given ++ before)
    (hcleared : ∀ c ∈ before, ¬ c.Refused tls) : Heeded s tls d (settled r) := by
  cases h with
  | cleared hmade hcleared' =>
      exact heeded_of_cleared (cleared_append hbefore hcleared hmade hcleared')
  | @refused halt d' lost _ hresult htried hhost hreserved hrefusal =>
      have hsettled : settled r = .error halt d' := by
        rw [hresult, settled_stopped]
      refine ⟨before ++ [lost], ?_, fun c hc hrefused => ?_⟩
      · rw [hsettled, channels, htried.given_eq, hbefore, List.append_assoc]
      rcases List.mem_append.1 hc with hc | hc
      · exact absurd hrefused (hcleared c hc)
      cases List.mem_singleton.1 hc
      refine ⟨hhost, hreserved, ⟨halt, hrefusal, fun _ => ⟨List.getLast?_concat, ?_⟩⟩,
        fun hprefer => absurd hprefer hmode⟩
      rw [hsettled, final_error]

/-- A client that prefers encryption goes on without after a refusal. -/
theorem resumed_heeded (o : SessionOptions) {halt : Halt} {lost : Channel} {event : Event}
    (hd : d.DialsFresh) (hmode : tls.mode = .prefer) (htried : d.Tried [lost] d₁)
    (hhost : lost.host = s.address) (hreserved : lost.Reserved) (hrefusal : lost.Refusal tls halt)
    (hr : r = (attempt s o tls .off).run (d₁.told event)) : Heeded s tls d (settled r) := by
  have hfresh : (d₁.told event).DialsFresh := htried.dialsFresh hd
  have hattempted := attempt_attempted s o tls .off hfresh.new
  have hscreened := attempt_screened s o tls .off hfresh fun h => absurd rfl h
  rw [← hr] at hattempted hscreened
  obtain ⟨next, hnext, hbare⟩ := hattempted.bare
  obtain ⟨next', hnext', hcleared⟩ := hscreened.off
  cases List.append_cancel_left (hnext.symm.trans hnext')
  refine ⟨lost :: next, ?_, fun c hc hrefused => ?_⟩
  · rw [hnext]
    show d₁.given ++ next = _
    rw [htried.given_eq, List.append_assoc, List.singleton_append]
  rcases List.mem_cons.1 hc with rfl | hc
  · refine ⟨hhost, hreserved, ⟨halt, hrefusal, fun hnot => absurd hmode hnot⟩,
      fun _ => ⟨next, rfl, ?_, hbare⟩⟩
    calc (final (settled r)).dialed = d₁.dialed + 1 := hattempted.dialed
      _ = d.dialed + 2 := congrArg (· + 1) htried.dialed
  · exact absurd hrefused (hcleared c hc)

theorem retrying_again {first second : ExceptT AttemptFailure (Exchange Dialer) Session}
    {again : AttemptFailure → Bool} {f : AttemptFailure} (event : AttemptFailure → Event)
    (hfirst : first.run d = .ok (.error f) d₁) (hagain : again f = true) :
    (retrying first second again event).run d = second.run (d₁.told (event f)) := by
  rw [retrying_run, hfirst]
  exact if_pos hagain

/-- A client that may go on after an attempt, no server of which was refused. -/
theorem retrying_heeded (o : SessionOptions) {first second : Encryption} {made : List Channel}
    {again : AttemptFailure → Bool} (event : AttemptFailure → Event) (hd : d.DialsFresh)
    (hagain : ∀ f, again f = true → f.stage = .ssl ∨ f.isRejectedLogin = true)
    (hmode : second ≠ .off → tls.mode ≠ .disable ∧ tls.mode ≠ .prefer)
    (hmade : channels (settled ((attempt s o tls first).run d)) = d.given ++ made)
    (hcleared : ∀ c ∈ made, ¬ c.Refused tls) :
    Heeded s tls d (settled
      ((retrying (attempt s o tls first) (attempt s o tls second) again event).run d)) := by
  rcases retrying_cases (attempt s o tls first) (attempt s o tls second) again event d with
    hone | ⟨f, d₁, hf, hfirst, htwo⟩
  · rw [hone]
    exact heeded_of_cleared ⟨made, hmade, hcleared⟩
  have hattempted := attempt_attempted s o tls first hd.new
  rw [hfirst] at hattempted hmade
  obtain ⟨lost, hlost, -⟩ := hattempted.lost (hagain f hf)
  have hfresh : (d₁.told (event f)).DialsFresh := hlost.dialsFresh hd
  have hscreened := attempt_screened s o tls second hfresh fun h => (hmode h).1
  rw [htwo]
  by_cases hoff : second = .off
  · subst hoff
    obtain ⟨next, hnext, hcleared'⟩ := hscreened.off
    exact heeded_of_cleared (cleared_append hmade hcleared hnext hcleared')
  · exact hscreened.heeded (hmode hoff).2 hmade hcleared

theorem attempts_heeded (o : SessionOptions) (connector : Connector) (hd : d.DialsFresh) :
    Heeded s tls d (settled ((attempts s o tls connector).run d)) := by
  have hmeant : ∀ e, tls.mode ≠ .disable → Screened s tls e d ((attempt s o tls e).run d) :=
    fun e hmode => attempt_screened s o tls e hd fun _ => hmode
  unfold attempts
  cases hmode : tls.mode with
  | disable =>
      exact heeded_of_cleared (attempt_screened s o tls .off hd fun h => absurd rfl h).off
  | require | verifyCa | verifyFull =>
      refine (hmeant _ ?_).heeded ?_ (List.append_nil _).symm (List.forall_mem_nil _)
      · rw [hmode]
        exact nofun
      · rw [hmode]
        exact nofun
  | allow =>
      obtain ⟨made, hmade, hcleared⟩ := (hmeant .off (by rw [hmode]; exact nofun)).off
      refine retrying_heeded o (fun _ => .plaintextRefused s.address) hd (fun f hf => .inr hf)
        (fun _ => ?_) hmade hcleared
      rw [hmode]
      exact ⟨nofun, nofun⟩
  | prefer =>
      have hscreened := hmeant (.optional connector) (by rw [hmode]; exact nofun)
      let again : AttemptFailure → Bool := fun f => f.stage = .ssl || f.isRejectedLogin
      let event : AttemptFailure → Event := fun f => .sslFailed s.address f.error
      show Heeded s tls d (settled ((retrying _ (attempt s o tls .off) again event).run d))
      cases hscreened with
      | cleared hmade hcleared =>
          exact retrying_heeded o event hd (fun f hf => by simpa [again] using hf)
            (fun h => absurd rfl h) hmade hcleared
      | refused _ hresult htried hhost hreserved hrefusal =>
          -- a refusal is a failure, so that the attempt came to a value
          cases hrefusal with
          | intro hhandshake hverifier hbegun hasked =>
              exact resumed_heeded o hd hmode htried hhost hreserved
                (.intro hhandshake hverifier hbegun hasked) (retrying_again event hresult rfl)

/-- If a handshake goes well and the verifier refuses the server, nothing more is said over that
channel. In every mode but one the refusal is what opening the session comes to, and no channel
follows. -/
theorem openSession_heeded (store : KeyStore) (s : ConnectionSettings) (o : SessionOptions)
    (tls : TlsOptions) (d : Dialer) (hd : d.DialsFresh) :
    ∃ made, channels (openSession store s o tls d) = d.given ++ made ∧
      ∀ c ∈ made, c.Refused tls → Heeds s tls d (openSession store s o tls d) made c := by
  by_cases hmode : tls.mode = .disable
  · have hplain : openSession store s o tls d = settled ((attempts s o tls (.custom {})).run d) := by
      rw [← settled_eq, openSession, if_pos hmode]
      rfl
    rw [hplain]
    exact attempts_heeded o (.custom {}) hd
  cases hconnector : Connector.ofOptions store tls with
  | error e =>
      rw [openSession_of_refused o hmode hconnector d]
      exact ⟨[], (List.append_nil _).symm, List.forall_mem_nil _⟩
  | ok connector =>
      rw [openSession_eq o hmode hconnector]
      exact attempts_heeded o connector hd

/-- A server that is ready for TLS at first, and in the clear asks for the password. -/
def impostor : Dialer where
  dial
    | 0 => .connected { inbound := [0x53], handshake := .succeeds [] true }
    | _ => .connected {
        inbound := [0x52, 0, 0, 0, 8, 0, 0, 0, 3, 0x52, 0, 0, 0, 8, 0, 0, 0, 0,
          0x5A, 0, 0, 0, 5, 0x49]
        ended := true }

theorem impostor_dialsFresh : impostor.DialsFresh := by
  rintro (_ | n) socket ⟨⟩ <;> exact ⟨⟨nofun, rfl, rfl⟩, rfl⟩

/-- A client whose verifier accepts nobody. -/
def distrusting (mode : SslMode) : TlsOptions where
  mode
  verifier := some { name := "reject-all", accepts := fun _ _ => false }

theorem openSession_heeded_impostor :
    impostor.DialsFresh ∧ ∃ c, channels
      (openSession noFiles {} {} (distrusting .require) impostor) = [c] ∧
      c.Refused (distrusting .require) ∧ Heeds {} (distrusting .require) impostor
        (openSession noFiles {} {} (distrusting .require) impostor) [c] c := by
  obtain ⟨made, hmade, hheeds⟩ := openSession_heeded noFiles {} {} (distrusting .require)
    impostor impostor_dialsFresh
  have hone : (channels (openSession noFiles {} {} (distrusting .require) impostor)).length = 1 := by
    decide +kernel
  have hbegun : ∀ c ∈ channels (openSession noFiles {} {} (distrusting .require) impostor),
      c.socket.hello.isSome ∧ c.socket.handshake = .succeeds [] true := by
    decide +kernel
  obtain ⟨c, hc⟩ := List.length_eq_one_iff.1 hone
  have hsame : [c] = made := hc.symm.trans hmade
  rw [hc, List.forall_mem_singleton] at hbegun
  obtain ⟨hello, hhello⟩ := Option.isSome_iff_exists.1 hbegun.1
  have hrefused : c.Refused (distrusting .require) := ⟨hhello, hbegun.2, rfl, rfl⟩
  rw [← hsame] at hheeds
  exact ⟨impostor_dialsFresh, c, hc, hrefused, hheeds c (List.mem_singleton.2 rfl) hrefused⟩

/-- A client that prefers encryption opens a session with a host that its verifier refused, and
says to it in the clear who it is, and its password. -/
theorem openSession_confides :
    let s : ConnectionSettings := { password := some "secret" }
    let r := openSession noFiles s {} (distrusting .prefer) impostor
    halt? r = none ∧ ∃ lost c, channels r = [lost, c] ∧ lost.Refused (distrusting .prefer) ∧
      c.host = lost.host ∧ c.socket.medium = .tcp ∧
      (do return (← (FrontendMessage.startup s.startupParameters).encode .utf8) ++
        (← (FrontendMessage.cleartextPassword "secret").encode .utf8)) =
        Except.ok c.socket.clear := by
  intro s r
  have hopened : halt? r = none := by decide +kernel
  have htwo : (channels r).length = 2 := by decide +kernel
  have hlost : ∀ c ∈ (channels r).head?, c.host = s.address ∧ c.socket.hello.isSome ∧
      c.socket.handshake = .succeeds [] true := by
    decide +kernel
  have hlast : ∀ c ∈ (channels r).getLast?, c.host = s.address ∧ c.socket.medium = .tcp ∧
      (do return (← (FrontendMessage.startup s.startupParameters).encode .utf8) ++
        (← (FrontendMessage.cleartextPassword "secret").encode .utf8)) =
        Except.ok c.socket.clear := by
    decide +kernel
  obtain ⟨lost, c, hmade⟩ := List.length_eq_two.1 htwo
  rw [hmade] at hlost hlast
  obtain ⟨hhost, hbegun, hhandshake⟩ := hlost lost rfl
  obtain ⟨hhost', hmedium, hclear⟩ := hlast c rfl
  obtain ⟨hello, hhello⟩ := Option.isSome_iff_exists.1 hbegun
  exact ⟨hopened, lost, c, hmade, ⟨hhello, hhandshake, rfl, rfl⟩, hhost'.trans hhost.symm,
    hmedium, hclear⟩

end Dialer

end PgClient
