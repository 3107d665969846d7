import PgClient.Proofs.Encryption

/-!
# Attempts to open a session

An attempt goes through three stages, and at each of them it may stop: no socket is
connected, the channel is not encrypted as it is meant to be, or the server does not let
the client in. Its channel is then given up, so no octet that went out is ever lost
sight of. `Attempted` says for every outcome what the channel of the attempt has said.

A client that insists on encryption makes one attempt, and says who it is within TLS
only. A client that does not makes at most two. The second one goes over a channel of
the other kind, with one exception: a client that prefers encryption, and was refused
when it had to log in without, logs in without a second time.
-/

namespace PgClient

open Exchange

namespace Channel

variable {connector : Connector} {tls : TlsOptions} {s : ConnectionSettings} {c : Channel}

/-- Octets that begin with the message that says who the client is. -/
def Opens (s : ConnectionSettings) (octets : Bytes) : Prop :=
  ∃ startup, (FrontendMessage.startup s.startupParameters).encode .utf8 = .ok startup ∧
    startup <+: octets

/-- How a channel comes to the login, depending on what was meant to be done about TLS. -/
inductive Ready (tls : TlsOptions) : Encryption → Channel → Prop where
  | bare {c : Channel} (hnew : c.IsNew) : Ready tls .off c
  /-- The server was not asked, or is not ready for TLS. -/
  | plain {connector : Connector} {c : Channel} (hreserved : c.Reserved) (hout : c.outgoing = []) :
      Ready tls (.optional connector) c
  | optional {connector : Connector} {c : Channel} (hsecured : c.Secured connector tls)
      (hencrypted : c.socket.encrypted = []) (hout : c.outgoing = []) :
      Ready tls (.optional connector) c
  | required {connector : Connector} {c : Channel} (hsecured : c.Secured connector tls)
      (hencrypted : c.socket.encrypted = []) (hout : c.outgoing = []) :
      Ready tls (.required connector) c

theorem Ready.outgoing {e : Encryption} (h : Ready tls e c) : c.outgoing = [] := by
  cases h with
  | bare hnew => exact hnew.outgoing
  | plain _ hout | optional _ _ hout | required _ _ hout => exact hout

theorem encrypt_ok {e : Encryption} {c' : Channel} (hnew : c.IsNew)
    (h : encrypt tls e c = .ok () c') : Ready tls e c' ∧ c'.host = c.host := by
  cases e with
  | off =>
      cases h
      exact ⟨.bare hnew, rfl⟩
  | optional connector =>
      have hencrypts := enableSsl_encrypts connector tls false hnew
      rw [show enableSsl connector tls false c = _ from h] at hencrypts
      cases hencrypts with
      | plain _ hreserved hhost hout => exact ⟨.plain hreserved hout, hhost⟩
      | secured hsecured hhost hout hencrypted => exact ⟨.optional hsecured hencrypted hout, hhost⟩
  | required connector =>
      have hencrypts := enableSsl_encrypts connector tls true hnew
      rw [show enableSsl connector tls true c = _ from h] at hencrypts
      cases hencrypts with
      | plain hoptional => cases hoptional
      | secured hsecured hhost hout hencrypted => exact ⟨.required hsecured hencrypted hout, hhost⟩

theorem encrypt_error {e : Encryption} {c' : Channel} {halt : Halt} (hnew : c.IsNew)
    (h : encrypt tls e c = .error halt c') : e ≠ .off ∧ c'.Reserved ∧ c'.host = c.host := by
  have henable : ∀ {connector isRequired}, enableSsl connector tls isRequired c = .error halt c' →
      c'.Reserved ∧ c'.host = c.host := by
    intro connector isRequired h
    have hencrypts := enableSsl_encrypts connector tls isRequired hnew
    rw [h] at hencrypts
    cases hencrypts with
    | fails hreserved hhost => exact ⟨hreserved, hhost⟩
  cases e with
  | off => cases h
  | optional connector => exact ⟨nofun, henable h⟩
  | required connector => exact ⟨nofun, henable h⟩

/-! ## What a channel has said -/

/-- Whatever was said of the client was said within TLS. -/
structure Guarded (connector : Connector) (tls : TlsOptions) (c : Channel) : Prop where
  clear : c.socket.clear = [] ∨ c.socket.clear = sslRequest ∧ c.host.isLocal = false
  encrypted : c.socket.encrypted ≠ [] → c.Secured connector tls

/-- Nothing was said within TLS, and TLS was not asked for. -/
structure Bare (s : ConnectionSettings) (c : Channel) : Prop where
  medium : c.socket.medium ≠ .tls
  clear : c.socket.clear = [] ∨ Opens s c.socket.clear
  encrypted : c.socket.encrypted = []

/-- The client said in the clear who it is. -/
structure Exposed (s : ConnectionSettings) (c : Channel) : Prop where
  medium : c.socket.medium ≠ .tls
  clear : ∃ asked octets, (asked = [] ∨ asked = sslRequest) ∧
    c.socket.clear = asked ++ octets ∧ Opens s octets
  encrypted : c.socket.encrypted = []

theorem Reserved.guarded (h : c.Reserved) : c.Guarded connector tls :=
  ⟨h.clear, fun hencrypted => absurd h.encrypted hencrypted⟩

theorem Secured.guarded (h : c.Secured connector tls) : c.Guarded connector tls :=
  ⟨h.clear.2, fun _ => h⟩

variable {ready : Channel} {h : Option Halt}

theorem Introduces.toServes (hlogin : Introduces s ready h c) : Serves ready c := by
  cases hlogin with
  | said _ hhost htook => exact ⟨hhost, _, htook⟩
  | unsaid _ _ hhost htook => exact ⟨hhost, _, htook⟩

theorem Introduces.bare (hlogin : Introduces s ready h c) (hready : Ready tls .off ready) :
    c.Bare s := by
  cases hready with
  | bare hnew =>
      cases hlogin with
      | unsaid _ _ _ htook =>
          obtain ⟨hclear, hencrypted⟩ := htook.plain hnew.socket.medium
          rw [hnew.socket.clear] at hclear
          exact ⟨htook.medium ▸ hnew.socket.medium, .inl hclear,
            hencrypted.trans hnew.socket.encrypted⟩
      | said hencode _ htook =>
          obtain ⟨hclear, hencrypted⟩ := htook.plain hnew.socket.medium
          rw [hnew.socket.clear, List.nil_append] at hclear
          refine ⟨htook.medium ▸ hnew.socket.medium, .inr ?_,
            hencrypted.trans hnew.socket.encrypted⟩
          rw [hclear]
          exact ⟨_, hencode, List.prefix_append _ _⟩

theorem Introduces.secured (hlogin : Introduces s ready h c)
    (hready : Ready tls (.required connector) ready) : c.Secured connector tls := by
  cases hready with
  | required hsecured => exact hsecured.serves hlogin.toServes

/-- An error of the server is an answer to the message that says who the client is. -/
theorem Introduces.exposed {e : Error} (hlogin : Introduces s ready (some (.failed e)) c)
    (hserver : e.serverError? ≠ none) (hready : ready.Reserved) : c.Exposed s := by
  cases hlogin with
  | unsaid hhalt hclient =>
      cases hhalt
      exact absurd hclient hserver
  | @said octets rest hencode _ htook =>
      obtain ⟨hclear, hencrypted⟩ := htook.plain hready.medium
      have hopens : Opens s (octets ++ rest) := ⟨octets, hencode, List.prefix_append octets rest⟩
      exact ⟨htook.medium ▸ hready.medium,
        ⟨_, _, hready.clear.imp_right And.left, hclear, hopens⟩, hencrypted.trans hready.encrypted⟩

/-- The same within TLS. -/
theorem Introduces.enclosed {e : Error} (hlogin : Introduces s ready (some (.failed e)) c)
    (hserver : e.serverError? ≠ none) (hready : ready.Secured connector tls)
    (hencrypted : ready.socket.encrypted = []) :
    c.Secured connector tls ∧ Opens s c.socket.encrypted := by
  refine ⟨hready.serves hlogin.toServes, ?_⟩
  cases hlogin with
  | unsaid hhalt hclient =>
      cases hhalt
      exact absurd hclient hserver
  | said hencode _ htook =>
      rw [(htook.tls hready.clear.1).2, hencrypted]
      exact ⟨_, hencode, List.prefix_append _ _⟩

end Channel

namespace Dialer

/-! ## Stages -/

/-- An attempt that stopped at a stage. A failure is a value that another attempt can be made on;
waiting is not. -/
def stopped {α : Type} (stage : Stage) :
    Halt → Dialer → EStateM.Result Halt Dialer (Except AttemptFailure α)
  | .failed error, d => .ok (.error { stage, error }) d
  | .waiting, d => .error .waiting d

section

variable {α β : Type} {stage : Stage} {d d' : Dialer}

theorem staged_of_ok {x : Exchange Dialer α} {a : α} (h : x d = .ok a d') :
    (staged stage x).run d = .ok (.ok a) d' := by
  show (x.attempt >>= _) d = _
  rw [bind_of_ok (attempt_of_ok h)]
  rfl

theorem staged_of_error {x : Exchange Dialer α} {halt : Halt} (h : x d = .error halt d') :
    (staged stage x).run d = stopped stage halt d' := by
  show (x.attempt >>= _) d = _
  cases halt with
  | failed e =>
      rw [bind_of_ok (attempt_of_failed h)]
      rfl
  | waiting => exact bind_of_error (attempt_of_waiting h)

variable {x : ExceptT AttemptFailure (Exchange Dialer) α}
  {f : α → ExceptT AttemptFailure (Exchange Dialer) β}

theorem bind_reached {a : α} (h : x.run d = .ok (.ok a) d') :
    (x >>= f).run d = (f a).run d' := by
  rw [ExceptT.run_bind]
  exact bind_of_ok h

theorem bind_stopped {halt : Halt} (h : x.run d = stopped stage halt d') :
    (x >>= f).run d = stopped stage halt d' := by
  rw [ExceptT.run_bind]
  cases halt with
  | failed e => exact bind_of_ok h
  | waiting => exact bind_of_error h

variable {σ : Type} (channel : σ → Channel) {y : Exchange σ α} {t t' : σ}

theorem within_of_ok {a : α} (h : y t = .ok a t') :
    within channel y t d = .ok (a, t') { d with journal := (channel t').journal } := by
  unfold within
  rw [h]

theorem within_of_error {halt : Halt} (h : y t = .error halt t') :
    within channel y t d = .error halt (d.abandon (channel t')) := by
  unfold within
  rw [h]

end

/-! ## One attempt -/

/-- A client whose sockets are new when they are connected. -/
def DialsNew (d : Dialer) : Prop :=
  ∀ n socket, d.dial n = .connected socket → socket.IsNew

/-- A socket was tried, and these channels were given up. -/
def Tried (d : Dialer) (given : List Channel) (d' : Dialer) : Prop :=
  d' = { d with dialed := d.dialed + 1, given := d.given ++ given, journal := d'.journal }

/-- How an attempt goes, and what its channel has said by then. -/
inductive Attempted (s : ConnectionSettings) (tls : TlsOptions) (e : Encryption) (d : Dialer) :
    EStateM.Result Halt Dialer (Except AttemptFailure Session) → Prop where
  | unconnected {halt : Halt} {d' : Dialer} (htried : d.Tried [] d') :
      Attempted s tls e d (stopped .socket halt d')
  | unencrypted {halt : Halt} {c : Channel} {d' : Dialer} (hmeant : e ≠ .off)
      (hreserved : c.Reserved) (hhost : c.host = s.address) (htried : d.Tried [c] d') :
      Attempted s tls e d (stopped .ssl halt d')
  | unadmitted {halt : Halt} {ready c : Channel} {d' : Dialer} (hready : Channel.Ready tls e ready)
      (hlogin : Channel.Introduces s ready (some halt) c) (hhost : c.host = s.address)
      (htried : d.Tried [c] d') : Attempted s tls e d (stopped .login halt d')
  | opened {session : Session} {ready : Channel} {d' : Dialer} (hready : Channel.Ready tls e ready)
      (hlogin : Channel.Introduces s ready none session.channel)
      (hhost : session.channel.host = s.address) (htried : d.Tried [] d') :
      Attempted s tls e d (.ok (.ok session) d')

variable {s : ConnectionSettings} {tls : TlsOptions} {d : Dialer}

theorem Tried.written {given : List Channel} {d' : Dialer} (h : d.Tried given d')
    (journal : Array Event) : d.Tried given { d' with journal } := by
  unfold Tried at h ⊢
  rw [h]

theorem Tried.abandon {d' : Dialer} (h : d.Tried [] d') (c : Channel) :
    d.Tried [c] (d'.abandon c) := by
  unfold Tried at h ⊢
  rw [h]
  simp only [Dialer.abandon, List.append_nil]

theorem Tried.dialed {given : List Channel} {d' : Dialer} (h : d.Tried given d') :
    d'.dialed = d.dialed + 1 := by
  rw [h]

theorem Tried.given_eq {given : List Channel} {d' : Dialer} (h : d.Tried given d') :
    d'.given = d.given ++ given := by
  rw [h]

theorem Tried.dialsNew {given : List Channel} {d' : Dialer} (h : d.Tried given d')
    (hd : d.DialsNew) : d'.DialsNew := by
  rw [h]
  exact hd

/-- How connecting a socket ends. -/
inductive Connects (host : Host) (timeout : Option Nat) (d : Dialer) :
    EStateM.Result Halt Dialer Channel → Prop where
  | connected {socket : Socket} (hdial : d.dial d.dialed = .connected socket) :
    Connects host timeout d
      (.ok { socket, host, readTimeout := timeout, journal := d.journal }
        { d with dialed := d.dialed + 1 })
  | failed {halt : Halt} {d' : Dialer} (htried : d.Tried [] d') :
    Connects host timeout d (.error halt d')

theorem connect_connects (host : Host) (timeout : Option Nat) (d : Dialer) :
    Connects host timeout d (connect host timeout d) := by
  have htried : ∀ journal, d.Tried [] { d with dialed := d.dialed + 1, journal } := fun journal => by
    simp only [Tried, List.append_nil]
  unfold connect
  rw [bind_of_ok (get_apply d)]
  cases hdial : d.dial d.dialed with
  | connected socket => exact .connected hdial
  | refused reason => exact .failed (htried _)
  | silent =>
      cases timeout with
      | none => exact .failed (htried _)
      | some millis => exact .failed (htried _)

theorem connects_of_run {host : Host} {timeout : Option Nat}
    {r : EStateM.Result Halt Dialer Channel} (h : connect host timeout d = r) :
    Connects host timeout d r :=
  h ▸ connect_connects host timeout d

theorem connect_ok {host : Host} {timeout : Option Nat} {c : Channel} {d' : Dialer}
    (hd : d.DialsNew) (h : connect host timeout d = .ok c d') :
    c.IsNew ∧ c.host = host ∧ d.Tried [] d' := by
  cases connects_of_run h with
  | connected hdial =>
      refine ⟨⟨hd _ _ hdial, rfl⟩, rfl, ?_⟩
      simp only [Tried, List.append_nil]

theorem connect_error {host : Host} {timeout : Option Nat} {halt : Halt} {d' : Dialer}
    (h : connect host timeout d = .error halt d') : d.Tried [] d' := by
  cases connects_of_run h with
  | failed htried => exact htried

variable {e : Encryption} {d₁ : Dialer} {ready c : Channel}

theorem enter_attempted {session : Session} (hready : Channel.Ready tls e ready)
    (hlogin : Channel.Introduces s ready none session.channel)
    (hhost : session.channel.host = s.address) (htried : d.Tried [] d₁) :
    Attempted s tls e d ((enter session).run d₁) := by
  have hserves := Session.begin_serves session
  unfold enter
  cases hbegin : Session.begin session with
  | error halt t =>
      rw [hbegin] at hserves
      rw [bind_stopped (staged_of_error (within_of_error Session.channel hbegin))]
      exact .unadmitted hready (hlogin.serves hserves) (hserves.host.trans hhost)
        (htried.abandon t.channel)
  | ok _ t =>
      rw [hbegin] at hserves
      rw [bind_reached (staged_of_ok (within_of_ok Session.channel hbegin))]
      exact .opened hready (hlogin.serves hserves) (hserves.host.trans hhost) (htried.written _)

theorem logIn_attempted (o : SessionOptions) (hready : Channel.Ready tls e ready)
    (hhost : ready.host = s.address) (htried : d.Tried [] d₁) :
    Attempted s tls e d ((logIn s o ready).run d₁) := by
  have hlogin := Channel.login_introduces (s := s) hready.outgoing o.showErrorDetail
  have hsame := hlogin.host
  unfold logIn
  cases hrun : Channel.login s o.showErrorDetail ready with
  | error halt c =>
      rw [hrun] at hlogin hsame
      rw [bind_stopped (staged_of_error (within_of_error id hrun))]
      exact .unadmitted hready hlogin (hsame.trans hhost) (htried.abandon c)
  | ok _ c =>
      rw [hrun] at hlogin hsame
      rw [bind_reached (staged_of_ok (within_of_ok id hrun))]
      exact enter_attempted hready (hlogin.serves ⟨rfl, [], Socket.took_nil rfl⟩)
        (hsame.trans hhost) (htried.written _)

theorem equip_attempted (o : SessionOptions) (hnew : c.IsNew) (hhost : c.host = s.address)
    (htried : d.Tried [] d₁) : Attempted s tls e d ((equip s o tls e c).run d₁) := by
  unfold equip
  cases hrun : Channel.encrypt tls e c with
  | error halt c' =>
      obtain ⟨hmeant, hreserved, hsame⟩ := Channel.encrypt_error hnew hrun
      rw [bind_stopped (staged_of_error (within_of_error id hrun))]
      exact .unencrypted hmeant hreserved (hsame.trans hhost) (htried.abandon c')
  | ok _ c' =>
      obtain ⟨hready, hsame⟩ := Channel.encrypt_ok hnew hrun
      rw [bind_reached (staged_of_ok (within_of_ok id hrun))]
      exact logIn_attempted o hready (hsame.trans hhost) (htried.written _)

/-- The dialer with one more event in its journal. -/
def told (d : Dialer) (event : Event) : Dialer :=
  { d with journal := d.journal.push event }

/-- What was written down before does not matter. -/
theorem Tried.of_told {event : Event} {given : List Channel} {d' : Dialer}
    (h : (d.told event).Tried given d') : d.Tried given d' :=
  h

theorem record_reached {α : Type} (event : Event)
    (f : PUnit → ExceptT AttemptFailure (Exchange Dialer) α) :
    (liftM (record event) >>= f).run d = (f ⟨⟩).run (d.told event) := rfl

theorem attempt_attempted (s : ConnectionSettings) (o : SessionOptions) (tls : TlsOptions)
    (e : Encryption) (hd : d.DialsNew) :
    Attempted s tls e d ((attempt s o tls e).run d) := by
  rw [attempt, record_reached]
  cases hconnect : connect s.address (limit? s.connectTimeout)
      (d.told (.connecting s.address)) with
  | error halt d' =>
      rw [bind_stopped (staged_of_error hconnect)]
      exact .unconnected (Tried.of_told (connect_error hconnect))
  | ok c d' =>
      have htold : (d.told (.connecting s.address)).DialsNew := hd
      obtain ⟨hnew, hhost, htried⟩ := connect_ok htold hconnect
      rw [bind_reached (staged_of_ok hconnect)]
      exact equip_attempted o hnew hhost htried.of_told

/-! ## What attempts amount to -/

/-- The channels of a client: those it gave up, and that of the session it opened. -/
def channels : EStateM.Result Halt Dialer Session → List Channel
  | .ok session d => d.given ++ [session.channel]
  | .error _ d => d.given

/-- What the last attempt came to is what opening a session comes to. -/
def settled : EStateM.Result Halt Dialer (Except AttemptFailure Session) →
    EStateM.Result Halt Dialer Session
  | .ok (.ok session) d => .ok session d
  | .ok (.error f) d => .error (.failed f.error) d
  | .error halt d => .error halt d

theorem settled_stopped (stage : Stage) (halt : Halt) (d : Dialer) :
    settled (stopped stage halt d) = .error halt d := by
  cases halt <;> rfl

theorem settled_eq (x : ExceptT AttemptFailure (Exchange Dialer) Session) (d : Dialer) :
    (do Exchange.lift ((← x.run).mapError AttemptFailure.error) : Exchange Dialer Session) d =
      settled (x.run d) := by
  rw [bind_apply]
  rcases x.run d with ⟨_ | _, d'⟩ | ⟨halt, d'⟩ <;> rfl

variable {r : EStateM.Result Halt Dialer (Except AttemptFailure Session)}

theorem Attempted.dialed (h : Attempted s tls e d r) :
    (final (settled r)).dialed = d.dialed + 1 := by
  cases h with
  | unconnected htried | unencrypted _ _ _ htried | unadmitted _ _ _ htried =>
      rw [settled_stopped, final_error, htried]
  | opened _ _ _ htried =>
      rw [settled, final_ok, htried]

/-- What goes for a channel that is not encrypted as it is meant to be, and for one after a login,
goes for the channel of an attempt. -/
theorem Attempted.each {P : Channel → Prop} (h : Attempted s tls e d r)
    (hreserved : ∀ {c : Channel}, e ≠ .off → c.Reserved → P c)
    (hlogin : ∀ {ready c : Channel} {halt : Option Halt}, Channel.Ready tls e ready →
      Channel.Introduces s ready halt c → P c) :
    ∃ made, channels (settled r) = d.given ++ made ∧ ∀ c ∈ made, c.host = s.address ∧ P c := by
  cases h with
  | unconnected htried =>
      refine ⟨[], ?_, List.forall_mem_nil _⟩
      rw [settled_stopped, Dialer.channels, htried]
  | @unencrypted halt c _ hmeant hc hhost htried =>
      refine ⟨[c], ?_, List.forall_mem_singleton.2 ⟨hhost, hreserved hmeant hc⟩⟩
      rw [settled_stopped, Dialer.channels, htried]
  | @unadmitted halt ready c _ hready hc hhost htried =>
      refine ⟨[c], ?_, List.forall_mem_singleton.2 ⟨hhost, hlogin hready hc⟩⟩
      rw [settled_stopped, Dialer.channels, htried]
  | @opened session ready _ hready hc hhost htried =>
      refine ⟨[session.channel], ?_, List.forall_mem_singleton.2 ⟨hhost, hlogin hready hc⟩⟩
      rw [settled, Dialer.channels, htried, List.append_nil]

/-- An attempt without TLS does not ask for it. -/
theorem Attempted.bare (h : Attempted s tls .off d r) : ∃ made,
    channels (settled r) = d.given ++ made ∧ ∀ c ∈ made, c.host = s.address ∧ c.Bare s :=
  h.each (fun hmeant => absurd rfl hmeant) fun hready hlogin => hlogin.bare hready

variable {connector : Connector}

/-- An attempt that has to be encrypted says nothing of the client unless it is. -/
theorem Attempted.guarded (h : Attempted s tls (.required connector) d r) : ∃ made,
    channels (settled r) = d.given ++ made ∧
      ∀ c ∈ made, c.host = s.address ∧ c.Guarded connector tls :=
  h.each (fun _ hreserved => hreserved.guarded) fun hready hlogin =>
    (hlogin.secured hready).guarded

theorem Attempted.opened_secured {session : Session} {d' : Dialer}
    (h : Attempted s tls (.required connector) d r) (hr : settled r = .ok session d') :
    session.channel.Secured connector tls := by
  cases h with
  | unconnected | unencrypted | unadmitted =>
      rw [settled_stopped] at hr
      cases hr
  | opened hready hlogin =>
      cases hr
      exact hlogin.secured hready

/-! ## A second attempt -/

end Dialer

/-- Only a server can refuse a login. -/
theorem AttemptFailure.rejected {f : AttemptFailure} (h : f.isRejectedLogin = true) :
    f.stage = .login ∧ f.error.serverError? ≠ none := by
  rcases f with ⟨stage, error⟩
  simp only [isRejectedLogin, Bool.and_eq_true, decide_eq_true_eq] at h
  refine ⟨h.1, ?_⟩
  cases error with
  | server e => exact nofun
  | _ => exact absurd h.2 (by simp [Error.sqlState, invalidAuthorization])

namespace Dialer

/-- Which attempt follows one that failed. -/
inductive Follows (tls : TlsOptions) (connector : Connector) (f : AttemptFailure) :
    Encryption → Encryption → Prop where
  | encrypted (hmode : tls.mode = .allow) (hrejected : f.isRejectedLogin = true) :
      Follows tls connector f .off (.required connector)
  | plain (hmode : tls.mode = .prefer) (hfailed : f.stage = .ssl ∨ f.isRejectedLogin = true) :
      Follows tls connector f (.optional connector) .off

theorem retrying_run (first second : ExceptT AttemptFailure (Exchange Dialer) Session)
    (again : AttemptFailure → Bool) (event : AttemptFailure → Event) (d : Dialer) :
    (retrying first second again event).run d = match first.run d with
      | .ok (.ok s) t => .ok (.ok s) t
      | .ok (.error f) t => if again f then second.run (t.told (event f)) else .ok (.error f) t
      | .error halt t => .error halt t := by
  rw [show (retrying first second again event).run d = (first.run >>= _) d from rfl, bind_apply]
  rcases first.run d with ⟨f | s, t⟩ | ⟨halt, t⟩
  · simp only []
    cases again f <;> rfl
  · rfl
  · rfl

theorem retrying_cases (first second : ExceptT AttemptFailure (Exchange Dialer) Session)
    (again : AttemptFailure → Bool) (event : AttemptFailure → Event) (d : Dialer) :
    (retrying first second again event).run d = first.run d ∨
      ∃ f d₁, again f = true ∧ first.run d = .ok (.error f) d₁ ∧
        (retrying first second again event).run d = second.run (d₁.told (event f)) := by
  rw [retrying_run]
  rcases first.run d with ⟨f | s, t⟩ | ⟨halt, t⟩
  · by_cases hagain : again f = true
    · exact .inr ⟨f, t, hagain, rfl, if_pos hagain⟩
    · exact .inl (if_neg hagain)
  · exact .inl rfl
  · exact .inl rfl

theorem attempts_cases (o : SessionOptions) (hmode : tls.mode ≠ .disable) :
    (∃ e, (attempts s o tls connector).run d = (attempt s o tls e).run d) ∨
      ∃ first second f d₁ event, Follows tls connector f first second ∧
        (attempt s o tls first).run d = .ok (.error f) d₁ ∧
        (attempts s o tls connector).run d = (attempt s o tls second).run (d₁.told event) := by
  unfold attempts
  cases hmode' : tls.mode with
  | disable => exact absurd hmode' hmode
  | require | verifyCa | verifyFull => exact .inl ⟨_, rfl⟩
  -- only these two ever make a second attempt
  | allow =>
      rcases retrying_cases (attempt s o tls .off) (attempt s o tls (.required connector))
        AttemptFailure.isRejectedLogin (fun _ => .plaintextRefused s.address) d with
        hone | ⟨f, d₁, hagain, hfirst, htwo⟩
      · exact .inl ⟨_, hone⟩
      · exact .inr ⟨_, _, f, d₁, _, .encrypted hmode' hagain, hfirst, htwo⟩
  | prefer =>
      rcases retrying_cases (attempt s o tls (.optional connector)) (attempt s o tls .off)
        (fun f => f.stage = .ssl || f.isRejectedLogin)
        (fun f => .sslFailed s.address f.error) d with
        hone | ⟨f, d₁, hagain, hfirst, htwo⟩
      · exact .inl ⟨_, hone⟩
      · have hfailed : f.stage = .ssl ∨ f.isRejectedLogin = true := by simpa using hagain
        exact .inr ⟨_, _, f, d₁, _, .plain hmode' hfailed, hfirst, htwo⟩

/-- An attempt that may be followed by another one had a channel, and gave it up. -/
theorem Attempted.lost {f : AttemptFailure} (h : Attempted s tls e d (.ok (.error f) d₁))
    (hf : f.stage = .ssl ∨ f.isRejectedLogin = true) :
    ∃ lost, d.Tried [lost] d₁ ∧ (f.stage = .ssl ∧ lost.Reserved ∨
      f.isRejectedLogin = true ∧ ∃ ready, Channel.Ready tls e ready ∧
        Channel.Introduces s ready (some (.failed f.error)) lost) := by
  have hlogin : f.stage ≠ .ssl → f.isRejectedLogin = true := hf.resolve_left
  generalize hr : EStateM.Result.ok (Except.error f) d₁ = r at h
  cases h with
  | @unconnected halt =>
      cases halt <;> cases hr
      exact absurd (AttemptFailure.rejected (hlogin nofun)).1 nofun
  | @unencrypted halt c _ _ hreserved _ htried =>
      cases halt <;> cases hr
      exact ⟨c, htried, .inl ⟨rfl, hreserved⟩⟩
  | @unadmitted halt ready c _ hready hintroduces _ htried =>
      cases halt <;> cases hr
      exact ⟨c, htried, .inr ⟨hlogin nofun, ready, hready, hintroduces⟩⟩
  | opened => cases hr

/-- A second attempt, by what made the first one fail, what its channel had said by then, and what
the channels of the second one said. -/
inductive Retries (s : ConnectionSettings) (tls : TlsOptions) (connector : Connector)
    (f : AttemptFailure) (lost : Channel) (next : List Channel) : Prop where
  /-- Refused in the clear, the client says who it is within TLS or not at all. -/
  | encrypted (hmode : tls.mode = .allow) (hrejected : f.isRejectedLogin = true)
      (hlost : lost.Exposed s) (hnext : ∀ c ∈ next, c.Guarded connector tls)
  /-- Without TLS, or refused over it, the client goes on without. -/
  | plain (hmode : tls.mode = .prefer)
      (hlost : f.stage = .ssl ∧ lost.Reserved ∨ f.isRejectedLogin = true ∧
        lost.Secured connector tls ∧ Channel.Opens s lost.socket.encrypted)
      (hnext : ∀ c ∈ next, c.Bare s)
  /-- Refused in the clear because TLS could not be had, the client says the same again. -/
  | repeated (hmode : tls.mode = .prefer) (hrejected : f.isRejectedLogin = true)
      (hlost : lost.Exposed s) (hnext : ∀ c ∈ next, c.Bare s)

theorem Follows.fails {f : AttemptFailure} {first second : Encryption}
    (h : Follows tls connector f first second) : f.stage = .ssl ∨ f.isRejectedLogin = true := by
  cases h with
  | encrypted _ hrejected => exact .inr hrejected
  | plain _ hfailed => exact hfailed

theorem Follows.retries {f : AttemptFailure} {first second : Encryption} {lost : Channel}
    (hfollows : Follows tls connector f first second)
    (hlost : f.stage = .ssl ∧ lost.Reserved ∨ f.isRejectedLogin = true ∧
      ∃ ready, Channel.Ready tls first ready ∧
        Channel.Introduces s ready (some (.failed f.error)) lost)
    (hsecond : Attempted s tls second d r) :
    ∃ next, channels (settled r) = d.given ++ next ∧ Retries s tls connector f lost next := by
  cases hfollows with
  | encrypted hmode hrejected =>
      obtain ⟨hstage, hserver⟩ := AttemptFailure.rejected hrejected
      obtain ⟨next, hchannels, hguarded⟩ := hsecond.guarded
      refine ⟨next, hchannels, .encrypted hmode hrejected ?_ fun c hc => (hguarded c hc).2⟩
      rcases hlost with ⟨hssl, -⟩ | ⟨-, ready, hready, hlogin⟩
      · rw [hstage] at hssl
        cases hssl
      -- this mode does not ask for TLS at first, so that the login went out in the clear
      · cases hready with
        | bare hnew => exact hlogin.exposed hserver hnew.reserved
  | plain hmode =>
      obtain ⟨next, hchannels, hbare⟩ := hsecond.bare
      have hnext : ∀ c ∈ next, c.Bare s := fun c hc => (hbare c hc).2
      refine ⟨next, hchannels, ?_⟩
      rcases hlost with hssl | ⟨hrejected, ready, hready, hlogin⟩
      · exact .plain hmode (.inl hssl) hnext
      -- the stage and the report alone do not tell which channel the login was refused on
      · obtain ⟨-, hserver⟩ := AttemptFailure.rejected hrejected
        cases hready with
        | plain hreserved =>
            exact .repeated hmode hrejected (hlogin.exposed hserver hreserved) hnext
        | optional hsecured hencrypted =>
            exact .plain hmode (.inr ⟨hrejected, hlogin.enclosed hserver hsecured hencrypted⟩) hnext

/-! ## Opening a session -/

theorem openSession_eq (o : SessionOptions) {store : KeyStore} (hmode : tls.mode ≠ .disable)
    (hconnector : Connector.ofOptions store tls = .ok connector) (d : Dialer) :
    openSession store s o tls d = settled ((attempts s o tls connector).run d) := by
  rw [← settled_eq, openSession, if_neg hmode, hconnector]
  rfl

theorem openSession_of_refused (o : SessionOptions) {store : KeyStore} {e : Error}
    (hmode : tls.mode ≠ .disable) (hrefused : Connector.ofOptions store tls = .error e)
    (d : Dialer) : openSession store s o tls d = .error (.failed e) d := by
  rw [openSession, if_neg hmode, hrefused]
  rfl

/-- A client that insists on encryption makes one attempt, and whatever it says of itself it says
within TLS. Without the certificates it was told to use it makes none. -/
theorem openSession_guarded (store : KeyStore) (s : ConnectionSettings) (o : SessionOptions)
    (tls : TlsOptions) (d : Dialer) (hd : d.DialsNew)
    (hmode : tls.mode.requiresEncryption = true) :
    (∀ e, Connector.ofOptions store tls = .error e →
      openSession store s o tls d = .error (.failed e) d) ∧
    ∀ connector, Connector.ofOptions store tls = .ok connector →
      (final (openSession store s o tls d)).dialed = d.dialed + 1 ∧
      (∃ made, channels (openSession store s o tls d) = d.given ++ made ∧
        ∀ c ∈ made, c.host = s.address ∧ c.Guarded connector tls) ∧
      ∀ session d', openSession store s o tls d = .ok session d' →
        session.channel.socket.medium = .tls := by
  have hnot : tls.mode ≠ .disable := by
    intro h
    rw [h] at hmode
    cases hmode
  refine ⟨fun e he => openSession_of_refused o hnot he d, fun connector hconnector => ?_⟩
  have hone : attempts s o tls connector = attempt s o tls (.required connector) := by
    unfold attempts
    cases hmode' : tls.mode with
    | disable | allow | prefer =>
        rw [hmode'] at hmode
        cases hmode
    | require | verifyCa | verifyFull => rfl
  have hattempted : Attempted s tls (.required connector) d _ :=
    attempt_attempted s o tls (.required connector) hd
  rw [openSession_eq o hnot hconnector d, hone]
  exact ⟨hattempted.dialed, hattempted.guarded, fun session d' hopened =>
    (hattempted.opened_secured hopened).clear.1⟩

/-- A server that is ready for TLS, and within TLS lets everybody in. -/
def welcoming : Dialer where
  dial _ := .connected {
    inbound := [0x53]
    handshake := .succeeds [0x52, 0, 0, 0, 8, 0, 0, 0, 0, 0x5A, 0, 0, 0, 5, 0x49] true }

theorem welcoming_dialsNew : welcoming.DialsNew := by
  rintro n socket ⟨⟩
  exact ⟨nofun, rfl, rfl⟩

/-- What there is to read for a client without any files. -/
def noFiles : KeyStore :=
  .ofFiles fun _ => .error "no such file"

theorem openSession_guarded_welcoming :
    welcoming.DialsNew ∧ SslMode.verifyFull.requiresEncryption = true ∧
      ∃ connector, Connector.ofOptions noFiles { mode := .verifyFull } = .ok connector ∧
        (final (openSession noFiles {} {} { mode := .verifyFull } welcoming)).dialed = 1 ∧
        ∀ session d', openSession noFiles {} {} { mode := .verifyFull } welcoming =
          .ok session d' → session.channel.socket.medium = .tls := by
  refine ⟨welcoming_dialsNew, rfl, _, rfl, ?_⟩
  have hguarded := (openSession_guarded noFiles {} {} { mode := .verifyFull } welcoming
    welcoming_dialsNew rfl).2 _ rfl
  exact ⟨hguarded.1, hguarded.2.2⟩

/-- No attempt is made if a certificate that servers are checked against cannot be read. -/
theorem openSession_without_root :
    (final (openSession noFiles {} {} { mode := .verifyFull, rootCertificate := some "root.crt" }
      welcoming)).dialed = 0 := by
  decide +kernel

/-- The two attempts of a client that made a second one, told together. -/
theorem attempts_retries {f : AttemptFailure} {first second : Encryption} {event : Event}
    (o : SessionOptions) (hd : d.DialsNew) (hfollows : Follows tls connector f first second)
    (hfirst : (attempt s o tls first).run d = .ok (.error f) d₁)
    (hsecond : r = (attempt s o tls second).run (d₁.told event)) :
    (final (settled r)).dialed = d.dialed + 2 ∧
      ∃ lost next, d₁.given = d.given ++ [lost] ∧ channels (settled r) = d.given ++ lost :: next ∧
        Retries s tls connector f lost next := by
  have hattempted := attempt_attempted s o tls first hd
  rw [hfirst] at hattempted
  obtain ⟨lost, htried, hlost⟩ := hattempted.lost hfollows.fails
  have hnew : (d₁.told event).DialsNew := htried.dialsNew hd
  have hattempted' := attempt_attempted s o tls second hnew
  rw [← hsecond] at hattempted'
  obtain ⟨next, hchannels, hretries⟩ := hfollows.retries hlost hattempted'
  refine ⟨?_, lost, next, htried.given_eq, ?_, hretries⟩
  · calc (final (settled r)).dialed = d₁.dialed + 1 := hattempted'.dialed
      _ = d.dialed + 2 := congrArg (· + 1) htried.dialed
  · calc channels (settled r) = d₁.given ++ next := hchannels
      _ = d.given ++ lost :: next := by
        rw [htried.given_eq, List.append_assoc, List.singleton_append]

/-- A client makes at most two attempts to open a session, and the second one goes over a channel
of the other kind unless the first one was refused although TLS could not be had. -/
theorem openSession_retries (store : KeyStore) (s : ConnectionSettings) (o : SessionOptions)
    (tls : TlsOptions) (d : Dialer) (hd : d.DialsNew) :
    (final (openSession store s o tls d)).dialed ≤ d.dialed + 2 ∧
      (d.dialed + 2 ≤ (final (openSession store s o tls d)).dialed →
        ∃ connector first f d₁ lost next, Connector.ofOptions store tls = .ok connector ∧
          (attempt s o tls first).run d = .ok (.error f) d₁ ∧ d₁.given = d.given ++ [lost] ∧
          channels (openSession store s o tls d) = d.given ++ lost :: next ∧
          Retries s tls connector f lost next) := by
  have hone : ∀ e, (final (settled ((attempt s o tls e).run d))).dialed = d.dialed + 1 :=
    fun e => (attempt_attempted s o tls e hd).dialed
  by_cases hmode : tls.mode = .disable
  · have hplain : openSession store s o tls d = settled ((attempt s o tls .off).run d) := by
      have hoff : attempts s o tls (.custom {}) = attempt s o tls .off := by
        unfold attempts
        rw [hmode]
      rw [← settled_eq, ← hoff, openSession, if_pos hmode]
      rfl
    rw [hplain, hone]
    exact ⟨by omega, fun h => absurd h (by omega)⟩
  · cases hconnector : Connector.ofOptions store tls with
    | error e =>
        rw [openSession_of_refused o hmode hconnector d, final_error]
        exact ⟨by omega, fun h => absurd h (by omega)⟩
    | ok connector =>
        rw [openSession_eq o hmode hconnector]
        rcases attempts_cases o hmode with
          ⟨e, hsingle⟩ | ⟨first, second, f, d₁, event, hfollows, hfirst, hsecond⟩
        · rw [hsingle, hone]
          exact ⟨by omega, fun h => absurd h (by omega)⟩
        · obtain ⟨hdialed, lost, next, hgiven, hchannels, hretries⟩ :=
            attempts_retries o hd hfollows hfirst hsecond
          exact ⟨Nat.le_of_eq hdialed, fun _ =>
            ⟨connector, first, f, d₁, lost, next, rfl, hfirst, hgiven, hchannels, hretries⟩⟩

/-- A server of this machine that lets nobody in. -/
def unwelcoming : Dialer where
  dial _ := .connected {
    medium := .localSocket
    inbound := FrontendMessage.frame 'E'
      (Utf8.encode "SFATAL\x00VFATAL\x00C28000\x00Mno pg_hba.conf entry for host\x00\x00")
    ended := true }

theorem unwelcoming_dialsNew : unwelcoming.DialsNew := by
  rintro n socket ⟨⟩
  exact ⟨nofun, rfl, rfl⟩

theorem openSession_retries_unwelcoming :
    unwelcoming.DialsNew ∧ ∃ connector f lost next,
      channels (openSession noFiles { host := "/run/postgresql" } {} {} unwelcoming) =
        lost :: next ∧
      Retries { host := "/run/postgresql" } {} connector f lost next := by
  refine ⟨unwelcoming_dialsNew, ?_⟩
  obtain ⟨-, hretried⟩ := openSession_retries noFiles { host := "/run/postgresql" } {} {}
    unwelcoming unwelcoming_dialsNew
  obtain ⟨connector, -, f, -, lost, next, -, -, -, hchannels, hretries⟩ :=
    hretried (by decide +kernel)
  exact ⟨connector, f, lost, next, hchannels, hretries⟩

/-- Refused without TLS, a client that prefers TLS says who it is without TLS once more. -/
theorem openSession_repeats :
    let s : ConnectionSettings := { host := "/run/postgresql" }
    let r := openSession noFiles s {} {} unwelcoming
    (final r).dialed = 2 ∧ (channels r).length = 2 ∧
      ∀ c ∈ channels r, c.socket.medium = .localSocket ∧ c.socket.encrypted = [] ∧
        (FrontendMessage.startup s.startupParameters).encode .utf8 = .ok c.socket.clear := by
  decide +kernel

end Dialer

end PgClient
