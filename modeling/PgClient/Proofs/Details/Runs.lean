import PgClient.Proofs.Calls
import PgClient.Proofs.Details.Redaction

/-!
# Two runs that differ in details

Two runs of an operation are compared whose states are the same but for the details of what the
server reported, and for what is left to read. `veil` covers both: a reader of the log who is not
shown details sees nothing of what it covers, and neither does the server. `Twin` relates the
ends of two such runs, and an operation that has the same ends on states that are alike is
mirrored (`Mirrors`).

What does not read is mirrored whatever is left to read, and it leaves that alone. So the laws
here are stated for every relation `L` between what the two have left; what reads is up to the
streams, and comes later. Where the streams cannot be told to go on alike, because the protocol
is broken or nothing more arrives, a run is over (`lost`): all that goes on then is the ending of
the session, which does not read.
-/

namespace PgClient

namespace Exchange

variable {σ τ α β : Type}

/-- How the ends of two runs compare: both with a value, both with a failure that looks the same,
or both with a halt after which nothing is read any more. -/
inductive Twin (alike seeming : σ → σ → Prop) (V : α → α → Prop) :
    EStateM.Result Halt σ α → EStateM.Result Halt σ α → Prop where
  | value {a a' : α} {t t' : σ} (hv : V a a') (h : alike t t') :
      Twin alike seeming V (.ok a t) (.ok a' t')
  | failed {e e' : Error} {t t' : σ} (he : e'.redacted = e.redacted) (h : alike t t') :
      Twin alike seeming V (.error (.failed e) t) (.error (.failed e') t')
  | lost {halt : Halt} {t t' : σ} (hlost : ∀ e, halt = .failed e → e.isFatal = true)
      (h : seeming t t') : Twin alike seeming V (.error halt t) (.error halt t')

/-- On states that are alike two operations come to the same. -/
structure Mirrors (alike seeming : σ → σ → Prop) (V : α → α → Prop) (x x' : Exchange σ α) :
    Prop where
  twin : ∀ {s s'}, alike s s' → Twin alike seeming V (x s) (x' s')

variable {alike seeming : σ → σ → Prop} {V : α → α → Prop} {W : β → β → Prop}

theorem Twin.bind {x x' : Exchange σ α} {f f' : α → Exchange σ β} {s s' : σ}
    (hx : Twin alike seeming V (x s) (x' s'))
    (hf : ∀ {a a' t t'}, x s = .ok a t → x' s' = .ok a' t' → V a a' → alike t t' →
      Twin alike seeming W (f a t) (f' a' t')) :
    Twin alike seeming W ((x >>= f) s) ((x' >>= f') s') := by
  rw [bind_apply, bind_apply]
  generalize x s = r at hx hf
  generalize x' s' = r' at hx hf
  cases hx with
  | value hv h => exact hf rfl rfl hv h
  | failed he h => exact .failed he h
  | lost hlost h => exact .lost hlost h

theorem Twin.mono {alike' seeming' : σ → σ → Prop} {r r' : EStateM.Result Halt σ α}
    (h : Twin alike seeming V r r') (halike : ∀ {t t'}, alike t t' → alike' t t')
    (hseeming : ∀ {t t'}, seeming t t' → seeming' t t') : Twin alike' seeming' V r r' := by
  cases h with
  | value hv h => exact .value hv (halike h)
  | failed he h => exact .failed he (halike h)
  | lost hlost h => exact .lost hlost (hseeming h)

namespace Mirrors

theorem pure {a a' : α} (h : V a a') :
    Mirrors alike seeming V (pure a : Exchange σ α) (pure a') :=
  ⟨fun hs => .value h hs⟩

theorem fail {e e' : Error} (h : e'.redacted = e.redacted) :
    Mirrors alike seeming V (fail e : Exchange σ α) (fail e') :=
  ⟨fun hs => .failed h hs⟩

theorem bind {x x' : Exchange σ α} {f f' : α → Exchange σ β}
    (hx : Mirrors alike seeming V x x')
    (hf : ∀ a a', V a a' → Mirrors alike seeming W (f a) (f' a')) :
    Mirrors alike seeming W (x >>= f) (x' >>= f') :=
  ⟨fun hs => (hx.twin hs).bind fun _ _ hv ht => (hf _ _ hv).twin ht⟩

/-- The same value, the same continuation. -/
theorem andThen {x x' : Exchange σ α} {f : α → Exchange σ β}
    (hx : Mirrors alike seeming Eq x x') (hf : ∀ a, Mirrors alike seeming W (f a) (f a)) :
    Mirrors alike seeming W (x >>= f) (x' >>= f) :=
  hx.bind fun a _ heq => heq ▸ hf a

theorem forM {f : β → Exchange σ PUnit} (hf : ∀ b, Mirrors alike seeming Eq (f b) (f b))
    (bs : List β) : Mirrors alike seeming Eq (bs.forM f) (bs.forM f) := by
  induction bs with
  | nil => exact .pure rfl
  | cons b bs ih => exact (hf b).andThen fun _ => ih

theorem look {V : σ → σ → Prop} (h : ∀ {s s'}, alike s s' → V s s') :
    Mirrors alike seeming V (get : Exchange σ σ) get :=
  ⟨fun hs => .value (h hs) hs⟩

/-- What an operation does may depend on what the states have in common. -/
theorem ask {f : σ → Exchange σ α} (hsame : ∀ {s s'}, alike s s' → f s' = f s)
    (hf : ∀ s, Mirrors alike seeming V (f s) (f s)) :
    Mirrors alike seeming V (get >>= f) (get >>= f) := by
  refine ⟨fun {s s'} hs => ?_⟩
  rw [bind_of_ok (get_apply s), bind_of_ok (get_apply s'), hsame hs]
  exact (hf s).twin hs

theorem modify {f f' : σ → σ} (h : ∀ {s s'}, alike s s' → alike (f s) (f' s')) :
    Mirrors alike seeming Eq (modify f : Exchange σ PUnit) (modify f') :=
  ⟨fun hs => .value rfl (h hs)⟩

/-- Only what does not read can be made to go on after a failure. -/
theorem attempt {x : Exchange σ α} {never : σ → σ → Prop} (hnever : ∀ s s', ¬ never s s')
    (hx : Mirrors alike never Eq x x)
    (hfatal : ∀ s e, halt? (x s) = some (.failed e) → e.isFatal = true) :
    Mirrors alike seeming Eq x.attempt x.attempt := by
  refine ⟨fun {s s'} hs => ?_⟩
  have hends := hx.twin hs
  have hfatal := hfatal s
  rw [attempt_apply, attempt_apply]
  generalize x s = r at hends hfatal
  generalize x s' = r' at hends
  cases hends with
  | value hv h => exact .value (congrArg Except.ok hv) h
  | failed he h =>
      cases Error.eq_of_redacted he (hfatal _ rfl)
      exact .value rfl h
  | lost _ h => exact absurd h (hnever _ _)

end Mirrors

section Zoom

variable {part : σ → τ} {update : τ → σ → σ} {alike' seeming' : τ → τ → Prop}
  {x x' : Exchange τ α}

theorem Twin.zoom {s s' : σ} (hx : Twin alike' seeming' V (x (part s)) (x' (part s')))
    (hjoins : ∀ {t t'}, alike' t t' → alike (update t s) (update t' s'))
    (hseems : ∀ {t t'}, seeming' t t' → seeming (update t s) (update t' s')) :
    Twin alike seeming V (zoom part update x s) (zoom part update x' s') := by
  rw [zoom_apply, zoom_apply]
  generalize x (part s) = r at hx
  generalize x' (part s') = r' at hx
  cases hx with
  | value hv h => exact .value hv (hjoins h)
  | failed he h => exact .failed he (hjoins h)
  | lost hlost h => exact .lost hlost (hseems h)

/-- The states of two runs are alike if their parts are. -/
theorem Mirrors.zoom (hx : Mirrors alike' seeming' V x x')
    (hparts : ∀ {s s'}, alike s s' → alike' (part s) (part s'))
    (hjoins : ∀ {s s' t t'}, alike s s' → alike' t t' → alike (update t s) (update t' s'))
    (hseems : ∀ {s s' t t'}, alike s s' → seeming' t t' → seeming (update t s) (update t' s')) :
    Mirrors alike seeming V (zoom part update x) (zoom part update x') :=
  ⟨fun hs => (hx.twin (hparts hs)).zoom (hjoins hs) (hseems hs)⟩

end Zoom

end Exchange

/-! ## Channels -/

namespace Channel

open Exchange

/-- The channel without what a reader of the log is not shown, and without what is left to read,
also of what may be read within TLS. -/
def veil (c : Channel) : Channel :=
  { c with
    buffer := []
    socket := { c.socket with inbound := [], handshake := .fails "" }
    journal := c.journal.map Event.redacted }

/-- Nobody but the server and the caller can tell the channels apart. -/
structure Alike (L : Bytes → Bytes → Prop) (c c' : Channel) : Prop where
  veil : c'.veil = c.veil
  left : L c.unread c'.unread

variable {L : Bytes → Bytes → Prop} {seeming : Channel → Channel → Prop}

/-- What channels that look alike may differ in. -/
theorem eq_of_veil {c c' : Channel} (h : c'.veil = c.veil) :
    ∃ buffer inbound handshake journal,
      c' = { c with buffer, socket := { c.socket with inbound, handshake }, journal } ∧
        journal.map Event.redacted = c.journal.map Event.redacted := by
  rcases c with ⟨⟨⟩⟩
  rcases c' with ⟨⟨⟩⟩
  simp only [veil, Channel.mk.injEq, Socket.mk.injEq, true_and] at h
  obtain ⟨⟨rfl, rfl, rfl, rfl, rfl, rfl, rfl, rfl⟩, rfl, rfl, rfl, rfl, hjournal⟩ := h
  exact ⟨_, _, _, _, rfl, hjournal⟩

theorem modify_mirrors {f f' g : Channel → Channel} (hveil : ∀ c, (f c).veil = g c.veil)
    (hveil' : ∀ c, (f' c).veil = g c.veil) (hunread : ∀ c, (f c).unread = c.unread)
    (hunread' : ∀ c, (f' c).unread = c.unread) :
    Mirrors (Alike L) seeming Eq (modify f : Exchange Channel PUnit) (modify f') :=
  .modify fun {c c'} h => ⟨by rw [hveil, hveil', h.veil], by rw [hunread, hunread']; exact h.left⟩

theorem veil_told (c : Channel) (event : Event) :
    (c.told event).veil =
      { c.veil with journal := c.veil.journal.push event.redacted } := by
  unfold veil told
  rw [Array.map_push]

theorem record_mirrors {event event' : Event} (h : event'.redacted = event.redacted) :
    Mirrors (Alike L) seeming Eq (record event) (record event') :=
  modify_mirrors (g := fun c => { c with journal := c.journal.push event.redacted })
    (fun c => c.veil_told event) (fun c => h ▸ c.veil_told event') (fun _ => rfl) fun _ => rfl

theorem send_mirrors (octets : Bytes) :
    Mirrors (Alike L) seeming Eq (send octets) (send octets) :=
  modify_mirrors (g := fun c => { c with outgoing := c.outgoing ++ octets })
    (fun _ => rfl) (fun _ => rfl) (fun _ => rfl) fun _ => rfl

theorem setCharset_mirrors (charset : Charset) :
    Mirrors (Alike L) seeming Eq (setCharset charset) (setCharset charset) := by
  refine .ask (fun {c c'} h => ?_) fun c => (record_mirrors rfl).andThen fun _ => ?_
  · have hhost : c'.veil.host = c.veil.host := by rw [h.veil]
    rw [show c'.host = c.host from hhost]
  · exact modify_mirrors (g := fun c => { c with charset }) (fun _ => rfl) (fun _ => rfl)
      (fun _ => rfl) fun _ => rfl

theorem close_mirrors : Mirrors (Alike L) seeming Eq close close := by
  refine ⟨fun {c c'} ⟨hveil, hleft⟩ => ?_⟩
  obtain ⟨buffer, inbound, handshake, journal, rfl, hjournal⟩ := eq_of_veil hveil
  rw [close_apply, close_apply]
  show Twin _ _ _ _ (if c.socket.faults.shutdown then _ else _)
  split
  · exact .failed rfl ⟨by simp only [veil, hjournal], hleft⟩
  · exact .value rfl ⟨by simp only [veil, hjournal], hleft⟩

theorem flush_mirrors : Mirrors (Alike L) seeming Eq flush flush := by
  refine ⟨fun {c c'} ⟨hveil, hleft⟩ => ?_⟩
  obtain ⟨buffer, inbound, handshake, journal, rfl, hjournal⟩ := eq_of_veil hveil
  let c' : Channel := { c with buffer, socket := { c.socket with inbound, handshake }, journal }
  have hdropped : Alike L { c with outgoing := [] } { c' with outgoing := [] } :=
    ⟨by simp only [c', veil, hjournal], hleft⟩
  have hwritten : Alike L { c with outgoing := [], socket := c.socket.write c.outgoing }
      { c' with outgoing := [], socket := c'.socket.write c'.outgoing } := by
    refine ⟨?_, ?_⟩
    · simp only [c', veil, hjournal, Socket.write]
      cases c.socket.medium <;> rfl
    · simp only [unread, Socket.inbound_write]
      exact hleft
  rw [flush_apply, flush_apply]
  show Twin _ _ _ _ (if c.outgoing = [] then _ else if c.socket.faults.write then _ else _)
  split
  · exact .value rfl ⟨hveil, hleft⟩
  · split
    · exact .failed rfl hdropped
    · show Twin _ _ _ _ (if c.socket.faults.flush then _ else _)
      simp only []
      split
      · exact .failed rfl hwritten
      · exact .value rfl hwritten

end Channel

/-! ## Sessions -/

namespace Session

open Exchange

/-- The session without what a reader of the log is not shown, and without what is left to read. -/
def veil (s : Session) : Session :=
  { s with
    channel := s.channel.veil
    status := { s.status with warnings := s.status.warnings.map Report.redacted }
    failCause := s.failCause.map ServerError.redacted }

/-- Nobody who is not shown details can tell the sessions apart. -/
structure Alike (L : Bytes → Bytes → Prop) (s s' : Session) : Prop where
  veil : s'.veil = s.veil
  left : L s.channel.unread s'.channel.unread
  quiet : s.options.showErrorDetail = false

variable {L M : Bytes → Bytes → Prop} {α : Type} {V : α → α → Prop}

/-- Whatever the veil does not cover is the same. -/
theorem Alike.same {s s' : Session} {β : Type} (h : Alike L s s') (field : Session → β)
    (hfield : ∀ s : Session, field s.veil = field s) : field s' = field s := by
  rw [← hfield, h.veil, hfield]

theorem Alike.bare {s s' : Session} (h : Alike L s s') : s'.bare = s.bare :=
  h.same Session.bare fun _ => rfl

theorem Alike.mono {s s' : Session} (h : Alike L s s') (hle : ∀ u u', L u u' → M u u') :
    Alike M s s' :=
  ⟨h.veil, hle _ _ h.left, h.quiet⟩

theorem Alike.quiet' {s s' : Session} (h : Alike L s s') : s'.options.showErrorDetail = false := by
  rw [h.same options fun _ => rfl]
  exact h.quiet

theorem onChannel_twin {x x' : Exchange Channel α} {s s' : Session} (hveil : s'.veil = s.veil)
    (hquiet : s.options.showErrorDetail = false)
    (hx : Twin (Channel.Alike L) (Channel.Alike M) V (x s.channel) (x' s'.channel)) :
    Twin (Alike L) (Alike M) V (onChannel x s) (onChannel x' s') := by
  have hjoined : ∀ {c c' : Channel}, c'.veil = c.veil →
      ({ s' with channel := c' } : Session).veil = ({ s with channel := c } : Session).veil := by
    intro c c' hc
    show { s'.veil with channel := c'.veil } = { s.veil with channel := c.veil }
    rw [hveil, hc]
  exact hx.zoom (fun ht => ⟨hjoined ht.veil, ht.left, hquiet⟩)
    fun ht => ⟨hjoined ht.veil, ht.left, hquiet⟩

theorem onChannel_mirrors {x x' : Exchange Channel α}
    (hx : Mirrors (Channel.Alike L) (Channel.Alike M) V x x') :
    Mirrors (Alike L) (Alike M) V (onChannel x) (onChannel x') :=
  ⟨fun h => onChannel_twin h.veil h.quiet (hx.twin ⟨congrArg channel h.veil, h.left⟩)⟩

theorem modify_mirrors {f f' g : Session → Session} (hveil : ∀ s, (f s).veil = g s.veil)
    (hveil' : ∀ s, (f' s).veil = g s.veil) (hchannel : ∀ s, (f s).channel = s.channel)
    (hchannel' : ∀ s, (f' s).channel = s.channel) (hoptions : ∀ s, (f s).options = s.options) :
    Mirrors (Alike L) (Alike M) Eq (modify f : Exchange Session PUnit) (modify f') :=
  .modify fun {s s'} h => ⟨by rw [hveil, hveil', h.veil],
    by rw [hchannel, hchannel']; exact h.left, by rw [hoptions]; exact h.quiet⟩

/-- A change that does not look behind the veil. -/
theorem change_mirrors {f : Session → Session} (hveil : ∀ s, (f s).veil = f s.veil)
    (hchannel : ∀ s, (f s).channel = s.channel) (hoptions : ∀ s, (f s).options = s.options) :
    Mirrors (Alike L) (Alike M) Eq (modify f : Exchange Session PUnit) (modify f) :=
  modify_mirrors hveil hveil hchannel hchannel hoptions

theorem mirrors_assembles :
    Assembles fun {α : Type} (x : Exchange Session α) => Mirrors (Alike L) (Alike M) Eq x x where
  pure _ := .pure rfl
  bind hx hf := hx.andThen hf
  ask hbare hf := .ask (fun h => by rw [← hbare, h.bare, hbare]) hf

theorem record_mirrors {event event' : Event} (h : event'.redacted = event.redacted) :
    Mirrors (Alike L) (Alike M) Eq (record event) (record event') :=
  onChannel_mirrors (Channel.record_mirrors h)

theorem attempt_mirrors {x : Exchange Channel α}
    (hx : ∀ M, Mirrors (Channel.Alike L) (Channel.Alike M) Eq x x)
    (hfatal : ∀ c e, halt? (x c) = some (.failed e) → e.isFatal = true) :
    Mirrors (Alike L) (Alike M) Eq (onChannel x).attempt (onChannel x).attempt := by
  refine .attempt (fun _ _ h => h.left) (onChannel_mirrors (hx fun _ _ => False)) fun s e h => ?_
  rw [onChannel, halt?_zoom] at h
  exact hfatal _ e h

theorem mirrors_endures :
    Endures fun {α : Type} (x : Exchange Session α) => Mirrors (Alike L) (Alike M) Eq x x where
  toAssembles := mirrors_assembles
  told _ _ := record_mirrors rfl
  sends octets := onChannel_mirrors (Channel.send_mirrors octets)
  flushes := attempt_mirrors (fun _ => Channel.flush_mirrors) fun c e h => by
    cases hflush : Channel.flush c with
    | ok _ _ => rw [hflush] at h; cases h
    | error halt _ =>
        obtain ⟨e', rfl, hfatal, -⟩ := Channel.flush_error hflush
        rw [hflush] at h
        cases h
        exact hfatal
  shuts := attempt_mirrors (fun _ => Channel.close_mirrors) fun c e h => by
    rw [Channel.close_apply] at h
    split at h <;> cases h
    rfl
  marks _ :=
    (change_mirrors (f := fun s => { s with isClosed := true }) (fun _ => rfl) (fun _ => rfl)
      fun _ => rfl).andThen fun _ => mirrors_assembles.ask (fun _ => rfl) fun _ =>
        record_mirrors rfl

theorem checkFatal_mirrors (result : Except Error α) :
    Mirrors (Alike L) (Alike M) Eq (checkFatal result) (checkFatal result) :=
  mirrors_assembles.checkFatal (fun _ _ => record_mirrors rfl) mirrors_endures.abort result

theorem setting_mirrors {f : Session → Session} (h : IsSetting f) :
    Mirrors (Alike L) (Alike M) Eq (modify f : Exchange Session PUnit) (modify f) := by
  refine change_mirrors (fun s => ?_) (fun s => by rw [h.settings s]) fun s => by rw [h.settings s]
  have hbare : (f s.veil).bare = (f s).bare := by
    rw [← h.bare, ← h.bare]
    rfl
  have hsame : ∀ {β : Type} (field : Session → β), (∀ t, field t.bare = field t) →
      field (f s.veil) = field (f s) := fun field hfield => by
    rw [← hfield, hbare, hfield]
  rw [h.settings s, h.settings s.veil, hsame (·.status.conformingStrings) fun _ => rfl,
    hsame (·.timeZone) fun _ => rfl, hsame (·.applicationName) fun _ => rfl,
    hsame (·.serverVersion) fun _ => rfl, hsame (·.serverVersionNumber) fun _ => rfl,
    hsame (·.integerDatetimes) fun _ => rfl]
  rfl

theorem mirrors_governs :
    Governs fun {α : Type} (x : Exchange Session α) => Mirrors (Alike L) (Alike M) Eq x x where
  toAssembles := mirrors_assembles
  told _ _ := record_mirrors rfl
  recodes charset := onChannel_mirrors (Channel.setCharset_mirrors charset)
  sets _ h := setting_mirrors h
  leaves _ := mirrors_endures.close.andThen fun _ => .fail rfl
  fails _ _ := .fail rfl

theorem freshName_mirrors : Mirrors (Alike L) (Alike M) Eq freshName freshName := by
  refine ⟨fun {s s'} h => ?_⟩
  refine .value (by rw [h.same nextName fun _ => rfl]) ⟨?_, h.left, h.quiet⟩
  show { s'.veil with nextName := s'.veil.nextName + 1 } = _
  rw [h.veil]
  rfl

/-- A name is given up. -/
theorem giveUp_mirrors (name : String) : Mirrors (Alike L) (Alike M) Eq
    (modify fun s => { s with pendingClose := s.pendingClose ++ [name] } : Exchange Session PUnit)
    (modify fun s => { s with pendingClose := s.pendingClose ++ [name] }) :=
  change_mirrors (fun _ => rfl) (fun _ => rfl) fun _ => rfl

theorem mirrors_writes :
    Writes fun {α : Type} (x : Exchange Session α) => Mirrors (Alike L) (Alike M) Eq x x where
  toAssembles := mirrors_assembles
  drafted _ := record_mirrors rfl
  sends octets := onChannel_mirrors (Channel.send_mirrors octets)
  flushes := onChannel_mirrors Channel.flush_mirrors
  refuses _ := .fail rfl
  empties := change_mirrors (fun _ => rfl) (fun _ => rfl) fun _ => rfl
  names := freshName_mirrors

/-! ### What a message means -/

theorem onReady_mirrors (status : UInt8) :
    Mirrors (Alike L) (Alike M) Eq (onReady status) (onReady status) := by
  unfold onReady
  simp only []
  split
  · exact change_mirrors (fun _ => rfl) (fun _ => rfl) fun _ => rfl
  · exact change_mirrors (fun _ => rfl) (fun _ => rfl) fun _ => rfl
  · exact change_mirrors (fun _ => rfl) (fun _ => rfl) fun _ => rfl
  · exact .fail rfl

theorem onParameter_mirrors (name value : String) :
    Mirrors (Alike L) (Alike M) Eq (onParameter name value) (onParameter name value) := by
  have hsetting : Mirrors (Alike L) (Alike M) Eq (onSetting name value) (onSetting name value) :=
    mirrors_governs.onSetting name value
  unfold onParameter
  split
  · exact hsetting
  · exact (change_mirrors (f := fun s => { s with parameters := s.parameters.insert name value })
      (fun _ => rfl) (fun _ => rfl) fun _ => rfl).andThen fun _ => hsetting

theorem onNotification_mirrors (notification : Notification) :
    Mirrors (Alike L) (Alike M) Eq (onNotification notification) (onNotification notification) :=
  change_mirrors (fun _ => rfl) (fun _ => rfl) fun _ => rfl

theorem onWarning_mirrors {report report' : Report} (h : report'.redacted = report.redacted) :
    Mirrors (Alike L) (Alike M) Eq (onWarning report) (onWarning report') := by
  have hveil : ∀ report : Report, ∀ s : Session,
      ({ s with status := s.status.addWarning report } : Session).veil =
        { s.veil with status := s.veil.status.addWarning report.redacted } := fun report s => by
    simp only [veil, Status.addWarning, List.map_append, List.map_cons, List.map_nil]
  exact modify_mirrors (g := fun s => { s with status := s.status.addWarning report.redacted })
    (hveil report) (fun s => h ▸ hveil report' s) (fun _ => rfl) (fun _ => rfl) fun _ => rfl

theorem onError_mirrors {report report' : Report} (h : report'.redacted = report.redacted) :
    Mirrors (Alike L) (Alike M) (fun e e' => e'.redacted = e.redacted) (onError report)
      (onError report') := by
  refine ⟨fun {s s'} hs => ?_⟩
  have hveil : s'.veil.failCause = s.veil.failCause := by rw [hs.veil]
  have hcause : s'.failCause.map ServerError.redacted = s.failCause.map ServerError.redacted :=
    hveil
  have hset : ∀ cause cause' : Option ServerError,
      cause'.map ServerError.redacted = cause.map ServerError.redacted →
      Alike L { s with failCause := cause } { s' with failCause := cause' } :=
    fun cause cause' hcause =>
    ⟨by
      show { s'.veil with failCause := cause'.map ServerError.redacted } =
        { s.veil with failCause := cause.map ServerError.redacted }
      rw [hs.veil, hcause], hs.left, hs.quiet⟩
  unfold onError
  rw [bind_of_ok (get_apply s), bind_of_ok (get_apply s'), hs.quiet, hs.quiet']
  cases hfail : s.failCause with
  | none =>
      rw [hfail] at hcause
      rw [Option.map_eq_none_iff.1 hcause]
      have hfirst : (ServerError.first report' false).redacted =
          (ServerError.first report false).redacted := by
        simp only [ServerError.redacted, h, Bool.false_eq_true, if_false]
      exact .value hfirst (hset _ _ (by rw [Option.map_some, Option.map_some, hfirst]))
  | some cause =>
      rw [hfail] at hcause
      obtain ⟨cause', hfail', hsame⟩ := Option.map_eq_some_iff.1 hcause
      rw [hfail']
      refine .value ?_ hs
      simp only [ServerError.redacted, h, hsame, Bool.false_eq_true, if_false]

theorem forgetStatements_mirrors :
    Mirrors (Alike L) (Alike M) Eq forgetStatements forgetStatements := by
  refine mirrors_assembles.ask (fun _ => rfl) fun s => ?_
  split
  · exact (record_mirrors rfl).andThen fun _ =>
      change_mirrors (fun _ => rfl) (fun _ => rfl) fun _ => rfl
  · exact .pure rfl

theorem takeIdle_mirrors {m m' : BackendMessage} (h : m.Similar m') :
    Mirrors (Alike L) (Alike M) Eq (takeIdle m) (takeIdle m') := by
  have herror : ∀ {report report' : Report}, report'.redacted = report.redacted →
      Mirrors (Alike L) (Alike M) Eq (takeIdle (.errorResponse report))
        (takeIdle (.errorResponse report')) := fun h =>
    (onError_mirrors h).bind fun _ _ he => .fail (congrArg Error.server he)
  cases h with
  | error h => exact herror h
  | notice h => exact onWarning_mirrors h
  | same m =>
      cases m with
      | notificationResponse notification => exact onNotification_mirrors notification
      | errorResponse report => exact herror rfl
      | noticeResponse report => exact onWarning_mirrors rfl
      | parameterStatus name value => exact onParameter_mirrors name value
      | _ => exact .pure rfl

theorem announce_mirrors {m m' : BackendMessage} (h : m.Similar m') :
    Mirrors (Alike L) (Alike M) Eq (announce m) (announce m') := by
  have herror : ∀ {report report' : Report}, report'.redacted = report.redacted →
      Mirrors (Alike L) (Alike M) Eq (announce (.errorResponse report))
        (announce (.errorResponse report')) := fun h =>
    (onError_mirrors h).bind fun _ _ he => .fail (congrArg Error.server he)
  have hnotice : ∀ {report report' : Report}, report'.redacted = report.redacted →
      Mirrors (Alike L) (Alike M) Eq (announce (.noticeResponse report))
        (announce (.noticeResponse report')) := fun h =>
    (onWarning_mirrors h).andThen fun _ => .pure rfl
  cases h with
  | error h => exact herror h
  | notice h => exact hnotice h
  | same m =>
      cases m with
      | readyForQuery status => exact (onReady_mirrors status).andThen fun _ => .pure rfl
      | errorResponse report => exact herror rfl
      | noticeResponse report => exact hnotice rfl
      | parameterStatus name value =>
          exact (onParameter_mirrors name value).andThen fun _ => .pure rfl
      | backendKeyData key =>
          exact (change_mirrors (f := fun s =>
            { s with status := { s.status with backendKey := some key } }) (fun _ => rfl)
            (fun _ => rfl) fun _ => rfl).andThen fun _ => .pure rfl
      | _ => exact .fail rfl

/-! ## Replies -/

namespace Conversation

/-- The request without what a reader of the log is not shown, and without what is left to read. -/
def veil (c : Conversation) : Conversation :=
  { c with
    session := c.session.veil
    deliveries := c.deliveries.map Delivery.redacted
    firstError := c.firstError.map Error.redacted }

/-- Nobody who is not shown details can tell the requests apart. -/
structure Alike (L : Bytes → Bytes → Prop) (c c' : Conversation) : Prop where
  veil : c'.veil = c.veil
  left : L c.session.channel.unread c'.session.channel.unread
  quiet : c.session.options.showErrorDetail = false

/-- Whatever the veil does not cover is the same. -/
theorem same_of_veil {c c' : Conversation} {β : Type} (h : c'.veil = c.veil)
    (field : Conversation → β) (hfield : ∀ c : Conversation, field c.veil = field c) :
    field c' = field c := by
  rw [← hfield, h, hfield]

theorem Alike.session {c c' : Conversation} (h : Alike L c c') : c.session.Alike L c'.session :=
  ⟨congrArg Conversation.session h.veil, h.left, h.quiet⟩

theorem onSession_mirrors {x x' : Exchange Session α}
    (hx : Mirrors (Session.Alike L) (Session.Alike M) V x x') :
    Mirrors (Alike L) (Alike M) V (onSession x) (onSession x') := by
  have hveil : ∀ {c c' : Conversation} {s s' : Session}, c'.veil = c.veil → s'.veil = s.veil →
      ({ c' with session := s' } : Conversation).veil =
        ({ c with session := s } : Conversation).veil := by
    intro c c' s s' hc hs
    show { c'.veil with session := s'.veil } = { c.veil with session := s.veil }
    rw [hc, hs]
  exact hx.zoom Alike.session (fun h ht => ⟨hveil h.veil ht.veil, ht.left, ht.quiet⟩)
    fun h ht => ⟨hveil h.veil ht.veil, ht.left, ht.quiet⟩

theorem modify_mirrors {f f' g : Conversation → Conversation} (hveil : ∀ c, (f c).veil = g c.veil)
    (hveil' : ∀ c, (f' c).veil = g c.veil) (hsession : ∀ c, (f c).session = c.session)
    (hsession' : ∀ c, (f' c).session = c.session) :
    Mirrors (Alike L) (Alike M) Eq (modify f : Exchange Conversation PUnit) (modify f') :=
  .modify fun {c c'} h => ⟨by rw [hveil, hveil', h.veil],
    by rw [hsession, hsession']; exact h.left, by rw [hsession]; exact h.quiet⟩

theorem deliver_mirrors {delivery delivery' : Delivery}
    (h : delivery'.redacted = delivery.redacted) :
    Mirrors (Alike L) (Alike M) Eq (deliver delivery) (deliver delivery') := by
  have hveil : ∀ (delivery : Delivery) (c : Conversation),
      ({ c with deliveries := c.deliveries.push delivery } : Conversation).veil =
        { c.veil with deliveries := c.veil.deliveries.push delivery.redacted } :=
    fun delivery c => by
      unfold veil
      rw [Array.map_push]
  exact modify_mirrors
    (g := fun c => { c with deliveries := c.deliveries.push delivery.redacted })
    (hveil delivery) (fun c => h ▸ hveil delivery' c) (fun _ => rfl) fun _ => rfl

theorem updateStatement_mirrors (f : Statement → Statement) :
    Mirrors (Alike L) (Alike M) Eq (updateStatement f) (updateStatement f) :=
  modify_mirrors (g := fun c => { c with statement := c.statement.map f }) (fun _ => rfl)
    (fun _ => rfl) (fun _ => rfl) fun _ => rfl

theorem onParsed_mirrors : Mirrors (Alike L) (Alike M) Eq onParsed onParsed := by
  refine .ask (fun {c c'} h => ?_) fun c => ?_
  · rw [same_of_veil h.veil preparing fun _ => rfl, h.session.same epoch fun _ => rfl]
  · split
    · exact updateStatement_mirrors _
    · exact .pure rfl

/-- The first error is the result of the request. -/
theorem noted_mirrors {error error' : Error} (h : error'.redacted = error.redacted) :
    Mirrors (Alike L) (Alike M) Eq
      (modify fun c => { c with firstError := c.firstError.or (some error) } :
        Exchange Conversation PUnit)
      (modify fun c => { c with firstError := c.firstError.or (some error') }) := by
  have hveil : ∀ (error : Error) (c : Conversation),
      ({ c with firstError := c.firstError.or (some error) } : Conversation).veil =
        { c.veil with firstError := c.veil.firstError.or (some error.redacted) } :=
    fun error c => by
      unfold veil
      cases c.firstError <;> rfl
  exact modify_mirrors
    (g := fun c => { c with firstError := c.firstError.or (some error.redacted) })
    (hveil error) (fun c => h ▸ hveil error' c) (fun _ => rfl) fun _ => rfl

theorem onReport_mirrors {report report' : Report} (h : report'.redacted = report.redacted) :
    Mirrors (Alike L) (Alike M) Eq (onReport report) (onReport report') := by
  refine (onSession_mirrors (onError_mirrors h)).bind fun e e' he => ?_
  have hstale : e'.isStalePlan = e.isStalePlan := by
    rw [← e'.isStalePlan_redacted, he, e.isStalePlan_redacted]
  have herror : (Error.server e').redacted = (Error.server e).redacted := congrArg Error.server he
  have hdeliver : Mirrors (Alike L) (Alike M) Eq
      (do
        deliver (.error (.server e))
        modify fun c => { c with firstError := c.firstError.or (some (.server e)) })
      (do
        deliver (.error (.server e'))
        modify fun c => { c with firstError := c.firstError.or (some (.server e')) }) :=
    have hdelivery : (Delivery.error (.server e')).redacted =
        (Delivery.error (.server e)).redacted := congrArg Delivery.error herror
    (deliver_mirrors hdelivery).bind fun _ _ _ => noted_mirrors herror
  simp only [hstale]
  split
  · refine Mirrors.bind (V := fun c c' => c'.statement = c.statement)
      (.look fun hc => same_of_veil hc.veil statement fun _ => rfl) fun c c' hstatement => ?_
    rw [hstatement]
    split
    · exact (updateStatement_mirrors _).bind fun _ _ _ =>
        (onSession_mirrors (giveUp_mirrors _)).bind fun _ _ _ => hdeliver
    · exact hdeliver
  · exact hdeliver

theorem take_mirrors {m m' : BackendMessage} (h : m.Similar m') :
    Mirrors (Alike L) (Alike M) Eq (take m) (take m') := by
  have honSession : ∀ {x x' : Exchange Session Unit} {last : Bool},
      Mirrors (Session.Alike L) (Session.Alike M) Eq x x' →
      Mirrors (Alike L) (Alike M) Eq (onSession x >>= fun _ => pure last)
        (onSession x' >>= fun _ => pure last) :=
    fun hx => (onSession_mirrors hx).bind fun _ _ _ => .pure rfl
  have hdeliver : ∀ delivery, Mirrors (Alike L) (Alike M) Eq
      (deliver delivery >>= fun _ => pure false) (deliver delivery >>= fun _ => pure false) :=
    fun delivery => (deliver_mirrors rfl).andThen fun _ => .pure rfl
  cases h with
  | error h => exact (onReport_mirrors h).bind fun _ _ _ => .pure rfl
  | notice h => exact honSession (onWarning_mirrors h)
  | same m =>
      cases m with
      | readyForQuery status => exact honSession (onReady_mirrors status)
      | parseComplete => exact onParsed_mirrors.andThen fun _ => .pure rfl
      | portalSuspended => exact (updateStatement_mirrors _).andThen fun _ => hdeliver _
      | rowDescription columns => exact hdeliver _
      | dataRow length row => exact hdeliver _
      | commandComplete tag =>
          unfold take
          simp only []
          split
          · exact (onSession_mirrors forgetStatements_mirrors).andThen fun _ => hdeliver _
          · exact hdeliver _
      | errorResponse report => exact (onReport_mirrors rfl).andThen fun _ => .pure rfl
      | noticeResponse report => exact honSession (onWarning_mirrors rfl)
      | notificationResponse notification => exact honSession (onNotification_mirrors notification)
      | parameterStatus name value => exact honSession (onParameter_mirrors name value)
      | bindComplete | closeComplete | noData | emptyQuery | parameterDescription
      | authentication | backendKeyData => exact .pure rfl

end Conversation

end Session

end PgClient
