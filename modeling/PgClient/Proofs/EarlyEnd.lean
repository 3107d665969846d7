import PgClient.Proofs.Session

/-!
# A stream that ends early

When a connection breaks, the client has read some of the octets the server sent and will
never see the rest. To say what that does to an operation is to compare two runs of it, one
on all octets and one on the first of them. As long as the shorter stream lasts, the two
go side by side, and their states differ in nothing but what is left to read. An operation
that needs more than there is fails in one way, whatever it was about to do with the octets;
and what it did before that is what the other run did as well, before it went on.

`Tandem` is what there is to know about the states of two such runs, `Cut` relates their
endings, and `Bears` says of an operation that it bears being cut short anywhere. The rules
that follow are about what operations are made of, so a law of the two operations that take
octets off a channel becomes a law of the reading of messages.
-/

namespace PgClient

namespace Exchange

variable {σ τ α β : Type}

/-- How the states of two runs are related, the first of which has less to read. -/
structure Tandem (σ : Type) where
  /-- The states differ in nothing but what is left to read. -/
  alike : σ → σ → Prop
  /-- Whatever the first state has to show for itself, the second one has as well. -/
  grows : σ → σ → Prop
  refl : ∀ s, grows s s
  trans : ∀ {s t u}, grows s t → grows t u → grows s u
  of_alike : ∀ {s s'}, alike s s' → grows s s'

/-- How the end of a run is related to the end of one that had more to read. -/
inductive Cut (T : Tandem σ) (reads : Prop) :
    EStateM.Result Halt σ α → EStateM.Result Halt σ α → Prop where
  | value {a : α} {t t' : σ} (h : T.alike t t') : Cut T reads (.ok a t) (.ok a t')
  | halt {halt : Halt} {t t' : σ} (h : T.alike t t') : Cut T reads (.error halt t) (.error halt t')
  /-- Octets were missing. -/
  | lost {t : σ} {r' : EStateM.Result Halt σ α} (hreads : reads) (h : T.grows t (final r')) :
      Cut T reads (.error (.failed (.connectionFailure .closedByServer)) t) r'

/-- An operation that can be cut short anywhere. One that does not read is never cut short. -/
structure Bears (T : Tandem σ) (reads : Prop) (x : Exchange σ α) : Prop where
  grows : Obeys (fun s _ s' => T.grows s s') x
  cut : ∀ {s s'}, T.alike s s' → Cut T reads (x s) (x s')

section Rules

variable {T : Tandem σ} {P : Tandem τ} {reads : Prop}

theorem Tandem.composes (T : Tandem σ) : Composes fun s (_ : Option Halt) s' => T.grows s s' where
  refl := T.refl
  trans := T.trans

/-- The second part of a sequence may depend on how much there is to read, as long as the runs of
it are related. -/
theorem Cut.bind {x x' : Exchange σ α} {f f' : α → Exchange σ β} {s s' : σ}
    (hx : Cut T reads (x s) (x' s'))
    (hf : ∀ a t t', x s = .ok a t → x' s' = .ok a t' → T.alike t t' →
      Cut T reads (f a t) (f' a t'))
    (hgrows : ∀ a, Obeys (fun s _ s' => T.grows s s') (f' a)) :
    Cut T reads ((x >>= f) s) ((x' >>= f') s') := by
  rw [bind_apply, bind_apply]
  generalize x s = r at hx hf
  generalize x' s' = r' at hx hf
  cases hx with
  | value h => exact hf _ _ _ rfl rfl h
  | halt h => exact .halt h
  | lost hreads h =>
      -- What the longer run goes on to do only adds to what it has to show.
      cases r' with
      | ok a t' => exact .lost hreads (T.trans h (hgrows a t'))
      | error halt t' => exact .lost hreads h

namespace Bears

theorem pure (a : α) : Bears T reads (pure a : Exchange σ α) :=
  ⟨T.composes.pure a, fun h => .value h⟩

theorem fail (e : Error) : Bears T reads (fail e : Exchange σ α) :=
  ⟨fun s => T.refl s, fun h => .halt h⟩

theorem bind {x : Exchange σ α} {f : α → Exchange σ β} (hx : Bears T reads x)
    (hf : ∀ a, Bears T reads (f a)) : Bears T reads (x >>= f) :=
  ⟨T.composes.bind hx.grows fun a => (hf a).grows,
    fun h => (hx.cut h).bind (fun a _ _ _ _ h => (hf a).cut h) fun a => (hf a).grows⟩

/-- What an operation does may depend on the state, as far as it does not depend on what is left
to read. -/
theorem ask {f : σ → Exchange σ α} (hsame : ∀ {s s'}, T.alike s s' → f s' = f s)
    (hf : ∀ s, Bears T reads (f s)) : Bears T reads (get >>= f) := by
  refine ⟨T.composes.bind T.composes.get fun s => (hf s).grows, fun {s s'} h => ?_⟩
  rw [bind_of_ok (get_apply s), bind_of_ok (get_apply s'), hsame h]
  exact (hf s).cut h

theorem modify {f : σ → σ} (halike : ∀ {s s'}, T.alike s s' → T.alike (f s) (f s'))
    (hgrows : ∀ s, T.grows s (f s)) : Bears T reads (modify f : Exchange σ PUnit) :=
  ⟨hgrows, fun h => .value (halike h)⟩

/-- Only what does not read can be made to go on after a failure. -/
theorem attempt {x : Exchange σ α} (hx : Bears T False x) : Bears T reads x.attempt := by
  refine ⟨fun s => ?_, fun {s s'} h => ?_⟩
  · rw [final_attempt]
    exact hx.grows s
  · have hcut := hx.cut h
    rw [attempt_apply, attempt_apply]
    generalize x s = r at hcut
    generalize x s' = r' at hcut
    cases hcut with
    | value h => exact .value h
    | @halt halt _ _ h =>
        cases halt with
        | failed e => exact .value h
        | waiting => exact .halt h
    | lost hnever => exact hnever.elim

end Bears

/-- The states of two runs are related by a part of them. -/
structure Tandem.Part (P : Tandem τ) (T : Tandem σ) (part : σ → τ) (update : τ → σ → σ) :
    Prop where
  parts : ∀ {s s'}, T.alike s s' → P.alike (part s) (part s')
  joins : ∀ {s s' t t'}, T.alike s s' → P.alike t t' → T.alike (update t s) (update t' s')
  grows : ∀ {s s' t t'}, T.grows s s' → P.grows t t' → T.grows (update t s) (update t' s')
  self : ∀ s, update (part s) s = s

theorem Tandem.Part.zoom {part : σ → τ} {update : τ → σ → σ} {x : Exchange τ α}
    (hpart : Tandem.Part P T part update) (hx : Bears P reads x) :
    Bears T reads (zoom part update x) := by
  refine ⟨fun s => ?_, fun {s s'} h => ?_⟩
  · have hgrows := hpart.grows (T.refl s) (hx.grows (part s))
    rw [hpart.self] at hgrows
    rwa [final_zoom]
  · have hcut := hx.cut (hpart.parts h)
    have hfinal := final_zoom part update x s'
    rw [zoom_apply, zoom_apply] at *
    generalize x (part s) = r at hcut
    generalize x (part s') = r' at hcut hfinal
    cases hcut with
    | value ht => exact .value (hpart.joins h ht)
    | halt ht => exact .halt (hpart.joins h ht)
    | lost hreads ht =>
        refine .lost hreads ?_
        rw [hfinal]
        exact hpart.grows (T.of_alike h) ht

end Rules

end Exchange

/-! ## Reading messages -/

namespace Channel

open Exchange

/-- The first channel has less to read, and then its stream ends. -/
structure Short (more : Bytes) (c c' : Channel) : Prop where
  same : c' = c.refill c'.buffer c'.socket.inbound
  unread : c'.unread = c.unread ++ more
  ended : c.socket.ended = true
  healthy : c.socket.faults.read = false

/-- The second channel has told at least as much. -/
structure Grows (c c' : Channel) : Prop where
  ended : c'.socket.ended = c.socket.ended
  readFault : c'.socket.faults.read = c.socket.faults.read
  history : c.history <+: c'.history

/-- A channel and another one with more to read. -/
def tandem (more : Bytes) : Tandem Channel where
  alike := Short more
  grows := Grows
  refl c := ⟨rfl, rfl, List.prefix_refl _⟩
  trans h h' :=
    ⟨h'.ended.trans h.ended, h'.readFault.trans h.readFault, h.history.trans h'.history⟩
  of_alike h := by
    rw [h.same]
    exact ⟨rfl, rfl, List.prefix_refl _⟩

variable {more : Bytes} {reads : Prop} {c c' t t' : Channel} {octets : Bytes}

theorem ReadsOff.grows (h : ReadsOff octets c c') : Grows c c' := by
  have hhistory : c'.history = c.history := congrArg Array.toList h.journal
  exact ⟨by rw [h.same], by rw [h.same], hhistory ▸ List.prefix_refl _⟩

/-- Both have read the same octets. -/
theorem Short.readsOff (h : Short more c c') (hoff : ReadsOff octets c t)
    (hoff' : ReadsOff octets c' t') : Short more t t' := by
  have hunread : octets ++ t'.unread = octets ++ (t.unread ++ more) := by
    rw [← hoff'.unread, h.unread, hoff.unread, List.append_assoc]
  refine ⟨?_, List.append_cancel_left hunread, ?_, ?_⟩
  · rw [hoff'.same, h.same, hoff.same]
    rfl
  · rw [hoff.same]
    exact h.ended
  · rw [hoff.same]
    exact h.healthy

/-- One of them has no octet left where it needs more. -/
theorem Short.runsDry {α : Type} {x : Exchange Channel α} (h : Short more c c')
    (hx : Obeys Reading x) (hdry : x c = (runDry : Exchange Channel α) c.exhausted) :
    Cut (tandem more) True (x c) (x c') := by
  have hlost : x c = .error (.failed (.connectionFailure .closedByServer)) c.exhausted := by
    have hhalt : c.exhausted.dryHalt = .failed (.connectionFailure .closedByServer) := by
      unfold dryHalt
      rw [show c.exhausted.socket.faults.read = false from h.healthy,
        show c.exhausted.socket.ended = true from h.ended]
      rfl
    rw [hdry, runDry_apply, hhalt]
  obtain ⟨octets, hoff⟩ := (hx c').reads
  have hgrows : Grows c c' := (tandem more).of_alike h
  have hgrows : Grows c.exhausted c' := ⟨hgrows.ended, hgrows.readFault, hgrows.history⟩
  rw [hlost]
  exact .lost trivial ((tandem more).trans hgrows hoff.grows)

theorem receiveExactly_bears (n : Nat) : Bears (tandem more) True (receiveExactly n) := by
  refine ⟨fun c => ?_, fun {c c'} h => ?_⟩
  · obtain ⟨octets, hoff⟩ := (receiveExactly_reading n c).reads
    exact hoff.grows
  · rcases Nat.lt_or_ge c.unread.length n with hshort | hlong
    · refine h.runsDry (receiveExactly_reading n) ?_
      unfold receiveExactly
      rw [bind_of_ok (modifyGet_apply _ c), takeExactly_short hshort]
    · have hlen : (c.unread.take n).length = n := List.length_take_of_le hlong
      have hunread : c'.unread = c.unread.take n ++ (c.unread.drop n ++ more) := by
        rw [h.unread, ← List.append_assoc, List.take_append_drop]
      obtain ⟨t, ht, hoff⟩ := takeExactly_append (List.take_append_drop n c.unread).symm
      obtain ⟨t', ht', hoff'⟩ := takeExactly_append hunread
      rw [hlen] at ht ht'
      unfold receiveExactly
      rw [bind_of_ok (modifyGet_apply _ c), bind_of_ok (modifyGet_apply _ c'), ht, ht']
      exact .value (h.readsOff hoff hoff')

theorem receiveZeroTerminated_bears : Bears (tandem more) True receiveZeroTerminated := by
  refine ⟨fun c => ?_, fun {c c'} h => ?_⟩
  · obtain ⟨octets, hoff⟩ := (receiveZeroTerminated_reading c).reads
    exact hoff.grows
  · by_cases hzero : 0 ∈ c.unread
    · obtain ⟨text, rest, hsplit, htext⟩ := List.eq_append_cons_of_mem hzero
      have hunread : c'.unread = text ++ 0 :: (rest ++ more) := by
        rw [h.unread, hsplit, List.append_assoc]
        rfl
      obtain ⟨t, ht, hoff, -⟩ := takeUntilZero_append htext hsplit
      obtain ⟨t', ht', hoff', -⟩ := takeUntilZero_append htext hunread
      have halike := h.readsOff hoff hoff'
      unfold receiveZeroTerminated
      rw [bind_of_ok (modifyGet_apply _ c), bind_of_ok (modifyGet_apply _ c'), ht, ht']
      simp only []
      rw [bind_of_ok (get_apply t), bind_of_ok (get_apply t'), halike.same]
      exact .value (halike.same ▸ halike)
    · refine h.runsDry receiveZeroTerminated_reading ?_
      unfold receiveZeroTerminated
      rw [bind_of_ok (modifyGet_apply _ c), takeUntilZero_none hzero]

/-! ### Messages -/

/-- What is done may depend on the channel, as far as it does not depend on what is left to read. -/
theorem bears_ask {α : Type} {f : Channel → Exchange Channel α}
    (hsame : ∀ c buffer inbound, f (c.refill buffer inbound) = f c)
    (hf : ∀ c, Bears (tandem more) reads (f c)) : Bears (tandem more) reads (get >>= f) :=
  .ask (fun {c c'} (h : Short more c c') => by rw [h.same, hsame]) hf

theorem receiveOctet_bears : Bears (tandem more) True receiveOctet :=
  (receiveExactly_bears 1).bind fun _ => .pure _

theorem receiveInt32_bears : Bears (tandem more) True receiveInt32 :=
  (receiveExactly_bears 4).bind fun _ => .pure _

theorem bears_guard {α : Type} {p : Prop} [Decidable p] {e : Error} {x : Exchange Channel α}
    (hx : Bears (tandem more) reads x) :
    Bears (tandem more) reads
      (if p then (Exchange.fail e : Exchange Channel PUnit) >>= fun _ => x else x) := by
  split
  · exact (Bears.fail e).bind fun _ => hx
  · exact hx

theorem receiveBytes_bears (n : Nat) : Bears (tandem more) True (receiveBytes n) :=
  bears_guard (receiveExactly_bears n)

theorem skip_bears (n : Nat) : Bears (tandem more) True (skip n) :=
  (receiveBytes_bears n).bind fun _ => .pure _

theorem receiveString_bears (n : Nat) : Bears (tandem more) True (receiveString n) :=
  (receiveBytes_bears n).bind fun _ => bears_ask (fun _ _ _ => rfl) fun _ => .pure _

theorem receiveReportText_bears (n : Nat) : Bears (tandem more) True (receiveReportText n) :=
  (receiveBytes_bears n).bind fun _ => bears_ask (fun _ _ _ => rfl) fun _ => .pure _

theorem receiveBodyLength_bears : Bears (tandem more) True receiveBodyLength :=
  receiveInt32_bears.bind fun _ => bears_guard (.pure _)

theorem receiveReportLength_bears (kind : String) :
    Bears (tandem more) True (receiveReportLength kind) :=
  receiveInt32_bears.bind fun _ => bears_guard (.pure _)

theorem receiveEmpty_bears (kind : String) (message : BackendMessage) :
    Bears (tandem more) True (receiveEmpty kind message) :=
  receiveInt32_bears.bind fun _ => bears_guard (.pure _)

theorem accept_bears {α : Type} (body : Except Violation α) :
    Bears (tandem more) reads (accept body) := by
  cases body with
  | ok a => exact .pure a
  | error cause => exact .fail _

theorem receiveMethod_bears (length method : Int) :
    Bears (tandem more) True (receiveMethod length method) := by
  unfold receiveMethod
  split
  · exact .pure _
  · exact .pure _
  · exact (receiveBytes_bears 4).bind fun _ => .pure _
  · split
    · exact (skip_bears _).bind fun _ => .pure _
    · exact .pure _
  · exact .pure _

theorem receiveAuthentication_bears : Bears (tandem more) True receiveAuthentication :=
  receiveInt32_bears.bind fun length => receiveInt32_bears.bind (receiveMethod_bears length)

/-- No message has an effect before its last octet was read. -/
theorem receiveMessage_bears (tag : Tag) : Bears (tandem more) True (receiveMessage tag) := by
  have hignored : Bears (tandem more) True (discard receiveInt32) :=
    receiveInt32_bears.bind fun _ => .pure _
  cases tag with
  | authentication => exact receiveAuthentication_bears.bind fun _ => .pure _
  | backendKeyData =>
      exact receiveInt32_bears.bind fun _ => bears_guard
        (receiveInt32_bears.bind fun _ => receiveInt32_bears.bind fun _ => .pure _)
  | parameterStatus =>
      exact hignored.bind fun _ => receiveZeroTerminated_bears.bind fun _ =>
        receiveZeroTerminated_bears.bind fun _ => .pure _
  | readyForQuery =>
      exact receiveInt32_bears.bind fun _ => bears_guard (receiveOctet_bears.bind fun _ => .pure _)
  | parseComplete | bindComplete | closeComplete | noData | portalSuspended | emptyQuery =>
      exact receiveEmpty_bears _ _
  | parameterDescription =>
      exact receiveBodyLength_bears.bind fun _ => (skip_bears _).bind fun _ => .pure _
  | rowDescription =>
      exact receiveBodyLength_bears.bind fun _ => (receiveBytes_bears _).bind fun _ =>
        bears_ask (fun _ _ _ => rfl) fun _ => (accept_bears _).bind fun _ => .pure _
  | dataRow =>
      exact receiveBodyLength_bears.bind fun _ => (receiveBytes_bears _).bind fun _ =>
        (accept_bears _).bind fun _ => .pure _
  | commandComplete =>
      have hend : Bears (tandem more) True (discard receiveOctet) :=
        receiveOctet_bears.bind fun _ => .pure _
      exact receiveInt32_bears.bind fun _ => bears_guard
        ((receiveString_bears _).bind fun _ => hend.bind fun _ => .pure _)
  | errorResponse =>
      exact (receiveReportLength_bears _).bind fun _ =>
        (receiveReportText_bears _).bind fun _ => .pure _
  | noticeResponse =>
      exact (receiveReportLength_bears _).bind fun _ =>
        (receiveString_bears _).bind fun _ => .pure _
  | notificationResponse =>
      exact hignored.bind fun _ => receiveInt32_bears.bind fun _ =>
        receiveZeroTerminated_bears.bind fun _ => receiveZeroTerminated_bears.bind fun _ => .pure _

/-! ### What does not read -/

/-- The same ending, with other octets to read. -/
def refilled {α : Type} (buffer inbound : Bytes) :
    EStateM.Result Halt Channel α → EStateM.Result Halt Channel α
  | .ok a c => .ok a (c.refill buffer inbound)
  | .error halt c => .error halt (c.refill buffer inbound)

/-- An operation that neither looks at the octets to be read nor takes any. -/
def Blind {α : Type} (x : Exchange Channel α) : Prop :=
  ∀ c buffer inbound, x (c.refill buffer inbound) = refilled buffer inbound (x c)

theorem Blind.bears {α : Type} {x : Exchange Channel α} (hx : Blind x)
    (hgrows : Obeys (fun c _ c' => Grows c c') x) : Bears (tandem more) reads x := by
  refine ⟨hgrows, fun {c c'} h => ?_⟩
  have hkept : (final (x c)).unread = c.unread := by
    have hself := hx c c.buffer c.socket.inbound
    rw [show c.refill c.buffer c.socket.inbound = c from rfl] at hself
    rw [hself]
    cases x c <;> rfl
  have halike : ∀ {t : Channel}, t = final (x c) →
      Short more t (t.refill c'.buffer c'.socket.inbound) := by
    rintro t rfl
    refine ⟨rfl, ?_, (hgrows c).ended.trans h.ended, ?_⟩
    · rw [hkept]
      exact h.unread
    · rw [(hgrows c).readFault]
      exact h.healthy
  rw [h.same, hx c]
  cases hr : x c with
  | ok a t => exact .value (halike (by rw [hr]; rfl))
  | error halt t => exact .halt (halike (by rw [hr]; rfl))

theorem record_bears (event : Event) : Bears (tandem more) reads (record event) :=
  Blind.bears (fun _ _ _ => rfl) fun c => ⟨rfl, rfl, by
    rw [record_apply, final_ok, history_told]
    exact List.prefix_append _ _⟩

theorem send_bears (octets : Bytes) : Bears (tandem more) reads (send octets) :=
  Blind.bears (fun _ _ _ => rfl) fun _ => ⟨rfl, rfl, List.prefix_refl _⟩

theorem setCharset_bears (charset : Charset) : Bears (tandem more) reads (setCharset charset) :=
  Blind.bears (fun _ _ _ => rfl) fun c => ⟨rfl, rfl, ⟨_, (history_told c _).symm⟩⟩

theorem close_bears : Bears (tandem more) reads close := by
  refine Blind.bears (fun c buffer inbound => ?_) fun c => ?_
  · rw [close_apply, close_apply]
    show (if c.socket.faults.shutdown then _ else _) = _
    split <;> rfl
  · rw [close_apply]
    split <;> exact ⟨rfl, rfl, List.prefix_refl _⟩

theorem write_refill (s : Socket) (inbound octets : Bytes) :
    ({ s with inbound } : Socket).write octets = { s.write octets with inbound } := by
  unfold Socket.write
  cases s.medium <;> rfl

theorem flush_bears : Bears (tandem more) reads flush := by
  refine Blind.bears (fun c buffer inbound => ?_) fun c => ?_
  · rw [flush_apply, flush_apply]
    show (if c.outgoing = [] then _ else if c.socket.faults.write then _ else _) = _
    split
    · rfl
    · split
      · rfl
      · simp only []
        show (if c.socket.faults.flush then _ else _) = _
        rw [show (c.refill buffer inbound).socket.write (c.refill buffer inbound).outgoing = _ from
          write_refill c.socket inbound c.outgoing]
        split <;> rfl
  · have hwritten : Grows c { c with outgoing := [], socket := c.socket.write c.outgoing } := by
      refine ⟨?_, ?_, List.prefix_refl _⟩ <;>
        (show _ = _; simp only [Socket.write]; cases c.socket.medium <;> rfl)
    rw [flush_apply]
    split
    · exact (tandem more).refl c
    · split
      · exact ⟨rfl, rfl, List.prefix_refl _⟩
      · simp only []
        split <;> exact hwritten

/-! ### The next message -/

theorem receiveJournaled_bears (tag : Tag) (detail : Bool) :
    Bears (tandem more) True (receiveJournaled tag detail) := by
  refine (receiveMessage_bears tag).bind fun message => ?_
  split
  · exact (record_bears _).bind fun _ => .pure _
  · exact .pure _

theorem receive_bears (phase : Phase) (detail : Bool) :
    Bears (tandem more) True (receive phase detail) := by
  refine receiveOctet_bears.bind fun octet => ?_
  unfold receiveAfter
  split
  · exact receiveJournaled_bears _ detail
  · split
    · exact (record_bears _).bind fun _ => .fail _
    · exact .fail _

end Channel

end PgClient
