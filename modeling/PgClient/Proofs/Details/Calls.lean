import PgClient.Proofs.Details.Streams
import PgClient.Proofs.Ending
import PgClient.Proofs.Truncation

/-!
# Calls on sessions that are alike

What was said of single messages is carried to loops here, and from there to calls. A loop goes on
for as many rounds as there are octets, which need not be the same number on both sides; so rounds
are counted against what is left to read (`Mirrors.loop`).

A call ends on both sides in the same way (`Paired`), and it leaves sessions that are alike. They
can be read on if they are still open (`After`): an error that no session survives closes both,
and then it does not matter that they stopped reading at places that have nothing to do with one
another. That is why a call, unlike the operations it is made of, can be followed by another one.
-/

namespace PgClient

open Exchange

/-! ## Loops -/

/-- Loops with rounds enough come to the same, however many rounds they have. -/
theorem Exchange.Mirrors.loop {σ : Type} {alike seeming : σ → σ → Prop} {round : Exchange σ Bool}
    {loop : Nat → Exchange σ Unit} (size : σ → Nat)
    (hsucc : ∀ n, loop (n + 1) = do unless ← round do loop n)
    (hround : Mirrors alike seeming Eq round round)
    (hless : ∀ {s t}, round s = .ok false t → size t < size s) {rounds rounds' : Nat} {s s' : σ}
    (h : alike s s') (hrounds : size s < rounds) (hrounds' : size s' < rounds') :
    Twin alike seeming Eq (loop rounds s) (loop rounds' s') := by
  induction rounds generalizing rounds' s s' with
  | zero => omega
  | succ n ih =>
      cases rounds' with
      | zero => omega
      | succ n' =>
          rw [hsucc, hsucc]
          refine (hround.twin h).bind fun {last last' t t'} hrun hrun' heq ht => ?_
          subst heq
          cases last with
          | true => exact .value rfl ht
          | false =>
              have hfewer := hless hrun
              have hfewer' := hless hrun'
              exact ih ht (by omega) (by omega)

namespace Session

variable {F L M : Bytes → Bytes → Prop}

theorem readAnnouncement_mirrors (hF : F [] []) (limit : Nat) :
    Mirrors (Alike (Ahead F)) (Alike fun _ _ => True) Eq (readAnnouncement limit)
      (readAnnouncement limit) := by
  induction limit with
  | zero => exact .fail rfl
  | succ limit ih =>
      rw [readAnnouncement_succ]
      refine (announceNext_mirrors hF).andThen fun last => ?_
      cases last with
      | true => exact .pure rfl
      | false => exact ih

theorem takeIdle_unread (m : BackendMessage) :
    Obeys (fun s _ s' => s'.channel.unread = s.channel.unread) (takeIdle m) :=
  takeIdle_obeys (fun hplain => by rw [hplain]; rfl)
    (fun name value s => (onParameter_aside name value s).keeps.channel.unread) m

/-- A message takes at least its tag. -/
theorem unread_lt_of_notice {wait : Nat} {s t : Session} (h : noticeNext wait s = .ok false t) :
    t.channel.unread.length < s.channel.unread.length := by
  obtain ⟨octet?, s₁, hawait, h⟩ := bind_ok h
  obtain ⟨c, hrun, rfl⟩ := onChannel_ok hawait
  cases hu : s.channel.unread with
  | nil =>
      rw [Channel.awaitOctet_of_nil wait hu] at hrun
      split at hrun <;> cases hrun
      cases h
  | cons octet v =>
      obtain ⟨c₁, hrun', hoff⟩ := Channel.awaitOctet_of_cons wait hu
      rw [hrun'] at hrun
      cases hrun
      obtain ⟨_, _, hget, h⟩ := bind_ok h
      cases hget
      obtain ⟨m, s₂, hafter, h⟩ := bind_ok h
      obtain ⟨_, s₃, htake, h⟩ := bind_ok h
      cases h
      obtain ⟨c₂, hrest, rfl⟩ := onChannel_ok hafter
      obtain ⟨-, -, c₃, hmessage, rfl⟩ :=
        Channel.receiveAfter_ok (show Phase.idle ≠ .login by decide) hrest
      obtain ⟨body, hoff'⟩ := ((Channel.receiveMessage_reading _).ok hmessage).reads
      have hkept : t.channel.unread = c₃.unread := (takeIdle_unread m).ok htake
      have hall := (hoff.trans hoff').unread
      rw [hkept, ← hu, hall, List.length_append, List.length_append]
      simp only [List.length_cons, List.length_nil]
      omega

theorem takeArriving_twin (hF : F [] []) (wait : Nat) {rounds rounds' : Nat} {s s' : Session}
    (h : s.Alike (Ahead F) s') (hrounds : s.channel.unread.length < rounds)
    (hrounds' : s'.channel.unread.length < rounds') :
    Twin (Alike (Ahead F)) (Alike fun _ _ => True) Eq (takeArriving wait rounds s)
      (takeArriving wait rounds' s') :=
  (noticeNext_mirrors hF wait).loop (·.channel.unread.length) (takeArriving_succ wait)
    unread_lt_of_notice h hrounds hrounds'

namespace Conversation

theorem takeAll_twin (hF : F [] []) {rounds rounds' : Nat} {c c' : Conversation}
    (h : c.Alike (Ahead F) c') (hrounds : c.session.channel.unread.length < rounds)
    (hrounds' : c'.session.channel.unread.length < rounds') :
    Twin (Alike (Ahead F)) (Alike fun _ _ => True) Eq (takeAll rounds c) (takeAll rounds' c') := by
  have hnext : Mirrors (Alike (Ahead F)) (Alike fun _ _ => True) Eq takeNext takeNext :=
    (onSession_mirrors (Session.receive_mirrors (show Phase.reply ≠ .login by decide) hF)).bind
      fun _ _ h => take_mirrors h
  exact hnext.loop (·.session.channel.unread.length) takeAll_succ unread_lt_of_take h hrounds
    hrounds'

theorem conclude_mirrors : Mirrors (Alike L) (Alike M) Eq conclude conclude := by
  refine (deliver_mirrors rfl).andThen fun _ => ?_
  refine Mirrors.bind (V := fun c c' => c'.firstError.map Error.redacted =
    c.firstError.map Error.redacted) (.look fun {c c'} h => ?_) fun c c' herror => ?_
  · have hveil : c'.veil.firstError = c.veil.firstError := by rw [h.veil]
    exact hveil
  cases hfirst : c.firstError with
  | none =>
      rw [hfirst] at herror
      rw [Option.map_eq_none_iff.1 herror]
      exact .pure rfl
  | some e =>
      rw [hfirst] at herror
      obtain ⟨e', hfirst', he⟩ := Option.map_eq_some_iff.1 herror
      rw [hfirst']
      exact .fail he

theorem request_mirrors (hF : F [] []) {send : Exchange Session (Option String)}
    (hsend : Mirrors (Session.Alike (Ahead F)) (Session.Alike fun _ _ => True) Eq send send) :
    Mirrors (Alike (Ahead F)) (Alike fun _ _ => True) Eq (request send) (request send) := by
  have hread : Mirrors (Alike (Ahead F)) (Alike fun _ _ => True) Eq readReply readReply :=
    ⟨fun {c c'} h => by
      rw [readReply_apply, readReply_apply]
      exact (takeAll_twin hF h (Nat.lt_succ_self _) (Nat.lt_succ_self _)).bind
        fun _ _ _ ht => conclude_mirrors.twin ht⟩
  have hprepares : ∀ preparing, Mirrors (Alike (Ahead F)) (Alike fun _ _ => True) Eq
      (modify fun c => { c with preparing } : Exchange Conversation PUnit)
      (modify fun c => { c with preparing }) := fun preparing =>
    modify_mirrors (g := fun c => { c with preparing }) (fun _ => rfl) (fun _ => rfl)
      (fun _ => rfl) fun _ => rfl
  exact (onSession_mirrors hsend).andThen fun preparing =>
    (hprepares preparing).andThen fun _ => hread

end Conversation

/-! ## Calls -/

/-- Nobody can tell the sessions apart, and if they are still open they can be read on. -/
def After (L : Bytes → Bytes → Prop) (s s' : Session) : Prop :=
  Alike (fun u u' => s.isClosed = false → L u u') s s'

theorem Alike.after {s s' : Session} (h : Alike L s s') : After L s s' :=
  h.mono fun _ _ hleft _ => hleft

theorem Alike.of_closed {s s' : Session} (h : Alike M s s') (hclosed : s.isClosed = true) :
    After L s s' :=
  h.mono fun _ _ _ hopen => Bool.noConfusion (hclosed.symm.trans hopen)

theorem Alike.isClosed {s s' : Session} (h : Alike L s s') : s'.isClosed = s.isClosed :=
  h.same Session.isClosed fun _ => rfl

/-- How two calls end that look the same from outside: with a value, with a failure, or not at
all. -/
inductive Paired {α : Type} (L : Bytes → Bytes → Prop) (V : α → α → Prop) :
    EStateM.Result Halt Session α → EStateM.Result Halt Session α → Prop where
  | value {a a' : α} {t t' : Session} (hv : V a a') (h : After L t t') :
      Paired L V (.ok a t) (.ok a' t')
  | failed {e e' : Error} {t t' : Session} (he : e'.redacted = e.redacted) (h : After L t t') :
      Paired L V (.error (.failed e) t) (.error (.failed e') t')
  | waiting {t t' : Session} (h : Alike (fun _ _ => True) t t') :
      Paired L V (.error .waiting t) (.error .waiting t')

/-- What does not read leaves what can be read on. -/
theorem After.paired {α : Type} {V : α → α → Prop} {x x' : Exchange Session α} {s s' : Session}
    (h : After L s s')
    (hx : ∀ L, Mirrors (Alike L) (Alike fun _ _ => False) V x x')
    (hstays : (final (x s)).isClosed = false → s.isClosed = false) : Paired L V (x s) (x' s') := by
  have hends := (hx _).twin h
  generalize x s = r at hends hstays
  generalize x' s' = r' at hends
  cases hends with
  | value hv h => exact .value hv (h.mono fun _ _ hleft hopen => hleft (hstays hopen))
  | failed he h => exact .failed he (h.mono fun _ _ hleft hopen => hleft (hstays hopen))
  | lost _ h => exact h.left.elim

/-- A failure after which the sessions can be read on, or one after which they will not be. -/
def Failing (L : Bytes → Bytes → Prop) (e e' : Error) (s s' : Session) : Prop :=
  (e'.redacted = e.redacted ∧ Alike L s s') ∨
    (e' = e ∧ e.isFatal = true ∧ Alike (fun _ _ => True) s s')

theorem Failing.redacted {e e' : Error} {s s' : Session} (h : Failing L e e' s s') :
    e'.redacted = e.redacted := by
  rcases h with ⟨he, -⟩ | ⟨rfl, -⟩
  · exact he
  · rfl

theorem Failing.alike {e e' : Error} {s s' : Session} (h : Failing L e e' s s') :
    Alike (fun _ _ => True) s s' := by
  rcases h with ⟨-, h⟩ | ⟨-, -, h⟩
  · exact h.mono fun _ _ _ => trivial
  · exact h

/-- After a failure was looked into, the sessions are closed or can be read on. -/
theorem checkFatal_after {e e' : Error} {s s' : Session} (h : Failing L e e' s s') :
    ∃ t t', checkFatal (.error e : Except Error Unit) s = .ok () t ∧
      checkFatal (.error e' : Except Error Unit) s' = .ok () t' ∧ After L t t' := by
  cases hfatal : e.isFatal with
  | true =>
      obtain rfl := Error.eq_of_redacted h.redacted hfatal
      obtain ⟨t, ht, hclosed, -⟩ := checkFatal_fatal (α := Unit) hfatal s
      obtain ⟨t', ht', -⟩ := checkFatal_fatal (α := Unit) hfatal s'
      have hchecked : Mirrors (Alike fun _ _ => True) (Alike fun _ _ => True) Eq
          (checkFatal (.error e' : Except Error Unit)) (checkFatal (.error e')) :=
        checkFatal_mirrors _
      have hends := hchecked.twin h.alike
      rw [ht, ht'] at hends
      cases hends with
      | value _ h => exact ⟨t, t', ht, ht', h.of_closed hclosed⟩
  | false =>
      have hfatal' : e'.isFatal = false := by
        rw [← e'.isFatal_redacted, h.redacted, e.isFatal_redacted]
        exact hfatal
      have hmild : ∀ {e : Error} (s : Session), e.isFatal = false →
          checkFatal (.error e : Except Error Unit) s = .ok () s := fun s he =>
        checkFatal_mild (fun _ h => by cases h; exact he) s
      rcases h with ⟨-, h⟩ | ⟨-, htrue, -⟩
      · exact ⟨s, s', hmild s hfatal, hmild s' hfatal', h.after⟩
      · exact absurd (hfatal.symm.trans htrue) Bool.false_ne_true

theorem checked_paired {x x' : Exchange Session Unit} {s s' : Session}
    (hx : Twin (Alike L) (Alike fun _ _ => True) Eq (x s) (x' s')) :
    Paired L Eq
      ((do let result ← x.attempt; checkFatal result; Exchange.lift result) s)
      ((do let result ← x'.attempt; checkFatal result; Exchange.lift result) s') := by
  have hfailing : ∀ {e e' : Error} {t t' : Session}, Failing L e e' t t' →
      Paired L Eq
        ((do checkFatal (.error e : Except Error Unit); Exchange.lift (.error e) :
          Exchange Session Unit) t)
        ((do checkFatal (.error e' : Except Error Unit); Exchange.lift (.error e') :
          Exchange Session Unit) t') := fun h => by
    obtain ⟨t, t', ht, ht', hafter⟩ := checkFatal_after h
    rw [bind_of_ok ht, bind_of_ok ht']
    exact .failed h.redacted hafter
  rw [bind_apply, bind_apply, attempt_apply, attempt_apply]
  generalize x s = r at hx
  generalize x' s' = r' at hx
  cases hx with
  | value hv h => exact .value rfl h.after
  | failed he h => exact hfailing (.inl ⟨he, h⟩)
  | @lost halt _ _ hlost h =>
      cases halt with
      | failed e => exact hfailing (.inr ⟨rfl, hlost e rfl, h⟩)
      | waiting => exact .waiting h

theorem takeNotices_paired (hF : F [] []) (wait : Option Nat) {s s' : Session}
    (h : After (Ahead F) s s') :
    Paired (Ahead F) Eq (takeNotices wait s)
      (takeNotices wait s') := by
  cases hclosed : s.isClosed with
  | true =>
      rw [takeNotices_of_closed hclosed, takeNotices_of_closed (h.isClosed.trans hclosed)]
      exact .failed rfl h
  | false =>
      have halike : Alike (Ahead F) s s' := h.mono fun _ _ hleft => hleft hclosed
      have htransaction : s'.status.transaction = s.status.transaction :=
        h.same (·.status.transaction) fun _ => rfl
      rw [takeNotices_of_open hclosed, takeNotices_of_open (h.isClosed.trans hclosed),
        htransaction]
      split
      · exact .value rfl h
      · exact checked_paired
          (takeArriving_twin hF _ halike (Nat.lt_succ_self _) (Nat.lt_succ_self _))

theorem begin_paired (hF : F [] []) {s s' : Session} (h : Alike (Ahead F) s s') :
    Paired (Ahead F) Eq (begin s) (begin s') := by
  have haborted : ∀ {e e' : Error} {t t' : Session}, e'.redacted = e.redacted →
      Alike (fun _ _ => True) t t' → Paired (Ahead F) Eq
        ((do abort; fail e : Exchange Session Unit) t)
        ((do abort; fail e' : Exchange Session Unit) t') := fun {e e' t t'} he h => by
    obtain ⟨_, u, hu, hclosed⟩ := abort_reaches t
    obtain ⟨_, u', hu', -⟩ := abort_reaches t'
    have habort : Mirrors (Alike fun _ _ => True) (Alike fun _ _ => True) Eq abort abort :=
      mirrors_endures.abort
    have hends := habort.twin h
    rw [bind_of_ok hu, bind_of_ok hu']
    rw [hu, hu'] at hends
    cases hends with
    | value _ h => exact .failed he (h.of_closed hclosed)
  have hready : ∀ L, Mirrors (Alike L) (Alike fun _ _ => False) Eq
      (do record (.ready (← get).party (← get).backendPid))
      (do record (.ready (← get).party (← get).backendPid)) := fun _ =>
    mirrors_assembles.ask (fun _ => rfl) fun _ => mirrors_assembles.ask (fun _ => rfl) fun _ =>
      record_mirrors rfl
  have hstart : Twin (Alike (Ahead F)) (Alike fun _ _ => True) Eq (start s) (start s') :=
    (readAnnouncement_mirrors hF maxStartupMessages).twin h
  unfold begin
  rw [bind_apply, bind_apply, attempt_apply, attempt_apply]
  generalize start s = r at hstart
  generalize start s' = r' at hstart
  cases hstart with
  | value _ h => exact h.after.paired hready id
  | failed he h => exact haborted he (h.mono fun _ _ _ => trivial)
  | @lost halt _ _ hlost h =>
      cases halt with
      | failed e => exact haborted rfl h
      | waiting => exact .waiting h

theorem Conversation.reply_redacted {c c' : Conversation} {result result' : Except Error Unit}
    (hveil : c'.veil = c.veil)
    (hresult : result'.mapError Error.redacted = result.mapError Error.redacted) :
    Reply.redacted
        { result := result', deliveries := c'.deliveries.toList, statement := c'.statement } =
      Reply.redacted
        { result, deliveries := c.deliveries.toList, statement := c.statement } := by
  have hdeliveries : c'.veil.deliveries.toList = c.veil.deliveries.toList := by rw [hveil]
  simp only [veil, Array.toList_map] at hdeliveries
  unfold Reply.redacted
  simp only []
  rw [hresult, hdeliveries, same_of_veil hveil statement fun _ => rfl]

theorem converse_paired (hF : F [] []) {send : Exchange Session (Option String)}
    (hsend : Mirrors (Alike (Ahead F)) (Alike fun _ _ => True) Eq send send)
    (statement : Option Statement) (s₀ s₀' : Session) {s s' : Session}
    (h : Alike (Ahead F) s s') :
    Paired (Ahead F) (fun r r' => r'.redacted = r.redacted)
      (converse { session := s₀, statement } (request send) s)
      (converse { session := s₀', statement } (request send) s') := by
  have halike : Conversation.Alike (Ahead F) { session := s, statement }
      { session := s', statement } := by
    refine ⟨?_, h.left, h.quiet⟩
    show { ({ session := s, statement } : Conversation).veil with session := s'.veil } = _
    rw [h.veil]
    rfl
  have hrequest := (Conversation.request_mirrors hF hsend).twin halike
  have hfailing : ∀ {e e' : Error} {c c' : Conversation},
      request send { session := s, statement } = .error (.failed e) c →
      request send { session := s', statement } = .error (.failed e') c' →
      c'.veil = c.veil → Failing (Ahead F) e e' c.session c'.session →
      Paired (Ahead F) (fun r r' => r'.redacted = r.redacted)
        (converse { session := s₀, statement } (request send) s)
        (converse { session := s₀', statement } (request send) s') := by
    intro e e' c c' hrun hrun' hveil hfailing
    obtain ⟨t, t', ht, ht', hafter⟩ := checkFatal_after hfailing
    rw [converse_of_checked (c := { session := s₀, statement }) hrun ht,
      converse_of_checked (c := { session := s₀', statement }) hrun' ht']
    exact .value
      (Conversation.reply_redacted hveil (congrArg Except.error hfailing.redacted)) hafter
  generalize hrun : request send { session := s, statement } = r at hrequest
  generalize hrun' : request send { session := s', statement } = r' at hrequest
  cases hrequest with
  | value _ hc =>
      rw [converse_of_ok (c := { session := s₀, statement }) hrun,
        converse_of_ok (c := { session := s₀', statement }) hrun']
      exact .value (Conversation.reply_redacted hc.veil rfl) hc.session.after
  | failed he hc => exact hfailing hrun hrun' hc.veil (.inl ⟨he, hc.session⟩)
  | @lost halt _ _ hlost hc =>
      cases halt with
      | failed e => exact hfailing hrun hrun' hc.veil (.inr ⟨rfl, hlost e rfl, hc.session⟩)
      | waiting =>
          rw [converse_of_waiting (c := { session := s₀, statement }) hrun,
            converse_of_waiting (c := { session := s₀', statement }) hrun']
          exact .waiting hc.session

theorem Alike.drafts {s s' : Session} (h : Alike L s s') (messages : List FrontendMessage)
    (octets : Bytes) : Alike L (s.drafts messages octets) (s'.drafts messages octets) := by
  have hveil : ∀ s : Session, (s.drafts messages octets).veil = { s.veil with
      channel := { s.veil.channel with
        journal := s.veil.channel.journal ++
          (messages.map Event.sending).toArray.map Event.redacted
        outgoing := s.veil.channel.outgoing ++ octets } } := fun s => by
    unfold Session.veil Session.drafts Channel.veil
    simp only [Array.map_append]
  exact ⟨by rw [hveil, hveil, h.veil], h.left, h.quiet⟩

theorem query_paired (hF : F [] []) (sql : String) {s s' : Session} (h : After (Ahead F) s s') :
    Paired (Ahead F) (fun r r' => r'.redacted = r.redacted)
      (query sql s) (query sql s') := by
  cases hclosed : s.isClosed with
  | true =>
      rw [query_of_closed hclosed, query_of_closed (h.isClosed.trans hclosed)]
      exact .value rfl h
  | false =>
      have halike : Alike (Ahead F) s s' := h.mono fun _ _ hleft => hleft hclosed
      have hcharset : s'.channel.charset = s.channel.charset :=
        h.same (·.channel.charset) fun _ => rfl
      have hclosed' := h.isClosed.trans hclosed
      cases hencode : FrontendMessage.encode s.channel.charset (.query sql) with
      | error e =>
          rw [query_of_refused hclosed hencode, query_of_refused hclosed' (hcharset ▸ hencode)]
          exact .value rfl h
      | ok octets =>
          rw [query_eq hclosed hencode, query_eq hclosed' (hcharset ▸ hencode)]
          exact converse_paired hF mirrors_writes.sendQuery none s s' (halike.drafts _ octets)

theorem execute_paired (hF : F [] []) (st : Statement) (parameters : List (Option Bytes))
    {s s' : Session} (h : After (Ahead F) s s') :
    Paired (Ahead F) (fun r r' => r'.redacted = r.redacted)
      (execute st parameters s) (execute st parameters s') := by
  cases hclosed : s.isClosed with
  | true =>
      rw [execute_of_closed hclosed, execute_of_closed (h.isClosed.trans hclosed)]
      exact .value rfl h
  | false =>
      have halike : Alike (Ahead F) s s' := h.mono fun _ _ hleft => hleft hclosed
      have hreadied : s'.readied st = s.readied st := h.same (·.readied st) fun _ => rfl
      rw [execute_eq hclosed, execute_eq (h.isClosed.trans hclosed), hreadied]
      exact converse_paired hF (mirrors_writes.sendStatement _ parameters) (some (s.readied st)) s
        s' halike

/-! ### Statements in and out of the cache -/

theorem lift_mirrors {α : Type} (result : Except Error α) :
    Mirrors (Alike L) (Alike M) Eq (Exchange.lift result) (Exchange.lift result) := by
  cases result with
  | ok a => exact .pure rfl
  | error e => exact .fail rfl

theorem borrowStatement_mirrors (key : StatementKey) :
    Mirrors (Alike L) (Alike M) Eq (borrowStatement key) (borrowStatement key) := by
  refine ⟨fun {s s'} h => ?_⟩
  rw [World.borrowStatement_apply, World.borrowStatement_apply, h.same statements fun _ => rfl]
  cases s.statements.get? key with
  | none => exact (lift_mirrors _).twin h
  | some st =>
      refine .value rfl ⟨?_, h.left, h.quiet⟩
      show { s'.veil with statements := s.statements.erase key } =
        { s.veil with statements := s.statements.erase key }
      rw [h.veil]

theorem retire_mirrors (st : Statement) :
    Mirrors (Alike L) (Alike M) Eq (retire st) (retire st) := by
  unfold retire
  split
  · exact (record_mirrors rfl).andThen fun _ =>
      (giveUp_mirrors _).andThen fun _ => record_mirrors rfl
  · exact record_mirrors rfl

theorem releaseStatement_mirrors (st : Statement) :
    Mirrors (Alike L) (Alike M) Eq (releaseStatement st) (releaseStatement st) := by
  have hput : ∀ statements, Mirrors (Alike L) (Alike M) Eq
      (modify fun s => { s with statements } : Exchange Session PUnit)
      (modify fun s => { s with statements }) := fun _ =>
    change_mirrors (fun _ => rfl) (fun _ => rfl) fun _ => rfl
  exact mirrors_assembles.ask (fun _ => rfl) fun _ =>
    (hput _).andThen fun _ => mirrors_assembles.forM retire_mirrors _

end Session

end PgClient
