import PgClient.Proofs.Details.Calls
import PgClient.Proofs.Encryption

/-!
# Logins that differ in details

Until the server lets a client in, it asks the client to prove who it is, and what such a request
is its reader tells by the method alone: the length is not looked at, unless it says how much is to
be skipped (`IsRequest`). So streams that differ in details are taken apart in another way up to
there (`AtLogin`). A client that asks for TLS first reads one octet ahead of that, which stands for
an answer (`Opening`).

A login that comes to nothing is given up, and nothing is read of it any more. `Ends` relates two
runs of that kind: they come to the same value and can go on, or they halt and look the same.
-/

namespace PgClient

open Exchange

/-- The halt without what a reader is not shown. -/
def Halt.redacted : Halt → Halt
  | failed e => failed e.redacted
  | waiting => waiting

namespace Exchange

variable {σ α β : Type}

/-- How the ends of two runs compare that are given up if they fail. -/
inductive Ends (after : α → α → σ → σ → Prop) (seeming : σ → σ → Prop) :
    EStateM.Result Halt σ α → EStateM.Result Halt σ α → Prop where
  | value {a a' : α} {t t' : σ} (h : after a a' t t') : Ends after seeming (.ok a t) (.ok a' t')
  | halted {halt halt' : Halt} {t t' : σ} (hhalt : halt'.redacted = halt.redacted)
      (h : seeming t t') : Ends after seeming (.error halt t) (.error halt' t')

variable {after : α → α → σ → σ → Prop} {later : β → β → σ → σ → Prop}
  {alike seeming : σ → σ → Prop} {V : α → α → Prop} {x x' : Exchange σ α} {s s' : σ}

theorem Ends.bind {f f' : α → Exchange σ β} (hx : Ends after seeming (x s) (x' s'))
    (hf : ∀ {a a' t t'}, x s = .ok a t → x' s' = .ok a' t' → after a a' t t' →
      Ends later seeming (f a t) (f' a' t')) :
    Ends later seeming ((x >>= f) s) ((x' >>= f') s') := by
  rw [bind_apply, bind_apply]
  generalize x s = r at hx hf
  generalize x' s' = r' at hx hf
  cases hx with
  | value h => exact hf rfl rfl h
  | halted hhalt h => exact .halted hhalt h

theorem Ends.mono {r r' : EStateM.Result Halt σ α} {after' : α → α → σ → σ → Prop}
    {seeming' : σ → σ → Prop} (h : Ends after seeming r r')
    (hafter : ∀ {a a' t t'}, after a a' t t' → after' a a' t t')
    (hseeming : ∀ {t t'}, seeming t t' → seeming' t t') : Ends after' seeming' r r' := by
  cases h with
  | value h => exact .value (hafter h)
  | halted hhalt h => exact .halted hhalt (hseeming h)

/-- Whatever else is alike, it may have to be given up. -/
theorem Twin.ends (h : Twin alike seeming V (x s) (x' s'))
    (hseeming : ∀ {t t'}, alike t t' → seeming t t') :
    Ends (fun a a' t t' => V a a' ∧ alike t t') seeming (x s) (x' s') := by
  generalize x s = r at h
  generalize x' s' = r' at h
  cases h with
  | value hv h => exact .value ⟨hv, h⟩
  | failed he h => exact .halted (congrArg Halt.failed he) (hseeming h)
  | lost _ h => exact .halted rfl h

end Exchange

/-! ## Requests to prove who the client is -/

/-- How many octets behind the method a client takes for a part of a request. -/
def requestLength (declared method : Int) : Nat :=
  if method = 5 then 4 else if method = 10 then (declared - 8).toNat else 0

/-- The octets of a request behind its tag. -/
inductive IsRequest (method : Int) : Bytes → Prop where
  | intro {declared : Int} {more : Bytes} (hdeclared : FitsInt32 declared)
      (hmethod : FitsInt32 method) (hmore : more.length = requestLength declared method) :
      IsRequest method (Bytes.int32 declared ++ (Bytes.int32 method ++ more))

/-- Streams that are the same up to details for a client the server has not let in yet. -/
inductive AtLogin : Bytes → Bytes → Prop where
  /-- The client is let in. -/
  | admitted {body rest rest' : Bytes} (h : IsRequest 0 body) (hrest : SameUpToDetails rest rest') :
      AtLogin (Tag.authentication.octet :: (body ++ rest))
        (Tag.authentication.octet :: (body ++ rest'))
  /-- The client is asked to prove who it is. -/
  | asked {method : Int} {body rest rest' : Bytes} (h : IsRequest method body)
      (hmethod : method ≠ 0) (hrest : AtLogin rest rest') :
      AtLogin (Tag.authentication.octet :: (body ++ rest))
        (Tag.authentication.octet :: (body ++ rest'))
  /-- A request is cut off. -/
  | part {method : Int} {front back : Bytes} (h : IsRequest method (front ++ back))
      (hback : back ≠ []) :
      AtLogin (Tag.authentication.octet :: front) (Tag.authentication.octet :: front)
  /-- Something else comes, or nothing. -/
  | other {u u' : Bytes} (h : SameUpToDetails u u')
      (hfirst : u.head? ≠ some Tag.authentication.octet) : AtLogin u u'

/-- Nothing more arrives. -/
def Still (v v' : Bytes) : Prop :=
  v = [] ∧ v' = []

theorem SameUpToDetails.ahead {u u' : Bytes} (h : SameUpToDetails u u') : Ahead Still u u' := by
  rintro _ _ ⟨rfl, rfl⟩
  rwa [List.append_nil, List.append_nil]

namespace Channel

variable {α : Type} {L : Bytes → Bytes → Prop} {c c' : Channel} {charset : Charset}

/-- What an operation comes to that is decided by its octets is what it may return. -/
theorem Decided.returns {P : α → Prop} {x : Exchange Channel α} {octets : Bytes}
    (hx : Decided charset x octets) (hP : Returns P x) :
    ∃ outcome, Decides charset x octets outcome ∧ ∀ a, outcome = .ok a → P a := by
  obtain ⟨outcome, hx⟩ := hx
  refine ⟨outcome, hx, fun a ha => ?_⟩
  subst ha
  obtain ⟨t, hrun, -⟩ := hx.whole { socket := { inbound := octets }, host := default, charset } []
    rfl (List.append_nil octets).symm
  exact hP _ _ _ hrun

theorem decided_method {declared method : Int} {more : Bytes}
    (hmore : more.length = requestLength declared method) :
    Decided charset (receiveMethod declared method) more := by
  unfold receiveMethod
  split
  · rw [List.length_eq_zero_iff.1 hmore]
    exact .pure _
  · rw [List.length_eq_zero_iff.1 hmore]
    exact .pure _
  · exact (decided_bytes hmore).map fun _ => .pure _
  · split
    · exact ((decided_bytes hmore).map fun _ => .pure _).map fun _ => .pure _
    · next hshort =>
        have hnone : more.length = 0 := by
          rw [hmore]
          show (declared - 8).toNat = 0
          omega
        rw [List.length_eq_zero_iff.1 hnone]
        exact .pure _
  · next h0 h3 h5 h10 =>
      have hnone : requestLength declared method = 0 := by
        unfold requestLength
        rw [if_neg fun h => h5 h, if_neg fun h => h10 h]
      rw [hnone] at hmore
      rw [List.length_eq_zero_iff.1 hmore]
      exact .pure _

theorem receiveMethod_returns {declared method : Int} (hmethod : method ≠ 0) :
    Returns (· ≠ .ok) (receiveMethod declared method) := by
  unfold receiveMethod
  split
  · exact absurd rfl hmethod
  · exact .pure nofun
  · exact .bind fun _ => .pure nofun
  · split
    · exact .bind fun _ => .pure nofun
    · exact .pure nofun
  · exact .pure nofun

/-- A request is decided by its octets. It lets the client in if it names no method. -/
theorem decides_request (charset : Charset) {method : Int} {body : Bytes}
    (h : IsRequest method body) :
    ∃ outcome, Decides charset receiveAuthentication body outcome ∧
      (method = 0 → outcome = .ok .ok) ∧ (method ≠ 0 → outcome ≠ .ok .ok) := by
  obtain @⟨declared, more, hdeclared, hfits, hmore⟩ := h
  unfold receiveAuthentication
  by_cases hmethod : method = 0
  · subst hmethod
    rw [List.length_eq_zero_iff.1 hmore]
    exact ⟨.ok .ok, (decides_int32 hdeclared).bind ((decides_int32 hfits).bind (.pure _)),
      fun _ => rfl, fun h => absurd rfl h⟩
  · have hdecided : Decided charset (receiveMethod declared method) more := decided_method hmore
    obtain ⟨outcome, hrest, hreturns⟩ := hdecided.returns (receiveMethod_returns hmethod)
    exact ⟨outcome, (decides_int32 hdeclared).bind ((decides_int32 hfits).bind hrest),
      fun h => absurd h hmethod, fun _ h => hreturns _ h rfl⟩

/-! ## Reading a request -/

/-- A state nobody can tell from another one, whatever is left to read. -/
abbrev Seems : Channel → Channel → Prop :=
  Alike fun _ _ => True

theorem Alike.seems (h : Alike L c c') : Seems c c' :=
  ⟨h.veil, trivial⟩

/-- A request that is read goes into the journal, or is told of later. -/
theorem receiveRequest_twin {P : AuthenticationRequest → Prop}
    (h : Twin (Alike L) Seems (fun request request' => request' = request ∧ P request)
      (receiveAuthentication c) (receiveAuthentication c')) :
    Twin (Alike L) Seems
      (fun m m' => ∃ request, m = .authentication request ∧ m' = m ∧ P request)
      (receiveAfter .login Tag.authentication.octet false c)
      (receiveAfter .login Tag.authentication.octet false c') := by
  show Twin _ _ _ (receiveJournaled .authentication false c)
    (receiveJournaled .authentication false c')
  unfold receiveJournaled receiveMessage
  rw [bind_assoc]
  refine h.bind fun {_ request t t'} _ _ heq ht => ?_
  obtain ⟨rfl, hrequest⟩ := heq
  simp only [pure_bind]
  split
  · exact ((record_mirrors rfl).bind fun _ _ _ => .pure ⟨request, rfl, rfl, hrequest⟩).twin ht
  · exact .value ⟨request, rfl, rfl, hrequest⟩ ht

variable {method : Int} {body front back rest rest' : Bytes}

theorem charset_of_veil (h : c'.veil = c.veil) : c'.charset = c.charset := by
  show c'.veil.charset = c.veil.charset
  rw [h]

/-- The same request is read, whatever follows it. -/
theorem receiveAuthentication_twin (h : IsRequest method body) (hveil : c'.veil = c.veil)
    (hc : c.unread = body ++ rest) (hc' : c'.unread = body ++ rest') (hrest : L rest rest') :
    Twin (Alike L) Seems
      (fun request request' => request' = request ∧ (request = .ok ↔ method = 0))
      (receiveAuthentication c) (receiveAuthentication c') := by
  obtain ⟨outcome, hdecides, hok, hother⟩ := decides_request c.charset h
  have hcomes := hdecides.whole c _ rfl hc
  have hcomes' := hdecides.whole c' _ (charset_of_veil hveil) hc'
  cases outcome with
  | error cause => exact hcomes.lost hcomes' hveil
  | ok request =>
      refine hcomes.value hcomes' hveil ⟨rfl, fun hrequest => ?_, fun hmethod => ?_⟩ hc hc' hrest
      · subst hrequest
        exact Decidable.of_not_not fun hmethod => hother hmethod rfl
      · exact Except.ok.inj (hok hmethod)

/-- A part of a request is not read as one. -/
theorem receiveAuthentication_part (h : IsRequest method (front ++ back)) (hback : back ≠ [])
    (hveil : c'.veil = c.veil) (hc : c.unread = front) (hc' : c'.unread = front) :
    Twin (Alike L) Seems (fun request request' => request' = request ∧ False)
      (receiveAuthentication c) (receiveAuthentication c') := by
  obtain ⟨outcome, hdecides, -⟩ := decides_request c.charset h
  rcases hdecides.part front back rfl hback with hdry | ⟨⟨cause, rfl⟩, hcomes⟩
  · exact (hdry c rfl hc).lost (hdry c' (charset_of_veil hveil) hc') hveil
  · exact (hcomes c rfl hc).lost (hcomes c' (charset_of_veil hveil) hc') hveil

/-- A message that was read is one of the phase, and its octet came first. -/
theorem receiveAfter_tag {phase : Phase} {octet : UInt8} {detail : Bool} {m : BackendMessage}
    (h : receiveAfter phase octet detail c = .ok m c') :
    m.tag.octet = octet ∧ phase.accepts m.tag = true := by
  cases arrival_of_run h with
  | whole htag haccepts => exact ⟨htag, haccepts⟩

/-- What is no request is a report, or does not belong to a login. -/
theorem receiveReport_twin {F : Bytes → Bytes → Prop} {octet : UInt8}
    (hoctet : octet ≠ Tag.authentication.octet) (hveil : c'.veil = c.veil)
    (h : Behind F octet c.unread c'.unread) :
    Twin (Alike (Ahead F)) Seems
      (fun m m' => ∃ report report', m = .errorResponse report ∧ m' = .errorResponse report' ∧
        report'.redacted = report.redacted)
      (receiveAfter .login octet false c) (receiveAfter .login octet false c') := by
  have hreport : ∀ {m : BackendMessage} {c t : Channel},
      receiveAfter .login octet false c = .ok m t → ∃ report, m = .errorResponse report := by
    intro m c t hrun
    obtain ⟨rfl, haccepts⟩ := receiveAfter_tag hrun
    cases m with
    | errorResponse report => exact ⟨report, rfl⟩
    | authentication => exact absurd rfl hoctet
    | _ => cases haccepts
  have hends : Twin (Alike (Ahead F)) Seems BackendMessage.Similar
      (receiveAfter .login octet false c) (receiveAfter .login octet false c') :=
    receiveAfter_twin (fun _ => hoctet) hveil h
  generalize hrun : receiveAfter .login octet false c = r at hends
  generalize hrun' : receiveAfter .login octet false c' = r' at hends
  cases hends with
  | value hsimilar ht =>
      obtain ⟨report, rfl⟩ := hreport hrun
      obtain ⟨report', rfl⟩ := hreport hrun'
      refine .value ⟨report, report', rfl, rfl, ?_⟩ ht
      exact BackendMessage.errorResponse.inj hsimilar.redacted
  | failed he ht => exact .failed he ht
  | lost hlost ht => exact .lost hlost ht

/-! ## Answering -/

variable {seeming : Channel → Channel → Prop}

theorem lift_mirrors {V : α → α → Prop} {r : Except Error α} (h : ∀ a, V a a) :
    Mirrors (Alike L) seeming V (Exchange.lift r : Exchange Channel α) (Exchange.lift r) := by
  cases r with
  | ok a => exact .pure (h a)
  | error e => exact .fail rfl

theorem utter_mirrors (m : FrontendMessage) :
    Mirrors (Alike L) seeming Eq (utter m) (utter m) := by
  have hsend : Mirrors (Alike L) seeming Eq (sendMessage m) (sendMessage m) :=
    (lift_mirrors fun _ => rfl).andThen send_mirrors
  exact hsend.andThen fun _ => flush_mirrors

theorem sendPassword_mirrors (m : FrontendMessage) :
    Mirrors (Alike L) seeming Eq (sendPassword m) (sendPassword m) :=
  (record_mirrors rfl).andThen fun _ => utter_mirrors m

/-- An answer never lets the client in by itself. -/
theorem answer_mirrors (settings : ConnectionSettings) {request : AuthenticationRequest}
    (hrequest : request ≠ .ok) :
    Mirrors (Alike L) seeming (fun last last' => last = false ∧ last' = false)
      (answer settings request) (answer settings request) := by
  have hrequired : Mirrors (Alike L) seeming Eq (requiredPassword settings)
      (requiredPassword settings) := by
    unfold requiredPassword
    split
    · exact .pure rfl
    · exact .fail rfl
  cases request with
  | ok => exact absurd rfl hrequest
  | cleartextPassword | md5Password =>
      exact hrequired.andThen fun _ => (sendPassword_mirrors _).andThen fun _ => .pure ⟨rfl, rfl⟩
  | sasl =>
      refine .ask (fun {c c'} h => ?_) fun c => (record_mirrors rfl).andThen fun _ => .fail rfl
      have hhost : c'.veil.host = c.veil.host := by rw [h.veil]
      rw [show c'.host = c.host from hhost]
  | other method => exact .fail rfl

theorem answerAll_succ (settings : ConnectionSettings) (showDetail : Bool) (rounds : Nat) :
    answerAll settings showDetail (rounds + 1) = (do
      letIn settings showDetail (answerAll settings showDetail rounds)
        (← receive .login showDetail)) := rfl

variable {settings : ConnectionSettings} {after : Unit → Unit → Channel → Channel → Prop}

/-- Both runs begin with the same octet. -/
theorem answerAll_step {octet : UInt8} {v v' : Bytes} {n n' : Nat} (hveil : c'.veil = c.veil)
    (hc : c.unread = octet :: v) (hc' : c'.unread = octet :: v')
    (hstep : ∀ {t t' : Channel}, t'.veil = t.veil → t.unread = v → t'.unread = v' →
      Ends after Seems
        ((receiveAfter .login octet false >>= letIn settings false (answerAll settings false n)) t)
        ((receiveAfter .login octet false >>= letIn settings false (answerAll settings false n'))
          t')) :
    Ends after Seems (answerAll settings false (n + 1) c)
      (answerAll settings false (n' + 1) c') := by
  have hoctet : ∀ charset, Yields charset receiveOctet [octet] octet := fun _ => yields_octet octet
  obtain ⟨t, hrun, hoff⟩ := hoctet _ c v rfl hc
  obtain ⟨t', hrun', hoff'⟩ := hoctet _ c' v' rfl hc'
  rw [answerAll_succ, answerAll_succ]
  unfold receive
  rw [bind_assoc, bind_assoc, bind_of_ok hrun, bind_of_ok hrun']
  exact hstep (by rw [hoff.veil, hoff'.veil, hveil]) (hoff.unread_eq hc) (hoff'.unread_eq hc')

/-- A login ends with anything but a request. -/
theorem answerAll_refused {u u' : Bytes} (hsame : SameUpToDetails u u')
    (hfirst : u.head? ≠ some Tag.authentication.octet) (hveil : c'.veil = c.veil)
    (hc : c.unread = u) (hc' : c'.unread = u') (n n' : Nat) :
    Ends after Seems (answerAll settings false (n + 1) c)
      (answerAll settings false (n' + 1) c') := by
  rcases hsame.ahead.cases ⟨rfl, rfl⟩ with ⟨rfl, rfl⟩ | ⟨octet, v, v', rfl, rfl, hbehind⟩
  · have hread : Twin (Alike fun _ _ => False) Seems Eq (receive .login false c)
        (receive .login false c') := Dry.lost (dry_octet hc).bind (dry_octet hc').bind hveil
    rw [answerAll_succ, answerAll_succ]
    exact (hread.ends fun h => h.seems).bind fun _ _ ⟨_, hnever⟩ => hnever.left.elim
  · refine answerAll_step hveil hc hc' fun ht hu hu' => ?_
    have hread := receiveReport_twin (fun h => hfirst (congrArg some h)) ht (by rwa [hu, hu'])
    refine (hread.ends fun h => h.seems).bind fun _ _ ⟨hm, halike⟩ => ?_
    obtain ⟨report, report', rfl, rfl, hreport⟩ := hm
    refine .halted ?_ halike.seems
    show Halt.failed (.server (.first report'.redacted false)) = _
    rw [hreport]
    rfl

/-- Logins that differ in details come to the same. -/
theorem answerAll_ends {u u' : Bytes} (h : AtLogin u u') {rounds rounds' : Nat} {c c' : Channel}
    (hveil : c'.veil = c.veil) (hc : c.unread = u) (hc' : c'.unread = u')
    (hrounds : u.length < rounds) (hrounds' : u'.length < rounds') :
    Ends (fun _ _ => Alike (Ahead Still)) Seems (answerAll settings false rounds c)
      (answerAll settings false rounds' c') := by
  obtain ⟨n, rfl⟩ := Nat.exists_eq_add_one_of_ne_zero (Nat.ne_zero_of_lt hrounds)
  obtain ⟨n', rfl⟩ := Nat.exists_eq_add_one_of_ne_zero (Nat.ne_zero_of_lt hrounds')
  induction h generalizing n n' c c' with
  | admitted hbody hrest =>
      refine answerAll_step hveil hc hc' fun ht hu hu' => ?_
      have hread := receiveRequest_twin
        (receiveAuthentication_twin hbody ht hu hu' hrest.ahead)
      refine (hread.ends fun h => h.seems).bind fun _ _ ⟨hm, halike⟩ => ?_
      obtain ⟨request, rfl, rfl, hrequest⟩ := hm
      rw [hrequest.2 rfl]
      exact .value halike
  | @asked method body rest rest' hbody hmethod _ ih =>
      refine answerAll_step hveil hc hc' fun ht hu hu' => ?_
      -- What is left is known to the letter, since an answer does not read.
      have hread := receiveRequest_twin (receiveAuthentication_twin
        (L := fun v v' => v = rest ∧ v' = rest') hbody ht hu hu' ⟨rfl, rfl⟩)
      refine (hread.ends fun h => h.seems).bind fun _ _ ⟨hm, halike⟩ => ?_
      obtain ⟨request, rfl, rfl, hrequest⟩ := hm
      have hanswer : Twin _ Seems _ _ _ :=
        (answer_mirrors settings fun h => hmethod (hrequest.1 h)).twin halike
      refine (hanswer.ends fun h => h.seems).bind fun _ _ ⟨hlast, hleft⟩ => ?_
      obtain ⟨rfl, rfl⟩ := hlast
      simp only [List.length_cons, List.length_append] at hrounds hrounds'
      obtain ⟨m, rfl⟩ := Nat.exists_eq_add_one_of_ne_zero (n := n) (by omega)
      obtain ⟨m', rfl⟩ := Nat.exists_eq_add_one_of_ne_zero (n := n') (by omega)
      exact ih hleft.veil hleft.left.1 hleft.left.2 m (by omega) m' (by omega)
  | part hbody hback =>
      refine answerAll_step hveil hc hc' fun ht hu hu' => ?_
      have hread := receiveRequest_twin (L := fun _ _ => True)
        (receiveAuthentication_part hbody hback ht hu hu')
      refine (hread.ends fun h => h.seems).bind fun _ _ ⟨hm, _⟩ => ?_
      obtain ⟨_, -, -, hnever⟩ := hm
      exact hnever.elim
  | other hsame hfirst => exact answerAll_refused hsame hfirst hveil hc hc' n n'

/-! ## Logging in -/

theorem sendStartup_mirrors (settings : ConnectionSettings) :
    Mirrors (Alike L) seeming Eq (sendStartup settings) (sendStartup settings) :=
  (Mirrors.forM (fun _ => record_mirrors rfl) settings.startupParameters).andThen fun _ =>
    utter_mirrors _

theorem present_ends (settings : ConnectionSettings) (h : Alike AtLogin c c') :
    Ends (fun _ _ => Alike (Ahead Still)) Seems (present settings false c)
      (present settings false c') := by
  have hstartup : Twin _ Seems _ _ _ := (sendStartup_mirrors settings).twin h
  refine (hstartup.ends fun h => h.seems).bind fun {_ _ t t'} _ _ ⟨_, ht⟩ => ?_
  unfold authenticate
  rw [bind_of_ok (get_apply t), bind_of_ok (get_apply t')]
  exact answerAll_ends ht.left ht.veil rfl rfl (Nat.lt_succ_self _) (Nat.lt_succ_self _)

theorem refuse_mirrors {e e' : Error} (he : e'.redacted = e.redacted) :
    Mirrors (Alike L) seeming Eq (refuse e) (refuse e') := by
  have hclose : Mirrors (Alike L) seeming Eq close.attempt close.attempt := by
    refine .attempt (fun _ _ (h : False) => h) close_mirrors fun c e h => ?_
    rw [close_apply] at h
    split at h <;> cases h
    rfl
  refine hclose.bind fun result _ heq => ?_
  subst heq
  cases result with
  | ok => exact .fail he
  | error closing => exact (record_mirrors rfl).bind fun _ _ _ => .fail he

theorem login_apply (showDetail : Bool) : login settings showDetail c =
    match present settings showDetail c with
    | .ok _ t => .ok () t
    | .error (.failed e) t => refuse e t
    | .error .waiting t => .error .waiting t := by
  rw [show login settings showDetail c = ((present settings showDetail).attempt >>= _) c from rfl,
    bind_apply, attempt_apply]
  rcases present settings showDetail c with ⟨_, t⟩ | ⟨_ | _, t⟩ <;> rfl

/-- A login that fails leaves nothing to go on with. One that does not leaves streams that are the
same up to details. -/
theorem login_ends (h : Alike AtLogin c c') :
    Ends (fun _ _ => Alike (Ahead Still)) Seems (login settings false c)
      (login settings false c') := by
  have hpresent := present_ends settings h
  rw [login_apply, login_apply]
  generalize present settings false c = r at hpresent
  generalize present settings false c' = r' at hpresent
  cases hpresent with
  | value ht => exact .value ht
  | @halted halt halt' t t' hhalt ht =>
      cases halt with
      | waiting =>
          cases halt' with
          | waiting => exact .halted rfl ht
          | failed e' => cases hhalt
      | failed e =>
          cases halt' with
          | waiting => cases hhalt
          | failed e' =>
              have he : e'.redacted = e.redacted := Halt.failed.inj hhalt
              obtain ⟨d, hrun, -⟩ := refuse_failed e t
              obtain ⟨d', hrun', -⟩ := refuse_failed e' t'
              have hrefuse : Twin _ Seems _ _ _ := (refuse_mirrors he).twin ht
              simp only []
              rw [hrun, hrun'] at hrefuse ⊢
              cases hrefuse with
              | failed _ hd => exact .halted hhalt hd
              | lost _ hd => exact .halted rfl hd

end Channel

end PgClient
