import PgClient.Proofs.Details.Logins
import PgClient.Proofs.Dispatch
import PgClient.Proofs.Framing

/-!
# What a login says and where it stops reading

Until the server lets a client in, it may ask for a password any number of times, in the two ways
that are supported and in any order. What the client says is fixed by what it was asked: one message
for each request (`Answers`), in the order of the requests, and nothing besides. The first thing
that is not such a request ends the login, and it ends well if and only if this is the message that
lets the client in (`IsAdmitted`). Behind that message nothing was read.

A step takes one request off the stream and puts one answer on the wire (`answerAll_answered`), so a
run over requests leaves the channel where the first other thing stands (`answerAll_run`), and there
the login comes to its end in one more round (`answerAll_concludes`). The rounds a login is given
are more than it can use.
-/

namespace PgClient

open Exchange

/-! ## Requests and answers -/

/-- The digest of octets, in hexadecimal. -/
def md5Hex (octets : Bytes) : String :=
  Bytes.toHex (Md5.digest octets)

/-- The message that carries a text the server asked for. -/
def passwordMessage (text : String) : Bytes :=
  let body := Utf8.encode text ++ [0]
  0x70 :: (Bytes.int32 (body.length + 4) ++ body)

namespace ConnectionSettings

variable {s : ConnectionSettings}

/-- What the client says to a message of a login, unless that ends the login. -/
def reply? (s : ConnectionSettings) : BackendMessage → Option Bytes
  | .authentication .cleartextPassword => s.password.map passwordMessage
  | .authentication (.md5Password salt) => s.password.map fun password =>
    passwordMessage
      ("md5" ++ md5Hex (Utf8.encode (md5Hex (Utf8.encode password ++ Utf8.encode s.user)) ++ salt))
  | _ => none

/-- A request, whatever it says of its length, and the message that answers it. -/
structure Answers (s : ConnectionSettings) (f : Frame) (said : Bytes) : Prop where
  accepted : f.Accepted
  reply : s.reply? f.message = some said

/-- The stream begins with a request the client can answer. -/
def IsAsked (s : ConnectionSettings) (stream : Bytes) : Prop :=
  ∃ f said rest, s.Answers f said ∧ stream = f.octets ++ rest

/-- No password holds a zero character, which could not be sent. -/
def IsSendable (s : ConnectionSettings) : Prop :=
  ∀ password ∈ s.password, '\x00' ∉ password.toList

/-- Every stream is requests that can be answered, and then something else. -/
theorem exists_answers (s : ConnectionSettings) (stream : Bytes) :
    ∃ met said next, List.Forall₂ s.Answers met said ∧ ¬ s.IsAsked next ∧
      stream = met.flatMap Frame.octets ++ next := by
  by_cases hasked : s.IsAsked stream
  · obtain ⟨f, said, rest, hanswers, rfl⟩ := hasked
    obtain ⟨met, saids, next, hmet, hnext, hrest⟩ := exists_answers s rest
    refine ⟨f :: met, said :: saids, next, .cons hanswers hmet, hnext, ?_⟩
    conv_lhs => rw [hrest]
    rw [List.flatMap_cons, List.append_assoc]
  · exact ⟨[], [], stream, .nil, hasked, rfl⟩
termination_by stream.length
decreasing_by
  -- A request is one octet long at least.
  subst_vars
  rw [List.length_append]
  exact Nat.lt_add_of_pos_left (Nat.succ_pos _)

end ConnectionSettings

/-- The stream begins with the message that lets the client in. -/
def IsAdmitted (stream rest : Bytes) : Prop :=
  ∃ f : Frame, f.Accepted ∧ f.message = .authentication .ok ∧ stream = f.octets ++ rest

/-- The message is nine octets long, whatever it says of its length. -/
theorem IsAdmitted.rest_eq {stream rest : Bytes} (h : IsAdmitted stream rest) :
    rest = stream.drop 9 := by
  obtain ⟨⟨message, declared, fields⟩, ⟨-, hspelt⟩, rfl, rfl⟩ := h
  have hfields : fields = Bytes.int32 0 := hspelt
  refine (List.drop_left' ?_).symm
  rw [hfields, Frame.octets, List.length_append, List.length_cons, Bytes.length_int32,
    Bytes.length_int32]

namespace Channel

variable {s : ConnectionSettings} {c c' : Channel} {f : Frame} {request : AuthenticationRequest}
  {said rest : Bytes} {showDetail : Bool}

/-! ## Reading one message of a login -/

/-- The fields of a request yield it. One whose method is not supported is left out here, since
its own octets need not. -/
theorem yields_authentication (charset : Charset) (hf : f.Accepted)
    (hm : f.message = .authentication request) (hkeeps : keeps f.message = true) :
    Yields charset (receiveMessage .authentication) (Bytes.int32 f.declared ++ f.fields)
      f.message := by
  obtain ⟨message, declared, fields⟩ := f
  obtain ⟨hfits, hspelt⟩ := hf
  subst hm
  have hlength : Yields charset receiveInt32 (Bytes.int32 declared) declared :=
    yields_int32 hfits.1 hfits.2
  refine .map (hlength.bind ?_) (.pure _)
  cases request with
  | ok =>
      rw [show fields = _ from hspelt]
      exact (yields_int32 (by decide) (by decide)).map (.pure _)
  | cleartextPassword =>
      rw [show fields = _ from hspelt]
      exact (yields_int32 (by decide) (by decide)).map (.pure _)
  | md5Password salt =>
      obtain ⟨rfl, hsalt⟩ := hspelt
      have hbytes : Yields charset (receiveBytes 4) salt salt := by
        rw [← hsalt]
        exact yields_bytes (by rw [hsalt]; decide)
      exact (yields_int32 (by decide) (by decide)).bind (hbytes.map (.pure _))
  | sasl | other => cases hkeeps

/-- A supported request is read whole, and the journal knows of it. -/
theorem receive_request (hf : f.Accepted) (hm : f.message = .authentication request)
    (hkeeps : keeps f.message = true) (hc : c.unread = f.octets ++ rest) (showDetail : Bool) :
    ∃ t, ReadsOff f.octets c t ∧
      receive .login showDetail c = .ok f.message (t.told (.received f.message showDetail)) := by
  have hoctets : f.octets =
      Tag.authentication.octet :: (Bytes.int32 f.declared ++ f.fields) := by
    rw [Frame.octets, hm]
    rfl
  rw [hoctets] at hc ⊢
  exact receive_kept .login showDetail hkeeps rfl (yields_authentication c.charset hf hm hkeeps) hc

/-- What was read stood in front, and only that is gone. -/
theorem receive_consumed {phase : Phase} {m : BackendMessage}
    (h : receive phase showDetail c = .ok m c') : ∃ f : Frame, f.Accepted ∧ f.message = m ∧
      c.unread = f.octets ++ c'.unread := by
  obtain ⟨octet, t, hoctet, hrest⟩ := bind_ok h
  cases arrival_of_run hrest with
  | @whole _ u htag _ hread =>
      obtain ⟨octets, hoff, declared, fields, rfl, haccepted⟩ := consumes_message _ t m u hread
      refine ⟨_, haccepted, rfl, ?_⟩
      have hunread : (if keeps m then u.told (.received m showDetail) else u).unread =
          u.unread := by
        split <;> rfl
      rw [hunread, ((receiveOctet_ok hoctet).trans hoff).unread, ← htag]
      rfl

/-- Reading a message says nothing. -/
theorem receive_quiet (phase : Phase) (showDetail : Bool) :
    Obeys Quiet (receive phase showDetail) :=
  receive_obeys quiet_composes reading_quiet record_quiet phase showDetail

/-! ## Answering one request -/

/-- Nothing is left to be said, and what is said next arrives. -/
structure IsWritable (c : Channel) : Prop where
  outgoing : c.outgoing = []
  write : c.socket.faults.write = false
  flush : c.socket.faults.flush = false

theorem IsWritable.told (hc : c.IsWritable) (event : Event) : (c.told event).IsWritable :=
  ⟨hc.outgoing, hc.write, hc.flush⟩

/-- Nothing is left to be said, and whatever is said from now on arrives. -/
structure StaysWritable (c : Channel) : Prop extends c.IsWritable where
  later : ∀ f ∈ c.socket.laterFaults, f.write = false ∧ f.flush = false

theorem StaysWritable.told (hc : c.StaysWritable) (event : Event) :
    (c.told event).StaysWritable :=
  ⟨hc.toIsWritable.told event, hc.later⟩

/-- What is said arrives whole, and nothing else changes. -/
theorem utter_said {m : FrontendMessage} (hc : c.IsWritable) (hencode : m.encode .utf8 = .ok said)
    (hsaid : said ≠ []) : utter m c = .ok () { c with socket := c.socket.write said } := by
  obtain ⟨socket, host, buffer, outgoing, charset, readTimeout, journal⟩ := c
  obtain ⟨hout, hwrite, hflush⟩ := hc
  simp only at hout hwrite hflush
  subst hout
  have hsend : sendMessage m ⟨socket, host, buffer, [], charset, readTimeout, journal⟩ =
      .ok () ⟨socket, host, buffer, said, charset, readTimeout, journal⟩ := by
    unfold sendMessage
    rw [hencode]
    rfl
  unfold utter
  rw [bind_of_ok hsend, flush_apply, if_neg hsaid]
  simp only [hwrite, hflush, Bool.false_eq_true, if_false]

theorem requiredPassword_eq {password : String} (h : s.password = some password) :
    requiredPassword s = pure password := by
  unfold requiredPassword
  rw [h]

/-- A request that can be answered is answered with one message. -/
theorem answer_said (hs : s.IsSendable) (hc : c.IsWritable)
    (hreply : s.reply? (.authentication request) = some said) :
    ∃ event, answer s request c =
      .ok false { c.told event with socket := c.socket.write said } := by
  have hsends : ∀ m : FrontendMessage, m.encode .utf8 = .ok said → said ≠ [] →
      (sendPassword m >>= fun _ => pure false) c =
        .ok false { c.told (.sending m) with socket := c.socket.write said } :=
    fun m hencode hsaid => bind_of_ok <| (bind_of_ok (record_apply _ c)).trans <|
      utter_said (hc.told _) hencode hsaid
  cases request with
  | ok | sasl | other => cases hreply
  | cleartextPassword =>
      obtain ⟨password, hpassword, rfl⟩ := Option.map_eq_some_iff.1 hreply
      have hstring : FrontendMessage.string .utf8 password = .ok (Utf8.encode password ++ [0]) :=
        FrontendMessage.string_of_zero_free (hs password hpassword)
      refine ⟨.sending (.cleartextPassword password), ?_⟩
      unfold answer
      rw [requiredPassword_eq hpassword, pure_bind]
      refine hsends (.cleartextPassword password) ?_ (List.cons_ne_nil _ _)
      show (FrontendMessage.string .utf8 password >>= fun text => _) = _
      rw [hstring]
      rfl
  | md5Password salt =>
      obtain ⟨password, hpassword, rfl⟩ := Option.map_eq_some_iff.1 hreply
      refine ⟨.sending (.password (FrontendMessage.md5Password s.user password salt)), ?_⟩
      unfold answer
      rw [requiredPassword_eq hpassword, pure_bind]
      exact hsends (.password _) rfl (List.cons_ne_nil _ _)

/-- What can be answered is a supported request. -/
theorem request_of_reply {m : BackendMessage} (h : s.reply? m = some said) :
    ∃ request, m = .authentication request ∧ keeps m = true := by
  cases m with
  | authentication request =>
      cases request with
      | cleartextPassword | md5Password => exact ⟨_, rfl, rfl⟩
      | ok | sasl | other => cases h
  | _ => cases h

theorem StaysWritable.wrote (hc : c.StaysWritable) (said : Bytes) :
    { c with socket := c.socket.write said }.StaysWritable := by
  obtain ⟨⟨medium, _, _, _, _, faults, later, _, _, _⟩, _, _, _, _, _, _⟩ := c
  obtain ⟨⟨hout, hwrite, hflush⟩, hlater⟩ := hc
  cases later with
  | nil => cases medium <;> exact ⟨⟨hout, hwrite, hflush⟩, nofun⟩
  | cons next later =>
      obtain ⟨⟨hwrite', hflush'⟩, hlater'⟩ := List.forall_mem_cons.1 hlater
      cases medium <;> exact ⟨⟨hout, hwrite', hflush'⟩, hlater'⟩

theorem unread_wrote (c : Channel) (said : Bytes) :
    { c with socket := c.socket.write said }.unread = c.unread :=
  congrArg (c.buffer ++ ·) (c.socket.inbound_write said)

/-- What lets the client in asks for nothing. -/
theorem not_isAsked_of_isAdmitted {stream : Bytes} (h : IsAdmitted stream rest) :
    ¬ s.IsAsked stream := by
  rintro ⟨f, said, _, ⟨hf, hreply⟩, hasked⟩
  obtain ⟨g, hg, hok, hadmitted⟩ := h
  obtain ⟨request, hm, hkeeps⟩ := request_of_reply hreply
  -- Both messages would be read from the same octets.
  let c : Channel := { socket := { inbound := stream }, host := default }
  obtain ⟨t, -, hread⟩ := receive_request (c := c) hf hm hkeeps hasked false
  obtain ⟨u, -, hread'⟩ := receive_request (c := c) hg hok (by rw [hok]; rfl) hadmitted false
  obtain ⟨hsame, -⟩ := EStateM.Result.ok.inj (hread.symm.trans hread')
  rw [hsame, hok] at hreply
  cases hreply

/-- A round takes one request off the stream and puts its answer on the wire. -/
theorem answerAll_answered (hs : s.IsSendable) (hc : c.StaysWritable) (h : s.Answers f said)
    (hunread : c.unread = f.octets ++ rest) (showDetail : Bool) :
    ∃ c', c'.StaysWritable ∧ c'.unread = rest ∧ c.socket.Took said c'.socket ∧
      ∀ n, answerAll s showDetail (n + 1) c = answerAll s showDetail n c' := by
  obtain ⟨haccepted, hreply⟩ := h
  obtain ⟨request, hm, hkeeps⟩ := request_of_reply hreply
  obtain ⟨t, hoff, hread⟩ := receive_request haccepted hm hkeeps hunread showDetail
  have ht : t.StaysWritable := by
    rw [hoff.same]
    exact ⟨⟨hc.outgoing, hc.write, hc.flush⟩, hc.later⟩
  have hheard : c.socket.Took [] t.socket := Socket.took_nil (by rw [hoff.same])
  rw [hm] at hreply hread
  have hknown := ht.told (.received (.authentication request) showDetail)
  obtain ⟨event, hanswer⟩ := answer_said hs hknown.toIsWritable hreply
  refine ⟨_, (hknown.told event).wrote said, ?_, ?_, fun n => ?_⟩
  · exact (unread_wrote _ said).trans (hoff.unread_eq hunread)
  · exact hheard.trans (Socket.took_write _ said)
  · rw [answerAll_succ, bind_of_ok hread]
    exact bind_of_ok hanswer

/-- A run over requests puts their answers on the wire, and gets to what comes then. -/
theorem answerAll_run (hs : s.IsSendable) {met : List Frame} {saids : List Bytes} {next : Bytes}
    (h : List.Forall₂ s.Answers met saids) (hc : c.StaysWritable)
    (hunread : c.unread = met.flatMap Frame.octets ++ next) (showDetail : Bool) :
    ∃ c', c'.StaysWritable ∧ c'.unread = next ∧ c.socket.Took saids.flatten c'.socket ∧
      ∀ n, answerAll s showDetail (met.length + n) c = answerAll s showDetail n c' := by
  induction h generalizing c with
  | nil =>
      refine ⟨c, hc, hunread, Socket.took_nil rfl, fun n => ?_⟩
      rw [List.length_nil, Nat.zero_add]
  | @cons f said met saids hanswers _ ih =>
      rw [List.flatMap_cons, List.append_assoc] at hunread
      obtain ⟨t, ht, hrest, htook, hround⟩ := answerAll_answered hs hc hanswers hunread showDetail
      obtain ⟨c', hc', hnext, htook', hrun⟩ := ih ht hrest
      refine ⟨c', hc', hnext, htook.trans htook', fun n => ?_⟩
      rw [List.length_cons, Nat.add_right_comm, hround, hrun]

/-! ## Where a login ends -/

/-- How a login ends that is not asked for anything more. -/
inductive Concludes (c : Channel) : EStateM.Result Halt Channel Unit → Prop where
  | admitted {c' : Channel} (hadmitted : IsAdmitted c.unread c'.unread) (hquiet : Quiet c none c') :
      Concludes c (.ok () c')
  | refused {halt : Halt} {c' : Channel} (hrefused : ∀ rest, ¬ IsAdmitted c.unread rest)
      (hquiet : Quiet c none c') (hsilent : halt = .waiting → c'.Silent) :
      Concludes c (.error halt c')

/-- A request that cannot be answered is told of at most in the journal. -/
theorem answer_refused (hrequest : request ≠ .ok)
    (hreply : s.reply? (.authentication request) = none) (c : Channel) :
    ∃ e c', answer s request c = .error (.failed e) c' ∧ Quiet c none c' := by
  have hquiet := quiet_composes.refl c
  cases request with
  | ok => exact absurd rfl hrequest
  | cleartextPassword | md5Password =>
      have hnone : s.password = none := Option.map_eq_none_iff.1 hreply
      unfold answer requiredPassword
      rw [hnone]
      exact ⟨_, c, rfl, hquiet⟩
  | sasl => exact ⟨_, _, rfl, record_quiet (.saslRequested c.host) c⟩
  | other method => exact ⟨_, c, rfl, hquiet⟩

/-- One more round ends a login that is not asked for anything more. -/
theorem answerAll_concludes (h : ¬ s.IsAsked c.unread) (showDetail : Bool) :
    ∃ r, Concludes c r ∧ ∀ n, answerAll s showDetail (n + 1) c = r := by
  by_cases hadmitted : ∃ rest, IsAdmitted c.unread rest
  · obtain ⟨rest, f, hf, hm, hunread⟩ := hadmitted
    obtain ⟨t, hoff, hread⟩ := receive_request hf hm (by rw [hm]; rfl) hunread showDetail
    refine ⟨.ok () (t.told (.received f.message showDetail)), .admitted ⟨f, hf, hm, hoff.unread⟩ ?_,
      fun n => ?_⟩
    · rw [hoff.same]
      exact ⟨rfl, rfl, Socket.took_nil rfl⟩
    · rw [answerAll_succ, bind_of_ok hread, hm]
      rfl
  · have hrefused : ∀ rest, ¬ IsAdmitted c.unread rest := not_exists.1 hadmitted
    have hquiet := receive_quiet .login showDetail
    cases hread : receive .login showDetail c with
    | error halt t =>
        obtain ⟨hhost, hout, htook⟩ := hquiet.error hread
        refine ⟨.error halt t, .refused hrefused ⟨hhost, hout, htook⟩ fun hhalt => ?_, fun n => ?_⟩
        · exact (receive_error (by decide) hread).silent (congrArg some hhalt)
        · rw [answerAll_succ, bind_of_error hread]
    | ok m t =>
        obtain ⟨f, hf, rfl, hunread⟩ := receive_consumed hread
        obtain ⟨octet, u, -, hafter⟩ := bind_ok hread
        obtain ⟨-, haccepts⟩ := receiveAfter_tag hafter
        -- A login reads requests and reports only; of the requests, this is one without an answer.
        cases hm : f.message with
        | authentication request =>
            have hrequest : request ≠ .ok := by
              rintro rfl
              exact hadmitted ⟨_, f, hf, hm, hunread⟩
            have hreply : s.reply? (.authentication request) = none :=
              Option.eq_none_iff_forall_ne_some.2 fun said hsaid =>
                h ⟨f, said, _, ⟨hf, hm ▸ hsaid⟩, hunread⟩
            obtain ⟨e, c', hanswer, hquiet'⟩ := answer_refused hrequest hreply t
            refine ⟨.error (.failed e) c', .refused hrefused
              (quiet_composes.trans (hquiet.ok hread) hquiet') nofun, fun n => ?_⟩
            rw [answerAll_succ, bind_of_ok hread, hm]
            exact bind_of_error hanswer
        | errorResponse report =>
            refine ⟨.error (.failed (.server (.first report showDetail))) t,
              .refused hrefused (hquiet.ok hread) nofun, fun n => ?_⟩
            rw [answerAll_succ, bind_of_ok hread, hm]
            rfl
        | _ => rw [hm] at haccepts; cases haccepts

/-- What comes of a login that is to say these messages and then meets this stream. -/
structure Transcript (saids : List Bytes) (next : Bytes) (c : Channel)
    (r : EStateM.Result Halt Channel Unit) : Prop where
  took : c.socket.Took saids.flatten (final r).socket
  outgoing : (final r).outgoing = []
  /-- The client comes in if and only if that is what it is told next. -/
  admitted : (∃ c', r = .ok () c') ↔ ∃ rest, IsAdmitted next rest
  /-- What stands behind the message that lets the client in was not read. -/
  unread : ∀ c', r = .ok () c' → IsAdmitted next c'.unread
  /-- Only a server that says nothing more and does not close its side is waited for. -/
  silent : halt? r = some .waiting → (final r).Silent

theorem Concludes.transcript {saids : List Bytes} {r : EStateM.Result Halt Channel Unit}
    (h : Concludes c' r) (hout : c'.outgoing = []) (htook : c.socket.Took saids.flatten c'.socket) :
    Transcript saids c'.unread c r := by
  cases h with
  | @admitted d hadmitted hquiet =>
      have hsaid := htook.trans hquiet.took
      rw [List.append_nil] at hsaid
      refine ⟨hsaid, hquiet.outgoing.trans hout, ?_, ?_, nofun⟩
      · exact ⟨fun _ => ⟨_, hadmitted⟩, fun _ => ⟨d, rfl⟩⟩
      · rintro _ ⟨⟩
        exact hadmitted
  | refused hrefused hquiet hsilent =>
      have hsaid := htook.trans hquiet.took
      rw [List.append_nil] at hsaid
      refine ⟨hsaid, hquiet.outgoing.trans hout, ⟨?_, ?_⟩, ?_, ?_⟩
      · rintro ⟨_, hok⟩
        cases hok
      · exact fun ⟨rest, hadmitted⟩ => absurd hadmitted (hrefused rest)
      · intro _ hok
        cases hok
      · exact fun hwaiting => hsilent (Option.some.inj hwaiting)

theorem length_le_octets (frames : List Frame) :
    frames.length ≤ (frames.flatMap Frame.octets).length := by
  induction frames with
  | nil => exact Nat.le_refl 0
  | cons f frames ih =>
      have hpos : 0 < f.octets.length := List.length_pos_iff.2 (by simp [Frame.octets])
      rw [List.flatMap_cons, List.length_append, List.length_cons]
      omega

/-- Whatever stream a login meets, it is requests that the client can answer and then something
else. The client says the answers in the order of the requests and nothing besides; it comes in if
and only if the next message says so, and has read nothing behind that. More rounds than a login is
given would change nothing. -/
theorem authenticate_transcript (hs : s.IsSendable) (hc : c.StaysWritable) (showDetail : Bool) :
    (∃ met saids next, List.Forall₂ s.Answers met saids ∧ ¬ s.IsAsked next ∧
      c.unread = met.flatMap Frame.octets ++ next) ∧
    ∀ met saids next, List.Forall₂ s.Answers met saids → ¬ s.IsAsked next →
      c.unread = met.flatMap Frame.octets ++ next →
        Transcript saids next c (authenticate s showDetail c) ∧
          ∀ rounds, c.unread.length < rounds →
            answerAll s showDetail rounds c = authenticate s showDetail c := by
  refine ⟨s.exists_answers c.unread, fun met saids next hmet hnext hunread => ?_⟩
  obtain ⟨c', hc', rfl, htook, hrun⟩ := answerAll_run hs hmet hc hunread showDetail
  obtain ⟨r, hconcludes, hend⟩ := answerAll_concludes hnext showDetail
  have hall : ∀ rounds, c.unread.length < rounds → answerAll s showDetail rounds c = r := by
    intro rounds hrounds
    have hlength := length_le_octets met
    rw [hunread, List.length_append] at hrounds
    -- One round for each request, and one more for what ends the login.
    obtain ⟨n, rfl⟩ : ∃ n, rounds = met.length + (n + 1) :=
      ⟨rounds - met.length - 1, by omega⟩
    rw [hrun, hend]
  have hauthenticate : authenticate s showDetail c = r := by
    unfold authenticate
    rw [bind_of_ok (get_apply c)]
    exact hall _ (Nat.lt_succ_self _)
  rw [hauthenticate]
  exact ⟨hconcludes.transcript hc'.outgoing htook, hall⟩

/-- A password is asked for twice before the client is let in, and an octet follows. -/
theorem authenticate_transcript_secret :
    let s : ConnectionSettings := { password := some "secret" }
    let asked : Frame := ⟨.authentication .cleartextPassword, 8, Bytes.int32 3⟩
    let admitted : Frame := ⟨.authentication .ok, 8, Bytes.int32 0⟩
    let c : Channel := {
      socket := { inbound := asked.octets ++ (asked.octets ++ (admitted.octets ++ [0x53])) }
      host := default }
    s.IsSendable ∧ c.StaysWritable ∧ ∃ c', authenticate s false c = .ok () c' ∧ c'.unread = [0x53] ∧
      c'.socket.clear = passwordMessage "secret" ++ passwordMessage "secret" := by
  intro s asked admitted c
  have hs : s.IsSendable := by
    rintro _ ⟨⟩
    decide
  have hc : c.StaysWritable := ⟨⟨rfl, rfl, rfl⟩, nofun⟩
  have hasked : s.Answers asked (passwordMessage "secret") := ⟨⟨by decide, rfl⟩, rfl⟩
  have hadmitted : IsAdmitted (admitted.octets ++ [0x53]) [0x53] :=
    ⟨admitted, ⟨by decide, rfl⟩, rfl, rfl⟩
  obtain ⟨htranscript, -⟩ := (authenticate_transcript hs hc false).2 [asked, asked] _
    (admitted.octets ++ [0x53]) (.cons hasked (.cons hasked .nil))
    (not_isAsked_of_isAdmitted hadmitted) rfl
  obtain ⟨c', hrun⟩ := htranscript.admitted.2 ⟨_, hadmitted⟩
  have htook := htranscript.took
  rw [hrun] at htook
  refine ⟨hs, hc, c', hrun, ?_, ?_⟩
  · rw [(htranscript.unread c' hrun).rest_eq, hadmitted.rest_eq]
    rfl
  · exact (htook.plain nofun).1

end Channel

end PgClient
