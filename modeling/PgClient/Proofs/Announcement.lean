import PgClient.Proofs.Frames
import PgClient.Proofs.Trust

/-!
# The announcement of a server

What a server may announce itself with is a small language: keys to cancel queries with,
notices, and settings, in any order, and then that it is ready. `Greeting` is a word of it.
A session begins if and only if the octets start with fewer than a thousand such words
and a ReadyForQuery, and every setting among them is one the client can live with.

One half goes by the words: the reader takes in one after the other (`readAnnouncement_append`).
The other half goes by the reader: each message it was content with was a word
(`readAnnouncement_ok`). Whatever else is announced, the session ends before it began, unless
there is nothing to end the wait for the rest.
-/

namespace PgClient

open Exchange

/-! ## Words -/

/-- What a server may send before it is ready, as it travels. Of a setting it does not matter which
length it declares. -/
inductive Greeting where
  | backendKey (key : BackendKey)
  | notice (body : Bytes)
  | setting (declared : Int) (name value : Bytes)

namespace Greeting

def tag : Greeting → Tag
  | backendKey _ => .backendKeyData
  | notice _ => .noticeResponse
  | setting _ _ _ => .parameterStatus

/-- What stands behind the tag. -/
def fields : Greeting → Bytes
  | backendKey key => Bytes.int32 12 ++ (Bytes.int32 key.pid ++ Bytes.int32 key.secret)
  | notice body => Bytes.int32 (body.length + 4) ++ body
  | setting declared name value => Bytes.int32 declared ++ (name ++ [0] ++ (value ++ [0]))

def encode (g : Greeting) : Bytes :=
  g.tag.octet :: g.fields

/-- What it says under a character set. -/
def decode (charset : Charset) : Greeting → BackendMessage
  | backendKey key => .backendKeyData key
  | notice body => .noticeResponse (Report.ofText (charset.decode body))
  | setting _ name value => .parameterStatus (charset.decode name) (charset.decode value)

def WellFormed : Greeting → Prop
  | backendKey key => FitsInt32 key.pid ∧ FitsInt32 key.secret
  | notice body => body ≠ [] ∧ body.length ≤ Channel.maxMessageSize
  | setting declared name value => FitsInt32 declared ∧ 0 ∉ name ∧ 0 ∉ value

/-- Words in the order they travel, each decoded under the character set the ones before it
have left. -/
def decodeAll (allowsEncodings : Bool) : Charset → List Greeting → List BackendMessage
  | _, [] => []
  | charset, g :: gs =>
    g.decode charset ::
      decodeAll allowsEncodings ((g.decode charset).charsetAfter allowsEncodings charset) gs

theorem tag_decode (charset : Charset) (g : Greeting) : (g.decode charset).tag = g.tag := by
  cases g <;> rfl

theorem accepts_tag (g : Greeting) : Phase.startup.accepts g.tag = true := by
  cases g <;> rfl

end Greeting

namespace Channel

theorem yields_greeting {charset : Charset} {g : Greeting} (hg : g.WellFormed) :
    Yields charset (receiveMessage g.tag) g.fields (g.decode charset) := by
  cases g with
  | backendKey key =>
      obtain ⟨hpid, hsecret⟩ := hg
      refine (yields_int32 (by decide) (by decide)).bind ?_
      rw [if_neg (by decide)]
      exact (yields_int32 hpid.1 hpid.2).bind ((yields_int32 hsecret.1 hsecret.2).map (.pure _))
  | notice body =>
      obtain ⟨hbody, hsize⟩ := hg
      have hpos : body.length ≠ 0 := fun h0 => hbody (List.length_eq_zero_iff.1 h0)
      exact (yields_reportLength hsize hpos _).bind ((yields_string hsize).map (.pure _))
  | setting declared name value =>
      obtain ⟨hdeclared, hname, hvalue⟩ := hg
      refine ((yields_int32 hdeclared.1 hdeclared.2).map (.pure ())).bind ?_
      exact (yields_zeroTerminated hname).bind ((yields_zeroTerminated hvalue).map (.pure _))

/-- A text that was read is no larger than a message may be. -/
theorem consumes_sizedString (n : Nat) :
    Consumes (fun octets _ => octets.length = n ∧ n ≤ maxMessageSize) (receiveString n) := by
  intro c a c' hrun
  obtain ⟨octets, hoff, hlen⟩ := consumes_string n c a c' hrun
  refine ⟨octets, hoff, hlen, ?_⟩
  by_contra hlarge
  unfold receiveString receiveBytes at hrun
  rw [if_pos (Nat.lt_of_not_le hlarge)] at hrun
  cases hrun

theorem consumes_noticeLength (kind : String) :
    Consumes (fun octets n => octets = Bytes.int32 ((n : Nat) + 4) ∧ n ≠ 0)
      (receiveReportLength kind) := by
  refine consumes_int32.map fun octets length h => .guard fun hnot => .pure ⟨rfl, ?_, ?_⟩
  · rw [show (((length - 4).toNat : Nat) : Int) + 4 = length by omega]
    exact h.1
  · omega

/-- What the reader is content with is a word. -/
theorem consumes_greeting {tag : Tag}
    (htag : tag = .backendKeyData ∨ tag = .noticeResponse ∨ tag = .parameterStatus) :
    Consumes (fun octets _ => ∃ g : Greeting, g.tag = tag ∧ g.WellFormed ∧ octets = g.fields)
      (receiveMessage tag) := by
  rcases htag with rfl | rfl | rfl
  · refine consumes_int32.bind fun _ length hlength => .guard fun hnot => ?_
    refine consumes_int32.bind fun _ pid hpid => consumes_int32.map fun _ secret hsecret => ?_
    obtain rfl : length = 12 := Decidable.of_not_not hnot
    rw [hlength.1, hpid.1, hsecret.1]
    exact .pure ⟨rfl, .backendKey { pid, secret }, rfl, ⟨hpid.2, hsecret.2⟩, rfl⟩
  · refine (consumes_noticeLength _).bind fun _ n hn => ?_
    refine (consumes_sizedString n).map fun body _ hbody => .pure ⟨rfl, ?_⟩
    obtain ⟨rfl, hpos⟩ := hn
    obtain ⟨rfl, hsize⟩ := hbody
    exact ⟨.notice body, rfl, ⟨fun hnil => hpos (by rw [hnil]; rfl), hsize⟩, rfl⟩
  · refine consumes_ignoredLength.bind fun _ _ hdeclared => ?_
    refine consumes_zeroTerminated.bind fun _ _ hname => ?_
    refine consumes_zeroTerminated.map fun _ _ hvalue => ?_
    obtain ⟨declared, rfl, hfits⟩ := hdeclared
    obtain ⟨name, hname, rfl⟩ := hname
    obtain ⟨value, hvalue, rfl⟩ := hvalue
    exact .pure ⟨rfl, .setting declared name value, rfl, ⟨hfits, hname, hvalue⟩, rfl⟩

/-- A message of the announcement that was read is what a word says. -/
theorem receive_greeting {detail : Bool} {c c' : Channel} {m : BackendMessage}
    (hm : m.tag = .backendKeyData ∨ m.tag = .noticeResponse ∨ m.tag = .parameterStatus)
    (h : receive .startup detail c = .ok m c') :
    ∃ g : Greeting, g.WellFormed ∧ g.decode c.charset = m ∧
      c.unread = g.encode ++ c'.unread := by
  obtain ⟨-, c₁, c₂, htag, hread, rfl⟩ := receive_ok (by decide) h
  obtain ⟨octets, hoff, g, hg, hwell, rfl⟩ := consumes_greeting hm c₁ m c₂ hread
  obtain ⟨c₃, hyields, -⟩ := yields_greeting hwell c₁ c₂.unread rfl hoff.unread
  rw [hg, hread] at hyields
  cases hyields
  refine ⟨g, hwell, by rw [htag.charset], ?_⟩
  rw [htag.unread, hoff.unread, ← hg]
  rfl

end Channel

/-- The key that a message tells. -/
def BackendMessage.backendKey? : BackendMessage → Option BackendKey
  | .backendKeyData key => some key
  | _ => none

namespace Session

/-! ## The key to cancel queries with -/

/-- The key is what it was. -/
def Keyed (s : Session) (_ : Option Halt) (s' : Session) : Prop :=
  s'.status.backendKey = s.status.backendKey

theorem keyed_composes : Composes Keyed where
  refl _ := rfl
  trans h h' := Eq.trans h' h

theorem onChannel_keyed {α : Type} (x : Exchange Channel α) : Obeys Keyed (onChannel x) := by
  intro s
  rw [final_onChannel]
  rfl

theorem attempt_keyed {α : Type} {x : Exchange Session α} (hx : Obeys Keyed x) :
    Obeys Keyed x.attempt := by
  intro s
  rw [final_attempt]
  exact hx s

theorem keyed_endures : Endures (Obeys Keyed) where
  toAssembles := assembles_of_composes keyed_composes
  told _ _ := onChannel_keyed _
  shuts := attempt_keyed (onChannel_keyed _)
  marks _ _ := rfl
  sends _ := onChannel_keyed _
  flushes := attempt_keyed (onChannel_keyed _)

theorem keyed_governs : Governs (Obeys Keyed) where
  toAssembles := assembles_of_composes keyed_composes
  told _ _ := onChannel_keyed _
  recodes _ := onChannel_keyed _
  sets _ h s := by
    rw [modify_apply, final_ok, Keyed, h.settings s]
  leaves _ := keyed_composes.bind keyed_endures.close fun _ _ => rfl
  fails _ _ _ := rfl

theorem onParameter_keyed (name value : String) : Obeys Keyed (onParameter name value) :=
  onParameter_obeys keyed_governs (fun h => h) name value

theorem Plain.keyed {s s' : Session} {h : Option Halt} (hplain : Plain s h s') : Keyed s h s' := by
  unfold Keyed
  rw [hplain]

theorem receive_keyed (phase : Phase) : Obeys Keyed (receive phase) :=
  keyed_composes.bind keyed_composes.get fun _ => onChannel_keyed _

theorem keyed_callLaw : CallLaw Keyed where
  toComposes := keyed_composes
  stops _ _ := rfl
  drafts _ _ _ := rfl
  flushes := onChannel_keyed _
  sends st parameters s := by
    have hsends := sendStatement_sends st parameters s
    generalize sendStatement st parameters s = r at hsends
    cases hsends <;> exact rfl
  replies := (Conversation.composes_session keyed_composes).bind
    (Conversation.onSession_obeys (receive_keyed .reply))
    (Conversation.take_session_obeys Plain.keyed onParameter_keyed)
  notices wait := noticeNext_obeys keyed_composes wait (onChannel_keyed _)
    (fun _ _ => onChannel_keyed _) (takeIdle_obeys Plain.keyed onParameter_keyed)
  checks {s t e} h := by
    have hcheck := (keyed_endures.toAssembles.checkFatal (fun _ _ => onChannel_keyed _)
      keyed_endures.abort (.error e : Except Error Unit)) t
    exact hcheck.trans h

/-! ## Messages -/

/-- A message of the announcement was taken in. -/
structure Informs (m : BackendMessage) (rest : Bytes) (s s' : Session) : Prop where
  unread : s'.channel.unread = rest
  charset : s'.channel.charset = m.charsetAfter s.options.allowEncodingChanges s.channel.charset
  options : s'.options = s.options
  standing : s'.standing = s.standing.on s.options.showErrorDetail m
  backendKey : s'.status.backendKey = m.backendKey?.or s.status.backendKey
  warnings : s'.status.warnings = s.status.warnings ++ m.notice?.toList
  isClosed : s'.isClosed = s.isClosed

theorem announce_informs {m : BackendMessage} {s : Session}
    (hm : m.tag = .backendKeyData ∨ m.tag = .noticeResponse ∨ m.tag = .parameterStatus)
    (haccept : m.isAcceptable s.options.allowEncodingChanges = true) :
    ∃ s', announce m s = .ok false s' ∧ Informs m s.channel.unread s s' := by
  cases m with
  | backendKeyData key =>
      exact ⟨_, rfl, rfl, rfl, rfl, rfl, rfl, (List.append_nil _).symm, rfl⟩
  | noticeResponse report => exact ⟨_, rfl, rfl, rfl, rfl, rfl, rfl, rfl, rfl⟩
  | parameterStatus name value =>
      obtain ⟨s', hrun, hheeds⟩ := onParameter_heeds haccept
      refine ⟨s', bind_of_ok hrun, hheeds.unread, hheeds.charset, hheeds.options,
        (onParameter_standing name value).ok hrun, (onParameter_keyed name value).ok hrun, ?_,
        ((onParameter_aside name value).ok hrun).calm rfl⟩
      exact hheeds.warnings.trans (List.append_nil _).symm
  | _ => rcases hm with hm | hm | hm <;> cases hm

theorem announce_ready {status : UInt8} (hstatus : IsStatus status) (s : Session) :
    ∃ s', announce (.readyForQuery status) s = .ok true s' ∧
      Informs (.readyForQuery status) s.channel.unread s s' := by
  rcases hstatus with rfl | rfl | rfl <;>
    exact ⟨_, rfl, rfl, rfl, rfl, rfl, rfl, (List.append_nil _).symm, rfl⟩

/-- A message that stands in front is read, and then taken in. -/
theorem announceNext_of_receive {s : Session} {octets rest : Bytes} {m : BackendMessage}
    {c : Channel} {last : Bool} (hunread : s.channel.unread = octets ++ rest)
    (hoff : s.channel.ReadsOff octets c)
    (hread : Channel.receive .startup s.options.showErrorDetail s.channel =
      .ok m (c.told (.received m s.options.showErrorDetail)))
    (htake : ∀ t : Session, t.options = s.options →
      ∃ s', announce m t = .ok last s' ∧ Informs m t.channel.unread t s') :
    ∃ s', announceNext s = .ok last s' ∧ Informs m rest s s' := by
  obtain ⟨s', hrun, hinforms⟩ :=
    htake { s with channel := c.told (.received m s.options.showErrorDetail) } rfl
  refine ⟨s', ?_, hinforms.unread.trans (hoff.unread_eq hunread),
    hinforms.charset.trans (congrArg (fun charset => m.charsetAfter _ charset) hoff.charset),
    hinforms.options, hinforms.standing, hinforms.backendKey, hinforms.warnings,
    hinforms.isClosed⟩
  unfold announceNext
  rw [bind_of_ok (receive_of_ok hread)]
  exact hrun

theorem announceNext_greeting {g : Greeting} (hg : g.WellFormed) {s : Session} {rest : Bytes}
    (hunread : s.channel.unread = g.encode ++ rest)
    (haccept : (g.decode s.channel.charset).isAcceptable s.options.allowEncodingChanges = true) :
    ∃ s', announceNext s = .ok false s' ∧ Informs (g.decode s.channel.charset) rest s s' := by
  obtain ⟨c, hoff, hread⟩ := Channel.receive_yields .startup (by decide)
    s.options.showErrorDetail (g.tag_decode _) g.accepts_tag (Channel.yields_greeting hg) hunread
  refine announceNext_of_receive hunread hoff hread fun t ht => announce_informs ?_ ?_
  · cases g <;> simp [Greeting.decode, BackendMessage.tag]
  · rw [ht]
    exact haccept

theorem announceNext_ready {status : UInt8} (hstatus : IsStatus status) {s : Session}
    {rest : Bytes} (hunread : s.channel.unread = Conversation.readyFrame status ++ rest) :
    ∃ s', announceNext s = .ok true s' ∧ Informs (.readyForQuery status) rest s s' := by
  obtain ⟨c, hoff, hread⟩ := Channel.receive_ready .startup (by decide) (by decide)
    s.options.showErrorDetail hunread
  exact announceNext_of_receive hunread hoff hread fun t _ => announce_ready hstatus t

/-- A message of such a kind, once it was read, is a word. -/
theorem receive_word {m : BackendMessage} {s t : Session}
    (hm : m.tag = .backendKeyData ∨ m.tag = .noticeResponse ∨ m.tag = .parameterStatus)
    (hread : receive .startup s = .ok m t) :
    ∃ g : Greeting, g.WellFormed ∧ g.decode s.channel.charset = m ∧
      s.channel.unread = g.encode ++ t.channel.unread := by
  rw [receive_apply] at hread
  obtain ⟨c, hc, rfl⟩ := onChannel_ok hread
  exact Channel.receive_greeting hm hc

/-- What was taken in was a word, or the end of the announcement. -/
theorem announceNext_ok {s s' : Session} {last : Bool} (h : announceNext s = .ok last s') :
    (last = true ∧ ∃ status, IsStatus status ∧
      s.channel.unread = Conversation.readyFrame status ++ s'.channel.unread) ∨
    (last = false ∧ ∃ g : Greeting, g.WellFormed ∧
      (g.decode s.channel.charset).isAcceptable s.options.allowEncodingChanges = true ∧
      s.channel.unread = g.encode ++ s'.channel.unread) := by
  obtain ⟨m, t, hread, htake⟩ := bind_ok h
  -- no octet is read while a message is taken in
  have hunread : s'.channel.unread = t.channel.unread :=
    ((announce_minds m).ok htake).channel.unread
  obtain ⟨asides, hweighed⟩ := (announce_weighs m).ok htake
  have hsame : t.options = s.options := (receive_reads (by decide) hread).receives.same.1
  have hword : (m.tag = .backendKeyData ∨ m.tag = .noticeResponse ∨ m.tag = .parameterStatus) →
      m.isAcceptable s.options.allowEncodingChanges = true → ∃ g : Greeting, g.WellFormed ∧
        (g.decode s.channel.charset).isAcceptable s.options.allowEncodingChanges = true ∧
        s.channel.unread = g.encode ++ s'.channel.unread := by
    intro hm haccept
    obtain ⟨g, hg, rfl, hoctets⟩ := receive_word hm hread
    exact ⟨g, hg, haccept, by rw [hunread]; exact hoctets⟩
  cases m with
  | readyForQuery status =>
      obtain ⟨_, t', hready, hlast⟩ := bind_ok htake
      cases hlast
      obtain ⟨body, hoctets, hbody⟩ := (receive_reads (by decide) hread).octets
      refine .inl ⟨rfl, status, onReady_ok hready, ?_⟩
      rw [hunread, hoctets, hbody status rfl]
      rfl
  | backendKeyData key =>
      cases htake
      exact .inr ⟨rfl, hword (.inl rfl) rfl⟩
  | noticeResponse report =>
      cases htake
      exact .inr ⟨rfl, hword (.inr (.inl rfl)) rfl⟩
  | parameterStatus name value =>
      obtain ⟨_, t', -, hlast⟩ := bind_ok htake
      cases hlast
      refine .inr ⟨rfl, hword (.inr (.inr rfl)) (eq_true_of_ne_false fun hrefused => ?_)⟩
      rw [← hsame] at hrefused
      cases (hweighed.refused name value rfl hrefused).1
  | errorResponse report =>
      obtain ⟨_, _, -, hfail⟩ := bind_ok htake
      cases hfail
  | _ => cases htake

/-! ## The whole announcement -/

/-- Messages of the announcement were taken in, one after the other. -/
structure Informed (ms : List BackendMessage) (rest : Bytes) (s s' : Session) : Prop where
  unread : s'.channel.unread = rest
  charset : s'.channel.charset =
    ms.foldl (BackendMessage.charsetAfter s.options.allowEncodingChanges) s.channel.charset
  options : s'.options = s.options
  standing : s'.standing = ms.foldl (Standing.on s.options.showErrorDetail) s.standing
  backendKey : s'.status.backendKey =
    (ms.filterMap BackendMessage.backendKey?).getLast?.or s.status.backendKey
  warnings : s'.status.warnings = s.status.warnings ++ ms.filterMap BackendMessage.notice?
  isClosed : s'.isClosed = s.isClosed

theorem Informed.nil (s : Session) : Informed [] s.channel.unread s s :=
  ⟨rfl, rfl, rfl, rfl, rfl, (List.append_nil _).symm, rfl⟩

theorem Informed.cons {m : BackendMessage} {ms : List BackendMessage} {rest rest' : Bytes}
    {s t u : Session} (h : Informs m rest s t) (h' : Informed ms rest' t u) :
    Informed (m :: ms) rest' s u := by
  refine ⟨h'.unread, ?_, h'.options.trans h.options, ?_, ?_, ?_, h'.isClosed.trans h.isClosed⟩
  · rw [h'.charset, h.options, h.charset, List.foldl_cons]
  · rw [h'.standing, h.options, h.standing, List.foldl_cons]
  · rw [h'.backendKey, h.backendKey, ← Option.or_assoc]
    cases hm : m.backendKey? with
    | none => rw [List.filterMap_cons_none hm, Option.or_none]
    | some key =>
        rw [List.filterMap_cons_some hm, List.getLast?_cons]
        cases (ms.filterMap BackendMessage.backendKey?).getLast? <;> rfl
  · rw [h'.warnings, h.warnings, List.append_assoc]
    cases hm : m.notice? with
    | none => rw [List.filterMap_cons_none hm]; rfl
    | some report => rw [List.filterMap_cons_some hm]; rfl

/-- The words are taken in one after the other, whatever follows them. -/
theorem readAnnouncement_append {gs : List Greeting} (hgs : ∀ g ∈ gs, g.WellFormed) (limit : Nat)
    {s : Session} {rest : Bytes} (hunread : s.channel.unread = gs.flatMap Greeting.encode ++ rest)
    (haccept : ∀ m ∈ Greeting.decodeAll s.options.allowEncodingChanges s.channel.charset gs,
      m.isAcceptable s.options.allowEncodingChanges = true) :
    ∃ s', readAnnouncement (gs.length + limit) s = readAnnouncement limit s' ∧
      Informed (Greeting.decodeAll s.options.allowEncodingChanges s.channel.charset gs) rest
        s s' := by
  -- each word may change the charset that the next ones are read in
  induction gs generalizing s with
  | nil =>
      refine ⟨s, by rw [List.length_nil, Nat.zero_add], ?_⟩
      rw [show rest = s.channel.unread from hunread.symm]
      exact .nil s
  | cons g gs ih =>
      obtain ⟨hg, hrest⟩ := List.forall_mem_cons.1 hgs
      obtain ⟨hm, hms⟩ := List.forall_mem_cons.1 haccept
      rw [List.flatMap_cons, List.append_assoc] at hunread
      obtain ⟨t, ht, hinforms⟩ := announceNext_greeting hg hunread hm
      rw [← hinforms.charset, ← hinforms.options] at hms
      obtain ⟨s', hs', hinformed⟩ := ih hrest hinforms.unread hms
      refine ⟨s', ?_, ?_⟩
      · rw [List.length_cons, Nat.add_right_comm, readAnnouncement_succ, bind_of_ok ht, ← hs']
        rfl
      · rw [Greeting.decodeAll, ← hinforms.charset, ← hinforms.options]
        exact .cons hinforms hinformed

/-- What a reader of at most so many messages was content with are words, and a ReadyForQuery. -/
theorem readAnnouncement_ok {limit : Nat} {s s' : Session}
    (h : readAnnouncement limit s = .ok () s') :
    ∃ gs : List Greeting, gs.length < limit ∧ (∀ g ∈ gs, g.WellFormed) ∧
      (∀ m ∈ Greeting.decodeAll s.options.allowEncodingChanges s.channel.charset gs,
        m.isAcceptable s.options.allowEncodingChanges = true) ∧
      ∃ status, IsStatus status ∧ s.channel.unread =
        gs.flatMap Greeting.encode ++ (Conversation.readyFrame status ++ s'.channel.unread) := by
  induction limit generalizing s with
  | zero => cases h
  | succ limit ih =>
      rw [readAnnouncement_succ] at h
      obtain ⟨last, t, ht, hrest⟩ := bind_ok h
      rcases announceNext_ok ht with ⟨rfl, status, hstatus, hunread⟩ | ⟨rfl, g, hg, hm, hunread⟩
      · cases hrest
        exact ⟨[], Nat.zero_lt_succ _, List.forall_mem_nil _, List.forall_mem_nil _, status,
          hstatus, hunread⟩
      · obtain ⟨t', ht', hinforms⟩ := announceNext_greeting hg hunread hm
        cases ht'.symm.trans ht
        obtain ⟨gs, hfew, hgs, hms, status, hstatus, hoctets⟩ := ih hrest
        rw [hinforms.charset, hinforms.options] at hms
        refine ⟨g :: gs, Nat.succ_lt_succ hfew, List.forall_mem_cons.2 ⟨hg, hgs⟩,
          List.forall_mem_cons.2 ⟨hm, hms⟩, status, hstatus, ?_⟩
        rw [hunread, hoctets, List.flatMap_cons, List.append_assoc]

/-! ## Announcements that are not in order -/

theorem announce_error (report : Report) {s : Session} (hcause : s.failCause = none) :
    ∃ s', announce (.errorResponse report) s =
      .error (.failed (.server (.first report s.options.showErrorDetail))) s' := by
  have hrun := Conversation.onError_apply report s
  rw [hcause] at hrun
  exact ⟨_, bind_of_ok hrun⟩

/-- The words are followed by the report of an error. -/
theorem readAnnouncement_reported {body : Bytes} (hbody : body ≠ [])
    (hsize : body.length ≤ Channel.maxMessageSize) (limit : Nat) {s : Session} {rest : Bytes}
    (hunread : s.channel.unread = (WireMessage.errorResponse body).encode ++ rest)
    (hcause : s.failCause = none) :
    ∃ s', readAnnouncement (limit + 1) s = .error (.failed (.server (.first
      (Report.ofText (s.channel.charset.decodeReport body)) s.options.showErrorDetail))) s' := by
  obtain ⟨c, hoff, hread⟩ := Channel.receive_yields .startup (by decide) s.options.showErrorDetail
    ((WireMessage.errorResponse body).tag_decode _) rfl
    (Channel.yields_message ⟨hbody, hsize⟩) hunread
  obtain ⟨s', hs'⟩ := announce_error (Report.ofText (s.channel.charset.decodeReport body))
    (s := { s with channel := c.told (.received
      ((WireMessage.errorResponse body).decode s.channel.charset) s.options.showErrorDetail) })
    hcause
  refine ⟨s', ?_⟩
  rw [readAnnouncement_succ]
  refine bind_of_error ?_
  unfold announceNext
  rw [bind_of_ok (receive_of_ok hread)]
  exact hs'

/-- A round takes in one message at most. -/
theorem announceNext_learns :
    Obeys (fun s _ s' => ∃ ms, Learns s ms s' ∧ ms.length ≤ 1) announceNext := by
  intro s
  unfold announceNext
  rw [bind_apply]
  cases hread : receive .startup s with
  | error halt t => exact ⟨[], (receive_unheard hread).1, Nat.zero_le _⟩
  | ok m t =>
      have hm := announce_minds m t
      have hreceives := (receive_reads (by decide) hread).receives
      exact ⟨[m], hreceives.learns hm.channel hm.options hm.standing, Nat.le_refl _⟩

theorem readAnnouncement_learns (limit : Nat) :
    Obeys (fun s _ s' => ∃ ms, Learns s ms s' ∧ ms.length ≤ limit) (readAnnouncement limit) := by
  induction limit with
  | zero => exact fun s => ⟨[], .refl s, Nat.le_refl _⟩
  | succ limit ih =>
      intro s
      rw [readAnnouncement_succ, bind_apply]
      obtain ⟨ms, hlearns, hone⟩ := announceNext_learns s
      cases hnext : announceNext s with
      | error halt t =>
          rw [hnext] at hlearns
          exact ⟨ms, hlearns, by omega⟩
      | ok last t =>
          rw [hnext] at hlearns
          cases last with
          | true => exact ⟨ms, hlearns, by omega⟩
          | false =>
              obtain ⟨ms', hlearns', hfew⟩ := ih t
              refine ⟨ms ++ ms', hlearns.trans hlearns', ?_⟩
              rw [List.length_append]
              omega

/-- No message is such that taking it in would mean to wait. -/
theorem announce_ends (m : BackendMessage) (s : Session) :
    halt? (announce m s) ≠ some .waiting := by
  have hfatal : ∀ {h : Option Halt} {s' : Session}, Aside s h s' → h ≠ some .waiting := by
    rintro h s' haside rfl
    obtain ⟨e, he, -⟩ := haside.fatal _ rfl
    cases he
  cases m with
  | readyForQuery status => exact hfatal ((onReady_aside status).followed true s)
  | parameterStatus name value => exact hfatal ((onParameter_aside name value).followed false s)
  | errorResponse report =>
      rw [show announce (.errorResponse report) s = _ from
        bind_of_ok (Conversation.onError_apply report s)]
      nofun
  | _ => nofun

theorem announceNext_waits {s s' : Session} (h : announceNext s = .error .waiting s') :
    s'.channel.Silent := by
  rcases bind_error h with hread | ⟨m, t, -, htake⟩
  · rw [receive_apply] at hread
    obtain ⟨c', hc, rfl⟩ := onChannel_error hread
    obtain ⟨c, hreading, rfl | ⟨octet, hfailed, -⟩⟩ := Channel.receive_failed hc
    · exact hreading.silent rfl
    · exact absurd rfl hfailed
  · exact absurd (by rw [htake]; rfl) (announce_ends m t)

theorem readAnnouncement_waits {limit : Nat} {s s' : Session}
    (h : readAnnouncement limit s = .error .waiting s') : s'.channel.Silent := by
  induction limit generalizing s with
  | zero => cases h
  | succ limit ih =>
      rw [readAnnouncement_succ] at h
      rcases bind_error h with hnext | ⟨last, t, -, hrest⟩
      · exact announceNext_waits hnext
      · cases last with
        | true => cases hrest
        | false => exact ih hrest

/-- This side was closed, unless it cannot be. -/
def TriedToShut (c : Channel) : Prop :=
  c.socket.isShut = true ∨ c.socket.faults.shutdown = true

theorem close_triedToShut (c : Channel) : TriedToShut (final (Channel.close c)) := by
  rw [Channel.close_apply]
  split
  · next hshutdown => exact .inr hshutdown
  · exact .inl rfl

theorem abort_triedToShut (s : Session) : TriedToShut (final (abort s)).channel := by
  have hsame : Composes fun (s : Session) (_ : Option Halt) s' =>
      s'.channel.socket = s.channel.socket :=
    ⟨fun _ => rfl, fun h h' => h'.trans h⟩
  have hmark : Obeys (fun s _ s' => s'.channel.socket = s.channel.socket)
      (do unless (← get).isClosed do markClosed "terminated") := by
    refine hsame.bind hsame.get fun s => ?_
    split
    · exact hsame.pure _
    · exact fun _ => rfl
  obtain ⟨r, t, ht, -⟩ := reaches_attempt Channel.close_ends s
  have hclose := final_attempt (onChannel Channel.close) s
  rw [ht, final_onChannel] at hclose
  have htried : TriedToShut t.channel := by
    rw [show t = _ from hclose]
    exact close_triedToShut s.channel
  have hrest : (final (abort s)).channel.socket = t.channel.socket := by
    unfold abort
    rw [bind_of_ok ht]
    cases r with
    | ok _ => exact hmark t
    | error e => exact hsame.bind (x := record (.abortFailed e)) (fun _ => rfl) (fun _ => hmark) t
  unfold TriedToShut
  rw [hrest]
  exact htried

/-- How the channel behaves once no octet is left to be read. -/
def dryness (s : Session) : Bool × Bool × Option Nat :=
  (s.channel.socket.ended, s.channel.socket.faults.read, s.channel.readTimeout)

/-- The channel behaves as it did. -/
def Steady (s : Session) (_ : Option Halt) (s' : Session) : Prop :=
  s'.dryness = s.dryness

theorem steady_composes : Composes Steady where
  refl _ := rfl
  trans h h' := Eq.trans h' h

theorem Talks.steady {s s' : Session} {h : Option Halt} (ht : Talks s h s') : Steady s h s' := by
  unfold Steady dryness
  rw [show s'.channel = _ from ht.same]

theorem steady_governs : Governs (Obeys Steady) where
  toAssembles := assembles_of_composes steady_composes
  told _ _ := fun _ => rfl
  recodes _ := fun _ => rfl
  sets _ h s := by
    rw [modify_apply, final_ok, Steady, h.settings s]
    rfl
  leaves _ := steady_composes.bind (fun s => (talks_endures.close s).steady) fun _ _ => rfl
  fails _ _ _ := rfl

theorem Plain.steady {s s' : Session} {h : Option Halt} (hplain : Plain s h s') :
    Steady s h s' := by
  unfold Steady
  rw [hplain]
  rfl

theorem announce_steady (m : BackendMessage) : Obeys Steady (announce m) :=
  announce_obeys steady_composes Plain.steady (fun _ _ => rfl)
    (onParameter_obeys steady_governs fun h => h) m

theorem announceNext_steady : Obeys Steady announceNext :=
  steady_composes.bind (fun s => (receive_talks .startup s).steady) announce_steady

theorem readAnnouncement_steady (limit : Nat) : Obeys Steady (readAnnouncement limit) :=
  steady_composes.loop readAnnouncement_succ (fun _ => rfl) announceNext_steady limit

/-! ## The beginning of a session -/

/-- The octets of a channel start with words the client can accept. -/
structure Greets (allowsEncodings : Bool) (c : Channel) (gs : List Greeting) (rest : Bytes) :
    Prop where
  few : gs.length < maxStartupMessages
  wellFormed : ∀ g ∈ gs, g.WellFormed
  acceptable : ∀ m ∈ Greeting.decodeAll allowsEncodings c.charset gs,
    m.isAcceptable allowsEncodings = true
  octets : c.unread = gs.flatMap Greeting.encode ++ rest

/-- The words are followed by a ReadyForQuery. -/
structure Announced (allowsEncodings : Bool) (c : Channel) (gs : List Greeting) (status : UInt8)
    (rest : Bytes) : Prop extends
    Greets allowsEncodings c gs (Conversation.readyFrame status ++ rest) where
  letter : IsStatus status

/-- A session has begun with what these messages announced. -/
structure Begun (ms : List BackendMessage) (status : UInt8) (rest : Bytes) (s : Session) :
    Prop where
  transaction : (BackendMessage.readyForQuery status).transaction? = some s.status.transaction
  backendKey : s.status.backendKey = (ms.filterMap BackendMessage.backendKey?).getLast?
  warnings : s.status.warnings = ms.filterMap BackendMessage.notice?
  parameters : s.parameters = ms.foldl BackendMessage.parametersAfter []
  unread : s.channel.unread = rest
  isOpen : s.isClosed = false

theorem foldl_parameters (detail : Bool) (ms : List BackendMessage) (o : Standing) :
    (ms.foldl (Standing.on detail) o).parameters =
      ms.foldl BackendMessage.parametersAfter o.parameters := by
  induction ms generalizing o with
  | nil => rfl
  | cons m ms ih => exact ih (o.on detail m)

/-- Words say nothing about errors. -/
theorem foldl_greetings {detail allows : Bool} (gs : List Greeting) (charset : Charset)
    {o : Standing} (hcause : o.failCause = none) :
    ((Greeting.decodeAll allows charset gs).foldl (Standing.on detail) o).failCause = none := by
  induction gs generalizing charset o with
  | nil => exact hcause
  | cons g gs ih =>
      refine ih _ ?_
      cases g <;> exact hcause

section

variable {channel : Channel} {user database : String} {options : SessionOptions}
  {gs : List Greeting} {status : UInt8} {rest : Bytes}

variable (user database) in
/-- The words are taken in, and there is room for one more message. -/
theorem start_greeted (h : Greets options.allowEncodingChanges channel gs rest) :
    ∃ limit t, start (new channel user database options) = readAnnouncement (limit + 1) t ∧
      Informed (Greeting.decodeAll options.allowEncodingChanges channel.charset gs) rest
        (new channel user database options) t := by
  obtain ⟨limit, hlimit⟩ : ∃ limit, maxStartupMessages = gs.length + (limit + 1) :=
    ⟨maxStartupMessages - gs.length - 1, by have := h.few; omega⟩
  obtain ⟨t, ht, hinformed⟩ := readAnnouncement_append (s := new channel user database options)
    h.wellFormed (limit + 1) h.octets h.acceptable
  refine ⟨limit, t, ?_, hinformed⟩
  unfold start
  rw [hlimit]
  exact ht

variable (user database) in
theorem begin_of_announced
    (h : Announced options.allowEncodingChanges channel gs status rest) :
    ∃ s, begin (new channel user database options) = .ok () s ∧
      Begun (Greeting.decodeAll options.allowEncodingChanges channel.charset gs) status rest s := by
  obtain ⟨limit, t, ht, hinformed⟩ := start_greeted user database h.toGreets
  obtain ⟨u, hu, hready⟩ := announceNext_ready h.letter hinformed.unread
  have hstart : start (new channel user database options) = .ok () u := by
    rw [ht, readAnnouncement_succ, bind_of_ok hu]
    rfl
  have hbegins := begin_begins (new channel user database options)
  generalize begin (new channel user database options) = r at hbegins
  cases hbegins with
  | waiting hs => cases hs.symm.trans hstart
  | failed hs => cases hs.symm.trans hstart
  | begun hs =>
      cases hs.symm.trans hstart
      refine ⟨_, rfl, ?_, ?_, ?_, ?_, hready.unread, hready.isClosed.trans hinformed.isClosed⟩
      · have htransaction : u.status.transaction = _ :=
          congrArg Standing.transaction hready.standing
        show _ = some u.status.transaction
        rw [htransaction]
        rcases h.letter with rfl | rfl | rfl <;> rfl
      · refine (hready.backendKey.trans hinformed.backendKey).trans ?_
        exact Option.or_none
      · refine hready.warnings.trans ?_
        rw [hinformed.warnings]
        exact List.append_nil _
      · have hparameters : u.parameters = t.parameters :=
          congrArg Standing.parameters hready.standing
        show u.parameters = _
        rw [hparameters, show t.parameters = _ from congrArg Standing.parameters hinformed.standing,
          foldl_parameters]
        rfl

theorem announced_of_begin {s : Session}
    (h : begin (new channel user database options) = .ok () s) :
    ∃ gs status, Announced options.allowEncodingChanges channel gs status s.channel.unread := by
  have hbegins := begin_begins (new channel user database options)
  rw [h] at hbegins
  cases hbegins with
  | begun hstart =>
      obtain ⟨gs, hfew, hwell, haccept, status, hstatus, hoctets⟩ := readAnnouncement_ok hstart
      exact ⟨gs, status, ⟨hfew, hwell, haccept, hoctets⟩, hstatus⟩

theorem begin_of_reported {body : Bytes} (hbody : (WireMessage.errorResponse body).WellFormed)
    (h : Greets options.allowEncodingChanges channel gs
      ((WireMessage.errorResponse body).encode ++ rest)) :
    ∃ s, begin (new channel user database options) = .error (.failed (.server (.first
      (Report.ofText (Charset.decodeReport
        ((Greeting.decodeAll options.allowEncodingChanges channel.charset gs).foldl
          (BackendMessage.charsetAfter options.allowEncodingChanges) channel.charset) body))
      options.showErrorDetail))) s := by
  obtain ⟨limit, t, ht, hinformed⟩ := start_greeted user database h
  have hcause : t.failCause = none := by
    rw [show t.failCause = _ from congrArg Standing.failCause hinformed.standing]
    exact foldl_greetings gs channel.charset rfl
  obtain ⟨u, hu⟩ := readAnnouncement_reported hbody.fields hbody.size limit hinformed.unread hcause
  rw [← ht, hinformed.charset, hinformed.options] at hu
  have hbegins := begin_begins (new channel user database options)
  generalize begin (new channel user database options) = r at hbegins
  cases hbegins with
  | begun hs => cases hs.symm.trans hu
  | waiting hs => cases hs.symm.trans hu
  | failed hs =>
      cases hs.symm.trans hu
      exact ⟨_, rfl⟩

/-- No more messages are taken in than an announcement may have. -/
theorem begin_heard (s : Session) : (s.heard (final (begin s))).length ≤ maxStartupMessages := by
  have hlearns := readAnnouncement_learns maxStartupMessages
  have hbegins := begin_begins s
  suffices hfew : ∃ ms, Learns s ms (final (begin s)) ∧ ms.length ≤ maxStartupMessages by
    obtain ⟨ms, hl, hfew⟩ := hfew
    rwa [hl.heard]
  generalize begin s = r at hbegins
  cases hbegins with
  | @begun t hs =>
      obtain ⟨ms, hl, hfew⟩ := hlearns.ok hs
      have hkeeps := (record_keeps rfl).ok (record_apply (.ready t.party t.backendPid) t)
      exact ⟨ms, hl.trans_nil (.of_keeps hkeeps rfl), hfew⟩
  | waiting hs => exact hlearns.error hs
  | failed hs habort =>
      obtain ⟨ms, hl, hfew⟩ := hlearns.error hs
      have hstands := unmoved_endures.abort.ok habort
      exact ⟨ms, hl.trans_nil (.of_keeps (abort_keeps.ok habort) hstands), hfew⟩

end

end Session

namespace World

open Session

variable {w : World}

/-- Whatever is done, the key stays the one that was announced. -/
theorem act_keyed (w : World) (operation : Operation) :
    Keyed w.session none (w.act operation).session := by
  have hlocal : ∀ {operation : Operation}, operation.isLocal = true →
      Keyed w.session none (w.act operation).session := by
    intro operation h
    obtain ⟨journal, asides, statements, pendingClose, hact, -⟩ := w.act_local h
    rw [hact]
    rfl
  cases operation with
  | borrow | create | setFetchSize | release => exact hlocal rfl
  | query sql => exact keyed_callLaw.query sql w.session
  | execute id parameters =>
      rcases w.act_execute id parameters with hact | ⟨handle, -, hact⟩
      · rw [hact]
        rfl
      · rw [hact]
        exact keyed_callLaw.execute handle.statement parameters w.session
  | takeNotices wait => exact keyed_callLaw.takeNotices wait w.session
  | close => exact keyed_endures.close w.session
  | abort => exact keyed_endures.abort w.session
  | arrive octets ended faults => rfl

theorem run_keyed (w : World) (operations : List Operation) :
    Keyed w.session none (w.run operations).session := by
  induction operations generalizing w with
  | nil => rfl
  | cons operation operations ih =>
      refine keyed_composes.trans ?_ (ih (w.step operation))
      cases hstuck : w.isStuck with
      | true =>
          rw [step_of_stuck hstuck]
          rfl
      | false =>
          rw [step_of_running hstuck]
          exact w.act_keyed operation

/-- How a session begins, and how it does not. -/
structure Opens (s₀ : Session) : Prop where
  accepts : (∃ s, begin s₀ = .ok () s) ↔
    ∃ gs status rest, Announced s₀.options.allowEncodingChanges s₀.channel gs status rest
  begun : ∀ gs status rest s, Announced s₀.options.allowEncodingChanges s₀.channel gs status rest →
    begin s₀ = .ok () s →
    Begun (Greeting.decodeAll s₀.options.allowEncodingChanges s₀.channel.charset gs) status rest s
  /-- The key is that of the announcement for good. -/
  keyed : ∀ s operations, begin s₀ = .ok () s →
    ((start s).run operations).session.status.backendKey = s.status.backendKey
  few : (s₀.heard (final (begin s₀))).length ≤ maxStartupMessages
  fails : ∀ e s, begin s₀ = .error (.failed e) s → s.isClosed = true ∧ TriedToShut s.channel
  reports : ∀ gs body rest, (WireMessage.errorResponse body).WellFormed →
    Greets s₀.options.allowEncodingChanges s₀.channel gs
      ((WireMessage.errorResponse body).encode ++ rest) →
    ∃ s, begin s₀ = .error (.failed (.server (.first
      (Report.ofText (Charset.decodeReport
        ((Greeting.decodeAll s₀.options.allowEncodingChanges s₀.channel.charset gs).foldl
          (BackendMessage.charsetAfter s₀.options.allowEncodingChanges) s₀.channel.charset) body))
      s₀.options.showErrorDetail))) s
  /-- A session that never begins has nothing left to read, and nothing will end the wait. -/
  waits : ∀ s, begin s₀ = .error .waiting s → s.channel.unread = [] ∧
    s₀.channel.socket.ended = false ∧ s₀.channel.socket.faults.read = false ∧
    s₀.channel.readTimeout = none

/-- A session begins if and only if the octets start with an announcement it can accept, and what
was announced is what it knows. Otherwise it has ended, unless it waits for good. -/
theorem sessions_open (channel : Channel) (user database : String) (options : SessionOptions) :
    Opens (new channel user database options) := by
  refine ⟨⟨fun ⟨s, hs⟩ => ?_, fun ⟨gs, status, rest, h⟩ => ?_⟩, fun gs status rest s h hs => ?_,
    fun s operations _ => run_keyed (start s) operations, begin_heard _, fun e s hs => ?_,
    fun gs body rest hbody h => begin_of_reported hbody h, fun s hs => ?_⟩
  · obtain ⟨gs, status, h⟩ := announced_of_begin hs
    exact ⟨gs, status, _, h⟩
  · obtain ⟨s, hs, -⟩ := begin_of_announced user database h
    exact ⟨s, hs⟩
  · obtain ⟨t, ht, hbegun⟩ := begin_of_announced user database h
    cases ht.symm.trans hs
    exact hbegun
  · have hbegins := begin_begins (new channel user database options)
    rw [hs] at hbegins
    cases hbegins with
    | @failed t _ _ _ habort =>
        have hclosed := abort_reaches.final t
        have htried := abort_triedToShut t
        rw [habort] at hclosed htried
        exact ⟨hclosed, htried⟩
  · have hbegins := begin_begins (new channel user database options)
    rw [hs] at hbegins
    cases hbegins with
    | waiting hstart =>
        have hsilent := readAnnouncement_waits hstart
        have hsteady := (readAnnouncement_steady _).error hstart
        obtain ⟨hended, hfault, htimeout⟩ : s.channel.socket.ended = channel.socket.ended ∧
            s.channel.socket.faults.read = channel.socket.faults.read ∧
            s.channel.readTimeout = channel.readTimeout := by
          simpa [Steady, dryness, new] using hsteady
        refine ⟨hsilent.unread, hended ▸ hsilent.goesOn, ?_, htimeout ▸ hsilent.unlimited⟩
        exact hfault ▸ hsilent.healthy

/-- A server that never says a word. -/
def silentChannel : Channel where
  socket := {}
  host := { name := "localhost", port := 5432 }

/-- Nothing is announced, and the session neither begins nor ends. -/
theorem begin_waits :
    (¬ ∃ gs status rest, Announced false silentChannel gs status rest) ∧
      halt? (begin (new silentChannel "postgres" "postgres" {})) = some .waiting ∧
      (final (begin (new silentChannel "postgres" "postgres" {}))).isClosed = false ∧
      ¬ TriedToShut (final (begin (new silentChannel "postgres" "postgres" {}))).channel := by
  refine ⟨?_, by decide +kernel, by decide +kernel, ?_⟩
  · rintro ⟨gs, status, rest, h⟩
    have hlength := congrArg List.length h.octets
    rw [List.length_append, List.length_append] at hlength
    have hready : (Conversation.readyFrame status).length = 6 := rfl
    rw [hready] at hlength
    simp [silentChannel, Channel.unread] at hlength
    omega
  · unfold TriedToShut
    decide +kernel

end World

end PgClient
