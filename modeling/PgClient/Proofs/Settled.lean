import PgClient.Proofs.Notices

/-!
# A session that is open is in step with the server

A request that comes back has either read the reply to its very end, or sent
nothing at all, or closed the session. Which of the three it was can be told
from its result, so that whoever may send another request, because the session
is open, may do so without fear of reading an old reply as the answer to it.

The proof is a matter of bookkeeping once the endings of a request are known
(`Answers`): what is left is that nothing is read while a request is put
together, and that an error is fatal exactly when the reply broke off.
-/

namespace PgClient.Session

open Exchange FrontendMessage Conversation

/-- What a request that came back says about the session it leaves. -/
structure Settles (s : Session) (reply : Reply) (s' : Session) : Prop where
  closed_iff : s'.isClosed = true ↔ ∃ e, reply.result = .error e ∧ e.isFatal = true
  kinds : ∀ e, reply.result = .error e →
    e.isFatal = true ∨ (∃ error, e = .server error) ∨ ∃ fault, e = .statementCreation fault
  ready : (reply.result = .ok () ∨ ∃ error, reply.result = .error (.server error)) → UpToReady s s'
  untouched : ∀ fault, reply.result = .error (.statementCreation fault) →
    s'.channel.socket = s.channel.socket ∧ s'.channel.buffer = s.channel.buffer

/-- A request comes back settled, or the server will never say another word. -/
def Settled (s : Session) : EStateM.Result Halt Session Reply → Prop
  | .ok reply s' => Settles s reply s'
  | .error halt s' => halt = .waiting ∧ s'.channel.Silent

/-- The same for what is read between requests. -/
def SettledNotices : EStateM.Result Halt Session Unit → Prop
  | .ok () s' => s'.isClosed = false
  | .error (.failed e) s' => s'.isClosed = true ↔ e.isFatal = true
  | .error .waiting s' => s'.channel.Silent

/-- A session about to read the reply to a request of another one: nothing was
read in between. -/
structure Prepares (s s₁ : Session) : Prop where
  unread : s₁.channel.unread = s.channel.unread
  isClosed : s₁.isClosed = s.isClosed
  history : ∃ events, s₁.history = s.history ++ events ∧ events.filterMap Event.message? = []

theorem Prepares.upToReady {s s₁ s' : Session} (h : Prepares s s₁) (hready : UpToReady s₁ s') :
    UpToReady s s' := by
  obtain ⟨sent, hsent, hnone⟩ := h.history
  obtain ⟨front, status, hstatus, hunread, events, before, hhistory, hmessages, hother⟩ := hready
  refine ⟨front, status, hstatus, h.unread.symm.trans hunread, sent ++ events, before, ?_, ?_,
    hother⟩
  · rw [hhistory, hsent, List.append_assoc]
  · rw [List.filterMap_append, hnone, hmessages]
    rfl

/-- Messages are put together, and then something is written. -/
theorem drafts_prepares (s : Session) (ms : List FrontendMessage) (octets : Bytes) {c : Channel}
    (hc : (s.drafts ms octets).channel.Keeps c) :
    Prepares s { s.drafts ms octets with channel := c } := by
  obtain ⟨events, hevents, haside⟩ := hc.history
  refine ⟨hc.unread, rfl, ms.map Event.sending ++ events, ?_, ?_⟩
  · show c.history = _
    rw [hevents, show (s.drafts ms octets).channel.history = _ from history_drafts s ms octets,
      List.append_assoc]
  · rw [List.filterMap_append, filterMap_message?_of_isAside haside, List.append_nil]
    refine List.filterMap_eq_nil_iff.2 fun e he => ?_
    obtain ⟨m, -, rfl⟩ := List.mem_map.1 he
    rfl

/-- The sending of a statement only adds to what is to be written. -/
theorem Sends.prepares {st : Statement} {parameters : List (Option Bytes)} {s : Session}
    {r : EStateM.Result Halt Session (Option String)} (h : Sends st parameters s r) :
    Prepares s (final r) := by
  have hdrafts : ∀ (t : Session) ms octets c, t.channel = s.channel → t.isClosed = s.isClosed →
      (t.drafts ms octets).channel.Keeps c →
      Prepares s { t.drafts ms octets with channel := c } := by
    intro t ms octets c hchannel hopen hkeeps
    obtain ⟨hunread, hsame, events, hevents, hnone⟩ := drafts_prepares t ms octets hkeeps
    refine ⟨hunread.trans (by rw [hchannel]), hsame.trans hopen, events, ?_, hnone⟩
    rw [hevents, history, hchannel]
    rfl
  cases h with
  | unclosed => exact hdrafts s.emptied _ _ _ rfl rfl (.refl _)
  | refused => exact hdrafts (s.emptied.named st) _ _ _ rfl rfl (.refl _)
  | unwritten _ _ _ _ hkeeps => exact hdrafts (s.emptied.named st) _ _ _ rfl rfl hkeeps
  | written _ _ hkeeps => exact hdrafts (s.emptied.named st) _ _ _ rfl rfl hkeeps

/-- A failure to send: the session does not survive it, or nothing was sent. -/
def Unsent (s : Session) (e : Error) (s₁ : Session) : Prop :=
  e.isFatal = true ∨ (∃ fault, e = .statementCreation fault) ∧ s₁.isClosed = s.isClosed ∧
    s₁.channel.socket = s.channel.socket ∧ s₁.channel.buffer = s.channel.buffer

theorem Answers.settled {statement : Option Statement} {s : Session}
    {sent : EStateM.Result Halt Session (Option String)} {r : EStateM.Result Halt Session Reply}
    (h : Answers statement sent r) (hopen : s.isClosed = false)
    (hunsent : ∀ e s₁, sent = .error (.failed e) s₁ → Unsent s e s₁)
    (hsent : ∀ preparing s₁, sent = .ok preparing s₁ → Prepares s s₁) : Settled s r := by
  cases h with
  | @unsent e s₁ s₂ hend =>
      rcases hunsent e s₁ rfl with hfatal | ⟨⟨fault, rfl⟩, hclosed, hsocket, hbuffer⟩
      · rw [Ends, hfatal] at hend
        refine ⟨⟨fun _ => ⟨e, rfl, hfatal⟩, fun _ => hend.2⟩, ?_, ?_, ?_⟩
        · rintro _ ⟨⟩
          exact .inl hfatal
        · rintro (hr | ⟨_, hr⟩) <;> cases hr
          cases hfatal
        · rintro _ ⟨⟩
          cases hfatal
      · cases hend
        refine ⟨⟨fun hc => ?_, ?_⟩, ?_, ?_, ?_⟩
        · rw [hclosed, hopen] at hc
          cases hc
        · rintro ⟨_, ⟨⟩, hfatal⟩
          cases hfatal
        · rintro _ ⟨⟩
          exact .inr (.inr ⟨fault, rfl⟩)
        · rintro (hr | ⟨_, hr⟩) <;> cases hr
        · exact fun _ _ => ⟨hsocket, hbuffer⟩
  | @answered preparing s₁ c result hfollows hready hresult =>
      have hp := hsent preparing s₁ rfl
      have hstill : c.session.isClosed = false :=
        (hfollows.calm rfl).trans (hp.isClosed.trans hopen)
      refine ⟨⟨fun hc => ?_, ?_⟩, ?_, fun _ => hp.upToReady hready, ?_⟩
      · rw [hstill] at hc
        cases hc
      · rintro ⟨e, he, hfatal⟩
        rcases hresult with rfl | ⟨error, rfl⟩ <;> cases he
        cases hfatal
      · intro e he
        rcases hresult with rfl | ⟨error, rfl⟩ <;> cases he
        exact .inr (.inl ⟨error, rfl⟩)
      · intro fault he
        rcases hresult with rfl | ⟨error, rfl⟩ <;> cases he
  | @broken preparing s₁ s₂ c e hfollows hkeeps hclosed =>
      have hfatal := hfollows.fatal e rfl
      refine ⟨⟨fun _ => ⟨e, rfl, hfatal⟩, fun _ => hclosed⟩, ?_, ?_, ?_⟩
      · rintro _ ⟨⟩
        exact .inl hfatal
      · rintro (hr | ⟨_, hr⟩) <;> cases hr
        cases hfatal
      · rintro _ ⟨⟩
        cases hfatal
  | @waiting preparing s₁ c hfollows => exact ⟨rfl, hfollows.silent rfl⟩

theorem refused_settled {s : Session} {e : Error} {statement : Option Statement}
    (h : (s.isClosed = true ∧ e = .closed) ∨
      (s.isClosed = false ∧ ∃ fault, e = .statementCreation fault)) :
    Settled s (.ok (refused e statement) s) := by
  rcases h with ⟨hclosed, rfl⟩ | ⟨hopen, fault, rfl⟩
  · refine ⟨⟨fun _ => ⟨_, rfl, rfl⟩, fun _ => hclosed⟩, ?_, ?_, fun _ _ => ⟨rfl, rfl⟩⟩
    · rintro _ ⟨⟩
      exact .inl rfl
    · rintro (hr | ⟨_, hr⟩) <;> cases hr
  · refine ⟨⟨fun hc => ?_, ?_⟩, ?_, ?_, fun _ _ => ⟨rfl, rfl⟩⟩
    · rw [hopen] at hc
      cases hc
    · rintro ⟨_, ⟨⟩, hfatal⟩
      cases hfatal
    · rintro _ ⟨⟩
      exact .inr (.inr ⟨fault, rfl⟩)
    · rintro (hr | ⟨_, hr⟩) <;> cases hr

theorem query_settled (sql : String) (s : Session) : Settled s (query sql s) := by
  rcases query_refused_or_sent sql s with ⟨e, hrun, hcause⟩ | ⟨hopen, octets, hencode⟩
  · rw [hrun]
    exact refused_settled hcause
  · refine (query_answers hopen hencode).settled hopen ?_ ?_
    · intro e s₁ hsend
      rcases sendQuery_cases (s.drafts [.query sql] octets) with
        ⟨c, -, hok⟩ | ⟨e', c, -, hfatal, -, herror⟩
      · rw [hok] at hsend
        cases hsend
      · rw [herror] at hsend
        cases hsend
        exact .inl hfatal
    · intro preparing s₁ hsend
      rcases sendQuery_cases (s.drafts [.query sql] octets) with
        ⟨c, hflush, hok⟩ | ⟨e', c, -, -, -, herror⟩
      · rw [hok] at hsend
        cases hsend
        exact drafts_prepares s [.query sql] octets (Channel.flush_keeps.ok hflush)
      · rw [herror] at hsend
        cases hsend

theorem execute_settled (st : Statement) (parameters : List (Option Bytes)) (s : Session) :
    Settled s (execute st parameters s) := by
  cases hclosed : s.isClosed with
  | true =>
      rw [execute_of_closed hclosed]
      exact refused_settled (.inl ⟨hclosed, rfl⟩)
  | false =>
      have hsends := sendStatement_sends (s.readied st) parameters s
      refine (execute_answers hclosed st parameters).settled hclosed ?_ ?_
      · intro e s₁ hsend
        rw [hsend] at hsends
        cases hsends with
        | unclosed => exact .inr ⟨⟨_, rfl⟩, rfl, rfl, rfl⟩
        | refused => exact .inr ⟨⟨_, rfl⟩, rfl, rfl, rfl⟩
        | unwritten _ _ hfatal => exact .inl hfatal
      · intro preparing s₁ hsend
        rw [hsend] at hsends
        cases hsends with
        | written _ _ hkeeps =>
            have hp := drafts_prepares (s.emptied.named (s.readied st)) _ _ hkeeps
            exact ⟨hp.unread, hp.isClosed, hp.history⟩

theorem takeNotices_settled (wait : Option Nat) (s : Session) :
    SettledNotices (takeNotices wait s) := by
  have hnotices := takeNotices_notices wait s
  generalize takeNotices wait s = r at hnotices
  cases hnotices with
  | none hresult =>
      rcases hresult with ⟨hclosed, rfl⟩ | ⟨hopen, rfl⟩
      · exact ⟨fun _ => rfl, fun _ => hclosed⟩
      · exact hopen
  | taken hidles hopen => exact (hidles.mild nofun).trans hopen
  | waiting hidles => exact hidles.silent rfl
  | @failed s₁ s' e hidles hopen hend =>
      cases hfatal : e.isFatal with
      | true =>
          rw [Ends, hfatal] at hend
          exact ⟨fun _ => hfatal, fun _ => hend.2⟩
      | false =>
          rw [Ends, hfatal] at hend
          cases hend
          have hstill : s₁.isClosed = false :=
            (hidles.mild (by rintro _ ⟨⟩; exact ⟨e, rfl, hfatal⟩)).trans hopen
          refine ⟨fun hc => ?_, fun hf => ?_⟩
          · rw [hstill] at hc
            cases hc
          · rw [hfatal] at hf
            cases hf

/-- Whatever the server sends and whichever operations of the socket fail, a
call that comes back leaves the session closed exactly if it failed fatally; a
reply that was taken to be complete was read up to a well-formed ReadyForQuery
and not beyond; and a request that could not be put together has not touched the
socket. A call that does not come back waits on a channel that is silent for
good. -/
theorem calls_settled (s : Session) :
    (∀ sql, Settled s (query sql s)) ∧
      (∀ st parameters, Settled s (execute st parameters s)) ∧
      ∀ wait, SettledNotices (takeNotices wait s) :=
  ⟨fun sql => query_settled sql s, fun st parameters => execute_settled st parameters s,
    fun wait => takeNotices_settled wait s⟩

end PgClient.Session
