import PgClient.Proofs.Dispatch
import PgClient.Proofs.Readback
import PgClient.Proofs.Tidy

/-!
# No string ends early

A string on the wire ends at its first zero octet, so a text with a zero character would be cut
there. The client looks for one after a text is turned into octets, whatever the character set, and
what it finds is a zero character of the text and nothing else (`zero_mem_encode`): that decides
which messages can be put together (`encode_fails_iff`).

A statement is looked at once more, when it is made, but what is sent when it runs is another text,
and names come with it, in whatever character set the server speaks by then. So it takes an
invariant to say that a statement that was made can always be sent: `Statement.Clean` and
`Session.Clean` say that nothing a client holds has a zero character, and every call keeps it so.
`Statement.Attainable` and `Session.Attainable` are the statements and sessions that calls lead to.
They need each other, and the invariant is an induction over both at once.
-/

namespace PgClient

open Exchange FrontendMessage

/-! ## Texts and messages -/

/-- Under every character set, a zero octet stands for a zero character. -/
theorem Charset.zero_mem_encode (charset : Charset) (s : String) :
    0 ∈ charset.encode s ↔ '\x00' ∈ s.toList := by
  refine ⟨fun hzero => ?_, fun hzero => ?_⟩
  · by_contra hfree
    exact charset.encode_zero_free hfree hzero
  · cases charset with
    | utf8 | other => exact List.mem_flatMap.2 ⟨_, hzero, by decide⟩
    | latin1 | ascii => exact List.mem_map.2 ⟨_, hzero, rfl⟩

namespace FrontendMessage

variable {charset : Charset}

theorem zero_free_of_string {s : String} {octets : Bytes} (h : string charset s = .ok octets) :
    '\x00' ∉ s.toList :=
  fun hzero => (string_eq_ok h).1 ((charset.zero_mem_encode s).2 hzero)

/-- A message that was put together has no text with a zero character. -/
theorem texts_zero_free {m : FrontendMessage} {octets : Bytes} (h : m.encode charset = .ok octets) :
    ∀ text ∈ m.texts, '\x00' ∉ text.toList := by
  cases m with
  | startup parameters =>
      obtain ⟨pairs, hpairs, -⟩ := bind_eq_ok h
      intro text htext hzero
      obtain ⟨p, hp, htext⟩ := List.mem_flatMap.1 htext
      obtain ⟨hname, hvalue⟩ := (pairs_eq_ok hpairs).2 p hp
      simp only [List.mem_cons, List.not_mem_nil, or_false] at htext
      rcases htext with rfl | rfl
      · exact hname ((Charset.utf8.zero_mem_encode _).2 hzero)
      · exact hvalue ((Charset.utf8.zero_mem_encode _).2 hzero)
  | sslRequest | cancelRequest | terminate | password | sync | flush => exact List.forall_mem_nil _
  | cleartextPassword | query | describe | execute | close =>
      obtain ⟨_, htext, -⟩ := bind_eq_ok h
      exact List.forall_mem_singleton.2 (zero_free_of_string htext)
  | parse | bind =>
      obtain ⟨_, hfirst, h⟩ := bind_eq_ok h
      obtain ⟨_, hsecond, -⟩ := bind_eq_ok h
      exact List.forall_mem_cons.2
        ⟨zero_free_of_string hfirst, List.forall_mem_singleton.2 (zero_free_of_string hsecond)⟩

/-- A message cannot be put together exactly if one of its texts has a zero character. -/
theorem encode_fails_iff (charset : Charset) (m : FrontendMessage) :
    (∃ e, m.encode charset = .error e) ↔ ∃ text ∈ m.texts, '\x00' ∈ text.toList := by
  refine ⟨fun ⟨e, he⟩ => ?_, fun ⟨text, htext, hzero⟩ => ?_⟩
  · by_contra hfree
    have hencodes : ∃ octets, m.encode charset = .ok octets :=
      encode_of_zero_free fun text htext hzero => hfree ⟨text, htext, hzero⟩
    obtain ⟨octets, hok⟩ := hencodes
    rw [hok] at he
    cases he
  · cases h : m.encode charset with
    | error e => exact ⟨e, rfl⟩
    | ok octets => exact absurd hzero (texts_zero_free h text htext)

end FrontendMessage

/-! ## Statements that can be sent -/

/-- The text of a statement has no zero character, nor has its name. -/
structure Statement.Clean (st : Statement) : Prop where
  native : '\x00' ∉ st.native.toList
  name : ∀ name, st.name = some name → '\x00' ∉ name.toList

theorem Statement.ofKey_fails_iff (key : StatementKey) :
    (∃ e, Statement.ofKey key = .error e) ↔ '\x00' ∈ key.sql.toList := by
  rw [← List.contains_iff_mem]
  unfold Statement.ofKey
  split
  · next hzero => exact ⟨fun _ => hzero, fun _ => ⟨_, rfl⟩⟩
  · next hfree =>
    refine ⟨fun ⟨e, he⟩ => ?_, fun hzero => absurd hzero hfree⟩
    cases key <;> cases he

theorem Statement.ofKey_blames (key : StatementKey) {e : Error}
    (h : Statement.ofKey key = .error e) : e = .statementCreation .zeroInSql := by
  unfold Statement.ofKey at h
  split at h
  · cases h
    rfl
  · split at h <;> cases h

/-- Whatever is waiting to be closed and whatever is in the cache can be sent. -/
structure Ledger.Clean (l : Ledger) : Prop where
  resident : ∀ entry ∈ l.statements.entries, entry.2.Clean
  waiting : ∀ name ∈ l.pendingClose, '\x00' ∉ name.toList

/-- The same of what is known during a reply, with the statement that runs. -/
structure Accounts.Clean (a : Accounts) : Prop where
  statement : ∀ st, a.statement = some st → st.Clean
  ledger : a.ledger.Clean

def Session.Clean (s : Session) : Prop :=
  s.ledger.Clean

/-- No message of a reply brings in a zero character: the only name a statement gets is the one it
was offered. -/
theorem Accounts.Clean.foldl {a : Accounts} (ha : a.Clean) {preparing : Option String}
    (hpreparing : ∀ name, preparing = some name → '\x00' ∉ name.toList) (f : Bool)
    (ms : List BackendMessage) : (ms.foldl (Accounts.on preparing f) a).Clean := by
  refine Accounts.foldl_keeps ha (fun _ a ha => ?_) (fun a ha => ⟨fun st hst => ?_, ha.ledger⟩)
    (fun _ a ha => ?_) fun _ _ a ha => ⟨ha.statement, List.forall_mem_nil _, List.forall_mem_nil _⟩
  · refine ⟨fun st hst => ?_, by rw [Accounts.parsed_ledger]; exact ha.ledger⟩
    rcases Accounts.statement_of_parsed hst with hst | ⟨name, st', hname, hst', rfl⟩
    · exact ha.statement st hst
    · refine ⟨(ha.statement st' hst').native, ?_⟩
      rintro _ ⟨⟩
      exact hpreparing name hname
  · obtain ⟨st', hst', rfl⟩ := Option.map_eq_some_iff.1 hst
    exact ⟨(ha.statement st' hst').native, (ha.statement st' hst').name⟩
  · refine ⟨fun st hst => ?_, ?_, fun name hname => ?_⟩
    · obtain ⟨-, hst | ⟨st', hst', rfl⟩⟩ := Accounts.statement_of_unprepared hst
      · exact ha.statement st hst
      · exact ⟨(ha.statement st' hst').native, nofun⟩
    · rw [Accounts.unprepared_statements]
      exact ha.ledger.resident
    · rcases Accounts.waiting_of_unprepared hname with hname | ⟨st, hst, hname⟩
      · exact ha.ledger.waiting name hname
      · exact (ha.statement st hst).name name hname

namespace Session

variable {s : Session} {st : Statement}

theorem Clean.of_ledger (h : s.Clean) {s' : Session} (hledger : s'.ledger = s.ledger) :
    s'.Clean := by
  unfold Clean
  rw [hledger]
  exact h

/-! ## What a call keeps -/

theorem readied_clean (h : st.Clean) : (s.readied st).Clean := by
  obtain ⟨hnative, -, hname, -⟩ := World.readied_face s st
  refine ⟨hnative ▸ h.native, fun name hst => h.name name ?_⟩
  rw [hname] at hst
  exact (Option.filter_eq_some_iff.1 hst).1

theorem Clean.closable (h : s.Clean) :
    ∃ closing, s.closings.mapM (encode s.channel.charset) = .ok closing := by
  refine mapM_ok fun m hm => encode_of_zero_free ?_
  obtain ⟨name, hname, rfl⟩ := List.mem_map.1 hm
  exact List.forall_mem_singleton.2 (h.waiting name hname)

/-- What is sent for a statement can be put together. -/
theorem Clean.sends (h : s.Clean) (hst : st.Clean) (parameters : List (Option Bytes)) :
    (final (sendStatement (s.readied st) parameters s)).Clean ∧
      (∀ name, offer (sendStatement (s.readied st) parameters s) = some name →
        '\x00' ∉ name.toList) ∧
      ∀ e s', sendStatement (s.readied st) parameters s = .error (.failed e) s' →
        e.isFatal = true := by
  have hready := readied_clean (s := s) hst
  have hrunnable := running_encode (s := s) parameters hready.native hready.name
  have hsends := sendStatement_sends (s.readied st) parameters s
  obtain ⟨-, -, -, hledger, -, hoffer⟩ := hsends.whole h.closable hrunnable
  have hemptied : (s.emptied.named (s.readied st)).Clean := ⟨h.resident, List.forall_mem_nil _⟩
  refine ⟨hemptied.of_ledger hledger, fun name hname => ?_, fun e s' hsent => ?_⟩
  · cases hhalt : halt? (sendStatement (s.readied st) parameters s) with
    | none =>
        rw [hoffer hhalt] at hname
        exact offered_zero_free (Option.filter_eq_some_iff.1 hname).1
    | some halt =>
        generalize sendStatement (s.readied st) parameters s = sent at hname hhalt
        cases sent with
        | ok => cases hhalt
        | error => cases hname
  · rw [hsent] at hsends
    cases hsends with
    | unclosed hsent hfails =>
        obtain ⟨closing, hclosing⟩ := h.closable
        rw [hclosing] at hfails
        cases hfails
    | refused hclosing hsent hfails =>
        obtain ⟨run, hrun⟩ := hrunnable
        rw [hrun] at hfails
        cases hfails
    | unwritten hclosing hrun hfatal => exact hfatal

/-- A reply leaves nothing behind that cannot be sent. -/
theorem heard_clean {statement : Option Statement}
    {sent : EStateM.Result Halt Session (Option String)} {r : EStateM.Result Halt Session Reply}
    (hanswers : Answers statement sent r) (hst : ∀ st, statement = some st → st.Clean)
    (hsent : (final sent).Clean)
    (hoffer : ∀ name, offer sent = some name → '\x00' ∉ name.toList) :
    (final r).Clean ∧
      ∀ reply s', r = .ok reply s' → ∀ st, reply.statement = some st → st.Clean := by
  obtain ⟨events, a, hhears⟩ := hanswers.hears
  have ha : a.Clean := by
    rw [hhears.accounts]
    exact Accounts.Clean.foldl (a := ⟨statement, (final sent).ledger⟩) ⟨hst, hsent⟩ hoffer _ _
  refine ⟨?_, fun reply s' hr st hst => ha.statement st ?_⟩
  · unfold Clean
    rw [hhears.ledger]
    exact ha.ledger
  · rw [← hhears.reply reply s' hr, hst]

theorem Clean.execute (h : s.Clean) (hst : st.Clean) (parameters : List (Option Bytes)) :
    (final (execute st parameters s)).Clean ∧
      ∀ reply s', execute st parameters s = .ok reply s' →
        ∀ st', reply.statement = some st' → st'.Clean := by
  cases hclosed : s.isClosed with
  | true =>
      rw [execute_of_closed hclosed]
      refine ⟨h, ?_⟩
      rintro _ _ ⟨⟩ _ ⟨⟩
      exact hst
  | false =>
      obtain ⟨hsent, hoffer, -⟩ := h.sends hst parameters
      refine heard_clean (execute_answers hclosed st parameters) ?_ hsent hoffer
      rintro _ ⟨⟩
      exact readied_clean hst

/-- A request that could be sent does not fail for what the caller gave. -/
theorem Answers.kinds {statement : Option Statement}
    {sent : EStateM.Result Halt Session (Option String)} {reply : Reply} {s' : Session}
    (h : Answers statement sent (.ok reply s'))
    (hsent : ∀ e s₁, sent = .error (.failed e) s₁ → e.isFatal = true) {e : Error}
    (he : reply.result = .error e) : e.isFatal = true ∨ ∃ error, e = .server error := by
  cases h with
  | unsent =>
      cases he
      exact .inl (hsent e _ rfl)
  | answered hfollows hready hresult =>
      rcases hresult with rfl | ⟨error, rfl⟩ <;> cases he
      exact .inr ⟨error, rfl⟩
  | broken hfollows =>
      cases he
      exact .inl (hfollows.fatal e rfl)

/-- A statement that can be sent runs, or it fails for another reason. -/
theorem Clean.execute_kinds (h : s.Clean) (hst : st.Clean) {parameters : List (Option Bytes)}
    {reply : Reply} {s' : Session} (hrun : Session.execute st parameters s = .ok reply s')
    {e : Error} (he : reply.result = .error e) :
    e = .closed ∨ e.isFatal = true ∨ ∃ error, e = .server error := by
  cases hclosed : s.isClosed with
  | true =>
      rw [execute_of_closed hclosed] at hrun
      cases hrun
      cases he
      exact .inl rfl
  | false =>
      have hanswers := execute_answers hclosed st parameters
      rw [hrun] at hanswers
      exact .inr (hanswers.kinds (h.sends hst parameters).2.2 he)

theorem execute_error {halt : Halt} {parameters : List (Option Bytes)} {s' : Session}
    (hrun : execute st parameters s = .error halt s') : halt = .waiting := by
  cases hclosed : s.isClosed with
  | true =>
      rw [execute_of_closed hclosed] at hrun
      cases hrun
  | false =>
      have hanswers := execute_answers hclosed st parameters
      rw [hrun] at hanswers
      exact hanswers.error

theorem Clean.query (h : s.Clean) (sql : String) : (final (query sql s)).Clean := by
  rcases query_refused_or_sent sql s with ⟨e, hrun, -⟩ | ⟨hopen, octets, hencode⟩
  · rw [hrun]
    exact h
  · obtain ⟨-, -, -, hledger, -, hoffer⟩ := sendQuery_asides s sql octets
    refine (heard_clean (query_answers hopen hencode) nofun (h.of_ledger hledger) ?_).1
    rw [hoffer]
    nofun

/-- A statement that was made has no name yet, and its text was looked at. -/
theorem made_clean {key : StatementKey}
    (h : (Statement.ofKey key).mapError Cache.creationError = .ok st) : st.Clean := by
  refine ⟨(World.ofKey_made h).2, fun name hname => ?_⟩
  rw [World.ofKey_name h] at hname
  cases hname

theorem Clean.borrow (h : s.Clean) (key : StatementKey) :
    (final (borrowStatement key s)).Clean ∧
      ∀ st s', borrowStatement key s = .ok st s' → st.Clean := by
  rw [World.borrowStatement_apply]
  cases hget : s.statements.get? key with
  | none =>
      refine ⟨?_, fun st s' hst => made_clean (lift_eq_ok hst)⟩
      rw [final_lift]
      exact h
  | some st =>
      refine ⟨⟨fun entry hentry => h.resident entry ?_, h.waiting⟩, ?_⟩
      · have hentry : entry ∈ (s.statements.erase key).entries := hentry
        rw [Cache.erase_entries hget] at hentry
        exact (List.mem_filter.1 hentry).1
      · rintro _ _ ⟨⟩
        obtain ⟨entry, hentry, rfl⟩ := Option.map_eq_some_iff.1 hget
        exact h.resident entry (List.mem_of_find?_eq_some hentry)

/-- What a cache gives up or keeps was in it, or was handed to it. -/
theorem put_clean {statements : Cache StatementKey Statement}
    (h : ∀ entry ∈ statements.entries, entry.2.Clean) (key : StatementKey) (hst : st.Clean) :
    (∀ given ∈ (statements.put key st).1, given.Clean) ∧
      ∀ entry ∈ (statements.put key st).2.entries, entry.2.Clean := by
  cases hadmits : statements.admits (statements.sizeOf st) with
  | false =>
      rw [Cache.put_of_refused hadmits]
      exact ⟨List.forall_mem_singleton.2 hst, h⟩
  | true =>
      obtain ⟨gone, hsplit, hgiven⟩ := Cache.put_of_admitted key hadmits
      have hall : ∀ entry ∈ gone ++ (statements.put key st).2.entries, entry.2.Clean := by
        rw [← hsplit]
        exact List.forall_mem_append.2 ⟨fun entry hentry => h entry (List.mem_filter.1 hentry).1,
          List.forall_mem_singleton.2 hst⟩
      obtain ⟨hgone, hkept⟩ := List.forall_mem_append.1 hall
      refine ⟨?_, hkept⟩
      rw [hgiven]
      refine List.forall_mem_append.2 ⟨fun given hmem => ?_, List.forall_mem_map.2 hgone⟩
      obtain ⟨entry, hentry, rfl⟩ := Option.map_eq_some_iff.1 (Option.mem_toList.1 hmem)
      exact h entry (List.mem_of_find?_eq_some hentry)

theorem Clean.release (h : s.Clean) (hst : st.Clean) :
    (final (releaseStatement st s)).Clean := by
  rcases hput : s.statements.put st.key st with ⟨given, statements⟩
  obtain ⟨journal, asides, hrun, -⟩ := World.releaseStatement_apply hput
  obtain ⟨hgiven, hkept⟩ := put_clean h.resident st.key hst
  rw [show s.ledger.statements.put st.key st = _ from hput] at hgiven hkept
  rw [hrun]
  refine ⟨hkept, List.forall_mem_append.2 ⟨h.waiting, fun name hname => ?_⟩⟩
  obtain ⟨gone, hgone, hname⟩ := List.mem_filterMap.1 hname
  exact (hgiven gone hgone).name name hname

theorem Clean.takeNotices (h : s.Clean) (wait : Option Nat) :
    (final (takeNotices wait s)).Clean := by
  have hnotices := takeNotices_notices wait s
  generalize Session.takeNotices wait s = r at hnotices
  cases hnotices with
  | none =>
      rw [final_lift]
      exact h
  | taken hidles | waiting hidles => exact h.of_ledger hidles.ledger
  | failed hidles hopen hend => exact h.of_ledger (hend.keeps.ledger.trans hidles.ledger)

end Session

/-! ## What calls lead to -/

mutual

/-- A session that a client can come to have, whatever the server sends and whichever character set
it switches to. -/
inductive Session.Attainable : Session → Prop where
  | fresh {s : Session} (h : s.IsFresh) : Session.Attainable s
  | borrow {s : Session} (h : Session.Attainable s) (key : StatementKey) :
      Session.Attainable (final (Session.borrowStatement key s))
  | release {s : Session} {st : Statement} (h : Session.Attainable s)
      (hst : Statement.Attainable st) :
      Session.Attainable (final (Session.releaseStatement st s))
  | query {s : Session} (h : Session.Attainable s) (sql : String) :
      Session.Attainable (final (Session.query sql s))
  | execute {s : Session} {st : Statement} (h : Session.Attainable s)
      (hst : Statement.Attainable st) (parameters : List (Option Bytes)) :
      Session.Attainable (final (Session.execute st parameters s))
  | takeNotices {s : Session} (h : Session.Attainable s) (wait : Option Nat) :
      Session.Attainable (final (Session.takeNotices wait s))
  | close {s : Session} (h : Session.Attainable s) : Session.Attainable (final (Session.close s))
  | abort {s : Session} (h : Session.Attainable s) : Session.Attainable (final (Session.abort s))
  /-- Anything may happen to it that has nothing to do with statements. -/
  | aside {s s' : Session} (h : Session.Attainable s) (hledger : s'.ledger = s.ledger) :
      Session.Attainable s'

/-- A statement that a client can come to have. It may be copied, and it may be run in, and handed
back to, another session than the one it is from. -/
inductive Statement.Attainable : Statement → Prop where
  | borrowed {s s' : Session} {key : StatementKey} {st : Statement} (h : Session.Attainable s)
      (hst : Session.borrowStatement key s = .ok st s') : Statement.Attainable st
  | created {s s' : Session} {key : StatementKey} {st : Statement}
      (hst : Session.createStatement key s = .ok st s') : Statement.Attainable st
  | fetching {st : Statement} (h : Statement.Attainable st) (rows : Int) :
      Statement.Attainable { st with fetchSize := rows }
  | ran {s s' : Session} {st st' : Statement} {parameters : List (Option Bytes)} {reply : Reply}
      (h : Session.Attainable s) (hst : Statement.Attainable st)
      (hrun : Session.execute st parameters s = .ok reply s') (hst' : reply.statement = some st') :
      Statement.Attainable st'

end

mutual

theorem Session.Attainable.clean {s : Session} (h : s.Attainable) : s.Clean := by
  match h with
  | .fresh h =>
      refine ⟨?_, ?_⟩
      · show ∀ entry ∈ s.statements.entries, _
        rw [h.statements]
        exact List.forall_mem_nil _
      · show ∀ name ∈ s.pendingClose, _
        rw [h.pendingClose]
        exact List.forall_mem_nil _
  | .borrow h key => exact (h.clean.borrow key).1
  | .release h hst => exact h.clean.release hst.clean
  | .query h sql => exact h.clean.query sql
  | .execute h hst parameters => exact (h.clean.execute hst.clean parameters).1
  | .takeNotices h wait => exact h.clean.takeNotices wait
  | .close h => exact h.clean.of_ledger (Session.close_keeps _).ledger
  | .abort h => exact h.clean.of_ledger (Session.abort_keeps _).ledger
  | .aside h hledger => exact h.clean.of_ledger hledger

theorem Statement.Attainable.clean {st : Statement} (h : st.Attainable) : st.Clean := by
  match h with
  | .borrowed h hst => exact (h.clean.borrow _).2 _ _ hst
  | .created hst =>
      rw [World.createStatement_apply] at hst
      exact Session.made_clean (lift_eq_ok hst)
  | .fetching h rows => exact ⟨h.clean.native, h.clean.name⟩
  | .ran h hst hrun hst' => exact (h.clean.execute hst.clean _).2 _ _ hrun _ hst'

end

/-- A zero octet is a zero character. So a message is refused exactly for one of its texts, and a
statement for the text of its key, always as the caller's fault; and once a statement was made, it
is never refused again, wherever it runs. -/
theorem strings_whole :
    (∀ (charset : Charset) (s : String), 0 ∈ charset.encode s ↔ '\x00' ∈ s.toList) ∧
    (∀ (charset : Charset) (m : FrontendMessage),
      ((∃ e, m.encode charset = .error e) ↔ ∃ text ∈ m.texts, '\x00' ∈ text.toList) ∧
      ∀ e, m.encode charset = .error e → ∃ fault, e = .statementCreation fault) ∧
    (∀ key : StatementKey,
      ((∃ e, Statement.ofKey key = .error e) ↔ '\x00' ∈ key.sql.toList) ∧
      ∀ e, Statement.ofKey key = .error e → ∃ fault, e = .statementCreation fault) ∧
    ∀ (s : Session) (st : Statement) (parameters : List (Option Bytes)),
      s.Attainable → st.Attainable →
      (∀ reply s', Session.execute st parameters s = .ok reply s' →
        ∀ fault, reply.result ≠ .error (.statementCreation fault)) ∧
      ∀ halt s', Session.execute st parameters s = .error halt s' → halt = .waiting := by
  refine ⟨Charset.zero_mem_encode,
    fun charset m => ⟨encode_fails_iff charset m, encode_blames charset m⟩,
    fun key => ⟨Statement.ofKey_fails_iff key, fun e he => ⟨_, Statement.ofKey_blames key he⟩⟩,
    fun s st parameters hs hst => ?_⟩
  refine ⟨fun reply s' hrun fault hresult => ?_, fun halt s' => Session.execute_error⟩
  rcases hs.clean.execute_kinds hst.clean hrun hresult with h | h | ⟨_, h⟩ <;> cases h

/-- A session whose server has switched to a set of one octet a character. -/
def latinSession : Session :=
  { Session.sampleSession with
    channel := { Session.sampleSession.channel with charset := .latin1 } }

theorem strings_whole_call :
    ∃ st reply s', Session.createStatement (.call "{? = call größe($1)}") latinSession =
        .ok st latinSession ∧
      st.native = "select * from größe($1)" ∧
      Session.execute st [none] latinSession = .ok reply s' ∧
      ∀ fault, reply.result ≠ .error (.statementCreation fault) := by
  have hs : latinSession.Attainable :=
    .aside (.fresh (s := Session.sampleSession) ⟨rfl, rfl, rfl⟩) rfl
  obtain ⟨st, hst, hnative, hends⟩ : ∃ st,
      Session.createStatement (.call "{? = call größe($1)}") latinSession =
        .ok st latinSession ∧
      st.native = "select * from größe($1)" ∧
      halt? (Session.execute st [none] latinSession) = none :=
    ⟨_, rfl, by decide +kernel, by decide +kernel⟩
  have hexecutes := (strings_whole.2.2.2 latinSession st [none] hs (.created hst)).1
  cases hrun : Session.execute st [none] latinSession with
  | error halt s' =>
      rw [hrun] at hends
      cases hends
  | ok reply s' => exact ⟨st, reply, s', hst, hnative, hrun, hexecutes reply s' hrun⟩

end PgClient
