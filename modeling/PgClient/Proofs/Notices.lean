import PgClient.Proofs.Request
import PgClient.Session.Notifications

/-!
# What arrives between requests

Messages that arrive while no request is under way are asides without exception:
none of them means anything for the names of statements. An error the server
reports at such a moment is passed on, and the session lives on; everything else
that can go wrong is fatal, as it is within a reply.
-/

namespace PgClient

open Exchange

namespace Channel

theorem awaitOctet_reading (wait : Nat) : Obeys Reading (awaitOctet wait) := by
  intro c
  unfold awaitOctet
  rw [bind_of_ok (modifyGet_apply _ c)]
  rcases h : takeExactly 1 c with ⟨_ | octets, c'⟩
  · rcases Nat.lt_or_ge c.unread.length 1 with hlt | hge
    · rw [takeExactly_short hlt] at h
      obtain rfl := (Prod.mk.inj h).2
      simp only []
      rw [bind_of_ok (get_apply _)]
      split
      · exact (exhausted_readsOff c).reading
      · exact exhausted_runDry_reading c
    · obtain ⟨c₁, h₁, -⟩ := takeExactly_append (List.take_append_drop 1 c.unread).symm
      rw [List.length_take_of_le hge, h] at h₁
      cases (Prod.mk.inj h₁).1
  · exact (takeExactly_some h).2.reading

end Channel

namespace Session

/-- What reading between requests may do. -/
structure Idles (s : Session) (h : Option Halt) (s' : Session) : Prop where
  ledger : s'.ledger = s.ledger
  options : s'.options = s.options
  forgets : s'.forgetsOnDrop = s.forgetsOnDrop
  history : ∃ events, s'.history = s.history ++ events ∧ ∀ e ∈ events, e.isAside = true ∨
    ∃ m, e.message? = some m ∧ Phase.idle.accepts m.tag = true
  quiet : s'.isClosed = false → s.isClosed = false ∧ s'.channel.outgoing = s.channel.outgoing ∧
    s'.channel.socket.sent = s.channel.socket.sent
  mild : (∀ x, h = some x → ∃ e, x = .failed e ∧ e.isFatal = false) → s'.isClosed = s.isClosed
  silent : h = some .waiting → s'.channel.Silent

theorem idles_composes : Composes Idles where
  refl s := ⟨rfl, rfl, rfl, ⟨[], (List.append_nil _).symm, List.forall_mem_nil _⟩,
    fun h => ⟨h, rfl, rfl⟩, fun _ => rfl, nofun⟩
  trans := by
    intro s t u h hst htu
    obtain ⟨es, hes, hkind⟩ := hst.history
    obtain ⟨fs, hfs, hkind'⟩ := htu.history
    refine ⟨htu.ledger.trans hst.ledger, htu.options.trans hst.options,
      htu.forgets.trans hst.forgets, ⟨es ++ fs, ?_, ?_⟩, fun hopen => ?_,
      fun hm => (htu.mild hm).trans (hst.mild nofun), htu.silent⟩
    · rw [hfs, hes, List.append_assoc]
    · intro x hx
      exact (List.mem_append.1 hx).elim (hkind x) (hkind' x)
    · obtain ⟨ht, hout, hsent⟩ := htu.quiet hopen
      obtain ⟨hs, hout', hsent'⟩ := hst.quiet ht
      exact ⟨hs, hout.trans hout', hsent.trans hsent'⟩

theorem Aside.idles {s s' : Session} {h : Option Halt} (ha : Aside s h s') : Idles s h s' := by
  obtain ⟨events, hevents, haside⟩ := ha.keeps.channel.history
  refine ⟨ha.keeps.ledger, ha.keeps.options, ha.keeps.forgets,
    ⟨events, hevents, fun e he => .inl (haside e he)⟩, ha.quiet, fun hm => ?_, fun hw => ?_⟩
  · cases h with
    | none => exact ha.calm rfl
    | some x =>
        obtain ⟨e, rfl, hfatal⟩ := ha.fatal x rfl
        obtain ⟨e', he', hmild⟩ := hm _ rfl
        cases he'
        rw [hfatal] at hmild
        cases hmild
  · obtain ⟨e, he, -⟩ := ha.fatal _ hw
    cases he

theorem idles_of_reading {s : Session} {h : Option Halt} {c : Channel}
    (hr : Channel.Reading s.channel h c) : Idles s h { s with channel := c } := by
  obtain ⟨octets, hoff⟩ := hr.reads
  refine ⟨rfl, rfl, rfl, ⟨[], ?_, List.forall_mem_nil _⟩,
    fun hopen => ⟨hopen, hoff.outgoing, hoff.sent⟩, fun _ => rfl, hr.silent⟩
  rw [List.append_nil]
  exact congrArg Array.toList hoff.journal

theorem receiveAfter_idles (octet : UInt8) (detail : Bool) :
    Obeys Idles (onChannel (Channel.receiveAfter .idle octet detail)) := by
  intro s
  rw [onChannel_apply]
  cases h : Channel.receiveAfter .idle octet detail s.channel with
  | error halt c => exact idles_of_reading (Channel.receiveAfter_error (by decide) h)
  | ok m c =>
      obtain ⟨-, haccepts, c₁, hread, rfl⟩ := Channel.receiveAfter_ok (by decide) h
      have hr := idles_of_reading (Channel.receiveMessage_reading _ |>.ok hread)
      refine idles_composes.trans hr ⟨rfl, rfl, rfl, ⟨[.received m detail], ?_, ?_⟩,
        fun hopen => ⟨hopen, rfl, rfl⟩, fun _ => rfl, nofun⟩
      · exact c₁.history_told _
      · intro e he
        rw [List.mem_singleton.1 he]
        exact .inr ⟨m, rfl, haccepts⟩

theorem takeIdle_idles (m : BackendMessage) : Obeys Idles (takeIdle m) := by
  intro s
  cases m with
  | notificationResponse notification => exact (onNotification_aside notification s).idles
  | noticeResponse report => exact (onWarning_aside report s).idles
  | parameterStatus name value => exact (onParameter_aside name value s).idles
  | errorResponse report =>
      obtain ⟨e, s', hs', -, ha⟩ := onError_ok report s
      have hrun : takeIdle (.errorResponse report) s = .error (.failed (.server e)) s' :=
        bind_of_ok hs'
      rw [hrun]
      exact ⟨ha.idles.ledger, ha.idles.options, ha.idles.forgets, ha.idles.history, ha.quiet,
        fun _ => ha.calm rfl, nofun⟩
  | _ => exact idles_composes.refl s

/-- What goes for the reading of a message and for what is made of it goes for the next one. -/
theorem noticeNext_obeys {R : Session → Option Halt → Session → Prop} (hR : Composes R)
    (wait : Nat) (hawait : Obeys R (onChannel (Channel.awaitOctet wait)))
    (hafter : ∀ octet detail, Obeys R (onChannel (Channel.receiveAfter .idle octet detail)))
    (htake : ∀ m, Obeys R (takeIdle m)) : Obeys R (noticeNext wait) := by
  refine hR.bind hawait fun octet => ?_
  cases octet with
  | none => exact hR.pure true
  | some octet =>
      refine hR.bind hR.get fun s => hR.bind (hafter octet _) fun m => ?_
      exact (htake m).followed false

theorem takeArriving_succ (wait rounds : Nat) :
    takeArriving wait (rounds + 1) = (do unless ← noticeNext wait do takeArriving wait rounds) :=
  rfl

theorem takeArriving_idles (wait rounds : Nat) : Obeys Idles (takeArriving wait rounds) := by
  have hawait : Obeys Idles (onChannel (Channel.awaitOctet wait)) :=
    (Channel.awaitOctet_reading wait).zoom fun _ _ _ hr => idles_of_reading hr
  exact idles_composes.loop (takeArriving_succ wait) (idles_composes.pure ())
    (noticeNext_obeys idles_composes wait hawait receiveAfter_idles takeIdle_idles) rounds

/-! ## When messages are read -/

theorem takeNotices_of_closed {s : Session} (hclosed : s.isClosed = true) (wait : Option Nat) :
    takeNotices wait s = .error (.failed .closed) s := by
  have hensure : ensureOpen s = .error (.failed .closed) s := by
    unfold ensureOpen
    rw [bind_of_ok (get_apply s), hclosed]
    rfl
  unfold takeNotices
  rw [bind_of_error hensure]

theorem takeNotices_of_open {wait : Option Nat} {s : Session} (hopen : s.isClosed = false) :
    takeNotices wait s =
      if s.status.transaction ≠ .idle then .ok () s
      else (do
        let result ← (takeArriving (wait.getD 0) (s.channel.unread.length + 1)).attempt
        checkFatal result
        Exchange.lift result : Exchange Session Unit) s := by
  have hensure : ensureOpen s = .ok () s := by
    unfold ensureOpen
    rw [bind_of_ok (get_apply s), hopen]
    rfl
  unfold takeNotices
  rw [bind_of_ok hensure, bind_of_ok (get_apply s)]
  split
  · rfl
  · rw [bind_of_ok (get_apply s)]

/-- Nothing is read within a transaction. -/
theorem takeNotices_of_busy {s : Session} (wait : Option Nat) (hopen : s.isClosed = false)
    (h : s.status.transaction ≠ .idle) : takeNotices wait s = .ok () s := by
  rw [takeNotices_of_open hopen, if_pos h]

theorem takeNotices_of_idle {s : Session} (hopen : s.isClosed = false)
    (hidle : s.status.transaction = .idle) (wait : Option Nat) :
    takeNotices wait s =
      ((takeArriving (wait.getD 0) (s.channel.unread.length + 1)).attempt >>= fun result => do
        checkFatal result
        lift result) s := by
  rw [takeNotices_of_open hopen, if_neg (by simp [hidle])]

/-! ## How a reading ends -/

/-- How the reading between requests ends. -/
inductive Notices (s : Session) : EStateM.Result Halt Session Unit → Prop where
  /-- The session has ended, or a transaction is open. -/
  | none {result : Except Error Unit}
      (hresult : (s.isClosed = true ∧ result = .error .closed) ∨
        (s.isClosed = false ∧ result = .ok ())) : Notices s (lift result s)
  /-- All that arrived was taken in. -/
  | taken {s' : Session} (hidles : Idles s none s') (hopen : s.isClosed = false) :
      Notices s (.ok () s')
  /-- Something went wrong, or an error was reported. -/
  | failed {s₁ s' : Session} {e : Error} (hidles : Idles s (some (.failed e)) s₁)
      (hopen : s.isClosed = false) (hend : Ends e s₁ s') : Notices s (.error (.failed e) s')
  /-- The rest of a message will never arrive, and nothing will end the wait. -/
  | waiting {s' : Session} (hidles : Idles s (some .waiting) s') : Notices s (.error .waiting s')

theorem takeNotices_notices (wait : Option Nat) (s : Session) :
    Notices s (takeNotices wait s) := by
  cases hclosed : s.isClosed with
  | true =>
      rw [takeNotices_of_closed hclosed]
      exact .none (.inl ⟨hclosed, rfl⟩)
  | false =>
      rw [takeNotices_of_open hclosed]
      split
      · exact .none (.inr ⟨hclosed, rfl⟩)
      · rw [bind_apply, attempt_apply]
        have hidles := takeArriving_idles (wait.getD 0) (s.channel.unread.length + 1) s
        cases hrun : takeArriving (wait.getD 0) (s.channel.unread.length + 1) s with
        | ok _ s' =>
            rw [hrun] at hidles
            exact .taken hidles hclosed
        | error halt s₁ =>
            rw [hrun] at hidles
            cases halt with
            | waiting => exact .waiting hidles
            | failed e =>
                obtain ⟨s', hs', hends⟩ := checkFatal_ends (α := Unit) e s₁
                simp only []
                rw [bind_of_ok hs']
                exact .failed hidles hclosed hends

end Session

end PgClient
