import PgClient.Proofs.Causes
import PgClient.Proofs.Keys

/-!
# What a call does to the statements there are

The books of a run are sound as long as the server acknowledges one Parse a call. What is said
here is true of any server. A call does one of three things to statements: it moves them about,
between the caller and the cache or out of reach; it sends a query, which runs none of them; or
it runs one. In the first case nothing is heard that matters to names, and in the other two
everything that happens is what `Accounts.on` makes of the messages heard. `Effect` is these three
cases, and whatever holds of every run is an induction over it.
-/

namespace PgClient

open Exchange FrontendMessage

/-! ## Texts that can be sent -/

theorem trim_sublist (cs : List Char) : (trim cs).Sublist cs := by
  have hright : ∀ cs : List Char, (trimRight cs).Sublist cs := by
    intro cs
    have := (List.dropWhile_sublist (l := cs.reverse) isBlank).reverse
    rwa [List.reverse_reverse] at this
  exact (hright _).trans (List.dropWhile_sublist _)

namespace CallEscape

theorem afterCall?_sublist {cs rest : List Char} (h : afterCall? cs = some rest) :
    rest.Sublist cs := by
  unfold afterCall? at h
  split at h
  · cases h
    exact List.drop_sublist 4 cs
  · cases h

theorem withoutResult_sublist (cs : List Char) : (withoutResult cs).Sublist cs := by
  unfold withoutResult
  split
  · have hdrop : ∀ {p : Char → Bool} {cs : List Char}, (cs.dropWhile p).Sublist cs :=
      List.dropWhile_sublist _
    exact (hdrop.trans (hdrop.trans hdrop)).cons _
  · exact .refl _

theorem inner?_sublist {cs inner : List Char} (h : inner? cs = some inner) :
    inner.Sublist cs := by
  unfold inner? at h
  split at h
  · split at h
    · cases h
      exact ((trim_sublist _).trans (List.dropLast_sublist _)).cons _
    · cases h
  · cases h

/-- The query for a call has no character that is neither its own nor of the call. -/
theorem toQuery_chars (sql : String) :
    ∀ c ∈ (toQuery sql).toList, c ∈ "select * from ".toList ∨ c ∈ sql.toList := by
  intro c hc
  unfold toQuery at hc
  simp only [] at hc
  split at hc
  · next rest hrest =>
      simp only [String.toList_append, List.mem_append, String.toList_ofList] at hc
      refine hc.imp_right fun hc => ?_
      obtain ⟨inner, hinner, hafter⟩ := Option.bind_eq_some_iff.1 hrest
      have hcall := (withoutResult_sublist inner).trans
        ((inner?_sublist hinner).trans (trim_sublist _))
      exact ((trim_sublist rest).trans ((afterCall?_sublist hafter).trans hcall)).subset hc
  · rw [String.toList_ofList] at hc
    exact .inr ((trim_sublist _).subset hc)

end CallEscape

namespace World

theorem ofKey_made {key : StatementKey} {st : Statement}
    (h : (Statement.ofKey key).mapError Cache.creationError = .ok st) :
    st.executions = 0 ∧ '\x00' ∉ st.native.toList := by
  unfold Statement.ofKey at h
  split at h
  · cases h
  · next hfree =>
      have hfree : '\x00' ∉ key.sql.toList := fun hzero => hfree (List.contains_iff_mem.2 hzero)
      cases key with
      | call sql =>
          cases h
          refine ⟨rfl, fun hzero => ?_⟩
          rcases CallEscape.toQuery_chars sql _ hzero with hzero | hzero
          · exact absurd hzero (by decide)
          · exact hfree hzero
      | parameterized | plain | returning =>
          cases h
          exact ⟨rfl, hfree⟩

end World

namespace Session

theorem offered_zero_free {s : Session} {st : Statement} {name : String}
    (h : s.offered st = some name) : '\x00' ∉ name.toList := by
  obtain ⟨-, rfl | ⟨rfl, -⟩⟩ := offered_some h
  · decide
  · exact Issued.zero_free ⟨s.nextName, Nat.lt_succ_self _, rfl⟩

/-- Nothing is in the way of a statement whose text and name have no zero character. -/
theorem running_encode {s : Session} {st : Statement} (parameters : List (Option Bytes))
    (hnative : '\x00' ∉ st.native.toList)
    (hname : ∀ name, st.name = some name → '\x00' ∉ name.toList) :
    ∃ run, (s.running st parameters).mapM (encode s.channel.charset) = .ok run := by
  have hempty : '\x00' ∉ "".toList := by decide
  have hbound : '\x00' ∉ ((st.name.or (s.offered st)).getD "").toList := by
    cases hst : st.name with
    | some name => exact hname name hst
    | none =>
        cases hoffered : s.offered st with
        | none => exact hempty
        | some name => exact offered_zero_free hoffered
  refine mapM_ok fun m hm => encode_of_zero_free fun text htext => ?_
  rcases List.mem_append.1 hm with hm | hm
  · obtain ⟨name, hoffered, rfl⟩ := List.mem_map.1 hm
    have hoffered := offered_zero_free (Option.mem_toList.1 hoffered)
    simp only [texts, List.mem_cons, List.not_mem_nil, or_false] at htext
    rcases htext with rfl | rfl
    · exact hoffered
    · exact hnative
  · simp only [runMessages, List.mem_cons, List.not_mem_nil, or_false] at hm
    rcases hm with rfl | rfl | rfl | rfl <;>
      simp only [texts, List.mem_cons, List.not_mem_nil, or_false] at htext
    · rcases htext with rfl | rfl
      · exact hempty
      · exact hbound
    · exact htext ▸ hempty
    · exact htext ▸ hempty

/-- A statement that can be sent is put together as a whole. -/
theorem Sends.whole {st : Statement} {parameters : List (Option Bytes)} {s : Session}
    {r : EStateM.Result Halt Session (Option String)} (h : Sends st parameters s r)
    (hclosable : ∃ closing, s.closings.mapM (encode s.channel.charset) = .ok closing)
    (hrunnable : ∃ run, (s.running st parameters).mapM (encode s.channel.charset) = .ok run) :
    ∃ asides, (final r).history = s.history ++
        ((s.closings ++ s.running st parameters).map Event.sending ++ asides) ∧
      (∀ e ∈ asides, e.isAside = true) ∧
      (final r).ledger = (s.emptied.named st).ledger ∧
      (final r).forgetsOnDrop = s.forgetsOnDrop ∧
      (halt? r = none → offer r = (s.offered st).filter (!·.isEmpty)) := by
  have hdrafted : ∀ {octets : Bytes} {c : Channel}, ((s.emptied.named st).drafts
      (s.closings ++ s.running st parameters) octets).channel.Keeps c →
      ∃ asides, c.history = s.history ++
        ((s.closings ++ s.running st parameters).map Event.sending ++ asides) ∧
        ∀ e ∈ asides, e.isAside = true := by
    intro octets c hkeeps
    obtain ⟨asides, hhistory, haside⟩ := hkeeps.history
    refine ⟨asides, ?_, haside⟩
    rw [← List.append_assoc]
    exact hhistory.trans (congrArg (· ++ asides) (history_drafts (s.emptied.named st) _ _))
  cases h with
  | unclosed hsent hfails =>
      obtain ⟨closing, hclosing⟩ := hclosable
      rw [hclosing] at hfails
      cases hfails
  | refused hclosing hsent hfails =>
      obtain ⟨run, hrun⟩ := hrunnable
      rw [hrun] at hfails
      cases hfails
  | unwritten hclosing hrun hfatal hfaults hkeeps =>
      obtain ⟨asides, hhistory, haside⟩ := hdrafted hkeeps
      exact ⟨asides, hhistory, haside, rfl, rfl, nofun⟩
  | written hclosing hrun hkeeps =>
      obtain ⟨asides, hhistory, haside⟩ := hdrafted hkeeps
      exact ⟨asides, hhistory, haside, rfl, rfl, fun _ => rfl⟩

/-- What is told when a statement is given up. -/
def retirement (st : Statement) : List Event :=
  st.name.toList.map Event.statementEvicted ++ [.entryEvicted st.size]

theorem retire_history (given : List Statement) (s : Session) :
    (final (given.forM retire s)).history = s.history ++ given.flatMap retirement := by
  induction given generalizing s with
  | nil => exact (List.append_nil _).symm
  | cons st given ih =>
      have hone : ∃ s', retire st s = .ok () s' ∧ s'.history = s.history ++ retirement st := by
        unfold retire retirement
        cases st.name with
        | none => exact ⟨_, rfl, s.channel.history_told _⟩
        | some name =>
            refine ⟨_, rfl, ?_⟩
            have htold := (s.channel.told (.statementEvicted name)).history_told
              (.entryEvicted st.size)
            rw [s.channel.history_told, List.append_assoc] at htold
            exact htold
      obtain ⟨s', hretire, hhistory⟩ := hone
      have hstep : (st :: given).forM retire s =
          (retire st >>= fun _ => given.forM retire) s := rfl
      rw [hstep, bind_of_ok hretire, ih, hhistory, List.append_assoc, List.flatMap_cons]

end Session

/-! ## What a reply leaves true -/

/-- Whether the server says that the plan of a statement is stale. -/
def Entry.isStale (e : Entry) : Bool :=
  match e.event.message? with
  | some (.errorResponse report) => report.isStale
  | _ => false

theorem Entry.isStale_report {e : Entry} {r : Report}
    (h : e.event.message? = some (.errorResponse r)) : e.isStale = r.isStale := by
  unfold Entry.isStale
  rw [h]

theorem Entry.drops_message {e : Entry} {m : BackendMessage} (h : e.event.message? = some m) :
    e.drops = m.drops := by
  unfold Entry.drops
  rw [h]
  rfl

/-- Messages of a reply change the accounts in four ways, and three of them take a message of a
kind: a Parse that is acknowledged, a report of a stale plan, the word that everything was
dropped. -/
theorem Accounts.foldl_keeps {P : Accounts → Prop} {preparing : Option String} {f : Bool}
    {ms : List BackendMessage} {a : Accounts} (ha : P a)
    (hparsed : .parseComplete ∈ ms → ∀ a, P a → P (a.parsed preparing))
    (hsuspended : ∀ a : Accounts, P a →
      P { a with statement := a.statement.map fun s => { s with isSuspended := true } })
    (hunprepared : (∃ r : Report, .errorResponse r ∈ ms ∧ r.isStale = true) →
      ∀ a, P a → P a.unprepared)
    (hdropped : f = true → (∃ m ∈ ms, m.drops = true) → ∀ a, P a → P a.dropped) :
    P (ms.foldl (Accounts.on preparing f) a) := by
  induction ms generalizing a with
  | nil => exact ha
  | cons m ms ih =>
      have hmem : ∀ {m'}, m' ∈ ms → m' ∈ m :: ms := List.mem_cons_of_mem _
      refine ih ?_ (fun hm => hparsed (hmem hm)) (fun ⟨r, hr, hstale⟩ => hunprepared
        ⟨r, hmem hr, hstale⟩) fun hf ⟨m', hm', hdrops⟩ => hdropped hf ⟨m', hmem hm', hdrops⟩
      cases m with
      | parseComplete => exact hparsed List.mem_cons_self a ha
      | portalSuspended => exact hsuspended a ha
      | commandComplete tag =>
          unfold Accounts.on
          simp only []
          split
          · next hboth =>
              obtain ⟨hdrops, hf⟩ := Bool.and_eq_true_iff.1 hboth
              exact hdropped hf ⟨_, List.mem_cons_self, hdrops⟩ a ha
          · exact ha
      | errorResponse report =>
          unfold Accounts.on
          simp only []
          split
          · next hstale => exact hunprepared ⟨report, List.mem_cons_self, hstale⟩ a ha
          · exact ha
      | _ => exact ha

/-! ## Calls -/

/-- What is told of a statement: not how many rows it fetches, nor whether its last run stopped
early. -/
structure Face where
  id : Nat
  native : String
  name : Option String
  epoch : Nat
  executions : Nat
  deriving DecidableEq

def Handle.face (h : Handle) : Face :=
  { id := h.id, native := h.statement.native, name := h.statement.name
    epoch := h.statement.epoch, executions := h.statement.executions }

/-- A call that talks to the server: the statement that runs, the others in the caller's hands, what
is sent about names, the name that is to be acknowledged, and the accounts when everything was
sent. -/
structure Inquiry where
  runner : Option Handle
  rest : List Handle
  sent : List FrontendMessage
  preparing : Option String
  before : Accounts

namespace Inquiry

/-- The accounts when the reply was heard. -/
def after (q : Inquiry) (forgets : Bool) (events : List Event) : Accounts :=
  (events.filterMap Event.message?).foldl (Accounts.on q.preparing forgets) q.before

/-- All statements, the one that ran being what the accounts say. -/
def handles (q : Inquiry) (resident : StatementKey → Nat) (a : Accounts) : List Handle :=
  (q.runner.bind fun h => a.statement.map (Handle.mk h.id)).toList ++
    (q.rest ++ World.residents resident a.ledger.statements)

end Inquiry

/-- The statement that an operation runs. -/
def Operation.runs? : Operation → Option Nat
  | .execute id _ => some id
  | _ => none

namespace World

def querying (w : World) : Inquiry where
  runner := none
  rest := w.hands
  sent := []
  preparing := none
  before := ⟨none, w.session.ledger⟩

def executing (w : World) (h : Handle) (parameters : List (Option Bytes)) : Inquiry where
  runner := some h
  rest := w.others h.id
  sent := w.session.closings ++ w.session.running (w.session.readied h.statement) parameters
  preparing := (w.session.offered (w.session.readied h.statement)).filter (!·.isEmpty)
  before := ⟨some (w.session.readied h.statement),
    (w.session.emptied.named (w.session.readied h.statement)).ledger⟩

/-- A request was sent and something was heard. -/
structure Asked (q : Inquiry) (events : List Event) (w w' : World) : Prop where
  log : w'.log = w.log ++
    (drafted w.turn q.runner q.sent ++ events.map (Entry.mk w.turn q.runner))
  kinds : ∀ e ∈ events, e.isAside = true ∨ e.message?.isSome = true
  turn : w'.turn = w.turn + 1
  ledger : w'.session.ledger = (q.after w.session.forgetsOnDrop events).ledger
  handles : w'.handles.Sublist (q.handles w.resident (q.after w.session.forgetsOnDrop events))
  made : w'.made = w.made
  forgets : w'.session.forgetsOnDrop = w.session.forgetsOnDrop

/-- An entry of a call that runs no statement and hears nothing that matters to names. -/
structure IdleEntry (e : Entry) : Prop where
  runner : e.runner = none
  mute : e.event.isAside = true ∨ e.event.message?.isSome = true
  parsed : e.isParseComplete = false
  drops : e.drops = false

/-- Statements are moved about: one that is new may be among them, and some may be given up. -/
structure Passes (fresh : Option Statement) (gone : List Handle) (entries : List Entry)
    (w w' : World) : Prop where
  log : w'.log = w.log ++ entries
  idle : ∀ e ∈ entries, IdleEntry e ∧ e.turn = w.turn ∧ w.turn < w'.turn
  turn : w.turn ≤ w'.turn
  faces : ((gone ++ w'.handles).map Handle.face).Perm
    ((fresh.toList.map (Handle.mk w.made) ++ w.handles).map Handle.face)
  made : w.made + fresh.toList.length ≤ w'.made
  fresh : ∀ st ∈ fresh, st.name = none ∧ st.executions = 0 ∧ '\x00' ∉ st.native.toList
  waiting : w'.session.pendingClose =
    w.session.pendingClose ++ (gone.map Handle.statement).filterMap Statement.name
  evicted : ∀ x ∈ gone, ∀ name, x.statement.name = some name →
    ∃ e ∈ entries, e.event = .statementEvicted name
  epoch : w'.session.epoch = w.session.epoch
  nextName : w'.session.nextName = w.session.nextName
  forgets : w'.session.forgetsOnDrop = w.session.forgetsOnDrop

/-- What an operation does that runs this statement, or none. -/
inductive Effect (ran : Option Nat) (w w' : World) : Prop where
  | passes {fresh : Option Statement} {gone : List Handle} {entries : List Entry}
      (h : Passes fresh gone entries w w')
  | queries {events : List Event} (h : Asked w.querying events w w')
  | executes {id : Nat} {h : Handle} {parameters : List (Option Bytes)} {events : List Event}
      (hh : w.hand? id = some h) (hopen : w.session.isClosed = false)
      (ha : Asked (w.executing h parameters) events w w') (hran : ran = some id)

variable {ran : Option Nat} {w : World}

/-- A call that sends nothing, with whatever it does to statements besides. -/
theorem called_passes {α : Type} {r : EStateM.Result Halt Session α} (events : List Event)
    (hands gone : List Handle) (resident : StatementKey → Nat) (made : Nat)
    (fresh : Option Statement) (hhistory : (final r).history = w.session.history ++ events)
    (hquiet : ∀ e ∈ events, IsQuiet e)
    (hfaces : ((gone ++ (hands ++ residents resident (final r).statements)).map Handle.face).Perm
      ((fresh.toList.map (Handle.mk w.made) ++ w.handles).map Handle.face))
    (hmade : w.made + fresh.toList.length ≤ made)
    (hfresh : ∀ st ∈ fresh, st.name = none ∧ st.executions = 0 ∧ '\x00' ∉ st.native.toList)
    (hwaiting : (final r).pendingClose =
      w.session.pendingClose ++ (gone.map Handle.statement).filterMap Statement.name)
    (hevicted : ∀ x ∈ gone, ∀ name, x.statement.name = some name →
      .statementEvicted name ∈ events)
    (hepoch : (final r).epoch = w.session.epoch) (hnext : (final r).nextName = w.session.nextName)
    (hforgets : (final r).forgetsOnDrop = w.session.forgetsOnDrop) :
    Effect ran w { w.called none r with hands, resident, made } := by
  obtain ⟨hall, -⟩ := quiet_entries w.turn none hquiet
  refine .passes ⟨called_log hhistory, fun e he => ?_, Nat.le_succ _, hfaces, hmade, hfresh,
    hwaiting, fun x hx name hname => ?_, hepoch, hnext, hforgets⟩
  · obtain ⟨hmute, hack, hdrops⟩ := hall e he
    obtain ⟨event, -, rfl⟩ := List.mem_map.1 he
    exact ⟨⟨rfl, hmute, hack, hdrops⟩, rfl, Nat.lt_succ_self _⟩
  · exact ⟨_, List.mem_map_of_mem (hevicted x hx name hname), rfl⟩

/-- A call that has nothing to do with statements. -/
theorem called_aside {α : Type} {r : EStateM.Result Halt Session α} (events : List Event)
    (hhistory : (final r).history = w.session.history ++ events)
    (hquiet : ∀ e ∈ events, IsQuiet e) (hledger : (final r).ledger = w.session.ledger)
    (hforgets : (final r).forgetsOnDrop = w.session.forgetsOnDrop) :
    Effect ran w (w.called none r) := by
  have hstatements : (final r).statements = w.session.statements :=
    congrArg Ledger.statements hledger
  refine called_passes events w.hands [] w.resident w.made none hhistory hquiet ?_
    (Nat.le_refl _) nofun ?_ (List.forall_mem_nil _)
    (congrArg Ledger.epoch hledger) (congrArg Ledger.nextName hledger) hforgets
  · rw [hstatements]
    exact .refl _
  · exact (congrArg Ledger.pendingClose hledger).trans (List.append_nil _).symm

/-- Nothing happens to statements, and nothing is told. -/
theorem Effect.of_same {w' : World} (hlog : w'.log = w.log) (hturn : w.turn ≤ w'.turn)
    (hfaces : (w'.handles.map Handle.face).Perm (w.handles.map Handle.face))
    (hmade : w'.made = w.made) (hledger : w'.session.ledger = w.session.ledger)
    (hforgets : w'.session.forgetsOnDrop = w.session.forgetsOnDrop) : Effect ran w w' := by
  have hpasses : Passes none [] [] w w' := ⟨hlog.trans (List.append_nil _).symm,
    List.forall_mem_nil _, hturn, hfaces, Nat.le_of_eq hmade.symm, nofun,
    (congrArg Ledger.pendingClose hledger).trans (List.append_nil _).symm, List.forall_mem_nil _,
    congrArg Ledger.epoch hledger, congrArg Ledger.nextName hledger, hforgets⟩
  exact .passes hpasses

theorem takeNotices_effect (w : World) (wait : Option Nat) :
    Effect ran w (w.called none (Session.takeNotices wait w.session)) := by
  have hnotices := Session.takeNotices_notices wait w.session
  generalize Session.takeNotices wait w.session = r at hnotices
  cases hnotices with
  | none hresult =>
      exact called_aside [] (by rw [final_lift, List.append_nil])
        (List.forall_mem_nil _) (by rw [final_lift]) (by rw [final_lift])
  | taken hidles =>
      obtain ⟨events, hhistory, hquiet⟩ := idle_quiet hidles
      exact called_aside events hhistory hquiet hidles.ledger hidles.forgets
  | waiting hidles =>
      obtain ⟨events, hhistory, hquiet⟩ := idle_quiet hidles
      exact called_aside events hhistory hquiet hidles.ledger hidles.forgets
  | @failed s₁ s' e hidles hopen hend =>
      obtain ⟨events, hhistory, hquiet⟩ := idle_quiet hidles
      have hkeeps := hend.keeps
      obtain ⟨asides, hhistory', haside⟩ := hkeeps.channel.history
      refine called_aside (events ++ asides) ?_
        (List.forall_mem_append.2 ⟨hquiet, aside_quiet haside⟩)
        (hkeeps.ledger.trans hidles.ledger) (hkeeps.forgets.trans hidles.forgets)
      show s'.channel.history = _
      rw [hhistory', show s₁.channel.history = _ from hhistory, List.append_assoc]

theorem keeps_effect {α : Type} {r : EStateM.Result Halt Session α}
    (hkeeps : Session.Keeps w.session (final r)) : Effect ran w (w.called none r) := by
  obtain ⟨events, hhistory, haside⟩ := hkeeps.channel.history
  exact called_aside events hhistory (aside_quiet haside) hkeeps.ledger hkeeps.forgets

/-- A statement is made, or none if its text is refused. -/
theorem made_effect (w : World) (key : StatementKey) :
    Effect ran w { w.obtained w.made (lift ((Statement.ofKey key).mapError Cache.creationError)
      w.session) with made := w.made + 1 } := by
  cases hmade : (Statement.ofKey key).mapError Cache.creationError with
  | error e =>
      exact called_passes (r := lift (.error e : Except Error Statement) w.session) [] w.hands []
        w.resident (w.made + 1) none
        (List.append_nil _).symm (List.forall_mem_nil _) (.refl _) (Nat.le_succ _) nofun
        (List.append_nil _).symm (List.forall_mem_nil _) rfl rfl rfl
  | ok st =>
      refine called_passes (r := lift (.ok st : Except Error Statement) w.session) []
        ({ id := w.made, statement := st } :: w.hands) [] w.resident (w.made + 1) (some st)
        (List.append_nil _).symm (List.forall_mem_nil _) (.refl _)
        (Nat.le_refl _) ?_ (List.append_nil _).symm (List.forall_mem_nil _) rfl rfl rfl
      rintro _ ⟨⟩
      exact ⟨ofKey_name hmade, ofKey_made hmade⟩

theorem borrow_effect (hkeys : w.session.statements.Unique) (key : StatementKey) :
    Effect ran w (w.borrow key) := by
  have happly := borrowStatement_apply key w.session
  unfold borrow Cache.contains
  simp only []
  rw [happly]
  cases hget : w.session.statements.get? key with
  | none => exact made_effect w key
  | some st =>
      simp only [Option.isSome_some, if_true]
      refine called_passes (r := .ok st { w.session with
          statements := w.session.statements.erase key }) []
        ({ id := w.resident key, statement := st } :: w.hands) [] w.resident w.made none
        (List.append_nil _).symm (List.forall_mem_nil _)
        (.map _ (borrowed_perm hkeys hget)) (Nat.le_refl _) nofun (List.append_nil _).symm
        (List.forall_mem_nil _) rfl rfl rfl

theorem setFetchSize_effect (w : World) (id : Nat) (rows : Int) :
    Effect ran w (w.setFetchSize id rows) := by
  refine .of_same rfl (Nat.le_refl _) (.of_eq ?_) rfl rfl rfl
  unfold setFetchSize handles
  rw [List.map_append, List.map_append, List.map_map]
  refine congrArg (· ++ _) (List.map_congr_left fun h _ => ?_)
  simp only [Function.comp_apply]
  split <;> rfl

/-- A statement that is handed back goes to the cache, and what does not stay there is given up. -/
theorem release_effect (hkeys : w.session.statements.Unique) {id : Nat} {h : Handle}
    (hh : w.hand? id = some h) : Effect ran w (w.release h) := by
  obtain ⟨gone, hgiven, hput⟩ := put_perm hkeys w.resident h
  rcases hresult : w.session.statements.put h.statement.key h.statement with ⟨given, statements⟩
  rw [hresult] at hgiven hput
  have hgiven : given = gone.map Handle.statement := hgiven
  obtain ⟨journal, asides, hrun, hhistory, haside⟩ := releaseStatement_apply hresult
  have hrun' : Session.releaseStatement h.statement w.session =
      given.forM Session.retire { w.session with statements } := by
    unfold Session.releaseStatement
    rw [bind_of_ok (get_apply _), hresult]
    rfl
  have htold := Session.retire_history given { w.session with statements }
  rw [← hrun', hrun] at htold
  have hasides : asides = given.flatMap Session.retirement :=
    List.append_cancel_left (hhistory.symm.trans htold)
  unfold release
  refine called_passes asides _ gone _ w.made none ?_
    (aside_quiet haside) (.map _ ?_) (Nat.le_refl _) nofun ?_ (fun x hx name hname => ?_)
    ?_ ?_ ?_
  · rw [hrun]
    exact hhistory
  · rw [hrun]
    refine .trans ?_ ((hands_perm hh).append_right _).symm
    refine .trans ?_ ((hput.append_left (w.others h.id)).symm.trans List.perm_middle)
    rw [← List.append_assoc, ← List.append_assoc]
    exact List.perm_append_comm.append_right _
  · rw [hrun, hgiven]
    rfl
  · rw [hasides, hgiven, List.flatMap_map]
    refine List.mem_flatMap.2 ⟨x, hx, List.mem_append_left _ ?_⟩
    rw [hname]
    exact List.mem_singleton_self _
  · rw [hrun]
    rfl
  · rw [hrun]
    rfl
  · rw [hrun]
    rfl

/-! ## Calls that talk to the server -/

section Asked

variable {q : Inquiry} {sent : EStateM.Result Halt Session (Option String)}
  {r : EStateM.Result Halt Session Reply} {asides events : List Event} {a : Accounts} {f : Bool}

/-- The accounts of a reply are those of the request: the name that was offered matters only if the
server acknowledges it. -/
theorem hears_after (haside : ∀ e ∈ asides, e.isAside = true)
    (hledger : (final sent).ledger = q.before.ledger) (hforgets : (final sent).forgetsOnDrop = f)
    (hoffer : halt? sent = none → Session.offer sent = q.preparing)
    (hhears : Session.Hears q.before.statement sent r events a) :
    a = q.after f (asides ++ events) := by
  have hon : ∀ ms : List BackendMessage, .parseComplete ∉ ms → ∀ b : Accounts,
      ms.foldl (Accounts.on (Session.offer sent) f) b =
        ms.foldl (Accounts.on q.preparing f) b := by
    intro ms hms
    induction ms with
    | nil => exact fun _ => rfl
    | cons m ms ih =>
        intro b
        obtain ⟨hm, hms⟩ := not_or.1 (List.mem_cons.not.1 hms)
        have hone : b.on (Session.offer sent) f m = b.on q.preparing f m := by
          cases m with
          | parseComplete => exact absurd rfl hm
          | _ => rfl
        rw [List.foldl_cons, List.foldl_cons, hone]
        exact ih hms _
  unfold Inquiry.after
  rw [List.filterMap_append, filterMap_message?_of_isAside haside, List.nil_append,
    hhears.accounts, hforgets, hledger]
  cases hhalt : halt? sent with
  | none => rw [hoffer hhalt]
  | some halt =>
      refine hon _ (fun hack => ?_) _
      obtain ⟨e, he, hem⟩ := List.mem_filterMap.1 hack
      exact hhears.unsent (by rw [hhalt]; rfl) e he hem

/-- What is told of a request that was put together, and what there is of statements when it is
over. -/
theorem called_asked (hands : List Handle) (hhistory : (final sent).history =
      w.session.history ++ (q.sent.map Event.sending ++ asides))
    (haside : ∀ e ∈ asides, e.isAside = true) (hledger : (final sent).ledger = q.before.ledger)
    (hforgets : (final sent).forgetsOnDrop = w.session.forgetsOnDrop)
    (hoffer : halt? sent = none → Session.offer sent = q.preparing)
    (hhears : Session.Hears q.before.statement sent r events a)
    (hhands : hands.Sublist ((q.runner.bind fun h => a.statement.map (Handle.mk h.id)).toList ++
      q.rest)) :
    Asked q (asides ++ events) w { w.called q.runner r with hands } := by
  have hafter := hears_after haside hledger hforgets hoffer hhears
  have hall : (final r).history =
      w.session.history ++ (q.sent.map Event.sending ++ (asides ++ events)) := by
    rw [hhears.history, hhistory]
    simp only [List.append_assoc]
  refine ⟨?_, ?_, rfl, hafter ▸ hhears.ledger, ?_, rfl, hhears.forgets.trans hforgets⟩
  · show (w.called q.runner r).log = _
    rw [called_log hall, List.map_append, map_sending]
  · exact List.forall_mem_append.2 ⟨fun e he => .inl (haside e he), hhears.kinds⟩
  · rw [← hafter]
    have hstatements : (final r).statements = a.ledger.statements :=
      congrArg Ledger.statements hhears.ledger
    unfold Inquiry.handles
    rw [← List.append_assoc]
    show (hands ++ residents w.resident (final r).statements).Sublist _
    rw [hstatements]
    exact hhands.append (.refl _)

end Asked

theorem query_effect (w : World) (sql : String) :
    Effect ran w (w.called none (Session.query sql w.session)) := by
  rcases Session.query_refused_or_sent sql w.session with ⟨e, hrun, -⟩ | ⟨hopen, octets, hencode⟩
  · rw [hrun]
    exact called_aside [] (List.append_nil _).symm (List.forall_mem_nil _) rfl rfl
  · obtain ⟨events, a, hhears⟩ := (Session.query_answers hopen hencode).hears
    obtain ⟨asides, hhistory, haside, hledger, hforgets, hoffer⟩ :=
      Session.sendQuery_asides w.session sql octets
    have hnone : a.statement = none := Option.isNone_iff_eq_none.1
      (Option.isSome_eq_false_iff.1
        (hears_handles hhears (congrArg Ledger.statements hledger)).1)
    refine .queries (called_asked (q := w.querying) w.hands hhistory haside hledger
      hforgets (fun _ => hoffer) hhears ?_)
    exact List.Sublist.refl _

/-- A statement runs, and what is known of it then is told by what was heard. -/
theorem execute_asked (hopen : w.session.isClosed = false) {h : Handle}
    {parameters : List (Option Bytes)}
    (hclosable : ∃ closing,
      w.session.closings.mapM (encode w.session.channel.charset) = .ok closing)
    (hrunnable : ∃ run, (w.session.running (w.session.readied h.statement) parameters).mapM
      (encode w.session.channel.charset) = .ok run) :
    ∃ events, Asked (w.executing h parameters) events w (w.execute h parameters) ∧
      ∀ reply s', Session.execute h.statement parameters w.session = .ok reply s' →
        reply.statement =
          ((w.executing h parameters).after w.session.forgetsOnDrop events).statement := by
  have hsends := Session.sendStatement_sends (w.session.readied h.statement) parameters w.session
  obtain ⟨asides, hhistory, haside, hledger, hforgets, hoffer⟩ := hsends.whole hclosable hrunnable
  obtain ⟨events, a, hhears⟩ := (Session.execute_answers hopen h.statement parameters).hears
  have hafter := hears_after (q := w.executing h parameters) haside hledger hforgets hoffer hhears
  obtain ⟨st, hst⟩ := Option.isSome_iff_exists.1
    (hears_handles hhears (congrArg Ledger.statements hledger)).1
  refine ⟨asides ++ events, ?_, fun reply s' hreply => hafter ▸ hhears.reply reply s' hreply⟩
  refine called_asked (q := w.executing h parameters) _ hhistory haside hledger hforgets hoffer
    hhears ?_
  show List.Sublist _ ((a.statement.map (Handle.mk h.id)).toList ++ w.others h.id)
  rw [hst]
  generalize Session.execute h.statement parameters w.session = r at hhears
  cases r with
  | error halt s' => exact List.sublist_cons_self _ _
  | ok reply s' =>
      simp only []
      rw [hhears.reply reply s' rfl, hst]
      exact .refl _

/-- A session that has ended refuses to run a statement, which stays as it was. -/
theorem execute_refused (hclosed : w.session.isClosed = true) {id : Nat} {h : Handle}
    (hh : w.hand? id = some h) (parameters : List (Option Bytes)) :
    Effect ran w (w.execute h parameters) := by
  have hrun : Session.execute h.statement parameters w.session = _ :=
    Session.execute_of_closed hclosed
  unfold execute
  rw [hrun]
  refine .of_same ?_ (Nat.le_succ _) (.map _ ?_) rfl rfl rfl
  · rw [← List.append_nil w.log]
    show _ = w.log ++ ([] : List Event).map (Entry.mk w.turn (some h))
    exact called_log (List.append_nil _).symm
  · exact ((hands_perm hh).append_right _).symm

end World

end PgClient
