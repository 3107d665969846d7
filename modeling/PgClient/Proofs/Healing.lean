import PgClient.Proofs.Closing
import PgClient.Proofs.Reports
import PgClient.Proofs.Tidy

/-!
# Statements that heal

The server may find that the plan of a statement is stale, or that it does not have the statement
at all. Preparing it again mends both, and the session promises the caller as much. For the promise
to hold three things have to be true afterwards: the statement has forgotten its name, so that it
is prepared again when it runs next; the name is not lost, for the server may still have something
under it; and the next name is a new one, since the old one may not be free.

Nothing of this is to depend on what happens in between. A name that waits to be closed waits
through everything that runs no statement (`run_waiting`), and a statement without a name stays
without one until it runs itself (`run_unnamed`).
-/

namespace PgClient

open Exchange FrontendMessage

namespace Entry

/-- Whether the server reports an error. -/
def isReport (e : Entry) : Bool :=
  (e.event.message?.bind BackendMessage.report?).isSome

/-- Whether the server says that a command is complete. -/
def isCompletion (e : Entry) : Bool :=
  match e.event.message? with
  | some (.commandComplete _) => true
  | _ => false

end Entry

/-- After an error the server neither acknowledges a Parse nor completes a command until the call
is over. -/
def GivesUp (log : List Entry) : Prop :=
  log.Pairwise fun a b => a.turn = b.turn → a.isReport = true →
    b.isParseComplete = false ∧ b.isCompletion = false

/-- The server said that it dropped everything, and the session heeds that, between two moments. -/
def DroppedBetween (forgets : Bool) (log log' : List Entry) : Prop :=
  forgets = true ∧ ∃ es, log' = log ++ es ∧ ∃ d ∈ es, d.drops = true

theorem DroppedBetween.trans {f : Bool} {log log' log'' : List Entry} (hlog : log <+: log')
    (h : DroppedBetween f log' log'') : DroppedBetween f log log'' := by
  obtain ⟨hf, es, rfl, d, hd, hdrops⟩ := h
  obtain ⟨between, rfl⟩ := hlog
  exact ⟨hf, between ++ es, List.append_assoc _ _ _, d, List.mem_append_right _ hd, hdrops⟩

theorem DroppedBetween.append {f : Bool} {log log' : List Entry} (h : DroppedBetween f log log')
    (es : List Entry) : DroppedBetween f log (log' ++ es) := by
  obtain ⟨hf, between, rfl, d, hd, hdrops⟩ := h
  exact ⟨hf, between ++ es, List.append_assoc _ _ _, d, List.mem_append_left _ hd, hdrops⟩

/-- Nothing was ever sent that has to do with a name. -/
def Unused (name : String) (log : List Entry) : Prop :=
  ∀ e ∈ log, e.parse?.map Prod.fst ≠ some name ∧ e.bind? ≠ some name ∧ e.close? ≠ some name

/-- The error that a request came to, if it came back with one. -/
def failure? : EStateM.Result Halt Session Reply → Option Error
  | .ok reply _ =>
    match reply.result with
    | .error e => some e
    | .ok _ => none
  | .error _ _ => none

theorem failure?_some {r : EStateM.Result Halt Session Reply} {e : Error}
    (h : failure? r = some e) : ∃ reply s', r = .ok reply s' ∧ reply.result = .error e := by
  cases r with
  | error halt s' => cases h
  | ok reply s' =>
      refine ⟨reply, s', rfl, ?_⟩
      unfold failure? at h
      simp only [] at h
      split at h
      · next e' hresult => rw [hresult, Option.some.inj h]
      · cases h

/-! ## What a stale plan does to the accounts -/

/-- The name of the statement that runs. -/
def Accounts.name? (a : Accounts) : Option String :=
  a.statement.bind Statement.name

section Accounts

variable {preparing : Option String} {f : Bool} {ms : List BackendMessage} {a : Accounts}
  {name : String}

theorem Accounts.name?_suspended (a : Accounts) :
    Accounts.name? { a with statement := a.statement.map fun s => { s with isSuspended := true } } =
      a.name? := by
  cases a with
  | mk statement ledger => cases statement <;> rfl

theorem Accounts.name?_unprepared (a : Accounts) : a.unprepared.name? = none := by
  unfold Accounts.name?
  cases hst : a.unprepared.statement with
  | none => rfl
  | some st => exact (statement_of_unprepared hst).1

/-- A statement without a name gets one from an acknowledgement only. -/
theorem unnamed_foldl (ha : a.name? = none) (hack : .parseComplete ∉ ms) :
    (ms.foldl (Accounts.on preparing f) a).name? = none :=
  Accounts.foldl_keeps (P := fun a => a.name? = none) ha (fun h => absurd h hack)
    (fun a ha => a.name?_suspended.trans ha) (fun _ a _ => a.name?_unprepared) fun _ _ _ ha => ha

/-- A name waits to be closed until the server says that it dropped everything. -/
theorem waiting_foldl (ha : name ∈ a.ledger.pendingClose)
    (hdrops : f = true → ∀ m ∈ ms, m.drops = false) :
    name ∈ (ms.foldl (Accounts.on preparing f) a).ledger.pendingClose := by
  refine Accounts.foldl_keeps (P := fun a => name ∈ a.ledger.pendingClose) ha (fun _ a ha => ?_)
    (fun _ ha => ha) (fun _ a ha => ?_) fun hf ⟨m, hm, hdrop⟩ => ?_
  · rwa [Accounts.parsed_ledger]
  · rw [a.unprepared_waiting]
    exact List.mem_append_left _ ha
  · rw [hdrops hf m hm] at hdrop
    cases hdrop

/-- A statement has its name until an error comes. -/
theorem named_foldl (ha : a.name? = some name) (hreports : reportsOf ms = [])
    (hsame : .parseComplete ∈ ms → ∀ new, preparing = some new → new = name) :
    (ms.foldl (Accounts.on preparing f) a).name? = some name := by
  refine Accounts.foldl_keeps (P := fun a => a.name? = some name) ha (fun hack a ha => ?_)
    (fun a ha => a.name?_suspended.trans ha) (fun ⟨r, hr, _⟩ => ?_) fun _ _ _ ha => ha
  · unfold Accounts.parsed
    cases hpreparing : preparing with
    | none => exact ha
    | some new =>
        obtain ⟨st, hst, -⟩ := Option.bind_eq_some_iff.1 ha
        rw [hsame hack new hpreparing]
        show (a.statement.map fun s => s.prepare name a.ledger.epoch).bind Statement.name = _
        rw [hst]
        rfl
  · cases List.filterMap_eq_nil_iff.1 hreports _ hr

/-- The name a statement was offered under is its own once the server acknowledged that. -/
theorem offered_foldl (ha : a.statement.isSome) (hack : .parseComplete ∈ ms)
    (hreports : reportsOf ms = []) (hpreparing : preparing = some name) :
    (ms.foldl (Accounts.on preparing f) a).name? = some name := by
  obtain ⟨front, back, rfl⟩ := List.append_of_mem hack
  rw [List.foldl_append, List.foldl_cons]
  have hsome := (World.foldl_on preparing f front a).1.trans ha
  generalize front.foldl (Accounts.on preparing f) a = b at hsome
  obtain ⟨st, hst⟩ := Option.isSome_iff_exists.1 hsome
  refine named_foldl ?_ ?_ fun _ new hnew => Option.some.inj (hnew.symm.trans hpreparing)
  · show (b.parsed preparing).name? = _
    rw [hpreparing]
    show (b.statement.map fun s => s.prepare name b.ledger.epoch).bind Statement.name = _
    rw [hst]
    rfl
  · unfold reportsOf at hreports
    rw [List.filterMap_append] at hreports
    exact (List.append_eq_nil_iff.1 hreports).2

/-- If the first error of a reply is that the plan is stale, the statement has no name when the
reply is over, and the one it had when that was said waits to be closed. -/
theorem stale_foldl (preparing : Option String) (f : Bool) (a : Accounts) {r : Report}
    (hfirst : (reportsOf ms).head? = some r)
    (hstale : r.isStale = true) (hquiet : ms.Pairwise fun m m' => m.report?.isSome →
      m' ≠ .parseComplete ∧ m'.drops = false) :
    (ms.foldl (Accounts.on preparing f) a).name? = none ∧
      ∀ name, (a.name? = some name ∧ preparing = none) ∨
          (a.statement.isSome ∧ preparing = some name ∧ .parseComplete ∈ ms) →
        name ∈ (ms.foldl (Accounts.on preparing f) a).ledger.pendingClose := by
  obtain ⟨reports, hreports⟩ := List.head?_eq_some_iff.1 hfirst
  obtain ⟨front, m, back, rfl, hfront, hm, -⟩ := List.filterMap_eq_cons_iff.1 hreports
  have hfront : reportsOf front = [] := List.filterMap_eq_nil_iff.2 hfront
  obtain ⟨-, hrest, -⟩ := List.pairwise_append.1 hquiet
  have hback : ∀ m' ∈ back, m' ≠ .parseComplete ∧ m'.drops = false := fun m' hm' =>
    (List.pairwise_cons.1 hrest).1 m' hm' (by rw [hm]; rfl)
  obtain ⟨report, rfl⟩ : ∃ report, m = .errorResponse report := by
    cases m <;> cases hm
    exact ⟨_, rfl⟩
  cases hm
  rw [List.foldl_append, List.foldl_cons]
  have hon : ∀ b : Accounts, b.on preparing f (.errorResponse r) = b.unprepared :=
    fun b => if_pos hstale
  rw [hon]
  refine ⟨unnamed_foldl (Accounts.name?_unprepared _) fun hack => (hback _ hack).1 rfl,
    fun name hname => waiting_foldl ?_ fun _ m' hm' => (hback m' hm').2⟩
  rw [Accounts.unprepared_waiting]
  refine List.mem_append_right _ (Option.mem_toList.2 ?_)
  rcases hname with ⟨hname, hpreparing⟩ | ⟨hsome, hpreparing, hack⟩
  · exact named_foldl hname hfront fun _ new hnew => nomatch hpreparing.symm.trans hnew
  · refine offered_foldl hsome ?_ hfront hpreparing
    rcases List.mem_append.1 hack with hack | hack
    · exact hack
    · rcases List.mem_cons.1 hack with hack | hack
      · cases hack
      · exact absurd rfl (hback _ hack).1

end Accounts

/-- An error that preparing again mends is the first report of a reply that came whole. -/
theorem Session.Outcome.stale {s s' : Session} {reports : List Report} {result : Except Error Unit}
    {e : Error} (h : Outcome s s' reports result) (hresult : result = .error e)
    (hstale : e.isStalePlan = true) : ∃ r, reports.head? = some r ∧ r.isStale = true := by
  cases h with
  | unsent =>
      cases hresult
      cases hstale
  | @answered first _ hfirst =>
      cases first with
      | none => cases hresult
      | some error =>
          cases hresult
          refine ⟨error.report, hfirst.symm, ?_⟩
          rw [← error.isStalePlan_eq]
          exact hstale
  | lost hfatal =>
      cases hresult
      unfold Error.isStalePlan at hstale
      rw [serverError?_of_isFatal hfatal] at hstale
      cases hstale

namespace World

variable {w w' : World} {name : String} {id : Nat}

/-! ## The call that fails -/

/-- The name that a statement has when an error arrives in a call: the one it had before, if the
server has not dropped it since, or the one it was sent under if the server acknowledged that. -/
inductive HasName (h : Handle) (w : World) (log : List Entry) (name : String) : Prop where
  | kept (hname : h.statement.name = some name) (hepoch : h.statement.epoch = w.session.epoch)
  | acknowledged {p ack : Entry} {sql : String} (hne : name ≠ "") (hp : p ∈ log)
      (hparse : p.parse? = some (name, sql)) (hturn : p.turn = w.turn) (hmem : ack ∈ log)
      (hack : ack.isParseComplete = true) (hturn' : ack.turn = w.turn)

theorem Asked.gives_up {q : Inquiry} {events : List Event} (ha : Asked q events w w')
    (h : GivesUp w'.log) : (events.filterMap Event.message?).Pairwise fun m m' =>
      m.report?.isSome → m' ≠ .parseComplete ∧ m'.drops = false := by
  rw [GivesUp, ha.log] at h
  have hevents := List.pairwise_map.1
    (List.pairwise_append.1 (List.pairwise_append.1 h).2.1).2.1
  refine List.pairwise_filterMap.2 (hevents.imp fun {x y} hxy m hm m' hm' hreport => ?_)
  obtain ⟨hack, hcompletion⟩ := hxy rfl (by
    unfold Entry.isReport
    rw [show x.message? = some m from hm]
    exact hreport)
  have hm' : y.message? = some m' := hm'
  unfold Entry.isParseComplete at hack
  unfold Entry.isCompletion at hcompletion
  simp only [] at hack hcompletion
  rw [hm'] at hack hcompletion
  refine ⟨fun h => of_decide_eq_false hack (congrArg some h), ?_⟩
  cases m' with
  | commandComplete tag => cases hcompletion
  | _ => rfl

/-- The name a statement has when an error arrives is in the accounts of the call: it came with the
name, or was offered under it and the server acknowledged that. -/
theorem HasName.accounts {h : Handle} {parameters : List (Option Bytes)} {events : List Event}
    (hn : HasName h w w'.log name) (hw : w.Tidy) (hh : w.hand? id = some h)
    (ha : Asked (w.executing h parameters) events w w') :
    ((w.executing h parameters).before.name? = some name ∧
        (w.executing h parameters).preparing = none) ∨
      ((w.executing h parameters).before.statement.isSome ∧
        (w.executing h parameters).preparing = some name ∧
        .parseComplete ∈ events.filterMap Event.message?) := by
  cases hn with
  | kept hname hepoch =>
      have hreadied : (w.session.readied h.statement).name = some name := by
        rw [(readied_face w.session h.statement).2.2.1, hname]
        exact Option.filter_some_pos (decide_eq_true hepoch)
      refine .inl ⟨hreadied, ?_⟩
      show (w.session.offered (w.session.readied h.statement)).filter _ = none
      unfold Session.offered
      rw [hreadied]
      rfl
  | @acknowledged p ack sql hne hp hparse hturn hmem hack hturn' =>
      refine .inr ⟨rfl, ?_, ha.of_log hw hmem hturn' (of_decide_eq_true hack)⟩
      have hsent : name ∈ parsedNames (drafted w.turn (w.executing h parameters).runner
          (w.executing h parameters).sent) := by
        refine mem_parsedNames.2 ⟨hne, p, ?_, sql, hparse⟩
        rw [ha.log] at hp
        rcases List.mem_append.1 hp with hp | hp
        · exact absurd hturn (Nat.ne_of_lt (hw.turns p hp))
        · rcases List.mem_append.1 hp with hp | hp
          · exact hp
          · obtain ⟨event, hevent, rfl⟩ := List.mem_map.1 hp
            rw [(Entry.mute (ha.kinds event hevent)).1] at hparse
            cases hparse
      rw [(executing_fits hw hh parameters).parses] at hsent
      exact Option.mem_toList.1 hsent

/-- The caller has a statement back when the call returns. -/
theorem execute_hand {h : Handle} {parameters : List (Option Bytes)} {reply : Reply} {s' : Session}
    (hrun : Session.execute h.statement parameters w.session = .ok reply s') :
    (w.execute h parameters).hand? h.id =
      some { id := h.id, statement := reply.statement.getD h.statement } := by
  unfold execute hand?
  rw [hrun]
  exact List.find?_cons_of_pos (beq_self_eq_true h.id)

/-- The journal of a call has the messages that are told of it. -/
theorem Asked.messages {h : Handle} {parameters : List (Option Bytes)} {events events' : List Event}
    (ha : Asked (w.executing h parameters) events w (w.execute h parameters))
    (hhistory : (final (Session.execute h.statement parameters w.session)).history =
      w.session.history ++ events') :
    events'.filterMap Event.message? = events.filterMap Event.message? := by
  have hlog : w.log ++ events'.map (Entry.mk w.turn (some h)) = _ :=
    (called_log hhistory).symm.trans ha.log
  have htold := congrArg (List.filterMap fun e : Entry => e.event.message?)
    (List.append_cancel_left hlog)
  have hsent : (drafted w.turn (some h) (w.executing h parameters).sent).filterMap
      (fun e => e.event.message?) = [] := by
    refine List.filterMap_eq_nil_iff.2 fun e he => ?_
    obtain ⟨m, -, rfl⟩ := List.mem_map.1 he
    rfl
  rw [List.filterMap_append, List.filterMap_map, List.filterMap_map] at htold
  exact htold.trans ((congrArg (· ++ _) hsent).trans (List.nil_append _))

/-! ## What comes afterwards -/

theorem step_waiting (hw : w.Tidy) (hname : name ∈ w.session.pendingClose) {operation : Operation}
    (hruns : operation.runs? = none) :
    DroppedBetween w.session.forgetsOnDrop w.log (w.step operation).log ∨
      name ∈ (w.step operation).session.pendingClose := by
  cases step_effect hw operation with
  | passes h =>
      rw [h.waiting]
      exact .inr (List.mem_append_left _ hname)
  | @queries events h =>
      by_cases hdrops : w.session.forgetsOnDrop = true ∧
          ∃ m ∈ events.filterMap Event.message?, m.drops = true
      · obtain ⟨hf, m, hm, hdrop⟩ := hdrops
        obtain ⟨event, hevent, hmessage⟩ := List.mem_filterMap.1 hm
        refine .inl ⟨hf, _, h.log, _, List.mem_append_right _ (List.mem_map_of_mem hevent), ?_⟩
        rw [Entry.drops_message hmessage]
        exact hdrop
      · refine .inr ?_
        show name ∈ (w.step operation).session.ledger.pendingClose
        rw [h.ledger]
        refine waiting_foldl hname fun hf m hm => Bool.eq_false_iff.2 fun hdrop => ?_
        exact hdrops ⟨hf, m, hm, hdrop⟩
  | executes _ _ _ hran =>
      rw [hruns] at hran
      cases hran

/-- A name waits to be closed through whatever runs no statement. -/
theorem run_waiting (hw : w.Tidy) (hname : name ∈ w.session.pendingClose)
    {operations : List Operation} (hruns : ∀ operation ∈ operations, operation.runs? = none) :
    DroppedBetween w.session.forgetsOnDrop w.log (w.run operations).log ∨
      name ∈ (w.run operations).session.pendingClose := by
  induction operations generalizing w with
  | nil => exact .inr hname
  | cons operation operations ih =>
      obtain ⟨hfirst, hrest⟩ := List.forall_mem_cons.1 hruns
      have hw' := step_tidy hw operation
      rcases step_waiting hw hname hfirst with hdropped | hname'
      · obtain ⟨es, hes⟩ := log_prefix_run (w.step operation) operations
        have hrun : (w.run (operation :: operations)).log = (w.step operation).log ++ es := hes.symm
        rw [hrun]
        exact .inl (hdropped.append es)
      · rw [← (run_steady hw [operation]).2]
        exact (ih hw' hname' hrest).imp_left (DroppedBetween.trans (log_prefix_step w operation))

/-- A statement has no name, wherever it is. -/
def Unnamed (id : Nat) (w : World) : Prop :=
  ∀ x ∈ w.handles, x.id = id → x.statement.name = none

theorem step_unnamed (hw : w.Tidy) (hid : Unnamed id w) {operation : Operation}
    (hruns : operation.runs? ≠ some id) : Unnamed id (w.step operation) := by
  intro x hx hxid
  rcases step_passes_or_asks hw operation with ⟨_, _, _, h⟩ | ⟨q, events, hfits, h, hran⟩
  · rcases h.origin (.inr hx) with ⟨st, hst, hface⟩ | ⟨y, hy, hface⟩
    · exact (congrArg Face.name hface).trans (h.fresh st hst).1
    · exact (congrArg Face.name hface).trans (hid y hy ((congrArg Face.id hface).symm.trans hxid))
  · rcases h.origin hx with ⟨ran, st, hrunner, -, rfl⟩ | hx
    · exact absurd ((hran ran hrunner).trans (congrArg some hxid)) hruns
    · exact hid x (hfits.bystander hw.numbered hx).1 hxid

/-- A statement without a name stays without one until it runs. -/
theorem run_unnamed (hw : w.Tidy) (hid : Unnamed id w) {operations : List Operation}
    (hruns : ∀ operation ∈ operations, operation.runs? ≠ some id) :
    Unnamed id (w.run operations) :=
  run_keeps (fun _ _ hv hfirst hid => step_unnamed hv hid hfirst) hw hid operations hruns

/-- A name that was sent for any purpose was sent to be prepared. -/
def Spoken (log : List Entry) : Prop :=
  ∀ e ∈ log, ∀ name, e.bind? = some name ∨ e.close? = some name → name = "" ∨ name ∈ parsedNames log

theorem Spoken.append {log es : List Entry} (h : Spoken log)
    (hes : ∀ e ∈ es, ∀ name, e.bind? = some name ∨ e.close? = some name →
      name = "" ∨ name ∈ parsedNames (log ++ es)) : Spoken (log ++ es) := by
  refine List.forall_mem_append.2 ⟨fun e he name hname => (h e he name hname).imp_right ?_, hes⟩
  rw [parsedNames_append]
  exact List.mem_append_left _

theorem Spoken.unused {log : List Entry} (h : Spoken log) (hne : name ≠ "")
    (hnew : name ∉ parsedNames log) : Unused name log := by
  refine fun e he => ⟨fun hparse => ?_, fun hbind => ?_, fun hclose => ?_⟩
  · obtain ⟨⟨_, sql⟩, hsent, rfl⟩ := Option.map_eq_some_iff.1 hparse
    exact hnew (mem_parsedNames.2 ⟨hne, e, he, sql, hsent⟩)
  · exact (h e he name (.inl hbind)).elim hne hnew
  · exact (h e he name (.inr hclose)).elim hne hnew

theorem step_spoken (hw : w.Tidy) (hs : Spoken w.log) (operation : Operation) :
    Spoken (w.step operation).log := by
  have hmute : ∀ {e : Entry} {name : String} {P : Prop},
      e.event.isAside = true ∨ e.event.message?.isSome = true →
        e.bind? = some name ∨ e.close? = some name → P := by
    intro e name P he hname
    obtain ⟨-, hclose, hbind⟩ := Entry.mute he
    rw [hclose, hbind] at hname
    exact hname.elim nofun nofun
  rcases step_passes_or_asks hw operation with ⟨_, _, _, h⟩ | ⟨q, events, hfits, h, -⟩
  · rw [h.log]
    exact hs.append fun e he name hname => hmute (h.idle e he).1.mute hname
  · rw [h.log]
    refine hs.append (List.forall_mem_append.2
      ⟨fun e he name hname => ?_, fun e he name hname => ?_⟩)
    · rw [← h.log, h.parses hfits]
      rcases hname with hbind | hclose
      · exact (hfits.binds e he name hbind).imp_right fun hname => List.mem_append.2
          (hname.imp_right Option.mem_toList.2)
      · exact .inr (List.mem_append_left _
          (hw.waiting (hfits.closes (List.mem_filterMap.2 ⟨e, he, hclose⟩))))
    · obtain ⟨event, hevent, rfl⟩ := List.mem_map.1 he
      exact hmute (h.kinds event hevent) hname

theorem run_spoken (hw : w.Tidy) (hs : Spoken w.log) (operations : List Operation) :
    Spoken (w.run operations).log :=
  run_keeps (Q := fun _ => True) (P := fun v => Spoken v.log)
    (fun _ operation hv _ hs => step_spoken hv hs operation) hw hs operations fun _ _ => trivial

/-! ## The next call -/

/-- A statement can run. -/
structure Ready (id : Nat) (h : Handle) (w : World) : Prop where
  running : w.isStuck = false
  isOpen : w.session.isClosed = false
  hand : w.hand? id = some h

/-- These messages are the first of a call that runs a statement; what else there is to tell was
heard. If the session is still open when the call is over, they were written behind what the buffer
held. -/
structure Leads (ms : List FrontendMessage) (runner : Handle) (w w' : World) : Prop where
  log : ∃ heard, w'.log = w.log ++ (drafted w.turn (some runner) ms ++ heard) ∧
    ∀ e ∈ heard, e.event.isAside = true ∨ e.event.message?.isSome = true
  written : w'.session.isClosed = false → ∃ parts,
    ms.mapM (encode w.session.channel.charset) = .ok parts ∧
    w'.session.channel.socket.sent =
      w.session.channel.socket.sent ++ (w.session.channel.outgoing ++ parts.flatten)

theorem Ready.step {h : Handle} (hready : Ready id h w) (parameters : List (Option Bytes)) :
    w.step (.execute id parameters) = w.execute h parameters := by
  rw [step_of_running hready.running]
  show (w.hand? id).elim w _ = _
  rw [hready.hand]
  rfl

theorem execute_leads (hw : w.Tidy) {h : Handle} (hready : Ready id h w)
    (parameters : List (Option Bytes)) :
    Leads (w.session.closings ++ w.session.running (w.session.readied h.statement) parameters) h w
      (w.execute h parameters) := by
  obtain ⟨events, hasked, -⟩ :=
    execute_asked hready.isOpen hw.closable (hw.runnable hready.hand parameters)
  refine ⟨⟨_, hasked.log, fun e he => ?_⟩, fun hopen => ?_⟩
  · obtain ⟨event, hevent, rfl⟩ := List.mem_map.1 he
    exact hasked.kinds event hevent
  · have hanswers := Session.execute_answers hready.isOpen h.statement parameters
    obtain ⟨hmild, -, hsent⟩ := hanswers.quiet hopen
    obtain ⟨closing, hclosing⟩ := hw.closable
    obtain ⟨run, hrun⟩ := hw.runnable hready.hand parameters
    have hsends :=
      Session.sendStatement_sends (w.session.readied h.statement) parameters w.session
    refine ⟨closing ++ run, ?_, hsent.trans ?_⟩
    · rw [List.mapM_append, hclosing, hrun]
      rfl
    generalize Session.sendStatement (w.session.readied h.statement) parameters w.session = r
      at hsends hmild
    cases hsends with
    | unclosed _ hfails =>
        rw [hclosing] at hfails
        cases hfails
    | refused _ _ hfails =>
        rw [hrun] at hfails
        cases hfails
    | unwritten _ _ hfatal =>
        rw [hmild _ rfl] at hfatal
        cases hfatal
    | written hclosing' hrun' _ _ _ hwritten =>
        rw [hclosing] at hclosing'
        rw [hrun] at hrun'
        cases hclosing'
        cases hrun'
        rw [List.flatten_append, ← List.append_assoc w.session.channel.outgoing]
        exact hwritten

/-- A statement without a name is sent to be prepared under a new name, or without one, and run
under that. -/
theorem running_unnamed (hw : w.Tidy) (hs : Spoken w.log) {h : Handle} (hh : w.hand? id = some h)
    (hname : h.statement.name = none) (parameters : List (Option Bytes)) :
    ∃ name, (name = "" ∨ Unused name w.log) ∧
      w.session.running (w.session.readied h.statement) parameters =
        [.parse name h.statement.native [], .bind "" name parameters, .describe portalKind "",
          .execute "" (w.session.readied h.statement).fetchSize, .sync] := by
  obtain ⟨hnative, -, hreadied, -⟩ := readied_face w.session h.statement
  rw [hname] at hreadied
  have hreadied : (w.session.readied h.statement).name = none := hreadied
  obtain ⟨name, hoffered⟩ : ∃ name,
      w.session.offered (w.session.readied h.statement) = some name := by
    unfold Session.offered
    rw [hreadied]
    exact ⟨_, rfl⟩
  refine ⟨name, ?_, ?_⟩
  · by_cases hempty : name = ""
    · exact .inl hempty
    · have hpreparing : (w.executing h parameters).preparing = some name :=
        Option.filter_eq_some_iff.2 ⟨hoffered, by simpa using hempty⟩
      exact .inr (hs.unused hempty
        ((executing_fits hw hh parameters).offered name hpreparing).2.1)
  · unfold Session.running
    rw [hoffered, hreadied, hnative]
    rfl

/-! ## Healing -/

/-- What is to be true when a statement has failed, in a call from `w` to `w'`. -/
structure Heals (h : Handle) (w w' : World) : Prop where
  /-- The caller has the statement back, and it is not prepared any more. -/
  unprepared : ∃ st, w'.hand? h.id = some { id := h.id, statement := st } ∧ st.name = none
  /-- The name it had is to be closed. -/
  queued : ∀ name, HasName h w w'.log name → name ∈ w'.session.pendingClose
  /-- The next statement that runs, whichever that is, comes behind the Close of that name. -/
  closed : ∀ name, HasName h w w'.log name → ∀ operations : List Operation,
    (∀ operation ∈ operations, operation.runs? = none) →
      DroppedBetween w'.session.forgetsOnDrop w'.log (w'.run operations).log ∨
      ∀ id x parameters, Ready id x (w'.run operations) →
        .close statementKind name ∈ (w'.run operations).session.closings ∧
        Leads ((w'.run operations).session.closings ++ (w'.run operations).session.running
            ((w'.run operations).session.readied x.statement) parameters) x (w'.run operations)
          ((w'.run operations).step (.execute id parameters))
  /-- When the statement runs next, it is prepared again, under a new name or without one. -/
  prepared : ∀ operations : List Operation,
    (∀ operation ∈ operations, operation.runs? ≠ some h.id) →
      ∀ x parameters, Ready h.id x (w'.run operations) →
        ∃ name rows, (name = "" ∨ Unused name (w'.run operations).log) ∧
          Leads ((w'.run operations).session.closings ++ [.parse name x.statement.native [],
              .bind "" name parameters, .describe portalKind "", .execute "" rows, .sync]) x
            (w'.run operations) ((w'.run operations).step (.execute h.id parameters))

/-- If the first thing that is wrong with a statement is that its plan is stale, it has forgotten
its name when the call is over, and the name waits to be closed. -/
theorem execute_stale (hw : w.Tidy) {h : Handle} (hready : Ready id h w)
    {parameters : List (Option Bytes)} {e : Error}
    (hfails : failure? (Session.execute h.statement parameters w.session) = some e)
    (hstale : e.isStalePlan = true) (hgives : GivesUp (w.execute h parameters).log) :
    (∃ st, (w.execute h parameters).hand? h.id = some { id := h.id, statement := st } ∧
      st.name = none) ∧ Unnamed h.id (w.execute h parameters) ∧
    ∀ name, HasName h w (w.execute h parameters).log name →
      name ∈ (w.execute h parameters).session.pendingClose := by
  obtain ⟨reply, s', hrun, hresult⟩ := failure?_some hfails
  obtain ⟨events, hasked, hreply⟩ :=
    execute_asked hready.isOpen hw.closable (hw.runnable hready.hand parameters)
  have htold := Session.execute_told h.statement parameters w.session
  rw [hrun] at htold
  obtain ⟨events', htells⟩ := htold
  obtain ⟨r, hfirst, hr⟩ := htells.outcome.stale hresult hstale
  rw [hasked.messages (by rw [hrun]; exact htells.history)] at hfirst
  obtain ⟨hnone, hwaits⟩ := stale_foldl (w.executing h parameters).preparing
    w.session.forgetsOnDrop (w.executing h parameters).before hfirst hr (hasked.gives_up hgives)
  obtain ⟨st, hst⟩ : ∃ st, ((w.executing h parameters).after w.session.forgetsOnDrop
      events).statement = some st :=
    Option.isSome_iff_exists.1 ((foldl_on (w.executing h parameters).preparing
      w.session.forgetsOnDrop (events.filterMap Event.message?)
      (w.executing h parameters).before).1.trans rfl)
  have hname : st.name = none := (congrArg (Option.bind · Statement.name) hst).symm.trans hnone
  refine ⟨⟨st, ?_, hname⟩, fun x hx hid => ?_, fun name hn => ?_⟩
  · rw [execute_hand hrun, hreply reply s' hrun, hst]
    rfl
  · rcases hasked.origin hx with ⟨ran, st', hran, hst', rfl⟩ | hx
    · rw [hst] at hst'
      cases hst'
      exact hname
    · have hfits := executing_fits hw hready.hand parameters
      exact absurd hid ((hfits.bystander hw.numbered hx).2 h rfl)
  · show name ∈ (w.execute h parameters).session.ledger.pendingClose
    rw [hasked.ledger]
    exact hwaits name (hn.accounts hw hready.hand hasked)

/-- A statement that failed with an error that is to heal does so. It has lost its name, which is
closed ahead of whatever statement runs next unless the server drops everything before, and when it
is run again itself it is prepared first, under a name that was not used before or without one.
Whatever is done to other statements in between, or to this one as long as it does not run, makes
no difference. -/
theorem stale_statements_heal {s : Session} (hs : s.IsFresh) (operations : List Operation)
    {id : Nat} {h : Handle} (hstuck : ((start s).run operations).isStuck = false)
    (hh : ((start s).run operations).hand? id = some h) {parameters : List (Option Bytes)}
    {e : Error} (hfails : failure? (Session.execute h.statement parameters
      ((start s).run operations).session) = some e)
    (hheals : e.isStalePlan = true ∨
      (((start s).run operations).step (.execute id parameters)).session.healsOnRetry e = true)
    (hgives : GivesUp (((start s).run operations).step (.execute id parameters)).log) :
    Heals h ((start s).run operations)
      (((start s).run operations).step (.execute id parameters)) := by
  have hw := run_tidy (start_tidy hs) operations
  have hspoken := run_spoken (start_tidy hs) (List.forall_mem_nil _) operations
  generalize (start s).run operations = w at hstuck hh hfails hheals hgives hw hspoken ⊢
  have hstale : e.isStalePlan = true := by
    refine hheals.elim (fun h => h) fun h => ?_
    unfold Session.healsOnRetry at h
    exact (Bool.and_eq_true_iff.1 h).2
  have hopen : w.session.isClosed = false := by
    refine Bool.eq_false_iff.2 fun hclosed => ?_
    rw [Session.execute_of_closed hclosed] at hfails
    cases hfails
    cases hstale
  have hready : Ready id h w := ⟨hstuck, hopen, hh⟩
  have hw' := step_tidy hw (.execute id parameters)
  have hspoken' := step_spoken hw hspoken (.execute id parameters)
  rw [hready.step parameters] at hgives hw' hspoken' ⊢
  obtain ⟨hhand, hunnamed, hwaits⟩ := execute_stale hw hready hfails hstale hgives
  refine ⟨hhand, hwaits, fun name hn more hmore => ?_, fun more hmore x parameters' hready' => ?_⟩
  · refine (run_waiting hw' (hwaits name hn) hmore).imp_right
      fun hname id' x parameters' hready' => ⟨List.mem_map_of_mem hname, ?_⟩
    rw [hready'.step parameters']
    exact execute_leads (run_tidy hw' more) hready' parameters'
  · have hw'' := run_tidy hw' more
    have hid : x.id = h.id := hand_id hready'.hand
    have hname := run_unnamed hw' hunnamed hmore x (hand_mem hready'.hand) hid
    obtain ⟨name, hnew, hrunning⟩ :=
      running_unnamed hw'' (run_spoken hw' hspoken' more) hready'.hand hname parameters'
    refine ⟨name, (((w.execute h parameters).run more).session.readied x.statement).fetchSize, hnew,
      ?_⟩
    rw [← hrunning, hready'.step parameters']
    exact execute_leads hw'' hready' parameters'

/-- The replies to a statement that is prepared, to a second run of it when the server does not have
it any more, and to a third one. -/
def healingReplies : List (List WireMessage) :=
  [[.parseComplete, .bindComplete, .commandComplete (Utf8.encode "SELECT 0")],
    [.errorResponse (Utf8.encode "SERROR\x00C26000\x00Mno such statement\x00")],
    [.closeComplete, .parseComplete, .bindComplete, .commandComplete (Utf8.encode "SELECT 0")]]

/-- A session in which a statement was run once. -/
def onceRun : World :=
  (start (sampleSession healingReplies)).run [.borrow (.parameterized "SELECT"), .execute 0 []]

/-- That statement. -/
def onceRunner : Handle :=
  (onceRun.hand? 0).get (by decide +kernel)

/-- What its second run comes to. -/
def unknownStatement : Error :=
  (failure? (Session.execute onceRunner.statement [] onceRun.session)).get (by decide +kernel)

theorem stale_statements_heal_unknown :
    (HasName onceRunner onceRun (onceRun.step (.execute 0 [])).log "S_1" ∧
      parsedNames ((onceRun.step (.execute 0 [])).step (.execute 0 [])).log = ["S_1", "S_2"] ∧
      closedNames ((onceRun.step (.execute 0 [])).step (.execute 0 [])).log = ["S_1"]) ∧
    (failure? (Session.execute onceRunner.statement [] onceRun.session) = some unknownStatement ∧
      unknownStatement.isStalePlan = true ∧ GivesUp (onceRun.step (.execute 0 [])).log) ∧
    Heals onceRunner onceRun (onceRun.step (.execute 0 [])) := by
  have hfails : failure? (Session.execute onceRunner.statement [] onceRun.session) =
    some unknownStatement := (Option.some_get _).symm
  have hstale : unknownStatement.isStalePlan = true := by decide +kernel
  have hgives : GivesUp (onceRun.step (.execute 0 [])).log := by
    unfold GivesUp
    decide +kernel
  exact ⟨⟨.kept (by decide +kernel) (by decide +kernel), by decide +kernel, by decide +kernel⟩,
    ⟨hfails, hstale, hgives⟩,
    stale_statements_heal (sampleSession_isFresh healingReplies)
      [.borrow (.parameterized "SELECT"), .execute 0 []] (by decide +kernel)
      (Option.some_get _).symm hfails (.inl hstale) hgives⟩

end World

end PgClient
