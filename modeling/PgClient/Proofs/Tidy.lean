import PgClient.Proofs.Effects

/-!
# A world in order

Some things are true of every run, whatever the server does. Statements are numbered, and each
rests under its own key; what the log tells happened in calls that are over and ran statements that
were made; and every name, whoever has it and even if it only waits to be closed, was handed out,
and sent to be prepared once, for the statement that has it. So every statement can be sent: its
text has no zero character, and no name has one.

Each of these needs the others, and together they are all that `act_effect` needs to say what an
operation does.
-/

namespace PgClient

open Exchange FrontendMessage

namespace World

variable {w : World}

/-- A name was sent to be prepared for the statement of this number. -/
def Assigned (log : List Entry) (id : Nat) (name : String) : Prop :=
  name ≠ "" ∧ ∃ p ∈ log, p.runner.map Handle.id = some id ∧ ∃ sql, p.parse? = some (name, sql)

theorem Assigned.append {log : List Entry} {id : Nat} {name : String} (h : Assigned log id name)
    (es : List Entry) : Assigned (log ++ es) id name := by
  obtain ⟨hne, p, hp, hrunner, hparse⟩ := h
  exact ⟨hne, p, List.mem_append_left _ hp, hrunner, hparse⟩

theorem Assigned.parsed {log : List Entry} {id : Nat} {name : String} (h : Assigned log id name) :
    name ∈ parsedNames log := by
  obtain ⟨hne, p, hp, -, sql, hparse⟩ := h
  exact mem_parsedNames.2 ⟨hne, p, hp, sql, hparse⟩

/-- What is always true of a world, whatever the server does. -/
structure Tidy (w : World) : Prop where
  shelved : w.Shelved
  numbered : Numbered w.made w.ids
  turns : ∀ e ∈ w.log, e.turn < w.turn
  runners : ∀ e ∈ w.log, ∀ h, e.runner = some h → h.id < w.made
  sendable : ∀ x ∈ w.handles, '\x00' ∉ x.statement.native.toList
  parses : (parsedNames w.log).Nodup
  issued : ∀ name ∈ parsedNames w.log, Issued w.session.nextName name
  own : ∀ x ∈ w.handles, ∀ name, x.statement.name = some name →
    Assigned w.log x.id name ∧ x.statement.epoch ≤ w.session.epoch
  waiting : w.session.pendingClose ⊆ parsedNames w.log

theorem Tidy.closable (hw : w.Tidy) :
    ∃ closing, w.session.closings.mapM (encode w.session.channel.charset) = .ok closing :=
  closings_encode fun name hname => hw.issued name (hw.waiting hname)

theorem readied_face (s : Session) (st : Statement) : (s.readied st).native = st.native ∧
    (s.readied st).executions = min (st.executions + 1) (UInt64.size - 1) ∧
    (s.readied st).name = st.name.filter (fun _ => st.epoch = s.epoch) ∧
    (s.readied st).epoch = st.epoch := by
  unfold Session.readied Session.aboutToRun Statement.isPreparedIn Statement.isPrepared
  cases hname : st.name with
  | none => simp [Statement.countExecution]
  | some name =>
      by_cases hepoch : st.epoch = s.epoch
      · simp [Statement.countExecution, hepoch, Option.filter]
      · simp [Statement.countExecution, Statement.unprepare, hepoch]

/-- The statement that runs has the name it had, if it still has one. -/
theorem readied_name {s : Session} {st : Statement} {name : String}
    (h : (s.readied st).name = some name) : st.name = some name ∧ st.epoch = s.epoch := by
  rw [(readied_face s st).2.2.1] at h
  obtain ⟨hname, hepoch⟩ := Option.filter_eq_some_iff.1 h
  exact ⟨hname, of_decide_eq_true hepoch⟩

theorem hand_mem {id : Nat} {h : Handle} (hh : w.hand? id = some h) : h ∈ w.handles :=
  List.mem_append_left _ (List.mem_of_find?_eq_some hh)

theorem hand_id {id : Nat} {h : Handle} (hh : w.hand? id = some h) : h.id = id := by
  simpa using List.find?_some hh

theorem Tidy.runnable (hw : w.Tidy) {id : Nat} {h : Handle} (hh : w.hand? id = some h)
    (parameters : List (Option Bytes)) :
    ∃ run, (w.session.running (w.session.readied h.statement) parameters).mapM
      (encode w.session.channel.charset) = .ok run := by
  refine Session.running_encode parameters ?_ fun name hname => ?_
  · rw [(readied_face w.session h.statement).1]
    exact hw.sendable h (hand_mem hh)
  · have hown := (hw.own h (hand_mem hh) name (readied_name hname).1).1
    exact (hw.issued name hown.parsed).zero_free

/-- What an operation does to a world that is in order. -/
theorem act_effect (hw : w.Tidy) (operation : Operation) :
    Effect operation.runs? w (w.act operation) := by
  have hsame : ∀ {ran}, Effect ran w w := .of_same rfl (Nat.le_refl _) (.refl _) rfl rfl rfl
  cases operation with
  | borrow key => exact borrow_effect hw.shelved.unique key
  | create key => exact made_effect w key
  | setFetchSize id rows => exact setFetchSize_effect w id rows
  | release id =>
      rcases w.act_release id with hact | ⟨h, hh, hact⟩
      · rw [hact]
        exact hsame
      · rw [hact]
        exact release_effect hw.shelved.unique hh
  | query sql => exact query_effect w sql
  | execute id parameters =>
      rcases w.act_execute id parameters with hact | ⟨h, hh, hact⟩
      · rw [hact]
        exact hsame
      · rw [hact]
        cases hclosed : w.session.isClosed with
        | true => exact execute_refused hclosed hh parameters
        | false =>
            obtain ⟨events, hasked, -⟩ :=
              execute_asked hclosed hw.closable (hw.runnable hh parameters)
            exact .executes hh hclosed hasked rfl
  | takeNotices wait => exact takeNotices_effect w wait
  | close => exact keeps_effect (Session.close_keeps w.session)
  | abort => exact keeps_effect (Session.abort_keeps w.session)
  | arrive octets ended faults => exact .of_same rfl (Nat.le_refl _) (.refl _) rfl rfl rfl

theorem step_effect (hw : w.Tidy) (operation : Operation) :
    Effect operation.runs? w (w.step operation) := by
  cases hstuck : w.isStuck with
  | true =>
      rw [step_of_stuck hstuck]
      exact .of_same rfl (Nat.le_refl _) (.refl _) rfl rfl rfl
  | false =>
      rw [step_of_running hstuck]
      exact act_effect hw operation

/-- Every statement there is afterwards was there before, or is new. -/
theorem Passes.origin {w' : World} {fresh : Option Statement} {gone : List Handle}
    {entries : List Entry} (h : Passes fresh gone entries w w') {x : Handle}
    (hx : x ∈ gone ∨ x ∈ w'.handles) :
    (∃ st ∈ fresh, x.face = (Handle.mk w.made st).face) ∨ ∃ y ∈ w.handles, x.face = y.face := by
  have hface : x.face ∈ (gone ++ w'.handles).map Handle.face :=
    List.mem_map_of_mem (List.mem_append.2 hx)
  obtain ⟨y, hy, hxy⟩ := List.mem_map.1 (h.faces.mem_iff.1 hface)
  rcases List.mem_append.1 hy with hy | hy
  · obtain ⟨st, hst, rfl⟩ := List.mem_map.1 hy
    exact .inl ⟨st, Option.mem_toList.1 hst, hxy.symm⟩
  · exact .inr ⟨y, hy, hxy.symm⟩

/-- A statement with a name had it before. -/
theorem Passes.named {w' : World} {fresh : Option Statement} {gone : List Handle}
    {entries : List Entry} (h : Passes fresh gone entries w w') {x : Handle}
    (hx : x ∈ gone ∨ x ∈ w'.handles) {name : String} (hname : x.statement.name = some name) :
    ∃ y ∈ w.handles, y.statement.name = some name ∧ x.face = y.face := by
  rcases h.origin hx with ⟨st, hst, hface⟩ | ⟨y, hy, hface⟩
  · have hnone : x.statement.name = st.name := congrArg Face.name hface
    rw [hnone, (h.fresh st hst).1] at hname
    cases hname
  · exact ⟨y, hy, (congrArg Face.name hface).symm.trans hname, hface⟩

/-- Every statement there is after a request is the one that ran, or had no part in it. -/
theorem Asked.origin {w' : World} {q : Inquiry} {events : List Event} (h : Asked q events w w')
    {x : Handle} (hx : x ∈ w'.handles) :
    (∃ ran st, q.runner = some ran ∧
      (q.after w.session.forgetsOnDrop events).statement = some st ∧
      x = { id := ran.id, statement := st }) ∨
    x ∈ q.rest ∨
    x ∈ residents w.resident (q.after w.session.forgetsOnDrop events).ledger.statements := by
  rcases List.mem_append.1 (h.handles.subset hx) with hx | hx
  · obtain ⟨ran, hran, hmap⟩ := Option.bind_eq_some_iff.1 (Option.mem_toList.1 hx)
    obtain ⟨st, hst, rfl⟩ := Option.map_eq_some_iff.1 hmap
    exact .inl ⟨ran, st, hran, hst, rfl⟩
  · exact .inr (List.mem_append.1 hx)

/-! ## Requests -/

/-- A request is in keeping with the statements there are: it is about one of those in the caller's
hands, and what it sends closes names that wait for it and offers one that is new. -/
structure Fits (q : Inquiry) (w : World) : Prop where
  hands : w.hands.Perm (q.runner.toList ++ q.rest)
  parses : parsedNames (drafted w.turn q.runner q.sent) = q.preparing.toList
  closes : closedNames (drafted w.turn q.runner q.sent) ⊆ w.session.pendingClose
  binds : ∀ e ∈ drafted w.turn q.runner q.sent, ∀ name, e.bind? = some name →
    name = "" ∨ name ∈ parsedNames w.log ∨ q.preparing = some name
  offered : ∀ name, q.preparing = some name → name ≠ "" ∧ name ∉ parsedNames w.log ∧
    Issued q.before.ledger.nextName name
  nextName : w.session.nextName ≤ q.before.ledger.nextName
  epoch : q.before.ledger.epoch = w.session.epoch
  statements : q.before.ledger.statements = w.session.statements
  waiting : q.before.ledger.pendingClose ⊆ w.session.pendingClose
  statement : ∀ st, q.before.statement = some st → ∃ h, q.runner = some h ∧
    st.native = h.statement.native ∧ st.epoch = h.statement.epoch ∧
      ∀ name, st.name = some name → h.statement.name = some name ∧ st.epoch = w.session.epoch

/-- The statement that runs is in the caller's hands. -/
theorem Fits.ran_mem {q : Inquiry} (hfits : Fits q w) {ran : Handle} (hran : q.runner = some ran) :
    ran ∈ w.hands := by
  refine hfits.hands.mem_iff.2 ?_
  rw [hran]
  exact List.mem_cons_self

theorem querying_fits (w : World) : Fits w.querying w :=
  ⟨.refl _, rfl, List.nil_subset _, List.forall_mem_nil _, nofun, Nat.le_refl _, rfl, rfl,
    List.Subset.refl _, nofun⟩

theorem executing_fits (hw : w.Tidy) {id : Nat} {h : Handle} (hh : w.hand? id = some h)
    (parameters : List (Option Bytes)) : Fits (w.executing h parameters) w := by
  obtain ⟨hparses, hcloses, hbinds⟩ := w.session.closings_names w.turn (some h)
  obtain ⟨hparses', hcloses'⟩ :=
    w.session.running_names w.turn (some h) (w.session.readied h.statement) parameters
  have hsent : drafted w.turn (some h) (w.executing h parameters).sent =
      drafted w.turn (some h) w.session.closings ++ drafted w.turn (some h)
        (w.session.running (w.session.readied h.statement) parameters) := List.map_append
  refine ⟨hands_perm hh, ?_, ?_, fun e he name hname => ?_, fun name hname => ?_,
    w.session.nextName_le_named (w.session.readied h.statement), rfl, rfl, List.nil_subset _, ?_⟩
  · show parsedNames (drafted w.turn (some h) (w.executing h parameters).sent) = _
    rw [hsent, parsedNames_append, hparses, hparses']
    rfl
  · show closedNames (drafted w.turn (some h) (w.executing h parameters).sent) ⊆ _
    rw [hsent, closedNames_append, hcloses, hcloses', List.append_nil]
    exact List.Subset.refl _
  · rcases List.mem_append.1 (hsent ▸ he) with he | he
    · rw [hbinds e he] at hname
      cases hname
    · obtain ⟨before, after, hsplit⟩ := List.append_of_mem he
      obtain ⟨-, -, -, rfl⟩ := Session.running_bind hsplit hname
      cases hst : (w.session.readied h.statement).name with
      | some old =>
          have hown := (hw.own h (hand_mem hh) old (readied_name hst).1).1
          exact .inr (.inl hown.parsed)
      | none =>
          cases hoffered : w.session.offered (w.session.readied h.statement) with
          | none => exact .inl rfl
          | some new =>
              by_cases hempty : new = ""
              · exact .inl hempty
              · refine .inr (.inr (Option.filter_eq_some_iff.2 ⟨hoffered, ?_⟩))
                simpa using hempty
  · obtain ⟨hoffered, hne⟩ := Option.filter_eq_some_iff.1 hname
    have hne : name ≠ "" := by simpa using hne
    obtain ⟨-, hempty | ⟨hfresh, hnext⟩⟩ := Session.offered_some hoffered
    · exact absurd hempty hne
    · refine ⟨hne, fun hold => (hw.issued name hold).ne_fresh hfresh, w.session.nextName, ?_,
        hfresh⟩
      show w.session.nextName < (w.session.named _).nextName
      omega
  · rintro st ⟨⟩
    obtain ⟨hnative, -, -, hepoch⟩ := readied_face w.session h.statement
    exact ⟨h, rfl, hnative, hepoch, fun name hname =>
      ⟨(readied_name hname).1, hepoch.trans (readied_name hname).2⟩⟩

/-- A statement that has no part in a request was there before, and is not the one that runs. -/
theorem Fits.bystander {q : Inquiry} (hfits : Fits q w) (hnumbered : Numbered w.made w.ids)
    {f : Bool} {events : List Event} {x : Handle}
    (hx : x ∈ q.rest ∨ x ∈ residents w.resident (q.after f events).ledger.statements) :
    x ∈ w.handles ∧ ∀ ran, q.runner = some ran → x.id ≠ ran.id := by
  obtain ⟨-, hentries⟩ := foldl_on q.preparing f (events.filterMap Event.message?) q.before
  have hsplit : w.handles.Perm
      (q.runner.toList ++ (q.rest ++ residents w.resident w.session.statements)) :=
    (hfits.hands.append_right _).trans (.of_eq (List.append_assoc _ _ _))
  have hmem : x ∈ q.rest ++ residents w.resident w.session.statements := by
    refine List.mem_append.2 (hx.imp_right fun hx => ?_)
    rw [← hfits.statements]
    exact (hentries.map _).subset hx
  refine ⟨hsplit.mem_iff.2 (List.mem_append_right _ hmem), fun ran hran hid => ?_⟩
  have hnodup := (hnumbered.perm (hsplit.map Handle.id)).nodup
  rw [hran, Option.toList_some, List.singleton_append, List.map_cons, List.nodup_cons] at hnodup
  exact hnodup.1 (hid ▸ List.mem_map_of_mem hmem)

/-- A reply hands out no name. -/
theorem after_nextName (q : Inquiry) (f : Bool) (events : List Event) :
    (q.after f events).ledger.nextName = q.before.ledger.nextName := by
  refine Accounts.foldl_keeps (P := fun a => a.ledger.nextName = q.before.ledger.nextName) rfl
    (fun _ a ha => ?_) (fun a ha => ha) (fun _ a ha => ?_) fun _ _ a ha => ha
  · rwa [Accounts.parsed_ledger]
  · rwa [Accounts.unprepared_nextName]

/-- An epoch ends only when the server says that it dropped everything. -/
theorem after_epoch {q : Inquiry} {f : Bool} {events : List Event}
    (hdrops : f = true → ∀ m ∈ events.filterMap Event.message?, m.drops = false) :
    (q.after f events).ledger.epoch = q.before.ledger.epoch := by
  refine Accounts.foldl_keeps (P := fun a => a.ledger.epoch = q.before.ledger.epoch) rfl
    (fun _ a ha => ?_) (fun a ha => ha) (fun _ a ha => ?_) fun hf ⟨m, hm, hdrop⟩ => ?_
  · rwa [Accounts.parsed_ledger]
  · rwa [Accounts.unprepared_epoch]
  · rw [hdrops hf m hm] at hdrop
    cases hdrop

theorem epoch_le_after (q : Inquiry) (f : Bool) (events : List Event) :
    q.before.ledger.epoch ≤ (q.after f events).ledger.epoch := by
  refine Accounts.foldl_keeps (P := fun a => q.before.ledger.epoch ≤ a.ledger.epoch)
    (Nat.le_refl _) (fun _ a ha => ?_) (fun a ha => ha) (fun _ a ha => ?_)
    fun _ _ a ha => Nat.le_succ_of_le ha
  · rwa [Accounts.parsed_ledger]
  · rwa [Accounts.unprepared_epoch]

/-- The names there are during a reply are those there were, and the one that was offered. -/
structure Named (q : Inquiry) (log : List Entry) (a : Accounts) : Prop where
  statement : ∀ st, a.statement = some st → ∃ h, q.runner = some h ∧
    st.native = h.statement.native ∧ ∀ name, st.name = some name →
      Assigned log h.id name ∧ st.epoch ≤ a.ledger.epoch
  waiting : a.ledger.pendingClose ⊆ parsedNames log

theorem after_named {q : Inquiry} (hfits : Fits q w) (hw : w.Tidy) (f : Bool)
    (events : List Event) :
    Named q (w.log ++ drafted w.turn q.runner q.sent) (q.after f events) := by
  refine Accounts.foldl_keeps ⟨fun st hst => ?_, fun name hname => ?_⟩ (fun _ a ha => ?_)
    (fun a ha => ⟨fun st hst => ?_, ha.waiting⟩) (fun _ a ha => ?_)
    fun _ _ a ha => ⟨fun st hst => ?_, List.nil_subset _⟩
  · obtain ⟨h, hrunner, hnative, -, hname⟩ := hfits.statement st hst
    refine ⟨h, hrunner, hnative, fun name hst => ?_⟩
    obtain ⟨hold, hepoch⟩ := hname name hst
    have hmem : h ∈ w.handles := List.mem_append_left _ (hfits.ran_mem hrunner)
    exact ⟨(hw.own h hmem name hold).1.append _, Nat.le_of_eq (hepoch.trans hfits.epoch.symm)⟩
  · rw [parsedNames_append]
    exact List.mem_append_left _ (hw.waiting (hfits.waiting hname))
  · constructor
    all_goals rw [Accounts.parsed_ledger]
    · intro st hst
      rcases Accounts.statement_of_parsed hst with hst | ⟨name, st', hpreparing, hst', rfl⟩
      · exact ha.statement st hst
      · obtain ⟨h, hrunner, hnative, -⟩ := ha.statement st' hst'
        refine ⟨h, hrunner, hnative, ?_⟩
        rintro _ ⟨⟩
        have hparse : name ∈ parsedNames (drafted w.turn q.runner q.sent) := by
          rw [hfits.parses, hpreparing]
          exact List.mem_singleton_self _
        obtain ⟨hne, p, hp, sql, hsql⟩ := mem_parsedNames.1 hparse
        refine ⟨⟨hne, p, List.mem_append_right _ hp, ?_, sql, hsql⟩, Nat.le_refl _⟩
        obtain ⟨m, -, rfl⟩ := List.mem_map.1 hp
        show q.runner.map Handle.id = _
        rw [hrunner]
        rfl
    · exact ha.waiting
  · obtain ⟨st', hst', rfl⟩ := Option.map_eq_some_iff.1 hst
    exact ha.statement st' hst'
  · refine ⟨fun st hst => ?_, fun name hname => ?_⟩
    · obtain ⟨-, hst | ⟨st', hst', rfl⟩⟩ := Accounts.statement_of_unprepared hst
      · rw [Accounts.unprepared_epoch]
        exact ha.statement st hst
      · obtain ⟨h, hrunner, hnative, -⟩ := ha.statement st' hst'
        exact ⟨h, hrunner, hnative, nofun⟩
    · rcases Accounts.waiting_of_unprepared hname with hname | ⟨st, hst, hname⟩
      · exact ha.waiting hname
      · obtain ⟨h, -, -, hown⟩ := ha.statement st hst
        exact (hown name hname).1.parsed
  · obtain ⟨h, hrunner, hnative, hown⟩ := ha.statement st hst
    exact ⟨h, hrunner, hnative, fun name hname =>
      ⟨(hown name hname).1, Nat.le_succ_of_le (hown name hname).2⟩⟩

theorem parsedNames_mute {events : List Event}
    (h : ∀ e ∈ events, e.isAside = true ∨ e.message?.isSome = true) (turn : Nat)
    (runner : Option Handle) : parsedNames (events.map (Entry.mk turn runner)) = [] := by
  refine List.filterMap_eq_nil_iff.2 fun e he => ?_
  obtain ⟨event, hevent, rfl⟩ := List.mem_map.1 he
  rw [(Entry.mute (h event hevent)).1]
  rfl

/-- What is told of a request is told of its call and of the statement that runs. -/
theorem Asked.entries {w' : World} {q : Inquiry} {events : List Event} (h : Asked q events w w') :
    ∃ es, w'.log = w.log ++ es ∧ ∀ e ∈ es, e.turn = w.turn ∧ e.runner = q.runner := by
  refine ⟨_, h.log, List.forall_mem_append.2 ⟨fun e he => ?_, fun e he => ?_⟩⟩
  · obtain ⟨m, -, rfl⟩ := List.mem_map.1 he
    exact ⟨rfl, rfl⟩
  · obtain ⟨event, -, rfl⟩ := List.mem_map.1 he
    exact ⟨rfl, rfl⟩

theorem Effect.log {ran : Option Nat} {w' : World} (h : Effect ran w w') :
    ∃ es, w'.log = w.log ++ es ∧ ∀ e ∈ es, e.turn = w.turn := by
  cases h with
  | passes h => exact ⟨_, h.log, fun e he => (h.idle e he).2.1⟩
  | queries h | executes _ _ h =>
      obtain ⟨es, hlog, hes⟩ := h.entries
      exact ⟨es, hlog, fun e he => (hes e he).1⟩

theorem Asked.parses {w' : World} {q : Inquiry} {events : List Event} (h : Asked q events w w')
    (hfits : Fits q w) : parsedNames w'.log = parsedNames w.log ++ q.preparing.toList := by
  rw [h.log, parsedNames_append, parsedNames_append, hfits.parses, parsedNames_mute h.kinds,
    List.append_nil]

/-- The statements a request leaves are among those there were. -/
theorem Asked.ids {w' : World} {q : Inquiry} {events : List Event} (h : Asked q events w w')
    (hfits : Fits q w) : ∃ ids, w.ids.Perm ids ∧ w'.ids.Sublist ids := by
  obtain ⟨-, hentries⟩ := foldl_on q.preparing w.session.forgetsOnDrop
    (events.filterMap Event.message?) q.before
  rw [hfits.statements] at hentries
  have hran : ((q.runner.bind fun h => (q.after w.session.forgetsOnDrop events).statement.map
      (Handle.mk h.id)).toList.map Handle.id).Sublist (q.runner.toList.map Handle.id) := by
    cases q.runner with
    | none => exact .refl _
    | some ran =>
        cases (q.after w.session.forgetsOnDrop events).statement with
        | none => exact List.nil_sublist _
        | some st => exact .refl _
  refine ⟨_, ((hfits.hands.append_right _).map Handle.id), ?_⟩
  refine (h.handles.map Handle.id).trans ?_
  unfold Inquiry.handles
  rw [List.append_assoc, List.map_append, List.map_append, List.map_append, List.map_append]
  exact hran.append ((List.Sublist.refl _).append ((hentries.map _).map _))

/-- What was heard during a call, of the messages of the server. -/
theorem Asked.heard {q : Inquiry} {events : List Event} (h : Asked q events w w')
    {m : BackendMessage} (hm : m ∈ events.filterMap Event.message?) :
    ∃ e ∈ w'.log, e.event.message? = some m ∧ e.turn = w.turn ∧ e.runner = q.runner := by
  obtain ⟨event, hevent, hmessage⟩ := List.mem_filterMap.1 hm
  refine ⟨⟨w.turn, q.runner, event⟩, ?_, hmessage, rfl, rfl⟩
  rw [h.log]
  exact List.mem_append_right _ (List.mem_append_right _ (List.mem_map_of_mem hevent))

/-- Conversely, what the log has of a call was heard. -/
theorem Asked.of_log {q : Inquiry} {events : List Event} (h : Asked q events w w') (hw : w.Tidy)
    {e : Entry} (he : e ∈ w'.log) (hturn : e.turn = w.turn) {m : BackendMessage}
    (hm : e.event.message? = some m) : m ∈ events.filterMap Event.message? := by
  rw [h.log] at he
  rcases List.mem_append.1 he with he | he
  · exact absurd hturn (Nat.ne_of_lt (hw.turns e he))
  · rcases List.mem_append.1 he with he | he
    · obtain ⟨message, -, rfl⟩ := List.mem_map.1 he
      cases hm
    · obtain ⟨event, hevent, rfl⟩ := List.mem_map.1 he
      exact List.mem_filterMap.2 ⟨event, hevent, hm⟩

theorem Tidy.asked (hw : w.Tidy) {w' : World} {q : Inquiry} {events : List Event}
    (hfits : Fits q w) (h : Asked q events w w') (hshelved : w'.Shelved) : w'.Tidy := by
  have hnamed := after_named hfits hw w.session.forgetsOnDrop events
  obtain ⟨ids, hperm, hsub⟩ := h.ids hfits
  have hledger : w'.session.ledger = _ := h.ledger
  have hnext : w'.session.nextName = q.before.ledger.nextName :=
    (congrArg Ledger.nextName hledger).trans (after_nextName q _ events)
  have hlog : w'.log = w.log ++ drafted w.turn q.runner q.sent ++
      events.map (Entry.mk w.turn q.runner) := by
    rw [h.log, List.append_assoc]
  obtain ⟨es, hes, hnew⟩ := h.entries
  have hran : ∀ ran, q.runner = some ran → ran ∈ w.handles := fun ran hrunner =>
    List.mem_append_left _ (hfits.ran_mem hrunner)
  refine ⟨hshelved, ?_, ?_, ?_, fun x hx => ?_, ?_, ?_, fun x hx name hname => ?_, ?_⟩
  · rw [h.made]
    exact (hw.numbered.perm hperm).sublist hsub
  · rw [hes, h.turn]
    refine List.forall_mem_append.2 ⟨fun e he => Nat.lt_succ_of_lt (hw.turns e he), fun e he => ?_⟩
    rw [(hnew e he).1]
    exact Nat.lt_succ_self _
  · rw [hes, h.made]
    refine List.forall_mem_append.2 ⟨hw.runners, fun e he ran hrunner => ?_⟩
    rw [(hnew e he).2] at hrunner
    exact hw.numbered.lt_made _ (List.mem_map_of_mem (hran ran hrunner))
  · rcases h.origin hx with ⟨ran, st, hrunner, hst, rfl⟩ | hx
    · obtain ⟨ran', hrunner', hnative, -⟩ := hnamed.statement st hst
      rw [hrunner'] at hrunner
      cases hrunner
      rw [hnative]
      exact hw.sendable ran (hran ran hrunner')
    · exact hw.sendable x (hfits.bystander hw.numbered hx).1
  · rw [h.parses hfits]
    refine List.nodup_append.2 ⟨hw.parses, ?_, ?_⟩
    · cases q.preparing with
      | none => exact List.nodup_nil
      | some name => exact List.nodup_singleton name
    · rintro name hname _ hnew' rfl
      exact (hfits.offered name (Option.mem_toList.1 hnew')).2.1 hname
  · rw [h.parses hfits, hnext]
    refine List.forall_mem_append.2 ⟨fun name hname => (hw.issued name hname).mono hfits.nextName,
      fun name hname => (hfits.offered name (Option.mem_toList.1 hname)).2.2⟩
  · rw [hlog, show w'.session.epoch = _ from congrArg Ledger.epoch hledger]
    rcases h.origin hx with ⟨ran, st, hrunner, hst, rfl⟩ | hx
    · obtain ⟨ran', hrunner', -, hown⟩ := hnamed.statement st hst
      rw [hrunner'] at hrunner
      cases hrunner
      exact ⟨(hown name hname).1.append _, (hown name hname).2⟩
    · obtain ⟨hown, hepoch⟩ := hw.own x (hfits.bystander hw.numbered hx).1 name hname
      exact ⟨(hown.append _).append _,
        hepoch.trans (hfits.epoch ▸ epoch_le_after q _ events)⟩
  · show w'.session.ledger.pendingClose ⊆ _
    rw [hledger, hlog, parsedNames_append]
    exact List.subset_append_of_subset_left _ hnamed.waiting

theorem Tidy.passes (hw : w.Tidy) {w' : World} {fresh : Option Statement} {gone : List Handle}
    {entries : List Entry} (h : Passes fresh gone entries w w') (hshelved : w'.Shelved) :
    w'.Tidy := by
  have hmute : parsedNames w'.log = parsedNames w.log := by
    rw [h.log, parsedNames_append]
    refine (congrArg (parsedNames w.log ++ ·) ?_).trans (List.append_nil _)
    refine List.filterMap_eq_nil_iff.2 fun e he => ?_
    rw [(Entry.mute (h.idle e he).1.mute).1]
    rfl
  have hids : (gone.map Handle.id ++ w'.ids).Perm
      (fresh.toList.map (fun _ => w.made) ++ w.ids) := by
    have := h.faces.map Face.id
    simp only [List.map_append, List.map_map] at this
    exact this
  have hnumbered : Numbered w'.made (fresh.toList.map (fun _ => w.made) ++ w.ids) := by
    have hle := h.made
    cases fresh with
    | none =>
        exact ⟨hw.numbered.nodup,
          fun id hid => Nat.lt_of_lt_of_le (hw.numbered.lt_made id hid) hle⟩
    | some st =>
        exact ⟨hw.numbered.cons.nodup,
          fun id hid => Nat.lt_of_lt_of_le (hw.numbered.cons.lt_made id hid) hle⟩
  have hown : ∀ x, x ∈ gone ∨ x ∈ w'.handles → ∀ name, x.statement.name = some name →
      Assigned w.log x.id name ∧ x.statement.epoch ≤ w.session.epoch := by
    intro x hx name hname
    obtain ⟨y, hy, hyname, hface⟩ := h.named hx hname
    have hid : x.id = y.id := congrArg Face.id hface
    have hepoch : x.statement.epoch = y.statement.epoch := congrArg Face.epoch hface
    rw [hid, hepoch]
    exact hw.own y hy name hyname
  refine ⟨hshelved, (hnumbered.perm hids.symm).sublist (List.sublist_append_right _ _), ?_, ?_,
    fun x hx => ?_, hmute ▸ hw.parses, ?_, fun x hx name hname => ?_, ?_⟩
  · rw [h.log]
    refine List.forall_mem_append.2 ⟨fun e he => Nat.lt_of_lt_of_le (hw.turns e he) h.turn,
      fun e he => ?_⟩
    obtain ⟨-, hturn, hlt⟩ := h.idle e he
    rw [hturn]
    exact hlt
  · rw [h.log]
    refine List.forall_mem_append.2 ⟨fun e he ran hran => ?_, fun e he ran hran => ?_⟩
    · have := hw.runners e he ran hran
      have := h.made
      omega
    · rw [(h.idle e he).1.runner] at hran
      cases hran
  · rcases h.origin (.inr hx) with ⟨st, hst, hface⟩ | ⟨y, hy, hface⟩
    · have hnative : x.statement.native = st.native := congrArg Face.native hface
      rw [hnative]
      exact (h.fresh st hst).2.2
    · have hnative : x.statement.native = y.statement.native := congrArg Face.native hface
      rw [hnative]
      exact hw.sendable y hy
  · rw [hmute, h.nextName]
    exact hw.issued
  · rw [h.log, h.epoch]
    exact ⟨(hown x (.inr hx) name hname).1.append _, (hown x (.inr hx) name hname).2⟩
  · rw [h.waiting, hmute]
    refine List.append_subset.2 ⟨hw.waiting, fun name hname => ?_⟩
    obtain ⟨st, hst, hname⟩ := List.mem_filterMap.1 hname
    obtain ⟨x, hx, rfl⟩ := List.mem_map.1 hst
    exact (hown x (.inl hx) name hname).1.parsed

/-- An operation moves statements about, or it makes a request that is in keeping with them. -/
theorem step_passes_or_asks (hw : w.Tidy) (operation : Operation) :
    (∃ fresh gone entries, Passes fresh gone entries w (w.step operation)) ∨
      ∃ q events, Fits q w ∧ Asked q events w (w.step operation) ∧
        ∀ ran, q.runner = some ran → operation.runs? = some ran.id := by
  cases step_effect hw operation with
  | passes h => exact .inl ⟨_, _, _, h⟩
  | queries h => exact .inr ⟨_, _, querying_fits w, h, nofun⟩
  | executes hh hopen h hran =>
      refine .inr ⟨_, _, executing_fits hw hh _, h, ?_⟩
      rintro _ ⟨⟩
      rw [hran, hand_id hh]

theorem step_tidy (hw : w.Tidy) (operation : Operation) : (w.step operation).Tidy := by
  have hshelved := step_shelved hw.shelved operation
  rcases step_passes_or_asks hw operation with ⟨_, _, _, h⟩ | ⟨q, events, hfits, h, -⟩
  · exact hw.passes h hshelved
  · exact hw.asked hfits h hshelved

/-- What every operation of a kind keeps, a run of such operations keeps. -/
theorem run_keeps {P : World → Prop} {Q : Operation → Prop}
    (hstep : ∀ w operation, w.Tidy → Q operation → P w → P (w.step operation)) (hw : w.Tidy)
    (hP : P w) (operations : List Operation) (hQ : ∀ operation ∈ operations, Q operation) :
    P (w.run operations) := by
  induction operations generalizing w with
  | nil => exact hP
  | cons operation operations ih =>
      obtain ⟨hfirst, hrest⟩ := List.forall_mem_cons.1 hQ
      exact ih (step_tidy hw operation) (hstep w operation hw hfirst hP) hrest

theorem run_tidy (hw : w.Tidy) (operations : List Operation) : (w.run operations).Tidy :=
  run_keeps (Q := fun _ => True) (fun _ operation hw _ _ => step_tidy hw operation) hw hw operations
    fun _ _ => trivial

theorem start_tidy {s : Session} (hs : s.IsFresh) : (start s).Tidy := by
  have hnone : (start s).handles = [] := by
    show residents _ s.statements = []
    unfold residents
    rw [hs.statements]
    rfl
  have hids : (start s).ids = [] := congrArg (List.map Handle.id) hnone
  refine ⟨start_shelved hs, ?_, List.forall_mem_nil _, List.forall_mem_nil _, ?_, List.nodup_nil,
    List.forall_mem_nil _, ?_, ?_⟩
  · rw [hids]
    exact ⟨List.nodup_nil, List.forall_mem_nil _⟩
  · rw [hnone]
    exact List.forall_mem_nil _
  · rw [hnone]
    exact List.forall_mem_nil _
  · show s.pendingClose ⊆ _
    rw [hs.pendingClose]
    exact List.nil_subset _

/-- The options of a session never change, nor does what it makes of being told that everything was
dropped. -/
theorem run_steady (hw : w.Tidy) (operations : List Operation) :
    (w.run operations).session.options = w.session.options ∧
      (w.run operations).session.forgetsOnDrop = w.session.forgetsOnDrop := by
  refine run_keeps (Q := fun _ => True) (P := fun v => v.session.options = w.session.options ∧
    v.session.forgetsOnDrop = w.session.forgetsOnDrop) (fun v operation hv _ hsame =>
      ⟨Eq.trans ?_ hsame.1, Eq.trans ?_ hsame.2⟩) hw ⟨rfl, rfl⟩ operations fun _ _ => trivial
  · unfold step
    split
    · rfl
    · exact (Session.act_learns v operation).elim fun _ h => h.options
  · rcases step_passes_or_asks hv operation with ⟨_, _, _, h⟩ | ⟨q, events, -, h, -⟩
    · exact h.forgets
    · exact h.forgets

end World

end PgClient
