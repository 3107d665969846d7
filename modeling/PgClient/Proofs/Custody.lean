import PgClient.Proofs.Bookkeeping
import PgClient.Proofs.Notices

/-!
# Every name is in someone's custody

The books of a world are sound, whatever is done to it, as long as the server
acknowledges no more than one Parse a call. There is one lemma for each kind of
call. Most calls only tell something or pass a statement from the cache to the
caller; a statement that is handed back may give up names, its own and those of
older ones; and the calls that talk to the server were dealt with before, so
that what is left of them is to say who holds the statement afterwards.
-/

namespace PgClient

open Exchange FrontendMessage

namespace World

/-- The books of a world, if this is what statements hold. -/
def books (w : World) (held : List Holding) : Books where
  held
  waiting := w.session.pendingClose
  queued := w.queued
  epoch := w.session.epoch
  nextName := w.session.nextName
  log := w.log

/-- The numbers of all statements. -/
def ids (w : World) : List Nat :=
  w.handles.map Handle.id

/-- Numbers that are all different and were all handed out. -/
structure Numbered (made : Nat) (ids : List Nat) : Prop where
  nodup : ids.Nodup
  lt_made : ∀ id ∈ ids, id < made

theorem Numbered.sublist {made : Nat} {ids ids' : List Nat} (h : Numbered made ids)
    (hsub : ids'.Sublist ids) : Numbered made ids' :=
  ⟨h.nodup.sublist hsub, fun id hid => h.lt_made id (hsub.subset hid)⟩

theorem Numbered.perm {made : Nat} {ids ids' : List Nat} (h : Numbered made ids)
    (hperm : ids.Perm ids') : Numbered made ids' :=
  ⟨hperm.nodup_iff.1 h.nodup, fun id hid => h.lt_made id (hperm.mem_iff.2 hid)⟩

theorem Numbered.succ {made : Nat} {ids : List Nat} (h : Numbered made ids) :
    Numbered (made + 1) ids :=
  ⟨h.nodup, fun id hid => Nat.lt_succ_of_lt (h.lt_made id hid)⟩

theorem Numbered.cons {made : Nat} {ids : List Nat} (h : Numbered made ids) :
    Numbered (made + 1) (made :: ids) :=
  ⟨List.nodup_cons.2 ⟨fun hid => absurd (h.lt_made made hid) (Nat.lt_irrefl _), h.nodup⟩,
    List.forall_mem_cons.2 ⟨Nat.lt_succ_self _, h.succ.lt_made⟩⟩

/-- What is always true of a world. -/
structure Sound (f : Bool) (w : World) : Prop where
  numbered : Numbered w.made w.ids
  keys : w.session.statements.Unique
  forgets : w.session.forgetsOnDrop = f
  turns : ∀ e ∈ w.log, e.turn < w.turn
  books : ∃ held, (w.isStuck = false → held.Perm (holdings w.handles)) ∧
    (w.books held).Sound f

variable {f : Bool} {w : World}

theorem Sound.current (hw : w.Sound f) (hstuck : w.isStuck = false) :
    (w.books (holdings w.handles)).Sound f := by
  obtain ⟨held, hheld, hs⟩ := hw.books
  exact hs.perm (hheld hstuck)

/-! ## The bookkeeping of a call -/

/-- An event that does not matter to names. -/
def IsQuiet (e : Event) : Prop :=
  (e.isAside = true ∨ e.message?.isSome = true) ∧ e.message? ≠ some .parseComplete ∧
    e.message?.all (!·.drops) = true

theorem quiet_entries (turn : Nat) (runner : Option Handle) {events : List Event}
    (hquiet : ∀ e ∈ events, IsQuiet e) :
    (∀ e ∈ events.map (Entry.mk turn runner),
      (e.event.isAside = true ∨ e.event.message?.isSome = true) ∧ e.isParseComplete = false ∧
        e.drops = false) ∧
      closedNames (events.map (Entry.mk turn runner)) = [] := by
  have hall : ∀ e ∈ events.map (Entry.mk turn runner),
      (e.event.isAside = true ∨ e.event.message?.isSome = true) ∧ e.isParseComplete = false ∧
        e.drops = false := by
    intro e he
    obtain ⟨event, hevent, rfl⟩ := List.mem_map.1 he
    obtain ⟨hmute, hack, hdrops⟩ := hquiet event hevent
    refine ⟨hmute, by simpa [Entry.isParseComplete] using hack, ?_⟩
    unfold Entry.drops
    cases hm : event.message? with
    | none => rfl
    | some m => simpa [hm] using hdrops
  exact ⟨hall, List.filterMap_eq_nil_iff.2 fun e he => (Entry.mute (hall e he).1).2.1⟩

section Called

variable {α : Type} {runner : Option Handle} {r : EStateM.Result Halt Session α}
  {events : List Event}

theorem called_log (hhistory : (final r).history = w.session.history ++ events) :
    (w.called runner r).log = w.log ++ events.map (Entry.mk w.turn runner) := by
  unfold called
  simp only []
  rw [hhistory, List.drop_left]

theorem called_turns (hw : w.Sound f) : ∀ e ∈ (w.called runner r).log, e.turn < w.turn + 1 := by
  intro e he
  rcases List.mem_append.1 he with he | he
  · exact Nat.lt_succ_of_lt (hw.turns e he)
  · obtain ⟨event, -, rfl⟩ := List.mem_map.1 he
    exact Nat.lt_succ_self _

/-- The names that wait after a call are what is left of those that waited
before, and behind them what the call added. -/
theorem called_books {held : List Holding} (added kept : List String)
    (hhistory : (final r).history = w.session.history ++ events)
    (hs : Books.Sound f
      { held
        waiting := (final r).pendingClose
        queued := w.queued ++ added
        epoch := (final r).epoch
        nextName := (final r).nextName
        log := w.log ++ events.map (Entry.mk w.turn runner) })
    (hkept : kept ⊆ w.session.pendingClose) (hold : w.session.pendingClose ⊆ w.queued)
    (hwaiting : (final r).pendingClose.Sublist (kept ++ added))
    (horder : (closedNames (w.log ++ events.map (Entry.mk w.turn runner)) ++ kept).Sublist
      w.queued) :
    ((w.called runner r).books held).Sound f := by
  obtain ⟨stay, new, hsplit, hstay, hnew⟩ := List.sublist_append_iff.1 hwaiting
  have hqueued : (w.called runner r).queued = w.queued ++ new := by
    show w.queued ++ (final r).pendingClose.filter (fun name =>
      !w.session.pendingClose.contains name) = _
    rw [hsplit, List.filter_append, List.filter_eq_nil_iff.2, List.filter_eq_self.2]
    · rfl
    · intro name hname
      have hunique := (List.nodup_append.1 (List.nodup_append.1 hs.unique).2.1).2.2
      have : name ∉ w.session.pendingClose := fun hmem =>
        hunique name (hold hmem) name (hnew.subset hname) rfl
      simpa using this
    · intro name hname
      simpa using hkept (hstay.subset hname)
  have hrequeued := hs.requeued (List.Sublist.append (.refl w.queued) hnew) (by
    show (closedNames _ ++ (final r).pendingClose).Sublist _
    rw [hsplit, ← List.append_assoc]
    exact (((List.Sublist.refl _).append hstay).trans horder).append (.refl _))
  unfold books
  rw [called_log hhistory, hqueued]
  exact hrequeued

/-- A call that leaves what there is to know about names as it was, and has
nothing to tell about them. -/
theorem called_same {held : List Holding} (events : List Event) (hs : (w.books held).Sound f)
    (hhistory : (final r).history = w.session.history ++ events)
    (hquiet : ∀ e ∈ events, IsQuiet e)
    (hwaiting : (final r).pendingClose = w.session.pendingClose)
    (hepoch : (final r).epoch = w.session.epoch)
    (hnext : (final r).nextName = w.session.nextName) :
    ((w.called runner r).books held).Sound f := by
  obtain ⟨hall, hcloses⟩ := quiet_entries w.turn runner hquiet
  have horder : (closedNames (w.log ++ events.map (Entry.mk w.turn runner)) ++
      w.session.pendingClose).Sublist w.queued := by
    rw [closedNames_append, hcloses, List.append_nil]
    exact hs.order
  refine called_books [] w.session.pendingClose hhistory ?_
    (List.Subset.refl _) hs.waiting_subset ?_ horder
  · rw [hwaiting, hepoch, hnext, List.append_nil]
    exact hs.noted_all hall
  · rw [hwaiting, List.append_nil]

end Called

/-- A call that changes nothing but the session, and of that nothing that has to
do with names. -/
theorem called_sound {α : Type} {runner : Option Handle} {r : EStateM.Result Halt Session α}
    (events : List Event) (hw : w.Sound f) (hstuck : w.isStuck = false)
    (hhistory : (final r).history = w.session.history ++ events)
    (hquiet : ∀ e ∈ events, IsQuiet e)
    (hledger : (final r).ledger = w.session.ledger)
    (hforgets : (final r).forgetsOnDrop = w.session.forgetsOnDrop) :
    (w.called runner r).Sound f := by
  have hstatements : (final r).statements = w.session.statements :=
    congrArg Ledger.statements hledger
  refine ⟨?_, ?_, hforgets.trans hw.forgets, called_turns hw, holdings w.handles, fun _ => ?_, ?_⟩
  · show Numbered w.made ((w.hands ++ residents w.resident (final r).statements).map Handle.id)
    rw [hstatements]
    exact hw.numbered
  · show (final r).statements.Unique
    rw [hstatements]
    exact hw.keys
  · show (holdings w.handles).Perm
      (holdings (w.hands ++ residents w.resident (final r).statements))
    rw [hstatements]
    exact .refl _
  · exact called_same events (hw.current hstuck) hhistory hquiet
      (congrArg Ledger.pendingClose hledger) (congrArg Ledger.epoch hledger)
      (congrArg Ledger.nextName hledger)

theorem aside_quiet {events : List Event} (haside : ∀ e ∈ events, e.isAside = true) :
    ∀ e ∈ events, IsQuiet e := by
  intro e he
  unfold IsQuiet
  rw [Event.message?_of_isAside (haside e he)]
  exact ⟨.inl (haside e he), nofun, rfl⟩

/-! ## Calls that have nothing to do with names -/

theorem close_sound (hw : w.Sound f) (hstuck : w.isStuck = false) :
    (w.called none (Session.close w.session)).Sound f := by
  have hkeeps := Session.close_keeps w.session
  obtain ⟨events, hhistory, haside⟩ := hkeeps.channel.history
  exact called_sound events hw hstuck hhistory (aside_quiet haside) hkeeps.ledger hkeeps.forgets

theorem abort_sound (hw : w.Sound f) (hstuck : w.isStuck = false) :
    (w.called none (Session.abort w.session)).Sound f := by
  have hkeeps := Session.abort_keeps w.session
  obtain ⟨events, hhistory, haside⟩ := hkeeps.channel.history
  exact called_sound events hw hstuck hhistory (aside_quiet haside) hkeeps.ledger hkeeps.forgets

theorem idle_quiet {s s' : Session} {h : Option Halt} (hidles : Session.Idles s h s') :
    ∃ events, s'.history = s.history ++ events ∧ ∀ e ∈ events, IsQuiet e := by
  obtain ⟨events, hhistory, hkinds⟩ := hidles.history
  refine ⟨events, hhistory, fun e he => ?_⟩
  unfold IsQuiet
  rcases hkinds e he with haside | ⟨m, hm, haccepts⟩
  · rw [Event.message?_of_isAside haside]
    exact ⟨.inl haside, nofun, rfl⟩
  · rw [hm]
    refine ⟨.inr rfl, ?_, ?_⟩
    · rintro ⟨⟩
      cases haccepts
    · cases m with
      | commandComplete tag => cases haccepts
      | _ => rfl

theorem takeNotices_sound (hw : w.Sound f) (hstuck : w.isStuck = false) (wait : Option Nat) :
    (w.called none (Session.takeNotices wait w.session)).Sound f := by
  have hnotices := Session.takeNotices_notices wait w.session
  generalize Session.takeNotices wait w.session = r at hnotices
  cases hnotices with
  | @none result hresult =>
      refine called_sound [] hw hstuck ?_ (List.forall_mem_nil _) ?_ ?_
      · rw [final_lift, List.append_nil]
      · rw [final_lift]
      · rw [final_lift]
  | taken hidles =>
      obtain ⟨events, hhistory, hquiet⟩ := idle_quiet hidles
      exact called_sound events hw hstuck hhistory hquiet hidles.ledger hidles.forgets
  | waiting hidles =>
      obtain ⟨events, hhistory, hquiet⟩ := idle_quiet hidles
      exact called_sound events hw hstuck hhistory hquiet hidles.ledger hidles.forgets
  | @failed s₁ s' e hidles hopen hend =>
      obtain ⟨events, hhistory, hquiet⟩ := idle_quiet hidles
      have hkeeps := hend.keeps
      obtain ⟨events', hhistory', haside⟩ := hkeeps.channel.history
      refine called_sound (events ++ events') hw hstuck ?_ (fun x hx => ?_)
        (hkeeps.ledger.trans hidles.ledger) (hkeeps.forgets.trans hidles.forgets)
      · show s'.channel.history = _
        rw [hhistory', show s₁.channel.history = _ from hhistory, List.append_assoc]
      · exact (List.mem_append.1 hx).elim (hquiet x) (aside_quiet haside x)

/-! ## Statements in and out of the cache -/

theorem ofKey_name {key : StatementKey} {st : Statement}
    (h : (Statement.ofKey key).mapError Cache.creationError = .ok st) : st.name = none := by
  unfold Statement.ofKey at h
  split at h
  · cases h
  · split at h <;> cases h <;> rfl

theorem createStatement_apply (key : StatementKey) (s : Session) :
    Session.createStatement key s =
      lift ((Statement.ofKey key).mapError Cache.creationError) s := rfl

theorem borrowStatement_apply (key : StatementKey) (s : Session) :
    Session.borrowStatement key s = match s.statements.get? key with
      | some st => .ok st { s with statements := s.statements.erase key }
      | none => lift ((Statement.ofKey key).mapError Cache.creationError) s := by
  unfold Session.borrowStatement
  rw [bind_of_ok (get_apply s)]
  unfold Cache.borrow
  cases s.statements.get? key <;> rfl

/-- Borrowing takes at most an entry out of the cache, and leaves the rest of the session alone. -/
theorem borrowStatement_session (key : StatementKey) (s : Session) :
    ∃ statements : Cache StatementKey Statement,
      final (Session.borrowStatement key s) = { s with statements } ∧
        statements.entries.Sublist s.statements.entries := by
  rw [borrowStatement_apply]
  cases s.statements.get? key with
  | some st => exact ⟨_, rfl, s.statements.erase_sublist key⟩
  | none => exact ⟨s.statements, final_lift .., .refl _⟩

theorem residents_perm {statements : Cache StatementKey Statement} (hkeys : statements.Unique)
    (resident : StatementKey → Nat) (key : StatementKey) :
    (residents resident statements).Perm
      ((statements.get? key).toList.map (Handle.mk (resident key)) ++
        (statements.entries.filter (!·.1 == key)).map fun e =>
          { id := resident e.1, statement := e.2 }) := by
  have := (Cache.entries_perm hkeys key).map fun e =>
    ({ id := resident e.1, statement := e.2 } : Handle)
  rw [List.map_append, List.map_map] at this
  exact this

/-- A statement that is borrowed goes from the cache to a hand. -/
theorem borrowed_perm (hkeys : w.session.statements.Unique) {key : StatementKey} {st : Statement}
    (hget : w.session.statements.get? key = some st) :
    ({ id := w.resident key, statement := st } ::
      (w.hands ++ residents w.resident (w.session.statements.erase key))).Perm w.handles := by
  have hperm := residents_perm hkeys w.resident key
  rw [hget, Option.toList_some, List.map_singleton, List.singleton_append] at hperm
  refine .trans ?_ (hperm.symm.append_left w.hands)
  unfold residents
  rw [Cache.erase_entries hget]
  exact List.perm_middle.symm

/-- A statement that was just made has no name. -/
theorem made_sound (hw : w.Sound f) (hstuck : w.isStuck = false)
    {result : Except Error Statement} (hname : ∀ st, result = .ok st → st.name = none) :
    ({ w.obtained w.made (lift result w.session) with made := w.made + 1 } : World).Sound f := by
  have hcalled : (w.called none (lift result w.session)).Sound f :=
    called_sound [] hw hstuck (by rw [final_lift, List.append_nil]) (List.forall_mem_nil _)
      (by rw [final_lift]) (by rw [final_lift])
  cases result with
  | error e =>
      exact ⟨hcalled.numbered.succ, hcalled.keys, hcalled.forgets, hcalled.turns, hcalled.books⟩
  | ok st =>
      refine ⟨hcalled.numbered.cons, hcalled.keys, hcalled.forgets, hcalled.turns, _,
        fun _ => ?_, hcalled.current rfl⟩
      have hheld : holdings ({ id := w.made, statement := st } :: w.handles) =
          holdings w.handles := by
        rw [← List.singleton_append, holdings_append, holdings_singleton,
          holding?_of_unnamed (hname st rfl)]
        rfl
      exact .of_eq hheld.symm

theorem create_sound (hw : w.Sound f) (hstuck : w.isStuck = false) (key : StatementKey) :
    (w.create key).Sound f := by
  unfold create
  rw [createStatement_apply]
  exact made_sound hw hstuck fun _ => ofKey_name

theorem borrow_sound (hw : w.Sound f) (hstuck : w.isStuck = false) (key : StatementKey) :
    (w.borrow key).Sound f := by
  have happly := borrowStatement_apply key w.session
  unfold borrow Cache.contains
  simp only []
  rw [happly]
  cases hget : w.session.statements.get? key with
  | none => exact made_sound hw hstuck fun _ => ofKey_name
  | some st =>
      simp only [Option.isSome_some, if_true]
      have hhandles : (w.obtained (w.resident key) (.ok st { w.session with
          statements := w.session.statements.erase key })).handles.Perm w.handles :=
        borrowed_perm hw.keys hget
      refine ⟨hw.numbered.perm (hhandles.map Handle.id).symm, Cache.erase_unique hw.keys key,
        hw.forgets, called_turns hw, holdings w.handles, fun _ => ?_, ?_⟩
      · exact (hhandles.filterMap _).symm
      · exact called_same [] (hw.current hstuck) (List.append_nil _).symm
          (List.forall_mem_nil _) rfl rfl rfl

theorem setFetchSize_sound (hw : w.Sound f) (id : Nat) (rows : Int) :
    (w.setFetchSize id rows).Sound f := by
  obtain ⟨held, hheld, hs⟩ := hw.books
  have hids : (w.setFetchSize id rows).ids = w.ids := by
    unfold setFetchSize ids handles
    rw [List.map_append, List.map_append, List.map_map]
    refine congrArg (· ++ _) (List.map_congr_left fun h _ => ?_)
    simp only [Function.comp_apply]
    split <;> rfl
  refine ⟨hids ▸ hw.numbered, hw.keys, hw.forgets, hw.turns, held,
    fun hstuck => (hheld hstuck).trans (.of_eq ?_), hs⟩
  unfold setFetchSize handles
  rw [holdings_append, holdings_append]
  refine congrArg (· ++ _) ?_
  unfold holdings
  rw [List.filterMap_map]
  refine (List.filterMap_congr fun h _ => ?_).symm
  simp only [Function.comp_apply]
  split <;> rfl

/-! ## Statements handed back -/

theorem retire_one (st : Statement) (s : Session) :
    ∃ journal asides, Session.retire st s =
        .ok () { s with
          channel := { s.channel with journal }
          pendingClose := s.pendingClose ++ st.name.toList } ∧
      journal.toList = s.history ++ asides ∧ ∀ e ∈ asides, e.isAside = true := by
  unfold Session.retire
  cases st.name with
  | none =>
      refine ⟨_, [.entryEvicted st.size], ?_, s.channel.history_told _, ?_⟩
      · rw [Option.toList_none, List.append_nil]
        rfl
      · exact List.forall_mem_singleton.2 rfl
  | some name =>
      have htold := (s.channel.told (.statementEvicted name)).history_told (.entryEvicted st.size)
      refine ⟨_, [.statementEvicted name] ++ [.entryEvicted st.size], rfl, ?_, ?_⟩
      · rw [← List.append_assoc]
        exact htold.trans (congrArg (· ++ _) (s.channel.history_told _))
      · exact List.forall_mem_cons.2 ⟨rfl, List.forall_mem_singleton.2 rfl⟩

/-- The names of statements are given up to be closed, in order. -/
theorem retire_apply (given : List Statement) (s : Session) :
    ∃ journal asides, given.forM Session.retire s =
        .ok () { s with
          channel := { s.channel with journal }
          pendingClose := s.pendingClose ++ given.filterMap Statement.name } ∧
      journal.toList = s.history ++ asides ∧ ∀ e ∈ asides, e.isAside = true := by
  induction given generalizing s with
  | nil =>
      refine ⟨s.channel.journal, [], ?_, (List.append_nil _).symm, List.forall_mem_nil _⟩
      rw [List.filterMap_nil, List.append_nil]
      rfl
  | cons st given ih =>
      obtain ⟨first, asides, hone, hfirst, haside⟩ := retire_one st s
      obtain ⟨journal, asides', hrest, hhistory, haside'⟩ := ih { s with
        channel := { s.channel with journal := first }
        pendingClose := s.pendingClose ++ st.name.toList }
      have hstep : (st :: given).forM Session.retire s =
          (Session.retire st >>= fun _ => given.forM Session.retire) s := rfl
      have hnames : (st :: given).filterMap Statement.name =
          st.name.toList ++ given.filterMap Statement.name := by
        cases hname : st.name with
        | none => exact List.filterMap_cons_none hname
        | some name => exact List.filterMap_cons_some hname
      refine ⟨journal, asides ++ asides', ?_, ?_, List.forall_mem_append.2 ⟨haside, haside'⟩⟩
      · rw [hstep, bind_of_ok hone, hrest, hnames, List.append_assoc]
      · rw [hhistory]
        show first.toList ++ asides' = _
        rw [hfirst, List.append_assoc]

/-- A statement that is handed back and those there are go in two: the ones that
are given up, and the ones there are then. -/
theorem put_perm {statements : Cache StatementKey Statement} (hkeys : statements.Unique)
    (resident : StatementKey → Nat) (h : Handle) :
    ∃ gone : List Handle, (statements.put h.statement.key h.statement).1 =
        gone.map Handle.statement ∧
      (h :: residents resident statements).Perm (gone ++ residents (settled statements resident h)
        (statements.put h.statement.key h.statement).2) := by
  cases hadmits : statements.admits (statements.sizeOf h.statement) with
  | false =>
      rw [Cache.put_of_refused hadmits]
      refine ⟨[h], rfl, ?_⟩
      unfold residents settled
      rw [hadmits]
      exact .refl _
  | true =>
      obtain ⟨gone, hsplit, hgiven⟩ := Cache.put_of_admitted h.statement.key hadmits
      have hothers : (statements.entries.filter (!·.1 == h.statement.key)).map
          (fun e => ({ id := resident e.1, statement := e.2 } : Handle)) =
          (statements.entries.filter (!·.1 == h.statement.key)).map
            (fun e => { id := settled statements resident h e.1, statement := e.2 }) := by
        refine List.map_congr_left fun e he => ?_
        have hne : (e.1 == h.statement.key) = false := by simpa using (List.mem_filter.1 he).2
        unfold settled
        simp only [hne, Bool.and_false, Bool.false_eq_true, if_false]
      have hnew : ({ id := settled statements resident h h.statement.key
                     statement := h.statement } : Handle) = h := by
        unfold settled
        rw [hadmits, beq_self_eq_true]
        rfl
      have hperm := residents_perm hkeys resident h.statement.key
      refine ⟨(statements.get? h.statement.key).toList.map (Handle.mk (resident h.statement.key)) ++
        gone.map fun e => { id := settled statements resident h e.1, statement := e.2 },
        ?_, ?_⟩
      · rw [hgiven, List.map_append, List.map_map, List.map_map]
        exact congrArg (· ++ _) (List.map_id' _).symm
      · have hkept := congrArg (List.map fun e =>
          ({ id := settled statements resident h e.1, statement := e.2 } : Handle)) hsplit
        rw [List.map_append, List.map_append, List.map_singleton, hnew, ← hothers] at hkept
        rw [List.append_assoc]
        refine ((hperm.cons h).trans ?_).trans (.of_eq (congrArg (_ ++ ·) hkept))
        rw [← List.append_assoc]
        exact (List.perm_append_singleton h _).symm

theorem releaseStatement_apply {st : Statement} {s : Session} {given : List Statement}
    {statements : Cache StatementKey Statement}
    (hput : s.statements.put st.key st = (given, statements)) :
    ∃ journal asides, Session.releaseStatement st s =
        .ok () { s with
          statements
          channel := { s.channel with journal }
          pendingClose := s.pendingClose ++ given.filterMap Statement.name } ∧
      journal.toList = s.history ++ asides ∧ ∀ e ∈ asides, e.isAside = true := by
  have hstep : Session.releaseStatement st s =
      given.forM Session.retire { s with statements } := by
    unfold Session.releaseStatement
    rw [bind_of_ok (get_apply s), hput]
    rfl
  rw [hstep]
  exact retire_apply given { s with statements }

theorem hands_perm {id : Nat} {h : Handle} (hh : w.hand? id = some h) :
    w.hands.Perm (h :: w.others h.id) := by
  obtain ⟨hid, front, back, hsplit, hfront⟩ := List.find?_eq_some_iff_append.1 hh
  have hid : h.id = id := by simpa using hid
  have hothers : w.others h.id = front ++ back := by
    unfold others
    rw [hsplit, List.eraseP_append_right, List.eraseP_cons_of_pos (by simp)]
    intro x hx
    rw [hid]
    simpa using hfront x hx
  rw [hothers, hsplit]
  exact List.perm_middle

theorem holdings_names (hs : List Handle) :
    (holdings hs).map Holding.name = (hs.map Handle.statement).filterMap Statement.name := by
  unfold holdings
  rw [List.map_filterMap, List.filterMap_map]
  refine List.filterMap_congr fun h _ => ?_
  unfold Handle.holding?
  simp only [Option.map_map, Function.comp_apply]
  exact Option.map_id' ..

/-- What becomes of the statements there were when one is handed back: the names
of those that are given up wait to be closed. -/
theorem release_sound (hw : w.Sound f) (hstuck : w.isStuck = false) {id : Nat} {h : Handle}
    (hh : w.hand? id = some h) : (w.release h).Sound f := by
  obtain ⟨gone, hgiven, hput⟩ := put_perm hw.keys w.resident h
  have hkeys := Cache.put_unique hw.keys h.statement.key h.statement
  rcases hresult : w.session.statements.put h.statement.key h.statement with ⟨given, statements⟩
  rw [hresult] at hgiven hput hkeys
  obtain ⟨journal, asides, hrun, hhistory, haside⟩ := releaseStatement_apply hresult
  have hhandles : w.handles.Perm (gone ++
      (w.others h.id ++ residents (settled w.session.statements w.resident h) statements)) := by
    refine ((hands_perm hh).append_right _).trans ?_
    refine List.perm_middle.symm.trans ?_
    refine (hput.append_left (w.others h.id)).trans ?_
    rw [← List.append_assoc, ← List.append_assoc]
    exact List.perm_append_comm.append_right _
  have hheld := (hhandles.filterMap Handle.holding?).trans (.of_eq List.filterMap_append)
  have hretired := (hw.current hstuck).retired hheld
  have hnames : (gone.filterMap Handle.holding?).map Holding.name =
      given.filterMap Statement.name := by
    rw [show given = _ from hgiven]
    exact holdings_names gone
  rw [hnames] at hretired
  obtain ⟨hall, hcloses⟩ := quiet_entries w.turn none (aside_quiet haside)
  unfold release
  rw [hrun]
  have hids := (hhandles.map Handle.id).trans (.of_eq List.map_append)
  refine ⟨(hw.numbered.perm hids).sublist (List.sublist_append_right _ _), hkeys, hw.forgets,
    called_turns hw, _, fun _ => .refl _, ?_⟩
  refine called_books (given.filterMap Statement.name) w.session.pendingClose hhistory
    (hretired.noted_all hall) (List.Subset.refl _) ?_ (.refl _) ?_
  · exact (hw.current hstuck).waiting_subset
  · rw [closedNames_append, hcloses, List.append_nil]
    exact (hw.current hstuck).order

/-! ## Calls that talk to the server -/

/-- Within a call, the server acknowledges one Parse at most. -/
theorem events_once {log log' : List Entry} {turn : Nat} {runner : Option Handle}
    {events : List Event} (h : AnswersOnce (log ++ (log' ++ events.map (Entry.mk turn runner)))) :
    events.Pairwise fun x y =>
      x.message? = some .parseComplete → y.message? ≠ some .parseComplete := by
  have hevents := (List.pairwise_append.1 (List.pairwise_append.1 h).2.1).2.1
  refine (List.pairwise_map.1 hevents).imp fun {x y} hxy hx hy => ?_
  exact hxy (decide_eq_true hx) (decide_eq_true hy) rfl

/-- The run of messages of a reply leaves a statement where there was one, and
in the cache nothing but what there was. -/
theorem foldl_on (preparing : Option String) (f : Bool) (ms : List BackendMessage) (a : Accounts) :
    (ms.foldl (Accounts.on preparing f) a).statement.isSome = a.statement.isSome ∧
      (ms.foldl (Accounts.on preparing f) a).ledger.statements.entries.Sublist
        a.ledger.statements.entries := by
  induction ms generalizing a with
  | nil => exact ⟨rfl, .refl _⟩
  | cons m ms ih =>
      have hone : (a.on preparing f m).statement.isSome = a.statement.isSome ∧
          (a.on preparing f m).ledger.statements.entries.Sublist a.ledger.statements.entries := by
        by_cases hm : m = .parseComplete
        · subst hm
          show (a.parsed preparing).statement.isSome = _ ∧ _
          unfold Accounts.on Accounts.parsed
          cases preparing with
          | none => exact ⟨rfl, .refl _⟩
          | some name => exact ⟨Option.isSome_map, .refl _⟩
        · have hchanges := a.on_changes hm preparing f
          generalize a.on preparing f m = a' at hchanges
          cases hchanges with
          | none => exact ⟨Option.isSome_map, .refl _⟩
          | unprepared hm hst hname => exact ⟨by rw [hst]; rfl, .refl _⟩
          | dropped => exact ⟨rfl, List.nil_sublist _⟩
      obtain ⟨hsome, hentries⟩ := ih (a.on preparing f m)
      exact ⟨hsome.trans hone.1, hentries.trans hone.2⟩

/-- Who holds statements after a request: the one that ran does, if one did, and
the cache has nothing but what it had. -/
theorem hears_handles {statement : Option Statement}
    {sent : EStateM.Result Halt Session (Option String)} {r : EStateM.Result Halt Session Reply}
    {events : List Event} {a : Accounts} (h : Session.Hears statement sent r events a)
    (hledger : (final sent).statements = w.session.statements) :
    a.statement.isSome = statement.isSome ∧ (final r).statements = a.ledger.statements ∧
      (final r).statements.entries.Sublist w.session.statements.entries := by
  have hstatements : (final r).statements = a.ledger.statements :=
    congrArg Ledger.statements h.ledger
  obtain ⟨hsome, hentries⟩ := foldl_on (Session.offer sent) (final sent).forgetsOnDrop
    (events.filterMap Event.message?) ⟨statement, (final sent).ledger⟩
  rw [← h.accounts] at hsome hentries
  refine ⟨hsome, hstatements, ?_⟩
  rw [hstatements, ← hledger]
  exact hentries

/-- A statement about to run may have to give up its name, which is of an
earlier epoch then, and the name it keeps is of the current one. -/
theorem readied_sound {id : Nat} {rest : List Handle} {resident : StatementKey → Nat}
    {queued : List String} {log : List Entry} {s : Session} {st : Statement}
    (hs : Books.Sound f (Accounts.books id rest resident queued log ⟨some st, s.ledger⟩)) :
    Books.Sound f (Accounts.books id rest resident queued log ⟨some (s.readied st), s.ledger⟩) ∧
      (s.readied st).native = st.native ∧
      ((s.readied st).name.isSome → (s.readied st).epoch = s.epoch) := by
  have hform : ∀ st', (Accounts.books id rest resident queued log ⟨some st', s.ledger⟩).held =
      (Handle.holding? { id, statement := st' }).toList ++
        holdings (rest ++ residents resident s.statements) :=
    fun st' => Accounts.books_held queued log ⟨some st', s.ledger⟩
  have hsame : ∀ st' : Statement,
      Handle.holding? { id, statement := st' } = Handle.holding? { id, statement := st } →
      Books.Sound f (Accounts.books id rest resident queued log ⟨some st', s.ledger⟩) := by
    intro st' hst'
    refine hs.perm (.of_eq ?_)
    rw [hform, ← hst', ← hform]
    rfl
  cases hname : st.name with
  | none =>
      have hreadied : s.readied st =
          ({ st with isSuspended := false } : Statement).countExecution := by
        simp [Session.readied, Session.aboutToRun, Statement.isPrepared, hname]
      rw [hreadied]
      refine ⟨hsame _ (holding?_congr rfl rfl rfl), rfl, fun h => ?_⟩
      have hnone : st.name.isSome = true := h
      rw [hname] at hnone
      cases hnone
  | some name =>
      by_cases hnow : st.epoch = s.epoch
      · have hreadied : s.readied st =
            ({ st with isSuspended := false } : Statement).countExecution := by
          simp [Session.readied, Session.aboutToRun, Statement.isPrepared,
            Statement.isPreparedIn, hname, hnow]
        rw [hreadied]
        exact ⟨hsame _ (holding?_congr rfl rfl rfl), rfl, fun _ => hnow⟩
      · have hreadied : s.readied st =
            ({ st with isSuspended := false } : Statement).unprepare.countExecution := by
          simp [Session.readied, Session.aboutToRun, Statement.isPrepared,
            Statement.isPreparedIn, hname, hnow]
        rw [hreadied]
        refine ⟨?_, rfl, fun h => by cases h⟩
        have hheld : (Accounts.books id rest resident queued log ⟨some st, s.ledger⟩).held.Perm
            ({ id, native := st.native, name, epoch := st.epoch } ::
              holdings (rest ++ residents resident s.statements)) := by
          rw [hform, holding?_of_named hname]
          exact .refl _
        have hafter := hform ({ st with isSuspended := false } : Statement).unprepare.countExecution
        rw [holding?_of_unnamed rfl] at hafter
        exact (hs.forgotten hheld hnow).perm (.of_eq hafter.symm)

theorem closings_encode {s : Session} {nextName : Nat}
    (h : ∀ name ∈ s.pendingClose, Issued nextName name) :
    ∃ closing, s.closings.mapM (encode s.channel.charset) = .ok closing := by
  refine mapM_ok fun m hm => encode_of_zero_free fun text htext => ?_
  obtain ⟨name, hname, rfl⟩ := List.mem_map.1 hm
  rw [List.mem_singleton.1 htext]
  exact (h name hname).zero_free

/-- The names that wait to be closed can be sent. -/
theorem Sound.closable (hw : w.Sound f) (hstuck : w.isStuck = false) :
    ∃ closing, w.session.closings.mapM (encode w.session.channel.charset) = .ok closing :=
  closings_encode fun name hname =>
    (hw.current hstuck).issued name (.inr (.inl ((hw.current hstuck).waiting_subset hname)))

theorem closedNames_mute {log : List Entry} {turn : Nat} {runner : Option Handle}
    {events : List Event} (h : ∀ e ∈ events, e.isAside = true ∨ e.message?.isSome = true) :
    closedNames (log ++ events.map (Entry.mk turn runner)) = closedNames log := by
  rw [closedNames_append]
  refine (congrArg (closedNames log ++ ·) ?_).trans (List.append_nil _)
  refine List.filterMap_eq_nil_iff.2 fun e he => ?_
  obtain ⟨event, hevent, rfl⟩ := List.mem_map.1 he
  exact (Entry.mute (h event hevent)).2.1

/-- A request was sent, as far as it could be, and what follows is heard. The
books are those of the accounts the reply comes to. -/
theorem request_sound (runner : Option Handle) (id : Nat) (rest : List Handle)
    (before : List Event) {statement : Option Statement}
    {sent : EStateM.Result Halt Session (Option String)} {r : EStateM.Result Halt Session Reply}
    {asides events : List Event} {a : Accounts}
    (hold : w.session.pendingClose ⊆ w.queued)
    (hforgets : (final sent).forgetsOnDrop = f)
    (hhistory : (final sent).history = w.session.history ++ before ++ asides)
    (haside : ∀ e ∈ asides, e.isAside = true)
    (hhears : Session.Hears statement sent r events a)
    (hid : (Session.offer sent).isSome → runner.map Handle.id = some id)
    (hs : Books.Sound f (Accounts.books id rest w.resident w.queued
      (w.log ++ before.map (Entry.mk w.turn runner)) ⟨statement, (final sent).ledger⟩))
    (hoffers : halt? sent = none → Offers (Session.offer sent) w.turn statement
      (Accounts.books id rest w.resident w.queued
        (w.log ++ before.map (Entry.mk w.turn runner)) ⟨statement, (final sent).ledger⟩))
    (hkept : (final sent).pendingClose ⊆ w.session.pendingClose)
    (honce : AnswersOnce (w.called runner r).log) :
    ((w.called runner r).books (a.books id rest w.resident [] []).held).Sound f := by
  have hall : (final r).history = w.session.history ++ (before ++ (asides ++ events)) := by
    rw [hhears.history, hhistory]
    simp only [List.append_assoc]
  have hkinds : ∀ e ∈ asides ++ events, e.isAside = true ∨ e.message?.isSome = true :=
    fun e he => (List.mem_append.1 he).elim (fun he => .inl (haside e he)) (hhears.kinds e)
  rw [called_log hall, List.map_append] at honce
  have hmessages :
      (asides ++ events).filterMap Event.message? = events.filterMap Event.message? := by
    rw [List.filterMap_append, filterMap_message?_of_isAside haside, List.nil_append]
  have hpending : Offers (Session.offer sent) w.turn statement
      (Accounts.books id rest w.resident w.queued
        (w.log ++ before.map (Entry.mk w.turn runner)) ⟨statement, (final sent).ledger⟩) ∨
      ∀ e ∈ asides ++ events, e.message? ≠ some .parseComplete := by
    cases hhalt : halt? sent with
    | none => exact .inl (hoffers hhalt)
    | some halt =>
        refine .inr fun e he => (List.mem_append.1 he).elim (fun he => ?_)
          (hhears.unsent (by rw [hhalt]; rfl) e)
        rw [Event.message?_of_isAside (haside e he)]
        nofun
  obtain ⟨added, hsound, hwaiting⟩ := heard_sound hid (asides ++ events) hkinds
    (events_once honce) hs hpending
  rw [hmessages, ← hforgets, ← hhears.accounts] at hsound hwaiting
  have hledger : a.ledger = (final r).ledger := hhears.ledger.symm
  have hentries : w.log ++ (before ++ (asides ++ events)).map (Entry.mk w.turn runner) =
      w.log ++ before.map (Entry.mk w.turn runner) ++
        (asides ++ events).map (Entry.mk w.turn runner) := by
    rw [List.map_append, List.append_assoc]
  refine called_books added (final sent).pendingClose hall ?_ hkept hold ?_ ?_
  · unfold Accounts.books at hsound ⊢
    rw [hentries, ← hforgets]
    rw [hledger] at hsound ⊢
    exact hsound
  · rw [hledger] at hwaiting
    exact hwaiting
  · rw [hentries, closedNames_mute hkinds]
    exact hs.order

/-- The books being in order, all is in order after a request, if the caller's hands are left with
the statement that ran, as the reply says it is, and with the others. -/
theorem heard_hands_sound (hw : w.Sound f) {runner : Option Handle} {id : Nat}
    {before hands rest : List Handle} {statement : Option Statement}
    {sent : EStateM.Result Halt Session (Option String)} {r : EStateM.Result Halt Session Reply}
    {events : List Event} {a : Accounts} (hhears : Session.Hears statement sent r events a)
    (hledger : (final sent).statements = w.session.statements)
    (hforgets : (final sent).forgetsOnDrop = w.session.forgetsOnDrop)
    (hbefore : w.hands.Perm before) (hids : (hands.map Handle.id).Sublist (before.map Handle.id))
    (hhands : (w.called runner r).isStuck = false →
      hands = a.statement.toList.map (Handle.mk id) ++ rest)
    (hbooks : ((w.called runner r).books (a.books id rest w.resident [] []).held).Sound f) :
    Sound f { w.called runner r with hands } := by
  obtain ⟨-, hstatements, hentries⟩ := hears_handles hhears hledger
  refine ⟨?_, hw.keys.sublist (hentries.map _), (hhears.forgets.trans hforgets).trans hw.forgets,
    called_turns hw, _, fun hnotstuck => ?_, hbooks⟩
  · have hnumbered := hw.numbered.perm ((hbefore.append_right _).map Handle.id)
    have hresidents : ((residents w.resident (final r).statements).map Handle.id).Sublist
        ((residents w.resident w.session.statements).map Handle.id) :=
      (hentries.map _).map _
    rw [List.map_append] at hnumbered
    unfold ids handles
    rw [List.map_append]
    exact hnumbered.sublist (hids.append hresidents)
  · show (holdings (a.statement.toList.map (Handle.mk id) ++
      (rest ++ residents w.resident a.ledger.statements))).Perm
        (holdings (hands ++ residents w.resident (final r).statements))
    rw [hhands hnotstuck, hstatements, List.append_assoc]

/-- Who holds the statement that ran, and what the cache has, is as the accounts
of the reply say. -/
theorem execute_sound (hw : w.Sound f) (hstuck : w.isStuck = false) {id : Nat} {h : Handle}
    (hh : w.hand? id = some h) (parameters : List (Option Bytes))
    (honce : AnswersOnce (w.execute h parameters).log) : (w.execute h parameters).Sound f := by
  have hhandles : w.handles.Perm
      (h :: (w.others h.id ++ residents w.resident w.session.statements)) :=
    (hands_perm hh).append_right _
  have hcurrent := (hw.current hstuck).perm (hhandles.filterMap Handle.holding?)
  cases hclosed : w.session.isClosed with
  | true =>
      have hrun : Session.execute h.statement parameters w.session = _ :=
        Session.execute_of_closed hclosed
      unfold execute
      rw [hrun]
      refine ⟨hw.numbered.perm (hhandles.map Handle.id), hw.keys, hw.forgets, called_turns hw, _,
        fun _ => .refl _, ?_⟩
      exact called_same [] hcurrent (List.append_nil _).symm (List.forall_mem_nil _) rfl rfl rfl
  | false =>
      obtain ⟨hs, hnative, hepoch⟩ := readied_sound (show Books.Sound _ (Accounts.books h.id
        (w.others h.id) w.resident w.queued w.log ⟨some h.statement, w.session.ledger⟩) from
        hcurrent)
      have hold : w.session.pendingClose ⊆ w.queued := hcurrent.waiting_subset
      have hclosable := hw.closable hstuck
      have hsends := Session.sendStatement_sends (w.session.readied h.statement) parameters
        w.session
      have hanswers := Session.execute_answers hclosed h.statement parameters
      obtain ⟨sent, asides, hprefix, hhistory, haside, hledger, hforgets, hdone⟩ :=
        hsends.drafts hclosable
      obtain ⟨events, a, hhears⟩ := hanswers.hears
      generalize Session.sendStatement (w.session.readied h.statement) parameters w.session = send
        at hanswers hhistory hledger hforgets hdone hhears
      unfold execute at honce ⊢
      generalize Session.execute h.statement parameters w.session = r
        at hanswers hhears honce ⊢
      have hdrafts := Session.drafts_sound w.turn hs hnative.symm hepoch hprefix
      rw [← map_sending, ← hledger] at hdrafts
      have hbooks := request_sound (some h) h.id (w.others h.id)
        ((w.session.closings ++ sent).map Event.sending) hold (hforgets.trans hw.forgets)
        hhistory haside hhears (fun _ => rfl) hdrafts (fun hhalt => ?_) ?_ honce
      · have hstatements := congrArg Ledger.statements hledger
        refine heard_hands_sound hw hhears hstatements hforgets (hands_perm hh) ?_
          (fun hnotstuck => ?_) hbooks
        · cases r with
          | error halt s' => exact List.sublist_cons_self _ _
          | ok reply s' => exact .refl _
        · cases r with
          | error halt s' =>
              cases hanswers.error
              cases hnotstuck
          | ok reply s' =>
              obtain ⟨st, hst⟩ :=
                Option.isSome_iff_exists.1 (hears_handles hhears hstatements).1
              simp only []
              rw [hhears.reply reply s' rfl, hst]
              rfl
      · obtain ⟨hwhole, hoffer⟩ := hdone hhalt
        rw [map_sending, hledger, hoffer, hwhole]
        exact Session.drafts_offers hs hw.turns
      · rw [show (final send).pendingClose = [] from congrArg Ledger.pendingClose hledger]
        exact List.nil_subset _

theorem query_sound (hw : w.Sound f) (hstuck : w.isStuck = false) (sql : String)
    (honce : AnswersOnce (w.called none (Session.query sql w.session)).log) :
    (w.called none (Session.query sql w.session)).Sound f := by
  rcases Session.query_refused_or_sent sql w.session with ⟨e, hrun, -⟩ | ⟨hopen, octets, hencode⟩
  · rw [hrun]
    exact called_sound [] hw hstuck (List.append_nil _).symm (List.forall_mem_nil _) rfl rfl
  · have hcurrent := hw.current hstuck
    obtain ⟨events, a, hhears⟩ := (Session.query_answers hopen hencode).hears
    obtain ⟨asides, hhistory, haside, hledger, hforgets, hoffer⟩ :=
      Session.sendQuery_asides w.session sql octets
    generalize Session.sendQuery (w.session.drafts [.query sql] octets) = send
      at hhistory hledger hforgets hoffer hhears
    generalize Session.query sql w.session = r at hhears honce ⊢
    have hbooks := request_sound none 0 w.hands []
      hcurrent.waiting_subset (hforgets.trans hw.forgets)
      (by rw [List.append_nil]; exact hhistory) haside hhears
      (by rw [hoffer]; nofun) ?_ (fun _ => ?_) ?_ honce
    · have hstatements := congrArg Ledger.statements hledger
      have hnone : a.statement = none := Option.isNone_iff_eq_none.1
        (Option.isSome_eq_false_iff.1 (hears_handles hhears hstatements).1)
      refine heard_hands_sound hw hhears hstatements hforgets (.refl _) (.refl _)
        (fun _ => ?_) hbooks
      rw [hnone]
      rfl
    · rw [hledger, List.map_nil, List.append_nil]
      exact hcurrent
    · rw [hoffer]
      refine ⟨fun p hp hturn => ?_, nofun⟩
      rw [show p ∈ _ ↔ p ∈ w.log from by simp [Accounts.books]] at hp
      exact absurd hturn (Nat.ne_of_lt (hw.turns p hp))
    · rw [show (final send).pendingClose = w.session.pendingClose from
        congrArg Ledger.pendingClose hledger]
      exact List.Subset.refl _

/-! ## Runs -/

theorem step_of_stuck (h : w.isStuck = true) (operation : Operation) : w.step operation = w :=
  if_pos h

theorem step_of_running (h : w.isStuck = false) (operation : Operation) :
    w.step operation = w.act operation := by
  unfold step
  rw [h]
  rfl

/-- A statement that is not at hand cannot be handed back. -/
theorem act_release (w : World) (id : Nat) : w.act (.release id) = w ∨
    ∃ h, w.hand? id = some h ∧ w.act (.release id) = w.release h := by
  have hact : w.act (.release id) = (w.hand? id).elim w fun h => w.release h := rfl
  rw [hact]
  cases w.hand? id with
  | none => exact .inl rfl
  | some h => exact .inr ⟨h, rfl, rfl⟩

/-- A statement that is not at hand cannot be run. -/
theorem act_execute (w : World) (id : Nat) (parameters : List (Option Bytes)) :
    w.act (.execute id parameters) = w ∨
      ∃ h, w.hand? id = some h ∧ w.act (.execute id parameters) = w.execute h parameters := by
  have hact : w.act (.execute id parameters) =
      (w.hand? id).elim w fun h => w.execute h parameters := rfl
  rw [hact]
  cases w.hand? id with
  | none => exact .inl rfl
  | some h => exact .inr ⟨h, rfl, rfl⟩

theorem obtained_session (id : Nat) (r : EStateM.Result Halt Session Statement) :
    (w.obtained id r).session = final r := by
  cases r <;> rfl

theorem borrow_session (w : World) (key : StatementKey) :
    ∃ statements, (w.borrow key).session = { w.session with statements } := by
  obtain ⟨statements, hborrow, -⟩ := borrowStatement_session key w.session
  unfold borrow
  simp only []
  split
  · exact ⟨statements, (obtained_session ..).trans hborrow⟩
  · exact ⟨statements, (obtained_session ..).trans hborrow⟩

theorem create_session (w : World) (key : StatementKey) : (w.create key).session = w.session := by
  show (w.obtained w.made (Session.createStatement key w.session)).session = _
  rw [obtained_session, createStatement_apply, final_lift]

theorem release_session (w : World) (h : Handle) :
    ∃ journal asides statements pendingClose, (w.release h).session =
        { w.session with statements, pendingClose, channel := { w.session.channel with journal } } ∧
      journal.toList = w.session.history ++ asides ∧ ∀ e ∈ asides, e.isAside = true := by
  rcases hput : w.session.statements.put h.statement.key h.statement with ⟨given, statements⟩
  obtain ⟨journal, asides, hrun, hhistory, haside⟩ := releaseStatement_apply hput
  refine ⟨journal, asides, statements,
    w.session.pendingClose ++ given.filterMap Statement.name, ?_, hhistory, haside⟩
  show final (Session.releaseStatement h.statement w.session) = _
  rw [hrun]
  rfl

/-- An operation that has nothing to say to the server is about the statements there are and the
names to be closed. -/
theorem act_local (w : World) {operation : Operation} (h : operation.isLocal = true) :
    ∃ journal asides statements pendingClose, (w.act operation).session =
        { w.session with statements, pendingClose, channel := { w.session.channel with journal } } ∧
      journal.toList = w.session.history ++ asides ∧ ∀ e ∈ asides, e.isAside = true := by
  have hsame : ∀ {s : Session} {statements : Cache StatementKey Statement},
      s = { w.session with statements } →
      ∃ journal asides statements pendingClose, s = { w.session with
          statements, pendingClose, channel := { w.session.channel with journal } } ∧
        journal.toList = w.session.history ++ asides ∧ ∀ e ∈ asides, e.isAside = true :=
    fun hs => ⟨w.session.channel.journal, [], _, _, hs, (List.append_nil _).symm,
      List.forall_mem_nil _⟩
  cases operation with
  | borrow key =>
      obtain ⟨statements, hborrow⟩ := w.borrow_session key
      exact hsame hborrow
  | create key => exact hsame (w.create_session key)
  | setFetchSize id rows => exact hsame rfl
  | release id =>
      rcases w.act_release id with hact | ⟨handle, -, hact⟩
      · rw [hact]
        exact hsame rfl
      · rw [hact]
        exact w.release_session handle
  | query | execute | takeNotices | close | abort | arrive => cases h

/-- A session that has ended stays so. -/
theorem act_open {w : World} {operation : Operation}
    (hopen : (w.act operation).session.isClosed = false) : w.session.isClosed = false := by
  cases hclosed : w.session.isClosed with
  | false => rfl
  | true =>
      suffices hstill : (w.act operation).session.isClosed = true by
        rw [hstill] at hopen
        exact hopen
      have hlocal : ∀ {operation : Operation}, operation.isLocal = true →
          (w.act operation).session.isClosed = true := by
        intro operation h
        obtain ⟨journal, asides, statements, pendingClose, hact, -⟩ := w.act_local h
        rw [hact]
        exact hclosed
      cases operation with
      | borrow | create | setFetchSize | release => exact hlocal rfl
      | query sql =>
          show (final (Session.query sql w.session)).isClosed = true
          rw [Session.query_of_closed hclosed]
          exact hclosed
      | execute id parameters =>
          rcases w.act_execute id parameters with hact | ⟨h, -, hact⟩
          · rw [hact]
            exact hclosed
          · rw [hact]
            show (final (Session.execute h.statement parameters w.session)).isClosed = true
            rw [Session.execute_of_closed hclosed]
            exact hclosed
      | takeNotices wait =>
          show (final (Session.takeNotices wait w.session)).isClosed = true
          have hnotices := Session.takeNotices_notices wait w.session
          generalize Session.takeNotices wait w.session = r at hnotices
          cases hnotices with
          | none => rw [final_lift]; exact hclosed
          | taken _ hwas => rw [hclosed] at hwas; cases hwas
          | failed _ hwas => rw [hclosed] at hwas; cases hwas
          | @waiting s hidles =>
              cases hs : s.isClosed with
              | true => exact hs
              | false =>
                  have hwas := (hidles.quiet hs).1
                  rw [hclosed] at hwas
                  cases hwas
      | close => exact Session.close_reaches.final w.session
      | abort => exact Session.abort_reaches.final w.session
      | arrive => exact hclosed

theorem step_sound (hw : w.Sound f) (operation : Operation)
    (honce : AnswersOnce (w.step operation).log) : (w.step operation).Sound f := by
  cases hstuck : w.isStuck with
  | true =>
      rw [step_of_stuck hstuck]
      exact hw
  | false =>
      rw [step_of_running hstuck] at honce ⊢
      cases operation with
      | borrow key => exact borrow_sound hw hstuck key
      | create key => exact create_sound hw hstuck key
      | setFetchSize id rows => exact setFetchSize_sound hw id rows
      | release id =>
          rcases w.act_release id with hact | ⟨h, hh, hact⟩
          · rw [hact]
            exact hw
          · rw [hact]
            exact release_sound hw hstuck hh
      | query sql => exact query_sound hw hstuck sql honce
      | execute id parameters =>
          rcases w.act_execute id parameters with hact | ⟨h, hh, hact⟩
          · rw [hact]
            exact hw
          · rw [hact] at honce ⊢
            exact execute_sound hw hstuck hh parameters honce
      | takeNotices wait => exact takeNotices_sound hw hstuck wait
      | close => exact close_sound hw hstuck
      | abort => exact abort_sound hw hstuck
      | arrive octets ended faults => exact ⟨hw.numbered, hw.keys, hw.forgets, hw.turns, hw.books⟩

theorem log_prefix_step (w : World) (operation : Operation) :
    w.log <+: (w.step operation).log := by
  have hcalled : ∀ {α : Type} (runner : Option Handle) (r : EStateM.Result Halt Session α),
      w.log <+: (w.called runner r).log := fun runner r => List.prefix_append _ _
  have hobtained : ∀ (id : Nat) (r : EStateM.Result Halt Session Statement),
      w.log <+: (w.obtained id r).log := by
    intro id r
    cases r <;> exact hcalled _ _
  cases hstuck : w.isStuck with
  | true => exact ⟨[], by rw [step_of_stuck hstuck, List.append_nil]⟩
  | false =>
      rw [step_of_running hstuck]
      cases operation with
      | borrow key =>
          show w.log <+: (w.borrow key).log
          unfold borrow
          simp only []
          split <;> exact hobtained _ _
      | create key => exact hobtained _ _
      | release id =>
          rcases w.act_release id with hact | ⟨h, -, hact⟩
          · exact ⟨[], by rw [hact, List.append_nil]⟩
          · rw [hact]
            exact hcalled none _
      | execute id parameters =>
          rcases w.act_execute id parameters with hact | ⟨h, -, hact⟩
          · exact ⟨[], by rw [hact, List.append_nil]⟩
          · rw [hact]
            exact hcalled (some h) _
      | query | takeNotices | close | abort => exact hcalled _ _
      | setFetchSize | arrive => exact List.prefix_refl _

theorem log_prefix_run (w : World) (operations : List Operation) :
    w.log <+: (w.run operations).log := by
  induction operations generalizing w with
  | nil => exact List.prefix_refl _
  | cons operation operations ih => exact (log_prefix_step w operation).trans (ih _)

/-- What the server never does in a run it never did before it. -/
theorem once_of_run {operations : List Operation} (h : AnswersOnce (w.run operations).log) :
    AnswersOnce w.log :=
  List.Pairwise.sublist (log_prefix_run w operations).sublist h

/-- Whatever is done to a world, its books stay sound. -/
theorem run_sound (hw : w.Sound f) (operations : List Operation)
    (honce : AnswersOnce (w.run operations).log) : (w.run operations).Sound f := by
  induction operations generalizing w with
  | nil => exact hw
  | cons operation operations ih =>
      exact ih (step_sound hw operation (once_of_run honce)) honce

/-- A session without statements has nothing to account for. -/
theorem fresh_sound {s : Session} (hs : s.IsFresh) : (start s).Sound s.forgetsOnDrop := by
  refine ⟨?_, ?_, rfl, List.forall_mem_nil _, [], fun _ => ?_, ?_⟩
  · show Numbered 0 ((residents _ s.statements).map Handle.id)
    unfold residents
    rw [hs.statements]
    exact ⟨List.nodup_nil, List.forall_mem_nil _⟩
  · show (s.statements.entries.map Prod.fst).Nodup
    rw [hs.statements]
    exact List.nodup_nil
  · show [].Perm (holdings ([] ++ residents _ s.statements))
    unfold residents
    rw [hs.statements]
    exact .refl _
  · unfold books start
    simp only [hs.pendingClose]
    refine ⟨List.nodup_nil, .refl _, ?_, List.nodup_nil, List.forall_mem_nil _, ?_, ?_⟩
    · rintro name (hname | hname | hname) <;> cases hname
    · rintro name ⟨-, id, sql, since, ⟨earlier, ack, hsplit, -⟩, -⟩
      cases earlier <;> cases hsplit
    · rintro - before e after name hsplit
      cases before <;> cases hsplit

end World

end PgClient
