import PgClient.Proofs.Names
import PgClient.Proofs.Request

/-!
# What a request does to the books

A request first sends and then listens. What it sends are the names that wait to
be closed, then at most one Parse, then one Bind, and every name in this is
either new or held. What it hears is read as a run of events, of which only
three kinds of message matter, and the one that acknowledges a Parse comes at
most once. `Offers` is what is known until it does: the statement that runs has
no name, and the one it is offered under belongs to nobody.
-/

namespace PgClient

open Exchange FrontendMessage Books

/-! ## Accounts as books -/

variable {id : Nat} {rest : List Handle} {resident : StatementKey → Nat} {f : Bool}

/-- The books while a statement of this number runs, or none. -/
def Accounts.books (id : Nat) (rest : List Handle) (resident : StatementKey → Nat)
    (queued : List String) (log : List Entry) (a : Accounts) : Books where
  held := holdings (a.statement.toList.map (Handle.mk id) ++
    (rest ++ World.residents resident a.ledger.statements))
  waiting := a.ledger.pendingClose
  queued
  epoch := a.ledger.epoch
  nextName := a.ledger.nextName
  log

theorem holdings_append (hs hs' : List Handle) :
    holdings (hs ++ hs') = holdings hs ++ holdings hs' :=
  List.filterMap_append

theorem holdings_singleton (h : Handle) : holdings [h] = h.holding?.toList := by
  unfold holdings
  cases hh : h.holding? <;> simp [hh]

theorem holding?_of_named {st : Statement} {name : String} (h : st.name = some name) :
    Handle.holding? { id, statement := st } =
      some { id, native := st.native, name, epoch := st.epoch } := by
  unfold Handle.holding?
  rw [h, Option.map_some]

theorem holding?_of_unnamed {st : Statement} (h : st.name = none) :
    Handle.holding? { id, statement := st } = none := by
  unfold Handle.holding?
  rw [h, Option.map_none]

/-- What a statement holds is a matter of its text, its name and its epoch. -/
theorem holding?_congr {st st' : Statement} (hname : st'.name = st.name)
    (hnative : st'.native = st.native) (hepoch : st'.epoch = st.epoch) :
    Handle.holding? { id, statement := st' } = Handle.holding? { id, statement := st } := by
  unfold Handle.holding?
  simp only [hname, hnative, hepoch]

theorem Accounts.books_held (queued : List String) (log : List Entry) (a : Accounts) :
    (a.books id rest resident queued log).held =
      (a.statement.bind fun st => Handle.holding? { id, statement := st }).toList ++
        holdings (rest ++ World.residents resident a.ledger.statements) := by
  unfold Accounts.books
  simp only []
  rw [holdings_append]
  cases a.statement with
  | none => rfl
  | some st => exact congrArg (· ++ _) (holdings_singleton _)

/-- A change to a statement does not show in the books if its text, its name and
its epoch stay the same. -/
theorem Accounts.books_map (a : Accounts) {g : Statement → Statement}
    (hg : ∀ st, (g st).name = st.name ∧ (g st).native = st.native ∧ (g st).epoch = st.epoch)
    (queued : List String) (log : List Entry) :
    ({ a with statement := a.statement.map g } : Accounts).books id rest resident queued log =
      a.books id rest resident queued log := by
  have hheld : (({ a with statement := a.statement.map g } : Accounts).books id rest resident
      queued log).held = (a.books id rest resident queued log).held := by
    rw [Accounts.books_held, Accounts.books_held]
    cases a.statement with
    | none => rfl
    | some st =>
        obtain ⟨hname, hnative, hepoch⟩ := hg st
        exact congrArg (Option.toList · ++ _) (holding?_congr hname hnative hepoch)
  unfold Accounts.books at hheld ⊢
  rw [Books.mk.injEq]
  exact ⟨hheld, rfl, rfl, rfl, rfl, rfl⟩

/-- What a message does that is not about an acknowledged Parse. -/
inductive Accounts.Changes (f : Bool) (m : BackendMessage) (a : Accounts) : Accounts → Prop where
  /-- Nothing that has to do with names. -/
  | none {g : Statement → Statement} (hm : f = true → m.drops = false)
      (hg : ∀ st, (g st).name = st.name ∧ (g st).native = st.native ∧ (g st).epoch = st.epoch) :
      Changes f m a { a with statement := a.statement.map g }
  /-- The name of the statement is given up. -/
  | unprepared {st : Statement} {name : String} (hm : m.drops = false)
      (hst : a.statement = some st) (hname : st.name = some name) :
      Changes f m a
        { statement := some st.unprepare
          ledger := { a.ledger with pendingClose := a.ledger.pendingClose ++ [name] } }
  /-- Everything is dropped. -/
  | dropped (hf : f = true) (hm : m.drops = true) : Changes f m a a.dropped

theorem Accounts.on_changes {m : BackendMessage} (hm : m ≠ .parseComplete)
    (preparing : Option String) (f : Bool) (a : Accounts) :
    Changes f m a (a.on preparing f m) := by
  have hsame : ∀ {m}, (f = true → m.drops = false) → Changes f m a a := by
    intro m hm
    have := Changes.none (a := a) (g := fun st => st) hm fun _ => ⟨rfl, rfl, rfl⟩
    rwa [Option.map_id'] at this
  cases m with
  | parseComplete => exact absurd rfl hm
  | portalSuspended => exact .none (fun _ => rfl) fun _ => ⟨rfl, rfl, rfl⟩
  | commandComplete tag =>
      unfold Accounts.on
      simp only []
      cases hdrops : Session.Conversation.dropsStatements tag with
      | false => exact hsame fun _ => hdrops
      | true =>
          cases f with
          | false => exact hsame nofun
          | true => exact .dropped rfl hdrops
  | errorResponse report =>
      unfold Accounts.on
      simp only []
      split
      · unfold Accounts.unprepared
        split
        · next name hname =>
            obtain ⟨st, hst, hname⟩ := Option.bind_eq_some_iff.1 hname
            rw [hst]
            exact .unprepared rfl hst hname
        · exact hsame fun _ => rfl
      · exact hsame fun _ => rfl
  | _ => exact hsame fun _ => rfl

/-! ## A reply -/

/-- What is known about the name a statement is offered under until the server
acknowledges it. -/
structure Offers (preparing : Option String) (turn : Nat) (st? : Option Statement) (b : Books) :
    Prop where
  only : ∀ p ∈ b.log, p.turn = turn → ∀ name sql, p.parse? = some (name, sql) → name ≠ "" →
    preparing = some name
  offered : ∀ name, preparing = some name → name ∉ b.heldNames ∧ name ∉ b.queued ∧
    Issued b.nextName name ∧ ∃ st, st? = some st ∧ st.name = none ∧
      ∃ p ∈ b.log, p.turn = turn ∧ p.parse? = some (name, st.native)

theorem Offers.step {preparing : Option String} {turn : Nat} {st? st?' : Option Statement}
    {b b' : Books} {e : Entry} (h : Offers preparing turn st? b) (he : e.parse? = none)
    (hlog : b'.log = b.log ++ [e]) (hnext : b'.nextName = b.nextName)
    (hheld : b'.heldNames ⊆ b.heldNames) (hqueued : preparing.isSome → b'.queued = b.queued)
    (hst : ∀ st, st? = some st → st.name = none →
      ∃ st', st?' = some st' ∧ st'.name = none ∧ st'.native = st.native) :
    Offers preparing turn st?' b' := by
  constructor
  · rw [hlog]
    intro p hp hturn name sql hparse
    rcases List.mem_append.1 hp with hp | hp
    · exact h.only p hp hturn name sql hparse
    · rw [List.mem_singleton.1 hp, he] at hparse
      cases hparse
  · intro name hname
    obtain ⟨hnheld, hnqueued, hissued, st, hst?, hnone, p, hp, hturn, hparse⟩ :=
      h.offered name hname
    obtain ⟨st', hst', hnone', hnative⟩ := hst st hst? hnone
    refine ⟨fun hn => hnheld (hheld hn), ?_, hnext ▸ hissued, st', hst', hnone', p, ?_, hturn, ?_⟩
    · rw [hqueued (by rw [hname]; rfl)]
      exact hnqueued
    · rw [hlog]
      exact List.mem_append_left _ hp
    · rw [hnative]
      exact hparse

/-- A message is heard that is not about an acknowledged Parse. -/
theorem changes_sound {m : BackendMessage} {a a' : Accounts} (h : a.Changes f m a') {e : Entry}
    (he : e.event.message? = some m) (hm : m ≠ .parseComplete) {queued : List String}
    {log : List Entry}
    (hs : Sound f (a.books id rest resident queued log)) :
    ∃ added, Sound f (a'.books id rest resident (queued ++ added) (log ++ [e])) ∧
      a'.ledger.pendingClose.Sublist (a.ledger.pendingClose ++ added) ∧
      ∀ preparing turn, Offers preparing turn a.statement (a.books id rest resident queued log) →
        Offers preparing turn a'.statement
          (a'.books id rest resident (queued ++ added) (log ++ [e])) := by
  have hmute : e.event.isAside = true ∨ e.event.message?.isSome = true := .inr (by rw [he]; rfl)
  have hparse := (Entry.mute hmute).1
  have hack : e.isParseComplete = false := by
    unfold Entry.isParseComplete
    rw [he]
    simpa using hm
  have hdrops : e.drops = m.drops := by
    unfold Entry.drops
    rw [he, Option.any_some]
  cases h with
  | @none g hm hg =>
      have hbooks : ({ a with statement := a.statement.map g } : Accounts).books id rest resident
          queued (log ++ [e]) = { a.books id rest resident queued log with log := log ++ [e] } :=
        a.books_map hg queued (log ++ [e])
      refine ⟨[], ?_, ?_, fun preparing turn ho => ?_⟩
      · rw [List.append_nil, hbooks]
        exact hs.noted hmute hack (by rw [hdrops]; exact hm)
      · rw [List.append_nil]
      · rw [List.append_nil, hbooks]
        refine ho.step hparse rfl rfl (List.Subset.refl _) (fun _ => rfl) fun st hst hnone => ?_
        refine ⟨g st, ?_, ?_, (hg st).2.1⟩
        · rw [hst]
          rfl
        · rw [(hg st).1]
          exact hnone
  | @unprepared st name hm hst hname =>
      have hheld : (a.books id rest resident queued log).held.Perm
          ([{ id, native := st.native, name, epoch := st.epoch }] ++
            holdings (rest ++ World.residents resident a.ledger.statements)) := by
        rw [Accounts.books_held, hst, Option.bind_some, holding?_of_named hname]
        exact .refl _
      have hretired := (hs.retired hheld).noted hmute hack (by rw [hdrops, hm]; exact fun _ => rfl)
      refine ⟨[name], ?_, .refl _, fun preparing turn ho => ?_⟩
      · rw [Accounts.books, holdings_append]
        exact hretired
      · cases preparing with
        | none =>
            refine ⟨fun p hp hturn => ?_, nofun⟩
            rcases List.mem_append.1 hp with hp | hp
            · exact ho.only p hp hturn
            · rw [List.mem_singleton.1 hp, hparse]
              nofun
        | some new =>
            -- a statement that is being prepared has no name to give up
            obtain ⟨-, -, -, st', hst', hnone, -⟩ := ho.offered new rfl
            rw [hst] at hst'
            cases hst'
            rw [hname] at hnone
            cases hnone
  | dropped hf hm =>
      subst hf
      have hheld : (a.dropped.books id rest resident queued (log ++ [e])).held.Sublist
          (a.books id rest resident queued log).held := by
        rw [Accounts.books_held, Accounts.books_held]
        refine List.Sublist.append (.refl _) ?_
        rw [holdings_append, holdings_append]
        exact List.Sublist.append (.refl _) (List.nil_sublist _)
      refine ⟨[], ?_, List.nil_sublist _, fun preparing turn ho => ?_⟩
      · rw [List.append_nil]
        exact hs.dropped hheld (hdrops.trans hm)
      · rw [List.append_nil]
        exact ho.step hparse rfl rfl (hheld.map _).subset (fun _ => rfl)
          fun st hst hnone => ⟨st, hst, hnone, rfl⟩

/-- The server acknowledges a Parse. -/
theorem parsed_sound {preparing : Option String} {e : Entry} (he : e.isParseComplete = true)
    {a : Accounts} {queued : List String} {log : List Entry}
    (hs : Sound f (a.books id rest resident queued log))
    (hid : preparing.isSome → e.runner.map Handle.id = some id)
    (ho : Offers preparing e.turn a.statement (a.books id rest resident queued log)) :
    Sound f ((a.parsed preparing).books id rest resident queued (log ++ [e])) := by
  cases preparing with
  | none =>
      refine hs.acknowledged none he (fun p hp hturn name sql hparse hne => ?_) nofun
      cases ho.only p hp hturn name sql hparse hne
  | some name =>
      obtain ⟨hheld, hqueued, hissued, st, hst, hnone, p, hp, hturn, hparse⟩ := ho.offered name rfl
      have hack := hs.acknowledged
        (some { id, native := st.native, name, epoch := a.ledger.epoch }) he
        (fun p hp hturn name' sql hparse hne => ⟨_, rfl, ?_⟩) ?_
      · have hbefore : (a.books id rest resident queued log).held =
            holdings (rest ++ World.residents resident a.ledger.statements) := by
          rw [Accounts.books_held, hst, Option.bind_some, holding?_of_unnamed hnone]
          rfl
        rw [hbefore] at hack
        have hafter : (((a.parsed (some name))).books id rest resident queued (log ++ [e])).held =
            [{ id, native := st.native, name, epoch := a.ledger.epoch }] ++
              holdings (rest ++ World.residents resident a.ledger.statements) := by
          rw [Accounts.books_held]
          show ((a.statement.map _).bind _).toList ++ _ = _
          have hname : (st.prepare name a.ledger.epoch).name = some name := rfl
          rw [hst, Option.map_some, Option.bind_some, holding?_of_named hname]
          rfl
        unfold Accounts.books at hafter ⊢
        simp only [] at hafter
        rw [hafter]
        exact hack
      · exact Option.some.inj (ho.only p hp hturn name' sql hparse hne)
      · rintro n ⟨⟩
        exact ⟨hid rfl, rfl, hissued, hheld, hqueued, p, hp, hturn, hparse⟩

/-- A reply is heard, message by message. -/
theorem heard_sound {preparing : Option String} {turn : Nat} {runner : Option Handle}
    (hid : preparing.isSome → runner.map Handle.id = some id) (events : List Event)
    (hkind : ∀ e ∈ events, e.isAside = true ∨ e.message?.isSome = true)
    (honce : events.Pairwise fun x y =>
      x.message? = some .parseComplete → y.message? ≠ some .parseComplete)
    {a : Accounts} {queued : List String} {log : List Entry}
    (hs : Sound f (a.books id rest resident queued log))
    (ho : Offers preparing turn a.statement (a.books id rest resident queued log) ∨
      ∀ e ∈ events, e.message? ≠ some .parseComplete) :
    ∃ added,
      Sound f (((events.filterMap Event.message?).foldl (Accounts.on preparing f) a).books
        id rest resident (queued ++ added) (log ++ events.map (Entry.mk turn runner))) ∧
      List.Sublist
        ((events.filterMap Event.message?).foldl (Accounts.on preparing f) a).ledger.pendingClose
        (a.ledger.pendingClose ++ added) := by
  induction events generalizing a queued log with
  | nil => exact ⟨[], by simpa using hs, by simp⟩
  | cons event events ih =>
      rw [List.pairwise_cons] at honce
      obtain ⟨hfirst, honce⟩ := honce
      have hkind' := fun e he => hkind e (List.mem_cons_of_mem _ he)
      generalize hentry : Entry.mk turn runner event = entry
      have hevent : entry.event = event := by rw [← hentry]
      have hmute := hkind event List.mem_cons_self
      rw [← hevent] at hmute
      rw [List.map_cons, hentry, List.append_cons]
      cases hm : event.message? with
      | none =>
          rw [List.filterMap_cons_none hm]
          have hack : entry.isParseComplete = false := by
            unfold Entry.isParseComplete
            rw [hevent, hm]
            rfl
          have hdrops : entry.drops = false := by
            unfold Entry.drops
            rw [hevent, hm]
            rfl
          refine ih hkind' honce (hs.noted hmute hack fun _ => hdrops) ?_
          refine ho.imp (fun ho => ?_) fun hno e he => hno e (List.mem_cons_of_mem _ he)
          exact ho.step (Entry.mute hmute).1 rfl rfl (List.Subset.refl _) (fun _ => rfl)
            fun st hst hnone => ⟨st, hst, hnone, rfl⟩
      | some m =>
          rw [List.filterMap_cons_some hm, List.foldl_cons]
          by_cases hpc : m = .parseComplete
          · subst hpc
            rcases ho with ho | hno
            · have hack : entry.isParseComplete = true := by
                unfold Entry.isParseComplete
                rw [hevent, hm]
                rfl
              rw [show turn = entry.turn by rw [← hentry]] at ho
              have hparsed := parsed_sound hack hs
                (fun hp => by rw [← hentry]; exact hid hp) ho
              obtain ⟨added, hsound, hwaiting⟩ := ih hkind' honce hparsed
                (.inr fun e he => hfirst e he hm)
              refine ⟨added, hsound, ?_⟩
              rwa [Accounts.parsed_ledger] at hwaiting
            · exact absurd hm (hno event List.mem_cons_self)
          · obtain ⟨added, hsound, hwaiting, hoffers⟩ := changes_sound
              (Accounts.on_changes hpc preparing f a) (by rw [hevent, hm]) hpc hs
            obtain ⟨added', hsound', hwaiting'⟩ := ih hkind' honce hsound
              (ho.imp (hoffers preparing turn) fun hno e he => hno e (List.mem_cons_of_mem _ he))
            refine ⟨added ++ added', ?_, ?_⟩
            · rw [← List.append_assoc]
              exact hsound'
            · rw [← List.append_assoc]
              exact hwaiting'.trans (hwaiting.append (.refl _))

/-! ## What is sent -/

/-- Messages of the client, as the log has them. -/
def drafted (turn : Nat) (runner : Option Handle) (ms : List FrontendMessage) : List Entry :=
  ms.map fun m => { turn, runner, event := .sending m }

theorem map_sending (turn : Nat) (runner : Option Handle) (ms : List FrontendMessage) :
    (ms.map Event.sending).map (Entry.mk turn runner) = drafted turn runner ms :=
  List.map_map

namespace Session
variable (turn : Nat) (runner : Option Handle)

theorem closings_names (s : Session) :
    parsedNames (drafted turn runner s.closings) = [] ∧
      closedNames (drafted turn runner s.closings) = s.pendingClose ∧
      ∀ e ∈ drafted turn runner s.closings, e.bind? = none := by
  unfold closings drafted
  induction s.pendingClose with
  | nil => exact ⟨rfl, rfl, List.forall_mem_nil _⟩
  | cons name names ih =>
      obtain ⟨hparses, hcloses, hbinds⟩ := ih
      refine ⟨hparses, congrArg (name :: ·) hcloses, fun e he => ?_⟩
      rcases List.mem_cons.1 he with rfl | he
      · rfl
      · exact hbinds e he

theorem running_names (s : Session) (st : Statement) (parameters : List (Option Bytes)) :
    parsedNames (drafted turn runner (s.running st parameters)) =
        ((s.offered st).filter (!·.isEmpty)).toList ∧
      closedNames (drafted turn runner (s.running st parameters)) = [] := by
  unfold running
  cases s.offered st with
  | none => exact ⟨rfl, rfl⟩
  | some name =>
      refine ⟨?_, rfl⟩
      show parsedNames ({ turn, runner, event := .sending (.parse name st.native []) } :: _) = _
      by_cases hempty : name = ""
      · subst hempty
        rfl
      · have h1 : (!name.isEmpty) = true := by simpa using hempty
        have h2 : decide (name ≠ "") = true := by simpa using hempty
        unfold parsedNames
        rw [List.filterMap_cons_some (b := name)]
        · rw [show (some name).filter (!·.isEmpty) = some name from Option.filter_some_pos h1]
          rfl
        · exact Option.filter_some_pos h2

theorem running_bind {turn : Nat} {runner : Option Handle} {s : Session} {st : Statement}
    {parameters : List (Option Bytes)} {before after : List Entry} {e : Entry} {name : String}
    (h : drafted turn runner (s.running st parameters) = before ++ e :: after)
    (he : e.bind? = some name) :
    before = drafted turn runner ((s.offered st).toList.map fun name => .parse name st.native []) ∧
      e.turn = turn ∧ e.runner = runner ∧ name = (st.name.or (s.offered st)).getD "" := by
  unfold running drafted at h
  rw [List.map_append] at h
  rcases append_cases h with ⟨mid, hparse, -⟩ | ⟨mid, rfl, hrest⟩
  · have hmem : e ∈ ((s.offered st).toList.map fun name => FrontendMessage.parse name st.native
        []).map fun m => { turn, runner, event := .sending m : Entry } :=
      hparse ▸ List.mem_append_right _ List.mem_cons_self
    obtain ⟨m, hm, rfl⟩ := List.mem_map.1 hmem
    obtain ⟨_, -, rfl⟩ := List.mem_map.1 hm
    cases he
  · cases mid with
    | nil =>
        cases hrest
        cases he
        exact ⟨List.append_nil _, rfl, rfl, rfl⟩
    | cons x mid =>
        obtain ⟨-, hrest⟩ := List.cons.inj hrest
        have hmem : e ∈ [FrontendMessage.describe portalKind "", .execute "" st.fetchSize,
            .sync].map fun m => { turn, runner, event := .sending m : Entry } :=
          hrest ▸ List.mem_append_right _ List.mem_cons_self
        simp only [List.map_cons, List.map_nil, List.mem_cons, List.not_mem_nil, or_false] at hmem
        rcases hmem with rfl | rfl | rfl <;> cases he

theorem offered_some {s : Session} {st : Statement} {name : String}
    (h : s.offered st = some name) : st.name = none ∧
      (name = "" ∨ name = s!"S_{s.nextName}" ∧ (s.named st).nextName = s.nextName + 1) := by
  unfold offered at h
  unfold named
  cases hname : st.name with
  | some _ => rw [hname] at h; cases h
  | none =>
      rw [hname] at h
      cases huses : usesName s.options st with
      | false =>
          rw [huses] at h
          cases h
          exact ⟨rfl, .inl rfl⟩
      | true =>
          rw [huses] at h
          cases h
          exact ⟨rfl, .inr ⟨rfl, rfl⟩⟩

theorem nextName_le_named (s : Session) (st : Statement) :
    s.nextName ≤ (s.named st).nextName := by
  unfold named
  simp only []
  split <;> omega

section Drafts

variable {queued : List String} {log : List Entry} {h : Handle} {s : Session} {st : Statement}
  {parameters : List (Option Bytes)}

/-- The Bind of a request names what is sent ahead of it, or what the statement
is known under. -/
theorem running_valid
    (hs : Sound true (Accounts.books h.id rest resident queued log ⟨some st, s.ledger⟩))
    (hnative : h.statement.native = st.native) (hcurrent : st.name.isSome → st.epoch = s.epoch)
    {before after : List Entry} {e : Entry} {name : String}
    (hrun : drafted turn (some h) (s.running st parameters) = before ++ e :: after)
    (hbind : e.bind? = some name) (hne : name ≠ "") :
    Valid (log ++ (drafted turn (some h) s.closings ++ before)) e name := by
  obtain ⟨-, hcloses, -⟩ := s.closings_names turn (some h)
  obtain ⟨rfl, hturn, hrunner, hname⟩ := running_bind hrun hbind
  cases hnew : s.offered st with
  | some new =>
      obtain ⟨hst, -⟩ := offered_some hnew
      rw [hst, hnew] at hname
      cases hname
      refine ⟨h, hrunner, .inl ⟨⟨turn, some h, .sending (.parse new st.native [])⟩, ?_,
        hturn.symm, ?_⟩⟩
      · exact List.mem_append_right _ (List.mem_append_right _ List.mem_cons_self)
      · rw [hnative]
        rfl
  | none =>
      rw [hnew, Option.or_none] at hname
      cases hst : st.name with
      | none =>
          rw [hst] at hname
          exact absurd hname hne
      | some old =>
          rw [hst] at hname
          cases hname
          have hheld : ({ id := h.id, native := st.native, name := old, epoch := st.epoch } :
              Holding) ∈ (Accounts.books h.id rest resident queued log ⟨some st, s.ledger⟩).held := by
            rw [Accounts.books_held, Option.bind_some, holding?_of_named hst]
            exact List.mem_cons_self
          refine hs.valid hheld (hcurrent (by rw [hst]; rfl)) (fun x hx => ?_) ?_ hrunner rfl
            hnative
          · rcases List.mem_append.1 hx with hx | hx
            · obtain ⟨m, -, rfl⟩ := List.mem_map.1 hx
              rfl
            · cases hx
          · rw [closedNames_append, hcloses]
            exact List.append_subset.2 ⟨List.Subset.refl _, List.nil_subset _⟩

/-- Of the names in a request, the one to be prepared is new, and the one to be
run is that or belongs to the statement. -/
theorem drafts_sound {sent : List FrontendMessage}
    (hs : Sound f (Accounts.books h.id rest resident queued log ⟨some st, s.ledger⟩))
    (hnative : h.statement.native = st.native)
    (hcurrent : st.name.isSome → st.epoch = s.epoch)
    (hsent : sent <+: s.running st parameters) :
    Sound f (Accounts.books h.id rest resident queued
      (log ++ drafted turn (some h) (s.closings ++ sent))
      ⟨some st, (s.emptied.named st).ledger⟩) := by
  obtain ⟨unsent, hrunning⟩ := hsent
  have hsplit : drafted turn (some h) (s.closings ++ sent) =
      drafted turn (some h) s.closings ++ drafted turn (some h) sent := List.map_append
  have hwhole : drafted turn (some h) (s.running st parameters) =
      drafted turn (some h) sent ++ drafted turn (some h) unsent := by
    rw [← hrunning]
    exact List.map_append
  obtain ⟨hparses, hcloses, hnobinds⟩ := s.closings_names turn (some h)
  obtain ⟨hparses', hcloses'⟩ := s.running_names turn (some h) st parameters
  rw [hwhole, parsedNames_append] at hparses'
  rw [hwhole, closedNames_append] at hcloses'
  have hoffered : ∀ name ∈ parsedNames (drafted turn (some h) (s.closings ++ sent)),
      s.offered st = some name ∧ name ≠ "" := by
    intro name hname
    rw [hsplit, parsedNames_append, hparses, List.nil_append] at hname
    have := hparses' ▸ List.mem_append_left _ hname
    obtain ⟨hname, hne⟩ := Option.filter_eq_some_iff.1 (Option.mem_toList.1 this)
    exact ⟨hname, by simpa using hne⟩
  refine hs.told (fun e he => ?_) ?_ (s.nextName_le_named st) ?_ (fun name hname => ?_) ?_
  · obtain ⟨m, -, rfl⟩ := List.mem_map.1 he
    exact ⟨rfl, fun _ => rfl⟩
  · rw [hsplit, closedNames_append, hcloses, (List.append_eq_nil_iff.1 hcloses').1]
    exact (List.append_nil _).trans (List.append_nil _)
  · rw [hsplit, parsedNames_append, hparses, List.nil_append]
    have hnodup : (parsedNames (drafted turn (some h) sent) ++
        parsedNames (drafted turn (some h) unsent)).Nodup := by
      rw [hparses']
      cases (s.offered st).filter (!·.isEmpty) with
      | none => exact List.nodup_nil
      | some name => exact List.nodup_singleton name
    exact (List.nodup_append.1 hnodup).1
  · obtain ⟨hname, hne⟩ := hoffered name hname
    obtain ⟨-, hempty | ⟨hfresh, hnext⟩⟩ := offered_some hname
    · exact absurd hempty hne
    · refine ⟨fun hold => ?_, s.nextName, ?_, hfresh⟩
      · exact (hs.issued name (.inr (.inr hold))).ne_fresh hfresh
      · show s.nextName < (s.named st).nextName
        omega
  · intro hf before e after name hes hbind hne
    rw [hsplit] at hes
    rcases append_cases hes with ⟨mid, hclosing, -⟩ | ⟨mid, rfl, hrun⟩
    · rw [hnobinds e (hclosing ▸ List.mem_append_right _ List.mem_cons_self)] at hbind
      cases hbind
    · rw [hrun, List.append_assoc] at hwhole
      subst hf
      exact running_valid turn hs hnative hcurrent hwhole hbind hne

theorem drafts_offers {turn : Nat}
    (hs : Sound f (Accounts.books h.id rest resident queued log ⟨some st, s.ledger⟩))
    (hturns : ∀ e ∈ log, e.turn < turn) :
    Offers ((s.offered st).filter (!·.isEmpty)) turn (some st)
      (Accounts.books h.id rest resident queued
        (log ++ drafted turn (some h) (s.closings ++ s.running st parameters))
        ⟨some st, (s.emptied.named st).ledger⟩) := by
  have hsplit : drafted turn (some h) (s.closings ++ s.running st parameters) =
      drafted turn (some h) s.closings ++ drafted turn (some h) (s.running st parameters) :=
    List.map_append
  have hparses : parsedNames (drafted turn (some h) (s.closings ++ s.running st parameters)) =
      ((s.offered st).filter (!·.isEmpty)).toList := by
    rw [hsplit, parsedNames_append, (s.closings_names turn (some h)).1,
      (s.running_names turn (some h) st parameters).1]
    rfl
  constructor
  · intro p hp hturn name sql hparse hne
    rcases List.mem_append.1 hp with hp | hp
    · exact absurd hturn (Nat.ne_of_lt (hturns p hp))
    · have hname := mem_parsedNames.2 ⟨hne, p, hp, sql, hparse⟩
      rw [hparses] at hname
      exact Option.mem_toList.1 hname
  · intro name hname
    obtain ⟨hoffered, hne⟩ := Option.filter_eq_some_iff.1 hname
    obtain ⟨hst, rfl | ⟨hfresh, hnext⟩⟩ := offered_some hoffered
    · cases hne
    · have hissued : Issued (s.named st).nextName name := ⟨s.nextName, by omega, hfresh⟩
      refine ⟨fun hheld => (hs.issued _ (.inl hheld)).ne_fresh hfresh,
        fun hqueued => (hs.issued _ (.inr (.inl hqueued))).ne_fresh hfresh, hissued, st, rfl, hst,
        ⟨turn, some h, .sending (.parse name st.native [])⟩, ?_, rfl, rfl⟩
      refine List.mem_append_right _ (List.mem_map.2 ⟨_, List.mem_append_right _ ?_, rfl⟩)
      unfold running
      rw [hoffered]
      exact List.mem_cons_self

end Drafts

/-- The name a request is waiting to see acknowledged. -/
def offer : EStateM.Result Halt Session (Option String) → Option String
  | .ok preparing _ => preparing
  | .error _ _ => none

/-- After a request was sent, or not, there is only listening. -/
structure Hears (statement : Option Statement) (sent : EStateM.Result Halt Session (Option String))
    (r : EStateM.Result Halt Session Reply) (events : List Event) (a : Accounts) : Prop where
  history : (final r).history = (final sent).history ++ events
  kinds : ∀ e ∈ events, e.isAside = true ∨ e.message?.isSome = true
  accounts : a = (events.filterMap Event.message?).foldl
    (Accounts.on (offer sent) (final sent).forgetsOnDrop) ⟨statement, (final sent).ledger⟩
  ledger : (final r).ledger = a.ledger
  forgets : (final r).forgetsOnDrop = (final sent).forgetsOnDrop
  reply : ∀ reply s', r = .ok reply s' → reply.statement = a.statement
  unsent : (halt? sent).isSome → ∀ e ∈ events, e.message? ≠ some .parseComplete

theorem Answers.error {statement : Option Statement}
    {sent : EStateM.Result Halt Session (Option String)} {halt : Halt} {s : Session}
    (h : Answers statement sent (.error halt s)) : halt = .waiting := by
  cases h
  rfl

theorem Answers.hears {statement : Option Statement}
    {sent : EStateM.Result Halt Session (Option String)} {r : EStateM.Result Halt Session Reply}
    (h : Answers statement sent r) : ∃ events a, Hears statement sent r events a := by
  cases h with
  | @unsent e s₁ s₂ hend =>
      have hkeeps := hend.keeps
      obtain ⟨events, hhistory, haside⟩ := hkeeps.channel.history
      have hnone := filterMap_message?_of_isAside haside
      refine ⟨events, ⟨statement, s₁.ledger⟩, hhistory, fun e he => .inl (haside e he), ?_,
        hkeeps.ledger, hkeeps.forgets, ?_, fun _ e he => ?_⟩
      · rw [hnone]
        rfl
      · rintro _ _ ⟨⟩
        rfl
      · rw [Event.message?_of_isAside (haside e he)]
        nofun
  | @answered preparing s₁ c result hfollows hready hresult =>
      obtain ⟨events, hhistory, hkinds, haccounts⟩ := hfollows.history
      refine ⟨events, c.accounts, hhistory, hkinds, haccounts, rfl, hfollows.forgets, ?_, nofun⟩
      rintro _ _ ⟨⟩
      rfl
  | @broken preparing s₁ s₂ c e hfollows hkeeps hclosed =>
      obtain ⟨events, hhistory, hkinds, haccounts⟩ := hfollows.history
      obtain ⟨events', hhistory', haside⟩ := hkeeps.channel.history
      refine ⟨events ++ events', c.accounts, ?_, fun x hx => ?_, ?_, hkeeps.ledger,
        hkeeps.forgets.trans hfollows.forgets, ?_, nofun⟩
      · show s₂.channel.history = _
        rw [hhistory', show c.session.channel.history = _ from hhistory, List.append_assoc]
        rfl
      · exact (List.mem_append.1 hx).elim (hkinds x) fun hx => .inl (haside x hx)
      · rw [List.filterMap_append, filterMap_message?_of_isAside haside, List.append_nil]
        exact haccounts
      · rintro _ _ ⟨⟩
        rfl
  | @waiting preparing s₁ c hfollows =>
      obtain ⟨events, hhistory, hkinds, haccounts⟩ := hfollows.history
      refine ⟨events, c.accounts, hhistory, hkinds, haccounts, rfl, hfollows.forgets, ?_, nofun⟩
      intro _ _ hr
      cases hr

/-- What was put together of a request, and what was told besides. -/
theorem Sends.drafts {st : Statement} {parameters : List (Option Bytes)} {s : Session}
    {r : EStateM.Result Halt Session (Option String)} (h : Sends st parameters s r)
    (hclosable : ∃ closing, s.closings.mapM (encode s.channel.charset) = .ok closing) :
    ∃ sent asides, sent <+: s.running st parameters ∧
      (final r).history = s.history ++ (s.closings ++ sent).map Event.sending ++ asides ∧
      (∀ e ∈ asides, e.isAside = true) ∧
      (final r).ledger = (s.emptied.named st).ledger ∧
      (final r).forgetsOnDrop = s.forgetsOnDrop ∧
      (halt? r = none → sent = s.running st parameters ∧
        offer r = (s.offered st).filter (!·.isEmpty)) := by
  cases h with
  | unclosed hsent hfails =>
      obtain ⟨closing, hclosing⟩ := hclosable
      rw [hclosing] at hfails
      cases hfails
  | @refused sent closing fault hclosing hsent hfails =>
      refine ⟨sent, [], hsent, ?_, List.forall_mem_nil _, rfl, rfl, nofun⟩
      rw [List.append_nil]
      exact history_drafts (s.emptied.named st) _ _
  | @unwritten closing run e c hclosing hrun hfatal hfaults hkeeps =>
      obtain ⟨asides, hhistory, haside⟩ := hkeeps.history
      refine ⟨_, asides, List.prefix_refl _, ?_, haside, rfl, rfl, nofun⟩
      exact hhistory.trans (congrArg (· ++ asides) (history_drafts (s.emptied.named st) _ _))
  | @written closing run c hclosing hrun hkeeps hout hcharset hwritten =>
      obtain ⟨asides, hhistory, haside⟩ := hkeeps.history
      refine ⟨_, asides, List.prefix_refl _, ?_, haside, rfl, rfl, fun _ => ⟨rfl, rfl⟩⟩
      exact hhistory.trans (congrArg (· ++ asides) (history_drafts (s.emptied.named st) _ _))

/-- What was put together of a query, and what was told besides. -/
theorem sendQuery_asides (s : Session) (sql : String) (octets : Bytes) :
    ∃ asides, (final (sendQuery (s.drafts [.query sql] octets))).history = s.history ++ asides ∧
      (∀ e ∈ asides, e.isAside = true) ∧
      (final (sendQuery (s.drafts [.query sql] octets))).ledger = s.ledger ∧
      (final (sendQuery (s.drafts [.query sql] octets))).forgetsOnDrop = s.forgetsOnDrop ∧
      offer (sendQuery (s.drafts [.query sql] octets)) = none := by
  have hflush : ∀ {c}, (s.drafts [.query sql] octets).channel.Keeps c → ∃ asides,
      c.history = s.history ++ asides ∧ ∀ e ∈ asides, e.isAside = true := by
    intro c hkeeps
    obtain ⟨asides, hhistory, haside⟩ := hkeeps.history
    refine ⟨.sending (.query sql) :: asides, ?_, List.forall_mem_cons.2 ⟨rfl, haside⟩⟩
    rw [hhistory, show (s.drafts [.query sql] octets).channel.history = _ from
      history_drafts s [.query sql] octets, List.append_assoc]
    rfl
  rcases sendQuery_cases (s.drafts [.query sql] octets) with
    ⟨c, hc, hsend⟩ | ⟨e, c, hc, -, -, hsend⟩
  · obtain ⟨asides, hhistory, haside⟩ := hflush (Channel.flush_keeps.ok hc)
    rw [hsend]
    exact ⟨asides, hhistory, haside, rfl, rfl, rfl⟩
  · obtain ⟨asides, hhistory, haside⟩ := hflush (Channel.flush_keeps.error hc)
    rw [hsend]
    exact ⟨asides, hhistory, haside, rfl, rfl, rfl⟩

end Session

end PgClient
