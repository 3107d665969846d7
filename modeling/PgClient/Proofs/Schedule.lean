import PgClient.Proofs.Closing
import PgClient.Proofs.Tidy

/-!
# When a statement gets its name

A statement is prepared under a name not before it ran often enough, and then once. Which run that
is depends on the mode queries are sent in and on a threshold (`dueRun`). Until then it is sent
without a name every time, which the server acknowledges as well, and nothing must follow from
that; from then on it is not sent at all.

The count goes with the statement: through the cache, and into the hands of whoever asks for it
next. So what is said of a run of the session is said of the runs of one statement in it, wherever
the statement was in between (`OnSchedule`).
-/

namespace PgClient

open Exchange FrontendMessage

/-- The run in which a statement is prepared under a name, if it ever is. -/
def SessionOptions.dueRun (o : SessionOptions) : Option Nat :=
  match o.queryMode with
  | .simple => none
  | .extendedCacheEverything => some 1
  | .extended | .extendedForPrepared =>
    if o.prepareThreshold = 0 then none else some o.prepareThreshold

/-- A run of a statement: the names it was sent to be prepared under ahead of it, and the name it
was run under. -/
structure NamedRun where
  parsed : List String
  bound : String
  deriving DecidableEq

/-- The run of this number, if the statement is due then and this is its name. -/
def NamedRun.planned (due : Option Nat) (name : String) (number : Nat) : NamedRun :=
  match due with
  | none => { parsed := [""], bound := "" }
  | some due =>
    if number < due then { parsed := [""], bound := "" }
    else if number = due then { parsed := [name], bound := name }
    else { parsed := [], bound := name }

/-- The names under which a statement was sent to be prepared during a call. -/
def parsesDuring (log : List Entry) (turn : Nat) : List String :=
  log.filterMap fun e => if e.turn = turn then e.parse?.map Prod.fst else none

/-- The runs of a statement. -/
def runsOf (log : List Entry) (id : Nat) : List NamedRun :=
  log.filterMap fun e =>
    if e.runner.map Handle.id = some id then
      e.bind?.map fun bound => { parsed := parsesDuring log e.turn, bound }
    else none

/-! ## The runs in a log -/

theorem parsesDuring_append (log es : List Entry) (turn : Nat) :
    parsesDuring (log ++ es) turn = parsesDuring log turn ++ parsesDuring es turn :=
  List.filterMap_append

theorem parsesDuring_none (log : List Entry) {turn : Nat} (h : ∀ e ∈ log, e.turn ≠ turn) :
    parsesDuring log turn = [] :=
  List.filterMap_eq_nil_iff.2 fun e he => if_neg (h e he)

/-- The runs of different calls have nothing to do with each other. -/
theorem runsOf_append {log es : List Entry} (h : ∀ e ∈ log, ∀ e' ∈ es, e.turn ≠ e'.turn)
    (id : Nat) : runsOf (log ++ es) id = runsOf log id ++ runsOf es id := by
  unfold runsOf
  rw [List.filterMap_append]
  refine congrArg₂ (· ++ ·) (List.filterMap_congr fun e he => ?_)
    (List.filterMap_congr fun e he => ?_)
  · rw [parsesDuring_append, parsesDuring_none es fun e' he' hturn =>
      h e he e' he' hturn.symm, List.append_nil]
  · rw [parsesDuring_append, parsesDuring_none log fun e' he' hturn =>
      h e' he' e he hturn, List.nil_append]

theorem runsOf_none {log : List Entry} {id : Nat}
    (h : ∀ e ∈ log, e.runner.map Handle.id = some id → e.bind? = none) : runsOf log id = [] := by
  refine List.filterMap_eq_nil_iff.2 fun e he => ?_
  split
  · next hid =>
      rw [h e he hid]
      rfl
  · rfl

/-- The runs of a statement in a call of its own. -/
theorem runsOf_call {es : List Entry} (turn : Nat) {h : Handle}
    (hes : ∀ e ∈ es, e.turn = turn ∧ e.runner = some h) :
    runsOf es h.id =
      (es.filterMap Entry.bind?).map
        (NamedRun.mk (es.filterMap fun e => e.parse?.map Prod.fst)) := by
  have hparses : parsesDuring es turn = es.filterMap fun e => e.parse?.map Prod.fst :=
    List.filterMap_congr fun e he => if_pos (hes e he).1
  rw [List.map_filterMap]
  refine List.filterMap_congr fun e he => ?_
  obtain ⟨hturn, hrunner⟩ := hes e he
  rw [if_pos (by rw [hrunner]; rfl), hturn, hparses]

namespace World

/-- What is told of a request that runs a statement is one run. -/
theorem runsOf_executing (w : World) (h : Handle) (parameters : List (Option Bytes))
    {events : List Event} (hkinds : ∀ e ∈ events, e.isAside = true ∨ e.message?.isSome = true) :
    runsOf (drafted w.turn (some h) (w.executing h parameters).sent ++
        events.map (Entry.mk w.turn (some h))) h.id =
      [{ parsed := (w.session.offered (w.session.readied h.statement)).toList
         bound := ((w.session.readied h.statement).name.or
          (w.session.offered (w.session.readied h.statement))).getD "" }] := by
  rw [runsOf_call w.turn (List.forall_mem_append.2 ⟨fun e he => ?_, fun e he => ?_⟩)]
  · have hclosings : ∀ {β : Type} (g : Entry → Option β),
        (∀ name, g ⟨w.turn, some h, .sending (.close statementKind name)⟩ = none) →
        (drafted w.turn (some h) w.session.closings).filterMap g = [] := by
      intro β g hg
      refine List.filterMap_eq_nil_iff.2 fun e he => ?_
      obtain ⟨m, hm, rfl⟩ := List.mem_map.1 he
      obtain ⟨name, -, rfl⟩ := List.mem_map.1 hm
      exact hg name
    have hevents : ∀ {β : Type} (g : Entry → Option β),
        (∀ e : Entry, e.event.isAside = true ∨ e.event.message?.isSome = true → g e = none) →
        (events.map (Entry.mk w.turn (some h))).filterMap g = [] := by
      intro β g hg
      refine List.filterMap_eq_nil_iff.2 fun e he => ?_
      obtain ⟨event, hevent, rfl⟩ := List.mem_map.1 he
      exact hg _ (hkinds event hevent)
    have hsplit : drafted w.turn (some h) (w.executing h parameters).sent =
        drafted w.turn (some h) w.session.closings ++ drafted w.turn (some h)
          (w.session.running (w.session.readied h.statement) parameters) := List.map_append
    rw [List.filterMap_append, List.filterMap_append, hevents _ fun e he => (Entry.mute he).2.2,
      hevents _ fun e he => by rw [(Entry.mute he).1]; rfl, hsplit, List.filterMap_append,
      List.filterMap_append, hclosings _ fun _ => rfl, hclosings _ fun _ => rfl]
    unfold Session.running
    cases w.session.offered (w.session.readied h.statement) <;> rfl
  · obtain ⟨m, -, rfl⟩ := List.mem_map.1 he
    exact ⟨rfl, rfl⟩
  · obtain ⟨event, -, rfl⟩ := List.mem_map.1 he
    exact ⟨rfl, rfl⟩

/-- A request that runs a statement adds one to its runs. -/
theorem Asked.runs {w w' : World} {h : Handle} {parameters : List (Option Bytes)}
    {events : List Event} (hw : w.Tidy) (ha : Asked (w.executing h parameters) events w w') :
    runsOf w'.log h.id = runsOf w.log h.id ++
      [{ parsed := (w.session.offered (w.session.readied h.statement)).toList
         bound := ((w.session.readied h.statement).name.or
          (w.session.offered (w.session.readied h.statement))).getD "" }] := by
  obtain ⟨es, hes, hentries⟩ := ha.entries
  have hnew : es = _ := List.append_cancel_left (hes.symm.trans ha.log)
  have hturns : ∀ e ∈ w.log, ∀ e' ∈ es, e.turn ≠ e'.turn := fun e he e' he' =>
    (hentries e' he').1 ▸ Nat.ne_of_lt (hw.turns e he)
  rw [hes, runsOf_append hturns, hnew]
  exact congrArg (_ ++ ·) (runsOf_executing w h parameters ha.kinds)

/-! ## The name a statement is offered under -/

theorem freshName_ne (n : Nat) : s!"S_{n}" ≠ "" := by
  intro h
  have := congrArg String.toList h
  rw [toList_freshName] at this
  cases this

/-- Whether a statement that runs uses a name is a matter of the run that is due. -/
theorem usesName_eq (o : SessionOptions) {st : Statement} (hruns : 0 < st.executions) :
    Session.usesName o st = o.dueRun.any (· ≤ st.executions) := by
  unfold Session.usesName SessionOptions.dueRun
  cases o.queryMode with
  | simple => rfl
  | extendedCacheEverything => exact (decide_eq_true hruns).symm
  | extended | extendedForPrepared =>
      simp only []
      split
      · next hzero =>
          rw [hzero]
          rfl
      · next hpos =>
          rw [decide_eq_true (Nat.pos_of_ne_zero hpos)]
          rfl

/-- A statement without a name is offered under a new one from the run on that is due. -/
theorem offered_unnamed {s : Session} {st : Statement} (hname : st.name = none)
    (hruns : 0 < st.executions) :
    (s.options.dueRun.any (· ≤ st.executions) = true ∧ s.offered st = some s!"S_{s.nextName}") ∨
      s.options.dueRun.any (· ≤ st.executions) = false ∧ s.offered st = some "" := by
  unfold Session.offered
  rw [hname, usesName_eq s.options hruns]
  cases s.options.dueRun.any (· ≤ st.executions) with
  | true => exact .inl ⟨rfl, rfl⟩
  | false => exact .inr ⟨rfl, rfl⟩

/-! ## A reply that keeps its word -/

/-- The epoch is this one, and the statement, which ran so often, has a property. -/
def Runs (epoch executions : Nat) (P : Statement → Prop) (a : Accounts) : Prop :=
  a.ledger.epoch = epoch ∧ ∃ st, a.statement = some st ∧ st.executions = executions ∧ P st

section Runs

variable {epoch executions : Nat} {P : Statement → Prop} {a : Accounts} {preparing : Option String}
  {f : Bool} {ms : List BackendMessage}

theorem Runs.parsed (h : Runs epoch executions P a) (name : String) :
    Runs epoch executions (fun st => st.name = some name ∧ st.epoch = epoch)
      (a.parsed (some name)) := by
  obtain ⟨hepoch, st, hst, hruns, -⟩ := h
  refine ⟨hepoch, st.prepare name a.ledger.epoch, ?_, hruns, rfl, hepoch⟩
  show a.statement.map _ = _
  rw [hst]
  rfl

/-- What a Parse that is acknowledged does not change stays as it is, if nothing is said to be stale
or dropped. -/
theorem Runs.foldl (h : Runs epoch executions P a) (preparing : Option String)
    (hstale : ∀ r, .errorResponse r ∈ ms → r.isStale = false)
    (hdrops : f = true → ∀ m ∈ ms, m.drops = false)
    (hparsed : ∀ a, Runs epoch executions P a → Runs epoch executions P (a.parsed preparing))
    (hsuspended : ∀ st, P st → P { st with isSuspended := true }) :
    Runs epoch executions P (ms.foldl (Accounts.on preparing f) a) := by
  refine Accounts.foldl_keeps h (fun _ => hparsed) ?_ ?_ ?_
  · rintro a ⟨hepoch, st, hst, hruns, hP⟩
    exact ⟨hepoch, { st with isSuspended := true }, by rw [hst]; rfl, hruns, hsuspended st hP⟩
  · rintro ⟨r, hr, hr'⟩
    rw [hstale r hr] at hr'
    cases hr'
  · rintro hf ⟨m, hm, hm'⟩
    rw [hdrops hf m hm] at hm'
    cases hm'

end Runs

/-- If the Parse is acknowledged and nothing is said to be stale or dropped, the statement is
prepared under the name it was offered under, and otherwise it is what it was. -/
theorem after_answered {q : Inquiry} {f : Bool} {events : List Event} {st : Statement}
    (hst : q.before.statement = some st)
    (hstale : ∀ r, .errorResponse r ∈ events.filterMap Event.message? → r.isStale = false)
    (hdrops : f = true → ∀ m ∈ events.filterMap Event.message?, m.drops = false)
    (hanswered : q.preparing.isSome → .parseComplete ∈ events.filterMap Event.message?) :
    Runs q.before.ledger.epoch st.executions (fun st' =>
      (q.preparing = none → st'.name = st.name ∧ st'.epoch = st.epoch) ∧
      ∀ name, q.preparing = some name → st'.name = some name ∧ st'.epoch = q.before.ledger.epoch)
      (q.after f events) := by
  unfold Inquiry.after
  cases hpreparing : q.preparing with
  | none =>
      have hbefore : Runs q.before.ledger.epoch st.executions
        (fun st' => st'.name = st.name ∧ st'.epoch = st.epoch) q.before :=
        ⟨rfl, st, hst, rfl, rfl, rfl⟩
      obtain ⟨hepoch, st', hst', hruns, hname⟩ :=
        hbefore.foldl none hstale hdrops (fun a ha => ha) fun _ h => h
      exact ⟨hepoch, st', hst', hruns, fun _ => hname, nofun⟩
  | some name =>
      obtain ⟨front, back, hsplit⟩ := List.append_of_mem (hanswered (by rw [hpreparing]; rfl))
      rw [hsplit] at hstale hdrops ⊢
      obtain ⟨hfront, hrest⟩ : (∀ m ∈ front, m ∈ front ++ .parseComplete :: back) ∧
          ∀ m ∈ back, m ∈ front ++ .parseComplete :: back :=
        ⟨fun m hm => List.mem_append_left _ hm,
          fun m hm => List.mem_append_right _ (List.mem_cons_of_mem _ hm)⟩
      have hbefore : Runs q.before.ledger.epoch st.executions (fun _ => True) q.before :=
        ⟨rfl, st, hst, rfl, trivial⟩
      have hmid := hbefore.foldl (some name) (fun r hr => hstale r (hfront _ hr))
        (fun hf m hm => hdrops hf m (hfront m hm)) (fun a ha => ?_) fun _ h => h
      · obtain ⟨hepoch, st', hst', hruns, hname⟩ := (hmid.parsed name).foldl (some name)
          (fun r hr => hstale r (hrest _ hr)) (fun hf m hm => hdrops hf m (hrest m hm))
          (fun a ha => ha.parsed name) fun _ h => h
        rw [List.foldl_append, List.foldl_cons]
        refine ⟨hepoch, st', hst', hruns, nofun, ?_⟩
        rintro _ ⟨⟩
        exact hname
      · obtain ⟨hepoch, st', hst', hruns, -⟩ := ha.parsed name
        exact ⟨hepoch, st', hst', hruns, trivial⟩

/-! ## Runs of a session -/

/-- Nothing comes between a statement and its name: the server acknowledges what is sent to be
prepared under one, finds no plan of it stale, and drops nothing. -/
structure Untroubled (forgets : Bool) (log : List Entry) (id : Nat) : Prop where
  answered : ∀ p ∈ log, p.runner.map Handle.id = some id → ∀ parse ∈ p.parse?, parse.1 ≠ "" →
    ∃ a ∈ log, a.turn = p.turn ∧ a.isParseComplete = true
  fresh : ∀ e ∈ log, e.runner.map Handle.id = some id → e.isStale = false
  kept : forgets = true → ∀ e ∈ log, e.drops = false

theorem Untroubled.before {forgets : Bool} {log es : List Entry} {id : Nat}
    (h : Untroubled forgets (log ++ es) id) (hturns : ∀ e ∈ log, ∀ e' ∈ es, e.turn ≠ e'.turn) :
    Untroubled forgets log id := by
  refine ⟨fun p hp hid parse hparse hne => ?_, fun e he => h.fresh e (List.mem_append_left _ he),
    fun hf e he => h.kept hf e (List.mem_append_left _ he)⟩
  obtain ⟨a, ha, hturn, hack⟩ := h.answered p (List.mem_append_left _ hp) hid parse hparse hne
  rcases List.mem_append.1 ha with ha | ha
  · exact ⟨a, ha, hturn, hack⟩
  · exact absurd hturn.symm (hturns p hp a ha)

/-- The name of a statement after so many runs. -/
def nameAfter (due : Option Nat) (name : String) (runs : Nat) : Option String :=
  match due with
  | none => none
  | some due => if due ≤ runs then some name else none

/-- The runs of a statement were as planned, and it is in the state they leave it in, wherever it
is. -/
structure OnSchedule (due : Option Nat) (name : String) (id : Nat) (w : World) : Prop where
  runs : ∀ i run, (runsOf w.log id)[i]? = some run → run = NamedRun.planned due name (i + 1)
  state : ∀ x ∈ w.handles, x.id = id →
    x.statement.executions = min (runsOf w.log id).length (UInt64.size - 1) ∧
    x.statement.name = nameAfter due name (runsOf w.log id).length ∧
    (x.statement.name.isSome → x.statement.epoch = w.session.epoch)

variable {w w' : World} {due : Option Nat} {name : String} {id : Nat}

/-- A call that does not run the statement leaves it as it is, or makes it. -/
theorem OnSchedule.still (h : OnSchedule due name id w) (hdue : ∀ t ∈ due, 0 < t)
    {es : List Entry} (hlog : w'.log = w.log ++ es)
    (hturns : ∀ e ∈ w.log, ∀ e' ∈ es, e.turn ≠ e'.turn)
    (hother : ∀ e ∈ es, e.runner.map Handle.id ≠ some id)
    (hepoch : w'.session.epoch = w.session.epoch)
    (hhandles : ∀ x ∈ w'.handles, x.id = id → (∃ y ∈ w.handles, x.face = y.face) ∨
      runsOf w.log id = [] ∧ x.statement.executions = 0 ∧ x.statement.name = none) :
    OnSchedule due name id w' := by
  have hruns : runsOf w'.log id = runsOf w.log id := by
    rw [hlog, runsOf_append hturns, runsOf_none fun e he hid => absurd hid (hother e he),
      List.append_nil]
  refine ⟨hruns ▸ h.runs, fun x hx hid => ?_⟩
  rw [hruns, hepoch]
  rcases hhandles x hx hid with ⟨y, hy, hface⟩ | ⟨hnone, hnew, hname⟩
  · obtain ⟨hcount, hname, hnow⟩ := h.state y hy ((congrArg Face.id hface).symm.trans hid)
    have hsame : x.statement.name = y.statement.name := congrArg Face.name hface
    rw [hsame]
    exact ⟨(congrArg Face.executions hface).trans hcount, hname,
      fun hsome => (congrArg Face.epoch hface).trans (hnow hsome)⟩
  · rw [hnone, hnew, hname]
    refine ⟨rfl, ?_, nofun⟩
    cases due with
    | none => rfl
    | some t => exact (if_neg (Nat.not_le_of_lt (hdue t rfl))).symm

/-- What is planned before the statement is due does not depend on its name. -/
theorem planned_early {number : Nat} (h : ∀ t ∈ due, number < t) (name name' : String) :
    NamedRun.planned due name number = NamedRun.planned due name' number := by
  cases due with
  | none => rfl
  | some t =>
      unfold NamedRun.planned
      simp only [h t rfl, if_true]

/-- A run that was as planned is added to the others. -/
theorem planned_concat {runs : List NamedRun} {run : NamedRun}
    (hruns : ∀ i r, runs[i]? = some r → r = NamedRun.planned due name (i + 1))
    (hrun : run = NamedRun.planned due name (runs.length + 1)) :
    ∀ i r, (runs ++ [run])[i]? = some r → r = NamedRun.planned due name (i + 1) := by
  intro i r hr
  rcases Nat.lt_trichotomy i runs.length with hlt | rfl | hgt
  · rw [List.getElem?_append_left hlt] at hr
    exact hruns i r hr
  · rw [List.getElem?_append_right (Nat.le_refl _), Nat.sub_self] at hr
    cases hr
    exact hrun
  · rw [List.getElem?_eq_none (by rw [List.length_append, List.length_singleton]; omega)] at hr
    cases hr

/-- What the next run of a statement is: it is sent without a name, or under a new one if it is due,
or it is not sent because it has one. -/
theorem next_run {s : Session} {st : Statement} {runs : Nat} (hne : name ≠ "")
    (hthreshold : ∀ t ∈ s.options.dueRun, t < UInt64.size)
    (hruns : st.executions = min (runs + 1) (UInt64.size - 1))
    (hname : st.name = nameAfter s.options.dueRun name runs) :
    ∃ name', name' ≠ "" ∧ ((∃ t ∈ s.options.dueRun, t ≤ runs) → name' = name) ∧
      NamedRun.mk (s.offered st).toList ((st.name.or (s.offered st)).getD "") =
        NamedRun.planned s.options.dueRun name' (runs + 1) ∧
      st.name.or ((s.offered st).filter (!·.isEmpty)) =
        nameAfter s.options.dueRun name' (runs + 1) := by
  have hran : 0 < st.executions := by
    rw [hruns]
    exact lt_min (Nat.succ_pos _) (by decide)
  cases hdue : s.options.dueRun with
  | none =>
      rw [hdue] at hname
      have hname : st.name = none := hname
      have hoffered : s.offered st = some "" := by
        rcases offered_unnamed hname hran with ⟨hany, -⟩ | ⟨-, hoffered⟩
        · rw [hdue] at hany
          cases hany
        · exact hoffered
      rw [hname, hoffered]
      exact ⟨name, hne, fun _ => rfl, rfl, rfl⟩
  | some t =>
      have ht := hthreshold t hdue
      rw [hdue] at hname
      by_cases hold : t ≤ runs
      · have hname : st.name = some name := hname.trans (if_pos hold)
        have hoffered : s.offered st = none := by
          unfold Session.offered
          rw [hname]
        rw [hname, hoffered]
        refine ⟨name, hne, fun _ => rfl, ?_, (if_pos (Nat.le_succ_of_le hold)).symm⟩
        unfold NamedRun.planned
        simp only [show ¬ runs + 1 < t by omega, show runs + 1 ≠ t by omega, if_false]
        rfl
      · have hname : st.name = none := hname.trans (if_neg hold)
        have hlate : ∀ name' : String, (∃ t' ∈ some t, t' ≤ runs) → name' = name := by
          rintro _ ⟨_, ⟨⟩, hle⟩
          exact absurd hle hold
        rcases offered_unnamed hname hran with ⟨hany, hoffered⟩ | ⟨hany, hoffered⟩ <;>
          rw [hdue, Option.any_some, hruns] at hany <;> rw [hname, hoffered]
        · have hnow : t = runs + 1 := by
            have := of_decide_eq_true hany
            omega
          have hfresh : s!"S_{s.nextName}" ≠ "" := freshName_ne s.nextName
          refine ⟨_, hfresh, hlate _, ?_, ?_⟩
          · unfold NamedRun.planned
            simp only [hnow, lt_irrefl, if_false, if_true]
            rfl
          · rw [Option.filter_some_pos (by simp)]
            exact (if_pos (Nat.le_of_eq hnow)).symm
        · have hlater : runs + 1 < t := by
            have := of_decide_eq_false hany
            omega
          refine ⟨name, hne, hlate _, ?_, (if_neg (Nat.not_le_of_lt hlater)).symm⟩
          unfold NamedRun.planned
          simp only [hlater, if_true]
          rfl

/-- If nothing comes between a statement and its name, that is what it has after a run. -/
theorem Asked.answered {h : Handle} {id : Nat} {parameters : List (Option Bytes)}
    {events : List Event} (hw : w.Tidy) (hh : w.hand? id = some h)
    (ha : Asked (w.executing h parameters) events w w')
    (hkept : Untroubled w.session.forgetsOnDrop w'.log h.id) :
    Runs w.session.epoch (w.session.readied h.statement).executions (fun st' =>
      ((w.executing h parameters).preparing = none →
        st'.name = (w.session.readied h.statement).name ∧
          st'.epoch = (w.session.readied h.statement).epoch) ∧
      ∀ name, (w.executing h parameters).preparing = some name →
        st'.name = some name ∧ st'.epoch = w.session.epoch)
      ((w.executing h parameters).after w.session.forgetsOnDrop events) := by
  refine after_answered (q := w.executing h parameters) rfl (fun r hr => ?_) (fun hf m hm => ?_)
    fun hpreparing => ?_
  · obtain ⟨e, he, hmessage, -, hrunner⟩ := ha.heard hr
    rw [← Entry.isStale_report hmessage]
    exact hkept.fresh e he (by rw [hrunner]; rfl)
  · obtain ⟨e, he, hmessage, -, -⟩ := ha.heard hm
    rw [← Entry.drops_message hmessage]
    exact hkept.kept hf e he
  · obtain ⟨name, hname⟩ := Option.isSome_iff_exists.1 hpreparing
    have hparse : name ∈ parsedNames (drafted w.turn (w.executing h parameters).runner
        (w.executing h parameters).sent) := by
      rw [(executing_fits hw hh parameters).parses, hname]
      exact List.mem_singleton_self _
    obtain ⟨hne, p, hp, sql, hsql⟩ := mem_parsedNames.1 hparse
    have hlog : p ∈ w'.log := by
      rw [ha.log]
      exact List.mem_append_right _ (List.mem_append_left _ hp)
    obtain ⟨message, -, rfl⟩ := List.mem_map.1 hp
    obtain ⟨a, hmem, hturn, hack⟩ := hkept.answered _ hlog rfl _ hsql hne
    exact ha.of_log hw hmem hturn (of_decide_eq_true hack)

/-- The next run of a statement is the one that is planned. -/
theorem OnSchedule.executes {h : Handle} {id : Nat} {parameters : List (Option Bytes)}
    {events : List Event} (hw : w.Tidy) (hh : w.hand? id = some h)
    (hplan : OnSchedule w.session.options.dueRun name h.id w) (hne : name ≠ "")
    (hthreshold : ∀ t ∈ w.session.options.dueRun, t < UInt64.size)
    (ha : Asked (w.executing h parameters) events w w')
    (hkept : Untroubled w.session.forgetsOnDrop w'.log h.id) :
    ∃ name', name' ≠ "" ∧ OnSchedule w.session.options.dueRun name' h.id w' := by
  obtain ⟨hruns, hname, hnow⟩ := hplan.state h (hand_mem hh) rfl
  obtain ⟨-, hcount, hreadied, hsame⟩ := readied_face w.session h.statement
  have hfits := executing_fits hw hh parameters
  have hcount : (w.session.readied h.statement).executions =
      min ((runsOf w.log h.id).length + 1) (UInt64.size - 1) := by
    rw [hcount, hruns]
    omega
  have hkeeps : (w.session.readied h.statement).name = h.statement.name := by
    rw [hreadied]
    cases hst : h.statement.name with
    | none => rfl
    | some old => exact Option.filter_some_pos (decide_eq_true (hnow (by rw [hst]; rfl)))
  obtain ⟨name', hne', hlate, hrun, hafter⟩ :=
    next_run hne hthreshold hcount (hkeeps.trans hname)
  have hlog := hrun ▸ ha.runs hw
  refine ⟨name', hne', ?_, fun x hx hid => ?_⟩
  · rw [hlog]
    refine planned_concat (fun i run hi => ?_) rfl
    rw [hplan.runs i run hi]
    by_cases hdue : ∃ t ∈ w.session.options.dueRun, t ≤ (runsOf w.log h.id).length
    · rw [hlate hdue]
    · have hlt := (List.getElem?_eq_some_iff.1 hi).1
      refine planned_early (fun t ht => ?_) name name'
      have : ¬ t ≤ (runsOf w.log h.id).length := fun hle => hdue ⟨t, ht, hle⟩
      omega
  · rw [hlog, List.length_append, List.length_singleton]
    rcases ha.origin hx with ⟨ran, st', hran, hst', rfl⟩ | hx
    · obtain ⟨hepoch, st, hst, hexecutions, hnone, hsome⟩ := Asked.answered hw hh ha hkept
      rw [hst'] at hst
      cases hst
      have hsession : w'.session.epoch = w.session.epoch :=
        (congrArg Ledger.epoch ha.ledger).trans hepoch
      cases hpreparing : (w.executing h parameters).preparing with
      | none =>
          obtain ⟨hsame', hepoch'⟩ := hnone hpreparing
          have hname' : nameAfter w.session.options.dueRun name' _ =
            (w.session.readied h.statement).name := hafter.symm.trans
              ((congrArg (Option.or _) hpreparing).trans Option.or_none)
          refine ⟨hexecutions.trans hcount, hsame'.trans hname'.symm, fun hprepared => ?_⟩
          rw [hsame', hkeeps] at hprepared
          rw [hsession]
          exact hepoch'.trans (hsame.trans (hnow hprepared))
      | some new =>
          obtain ⟨hnew', hepoch'⟩ := hsome new hpreparing
          obtain ⟨hoffered, -⟩ := Option.filter_eq_some_iff.1 hpreparing
          refine ⟨hexecutions.trans hcount, hnew'.trans ?_, fun _ => hepoch'.trans hsession.symm⟩
          refine Eq.trans ?_ hafter
          rw [(Session.offered_some hoffered).1, Option.none_or]
          exact hpreparing.symm
    · exact absurd hid ((hfits.bystander hw.numbered hx).2 h rfl)

theorem dueRun_pos (o : SessionOptions) : ∀ t ∈ o.dueRun, 0 < t := by
  unfold SessionOptions.dueRun
  cases o.queryMode with
  | simple => nofun
  | extendedCacheEverything =>
      rintro _ ⟨⟩
      exact Nat.one_pos
  | extended | extendedForPrepared =>
      simp only []
      split
      · nofun
      · next hpos =>
          rintro _ ⟨⟩
          exact Nat.pos_of_ne_zero hpos

theorem dueRun_lt {o : SessionOptions} (h : o.prepareThreshold < UInt64.size) :
    ∀ t ∈ o.dueRun, t < UInt64.size := by
  unfold SessionOptions.dueRun
  cases o.queryMode with
  | simple => nofun
  | extendedCacheEverything =>
      rintro _ ⟨⟩
      decide
  | extended | extendedForPrepared =>
      simp only []
      split
      · nofun
      · rintro _ ⟨⟩
        exact h

/-- Whatever is done, the statement stays on schedule. -/
theorem OnSchedule.step (hw : w.Tidy) (hplan : OnSchedule w.session.options.dueRun name id w)
    (hne : name ≠ "") (hthreshold : w.session.options.prepareThreshold < UInt64.size)
    (operation : Operation)
    (hkept : Untroubled w.session.forgetsOnDrop (w.step operation).log id) :
    ∃ name', name' ≠ "" ∧ OnSchedule w.session.options.dueRun name' id (w.step operation) := by
  have hdue := dueRun_pos w.session.options
  have heffect := step_effect hw operation
  generalize w.step operation = w' at hkept heffect ⊢
  have hdrops : ∀ {q : Inquiry} {events : List Event}, Asked q events w w' →
      w.session.forgetsOnDrop = true → ∀ m ∈ events.filterMap Event.message?, m.drops = false := by
    intro q events h hf m hm
    obtain ⟨e, he, hmessage, -, -⟩ := h.heard hm
    rw [← Entry.drops_message hmessage]
    exact hkept.kept hf e he
  have hother : ∀ {q : Inquiry} {events : List Event}, Asked q events w w' → Fits q w →
      q.runner.map Handle.id ≠ some id →
      ∃ name', name' ≠ "" ∧ OnSchedule w.session.options.dueRun name' id w' := by
    intro q events h hfits hrunner
    obtain ⟨es, hes, hentries⟩ := h.entries
    refine ⟨name, hne, hplan.still hdue hes (fun e he e' he' => ?_) (fun e he => ?_) ?_
      fun x hx hid => ?_⟩
    · exact (hentries e' he').1 ▸ Nat.ne_of_lt (hw.turns e he)
    · rw [(hentries e he).2]
      exact hrunner
    · exact (congrArg Ledger.epoch h.ledger).trans
        ((after_epoch (hdrops h)).trans hfits.epoch)
    · rcases h.origin hx with ⟨ran, st, hran, -, rfl⟩ | hx
      · rw [hran] at hrunner
        exact absurd (congrArg some hid) hrunner
      · exact .inl ⟨x, (hfits.bystander hw.numbered hx).1, rfl⟩
  cases heffect with
  | passes h =>
      refine ⟨name, hne, hplan.still hdue h.log (fun e he e' he' => ?_) (fun e he => ?_) h.epoch
        fun x hx hid => ?_⟩
      · exact (h.idle e' he').2.1 ▸ Nat.ne_of_lt (hw.turns e he)
      · rw [(h.idle e he).1.runner]
        nofun
      · rcases h.origin (.inr hx) with ⟨st, hst, hface⟩ | ⟨y, hy, hface⟩
        · obtain ⟨hname, hnew, -⟩ := h.fresh st hst
          have hmade : w.made = id := (congrArg Face.id hface).symm.trans hid
          refine .inr ⟨runsOf_none fun e he hrunner => ?_,
            (congrArg Face.executions hface).trans hnew, (congrArg Face.name hface).trans hname⟩
          obtain ⟨ran, hran, hid'⟩ := Option.map_eq_some_iff.1 hrunner
          exact absurd (hw.runners e he ran hran) (by omega)
        · exact .inl ⟨y, hy, hface⟩
  | queries h => exact hother h (querying_fits w) nofun
  | @executes id' h parameters events hh hopen ha =>
      by_cases hid : h.id = id
      · subst hid
        exact hplan.executes hw hh hne (dueRun_lt hthreshold) ha hkept
      · exact hother ha (executing_fits hw hh parameters) fun hsame => hid (Option.some.inj hsame)

theorem execute_runs (hw : w.Tidy) (hstuck : w.isStuck = false)
    (hopen : w.session.isClosed = false) (hhand : (w.hand? id).isSome)
    (parameters : List (Option Bytes)) :
    (runsOf (w.step (.execute id parameters)).log id).length = (runsOf w.log id).length + 1 := by
  obtain ⟨h, hh⟩ := Option.isSome_iff_exists.1 hhand
  have hid := hand_id hh
  obtain ⟨events, ha, -⟩ := execute_asked hopen hw.closable (hw.runnable hh parameters)
  have hact : w.act (.execute id parameters) = w.execute h parameters := by
    show (w.hand? id).elim w _ = _
    rw [hh]
    rfl
  rw [step_of_running hstuck, hact, ← hid, ha.runs hw, List.length_append, List.length_singleton]

/-- Each time a statement is executed it is run once. It is sent without a name until it is due,
under a new name in the run in which it is, and not at all in every later one, each of which is
under that name. It has a name from then on, and never before, whatever is done to it and to others
in between. The threshold is a number of 64 bits, which is what runs are counted in. -/
theorem named_on_schedule {s : Session} (hs : s.IsFresh)
    (hthreshold : s.options.prepareThreshold < UInt64.size) (operations : List Operation) (id : Nat)
    (hkept : Untroubled s.forgetsOnDrop ((start s).run operations).log id) :
    ∃ name, name ≠ "" ∧
      (∀ i run, (runsOf ((start s).run operations).log id)[i]? = some run →
        run = NamedRun.planned s.options.dueRun name (i + 1)) ∧
      (∀ h ∈ ((start s).run operations).handles, h.id = id → h.statement.name =
        nameAfter s.options.dueRun name (runsOf ((start s).run operations).log id).length) ∧
      (((start s).run operations).isStuck = false →
        ((start s).run operations).session.isClosed = false →
        (((start s).run operations).hand? id).isSome → ∀ parameters,
          (runsOf (((start s).run operations).step (.execute id parameters)).log id).length =
            (runsOf ((start s).run operations).log id).length + 1) := by
  suffices hplan : ∃ name, name ≠ "" ∧
      OnSchedule s.options.dueRun name id ((start s).run operations) by
    obtain ⟨name, hne, hplan⟩ := hplan
    exact ⟨name, hne, hplan.runs, fun h hh hid => (hplan.state h hh hid).2.1,
      execute_runs (run_tidy (start_tidy hs) operations)⟩
  induction operations using List.reverseRecOn with
  | nil =>
      refine ⟨"S_0", by decide, nofun, fun x hx => ?_⟩
      have hnone : (start s).handles = [] := by
        show residents _ s.statements = []
        unfold residents
        rw [hs.statements]
        rfl
      rw [show ((start s).run []).handles = [] from hnone] at hx
      cases hx
  | append_singleton operations operation ih =>
      have hw := run_tidy (start_tidy hs) operations
      obtain ⟨hoptions, hforgets⟩ := run_steady (start_tidy hs) operations
      rw [run_append] at hkept ⊢
      obtain ⟨es, hes, hturns⟩ := (step_effect hw operation).log
      have hlog : (((start s).run operations).run [operation]).log = _ := hes
      obtain ⟨name, hne, hplan⟩ := ih ((hlog ▸ hkept).before fun e he e' he' =>
        hturns e' he' ▸ Nat.ne_of_lt (hw.turns e he))
      have hoptions : ((start s).run operations).session.options = s.options := hoptions
      have hforgets : ((start s).run operations).session.forgetsOnDrop = s.forgetsOnDrop := hforgets
      rw [← hoptions] at hplan hthreshold ⊢
      rw [← hforgets] at hkept
      exact hplan.step hw hne hthreshold operation hkept

/-- The replies to two runs of a statement without a name and with one, to one of another statement,
and to a run of the first that is not sent any more. -/
def scheduledReplies : List (List WireMessage) :=
  [[.parseComplete, .bindComplete, .commandComplete (Utf8.encode "SELECT 0")],
    [.parseComplete, .bindComplete, .commandComplete (Utf8.encode "SELECT 0")],
    [.parseComplete, .bindComplete, .commandComplete (Utf8.encode "SELECT 0")],
    [.bindComplete, .commandComplete (Utf8.encode "SELECT 0")]]

/-- A session that gives a statement a name in its second run. -/
def scheduledSession : Session :=
  { sampleSession scheduledReplies with
    options := { queryMode := .extended, prepareThreshold := 2 } }

/-- A statement is run and handed back, comes from the cache and is run again, and once more after
another one was. -/
def scheduledRun : List Operation :=
  [.borrow (.parameterized "SELECT"), .execute 0 [], .release 0,
    .borrow (.parameterized "SELECT"), .execute 0 [], .create (.parameterized "VALUES (1)"),
    .execute 1 [], .release 0, .borrow (.parameterized "SELECT"), .execute 0 []]

theorem named_on_schedule_second :
    (runsOf ((start scheduledSession).run scheduledRun).log 0 =
        [⟨[""], ""⟩, ⟨["S_1"], "S_1"⟩, ⟨[], "S_1"⟩] ∧
      runsOf ((start scheduledSession).run scheduledRun).log 1 = [⟨[""], ""⟩]) ∧
    Untroubled true ((start scheduledSession).run scheduledRun).log 0 ∧
    ∃ name, name ≠ "" ∧
      (∀ i run, (runsOf ((start scheduledSession).run scheduledRun).log 0)[i]? = some run →
        run = NamedRun.planned (some 2) name (i + 1)) ∧
      (∀ h ∈ ((start scheduledSession).run scheduledRun).handles, h.id = 0 → h.statement.name =
        nameAfter (some 2) name (runsOf ((start scheduledSession).run scheduledRun).log 0).length) ∧
      (((start scheduledSession).run scheduledRun).isStuck = false →
        ((start scheduledSession).run scheduledRun).session.isClosed = false →
        (((start scheduledSession).run scheduledRun).hand? 0).isSome → ∀ parameters,
          (runsOf (((start scheduledSession).run scheduledRun).step
            (.execute 0 parameters)).log 0).length =
              (runsOf ((start scheduledSession).run scheduledRun).log 0).length + 1) := by
  have hkept : Untroubled true ((start scheduledSession).run scheduledRun).log 0 :=
    ⟨by decide +kernel, by decide +kernel, fun _ => by decide +kernel⟩
  exact ⟨by decide +kernel, hkept,
    named_on_schedule (s := scheduledSession) ⟨rfl, rfl, rfl⟩ (by decide) scheduledRun 0 hkept⟩

end World

end PgClient
