import PgClient.Proofs.Closing
import PgClient.Proofs.Tidy

/-!
# Names the server has dropped

Once the server says that it dropped every statement, nobody should close one of them any more. What
rests in the cache is forgotten on the spot, and so is what waits to be closed. A statement in the
caller's hands is out of reach; it keeps its name, and the epoch it was prepared in tells that the
name is void. Whoever looks at the epoch lets the name be, and the next run of the statement does.

Two do not look. A statement that is given up has its name closed, whatever epoch that is of, and
so has one whose plan is reported stale in the rest of the very reply. `Revived` is these two, and
`dropped_names_rest` says that there is no third.
-/

namespace PgClient

open Exchange

/-- Why a dropped name is closed again. `since` is what happened after the server dropped
everything, in the call `turn`: the statement was given up before it ran again, or the rest of the
reply reported its plan stale. -/
inductive Revived (since : List Entry) (turn id : Nat) (name : String) : Prop where
  | givenUp {before after : List Entry} {e : Entry} (hsplit : since = before ++ e :: after)
      (hevent : e.event = .statementEvicted name)
      (hidle : ∀ x ∈ before, x.runner.map Handle.id = some id → x.bind? = none)
  | stale {e : Entry} (he : e ∈ since) (hturn : e.turn = turn) (hstale : e.isStale = true)
      (hrunner : e.runner.map Handle.id = some id)

theorem Revived.append {since : List Entry} {turn id : Nat} {name : String}
    (h : Revived since turn id name) (es : List Entry) : Revived (since ++ es) turn id name := by
  cases h with
  | @givenUp before after e hsplit hevent hidle =>
      have hsplit' : since ++ es = before ++ e :: (after ++ es) := by
        rw [hsplit, List.append_assoc, List.cons_append]
      exact .givenUp hsplit' hevent hidle
  | stale he hturn hstale hrunner =>
      exact .stale (List.mem_append_left _ he) hturn hstale hrunner

/-- A name is sent to be prepared in one place. -/
theorem parse_unique {log : List Entry} (hunique : (parsedNames log).Nodup) {p p' : Entry}
    {name sql sql' : String} (hne : name ≠ "") (hp : p ∈ log) (hp' : p' ∈ log)
    (hparse : p.parse? = some (name, sql)) (hparse' : p'.parse? = some (name, sql')) : p = p' := by
  obtain ⟨front, back, rfl⟩ := List.append_of_mem hp
  have hone : parsedNames (p :: back) = name :: parsedNames back := by
    refine List.filterMap_cons_some ?_
    rw [hparse]
    exact Option.filter_some_pos (decide_eq_true hne)
  rw [parsedNames_append, hone] at hunique
  obtain ⟨-, hback, hfront⟩ := List.nodup_append.1 hunique
  rcases List.mem_append.1 hp' with hmem | hmem
  · have := mem_parsedNames.2 ⟨hne, p', hmem, sql', hparse'⟩
    exact absurd rfl (hfront name this name List.mem_cons_self)
  · rcases List.mem_cons.1 hmem with rfl | hmem
    · rfl
    · have := mem_parsedNames.2 ⟨hne, p', hmem, sql', hparse'⟩
      exact absurd this (List.nodup_cons.1 hback).1

namespace World

/-- The number is that of the statement that was sent in this entry, and that was in the caller's
hands. -/
def Owner (hands : List Handle) (p : Entry) (id : Nat) : Prop :=
  p.runner.map Handle.id = some id ∧ ∃ h ∈ hands, h.id = id

/-- A name is void: it does not wait to be closed, and a statement that has it has it from an epoch
that is over, and did not run since. -/
structure Void (IsOwner : Nat → Prop) (name : String) (since : List Entry) (w : World) : Prop where
  waiting : name ∉ w.session.pendingClose
  held : ∀ x ∈ w.handles, x.statement.name = some name →
    x.statement.epoch < w.session.epoch ∧ IsOwner x.id ∧
      ∀ e ∈ since, e.runner.map Handle.id = some x.id → e.bind? = none

/-- Every Close of a name since it was dropped has its reason, and the name is void unless there is
one for the next. -/
structure Bygone (IsOwner : Nat → Prop) (turn : Nat) (name : String) (mark since : List Entry)
    (w : World) : Prop where
  log : w.log = mark ++ since
  closes : ∀ before c after, since = before ++ c :: after → c.close? = some name →
    ∃ id, IsOwner id ∧ Revived before turn id name
  still : (∃ id, IsOwner id ∧ Revived since turn id name) ∨ Void IsOwner name since w

variable {w w' : World} {IsOwner : Nat → Prop} {turn : Nat} {name : String}
  {mark since es : List Entry}

/-- What a call adds does no harm if no Close comes from a name that is void. -/
theorem Bygone.extend (hb : Bygone IsOwner turn name mark since w) (hlog : w'.log = w.log ++ es)
    (hcloses : closedNames es ⊆ w.session.pendingClose)
    (hstill : Void IsOwner name since w → (∃ id, IsOwner id ∧ Revived (since ++ es) turn id name) ∨
      Void IsOwner name (since ++ es) w') : Bygone IsOwner turn name mark (since ++ es) w' := by
  refine ⟨?_, fun before c after hsplit hclose => ?_, ?_⟩
  · rw [hlog, hb.log, List.append_assoc]
  · rcases append_cases hsplit with ⟨mid, hold, -⟩ | ⟨mid, rfl, hnew⟩
    · exact hb.closes before c mid hold hclose
    · rcases hb.still with ⟨id, howner, hrevived⟩ | hvoid
      · exact ⟨id, howner, hrevived.append mid⟩
      · have hc : c ∈ es := hnew ▸ List.mem_append_right _ List.mem_cons_self
        exact absurd (hcloses (List.mem_filterMap.2 ⟨c, hc, hclose⟩)) hvoid.waiting
  · rcases hb.still with ⟨id, howner, hrevived⟩ | hvoid
    · exact .inl ⟨id, howner, hrevived.append es⟩
    · exact hstill hvoid

/-- A statement with a void name that is given up has it closed. -/
theorem Void.passes (hv : Void IsOwner name since w) {fresh : Option Statement} {gone : List Handle}
    (h : Passes fresh gone es w w') :
    (∃ id, IsOwner id ∧ Revived (since ++ es) turn id name) ∨
      Void IsOwner name (since ++ es) w' := by
  have hidle : ∀ e ∈ es, e.bind? = none := fun e he => (Entry.mute (h.idle e he).1.mute).2.2
  by_cases hgone : ∃ x ∈ gone, x.statement.name = some name
  · obtain ⟨x, hx, hname⟩ := hgone
    obtain ⟨y, hy, hyname, hface⟩ := h.named (.inl hx) hname
    obtain ⟨-, howner, hbinds⟩ := hv.held y hy hyname
    obtain ⟨e, he, hevent⟩ := h.evicted x hx name hname
    obtain ⟨front, back, hsplit⟩ := List.append_of_mem he
    have hsplit' : since ++ es = since ++ front ++ e :: back := by
      rw [hsplit, List.append_assoc]
    refine .inl ⟨y.id, howner, .givenUp hsplit' hevent ?_⟩
    · refine List.forall_mem_append.2 ⟨hbinds, fun z hz _ => hidle z ?_⟩
      rw [hsplit]
      exact List.mem_append_left _ hz
  · refine .inr ⟨fun hwaiting => ?_, fun x hx hname => ?_⟩
    · rw [h.waiting] at hwaiting
      rcases List.mem_append.1 hwaiting with hwaiting | hnew
      · exact hv.waiting hwaiting
      · obtain ⟨st, hst, hname⟩ := List.mem_filterMap.1 hnew
        obtain ⟨x, hx, rfl⟩ := List.mem_map.1 hst
        exact hgone ⟨x, hx, hname⟩
    · obtain ⟨y, hy, hyname, hface⟩ := h.named (.inr hx) hname
      obtain ⟨hepoch, howner, hbinds⟩ := hv.held y hy hyname
      have hid : x.id = y.id := congrArg Face.id hface
      have hsame : x.statement.epoch = y.statement.epoch := congrArg Face.epoch hface
      rw [hid, hsame, h.epoch]
      exact ⟨hepoch, howner, List.forall_mem_append.2 ⟨hbinds, fun e he _ => hidle e he⟩⟩

/-! ## During a reply -/

/-- A name is neither with the statement that runs nor waits to be closed. -/
structure Away (name : String) (a : Accounts) : Prop where
  statement : ∀ st, a.statement = some st → st.name ≠ some name
  waiting : name ∉ a.ledger.pendingClose

theorem Away.foldl {a : Accounts} (ha : Away name a) {preparing : Option String} {f : Bool}
    {ms : List BackendMessage} (hother : .parseComplete ∈ ms → preparing ≠ some name) :
    Away name (ms.foldl (Accounts.on preparing f) a) := by
  refine Accounts.foldl_keeps ha (fun hack a ha => ?_) (fun a ha => ⟨fun st hst => ?_, ha.waiting⟩)
    (fun _ a ha => ?_) fun _ _ a ha => ⟨ha.statement, List.not_mem_nil⟩
  · refine ⟨fun st hst => ?_, by rw [Accounts.parsed_ledger]; exact ha.waiting⟩
    rcases Accounts.statement_of_parsed hst with hst | ⟨new, st', rfl, -, rfl⟩
    · exact ha.statement st hst
    · exact hother hack
  · obtain ⟨st', hst', rfl⟩ := Option.map_eq_some_iff.1 hst
    exact ha.statement st' hst'
  · refine ⟨fun st hst => ?_, fun hwaiting => ?_⟩
    · rw [(Accounts.statement_of_unprepared hst).1]
      nofun
    · rcases Accounts.waiting_of_unprepared hwaiting with hwaiting | ⟨st, hst, hname⟩
      · exact ha.waiting hwaiting
      · exact ha.statement st hst hname

/-- A void name stays so through a request, whoever runs: its statement forgets it. -/
theorem Void.asked (hv : Void IsOwner name since w) (hw : w.Tidy)
    (hparsed : name ∈ parsedNames w.log) {q : Inquiry} (hfits : Fits q w) {events : List Event}
    (h : Asked q events w w') (hlog : w'.log = w.log ++ es) :
    Void IsOwner name (since ++ es) w' := by
  have hledger : w'.session.ledger = _ := h.ledger
  have haway : Away name (q.after w.session.forgetsOnDrop events) := by
    refine Away.foldl ⟨fun st hst hname => ?_, fun hwaiting => ?_⟩ fun _ hpreparing => ?_
    · obtain ⟨ran, hran, -, hepoch, hold⟩ := hfits.statement st hst
      obtain ⟨hname, hnow⟩ := hold name hname
      have hmem : ran ∈ w.handles := List.mem_append_left _ (hfits.ran_mem hran)
      exact absurd (hepoch.symm.trans hnow) (Nat.ne_of_lt (hv.held ran hmem hname).1)
    · exact hv.waiting (hfits.waiting hwaiting)
    · exact (hfits.offered name hpreparing).2.1 hparsed
  have hentries : ∀ e ∈ es, e.runner = q.runner := by
    obtain ⟨es', hes', hentries⟩ := h.entries
    rw [List.append_cancel_left (hlog.symm.trans hes')]
    exact fun e he => (hentries e he).2
  refine ⟨?_, fun x hx hname => ?_⟩
  · show name ∉ w'.session.ledger.pendingClose
    rw [hledger]
    exact haway.waiting
  · rcases h.origin hx with ⟨ran, st, -, hst, rfl⟩ | hx
    · exact absurd hname (haway.statement st hst)
    · obtain ⟨hmem, hother⟩ := hfits.bystander hw.numbered hx
      obtain ⟨hepoch, howner, hbinds⟩ := hv.held x hmem hname
      refine ⟨Nat.lt_of_lt_of_le hepoch ?_, howner, List.forall_mem_append.2 ⟨hbinds, ?_⟩⟩
      · show w.session.epoch ≤ w'.session.ledger.epoch
        rw [hledger, ← hfits.epoch]
        exact epoch_le_after q _ events
      · intro e he hid
        rw [hentries e he] at hid
        obtain ⟨ran, hran, hid⟩ := Option.map_eq_some_iff.1 hid
        exact absurd hid.symm (hother ran hran)

theorem Bygone.step (hb : Bygone IsOwner turn name mark since w) (hw : w.Tidy)
    (hparsed : name ∈ parsedNames w.log) (operation : Operation) :
    ∃ since', Bygone IsOwner turn name mark since' (w.step operation) := by
  rcases step_passes_or_asks hw operation with ⟨_, _, _, h⟩ | ⟨q, events, hfits, h, -⟩
  · refine ⟨_, hb.extend h.log (fun c hc => ?_) fun hvoid => hvoid.passes h⟩
    obtain ⟨e, he, hclose⟩ := List.mem_filterMap.1 hc
    rw [(Entry.mute (h.idle e he).1.mute).2.1] at hclose
    cases hclose
  · refine ⟨_, hb.extend h.log ?_ fun hvoid => .inr (hvoid.asked hw hparsed hfits h h.log)⟩
    rw [closedNames_append]
    refine List.append_subset.2 ⟨hfits.closes, ?_⟩
    have hnone : closedNames ([] ++ events.map (Entry.mk w.turn q.runner)) = [] :=
      closedNames_mute h.kinds
    rw [List.nil_append] at hnone
    rw [hnone]
    exact List.nil_subset _

/-! ## The moment everything is dropped -/

/-- What was heard in a call, before and after one message of it. -/
theorem Asked.split {q : Inquiry} {events : List Event} (h : Asked q events w w')
    {heard rest : List Entry} {d : Entry} (hlog : w'.log = w.log ++ (heard ++ d :: rest))
    (hd : d.event.message?.isSome) :
    ∃ front event back, events = front ++ event :: back ∧ d.event = event ∧ d.turn = w.turn ∧
      rest = back.map (Entry.mk w.turn q.runner) := by
  have hsplit := List.append_cancel_left (h.log.symm.trans hlog)
  rcases append_cases hsplit with ⟨mid, hsent, -⟩ | ⟨mid, -, hevents⟩
  · have hmem : d ∈ drafted w.turn q.runner q.sent :=
      hsent ▸ List.mem_append_right _ List.mem_cons_self
    obtain ⟨m, -, rfl⟩ := List.mem_map.1 hmem
    cases hd
  · obtain ⟨front, tail, rfl, -, htail⟩ := List.map_eq_append_iff.1 hevents
    obtain ⟨event, back, rfl, rfl, rfl⟩ := List.map_eq_cons_iff.1 htail
    exact ⟨front, event, back, rfl, rfl, rfl, rfl⟩

/-- A statement with a void name keeps it through the rest of the reply, or gives it up to be closed
because its plan is stale. -/
theorem dropped_foldl {a : Accounts} (hepoch : ∀ st, a.statement = some st → st.name = some name →
      st.epoch ≤ a.ledger.epoch) {preparing : Option String} {f : Bool} {ms : List BackendMessage}
    (hother : .parseComplete ∈ ms → preparing ≠ some name) :
    ((∃ st, a.statement = some st ∧ st.name = some name) ∧
      ∃ r : Report, .errorResponse r ∈ ms ∧ r.isStale = true) ∨
    (name ∉ (ms.foldl (Accounts.on preparing f) a.dropped).ledger.pendingClose ∧
      ∀ st, (ms.foldl (Accounts.on preparing f) a.dropped).statement = some st →
        st.name = some name →
          st.epoch < (ms.foldl (Accounts.on preparing f) a.dropped).ledger.epoch) := by
  by_cases hnamed : ∃ st, a.statement = some st ∧ st.name = some name
  · by_cases hstale : ∃ r : Report, .errorResponse r ∈ ms ∧ r.isStale = true
    · exact .inl ⟨hnamed, hstale⟩
    · refine .inr (Accounts.foldl_keeps (P := fun a => name ∉ a.ledger.pendingClose ∧
        ∀ st, a.statement = some st → st.name = some name → st.epoch < a.ledger.epoch)
        ⟨List.not_mem_nil, fun st hst hname => Nat.lt_succ_of_le (hepoch st hst hname)⟩
        (fun hack a ha => ?_) (fun a ha => ⟨ha.1, fun st hst => ?_⟩)
        (fun hr => absurd hr hstale)
        fun _ _ a ha => ⟨List.not_mem_nil, fun st hst hname =>
          Nat.lt_succ_of_lt (ha.2 st hst hname)⟩)
      · rw [Accounts.parsed_ledger]
        refine ⟨ha.1, fun st hst hname => ?_⟩
        rcases Accounts.statement_of_parsed hst with hst | ⟨new, st', rfl, -, rfl⟩
        · exact ha.2 st hst hname
        · exact absurd hname (hother hack)
      · obtain ⟨st', hst', rfl⟩ := Option.map_eq_some_iff.1 hst
        exact ha.2 st' hst'
  · have haway : Away name a.dropped :=
      ⟨fun st hst hname => hnamed ⟨st, hst, hname⟩, List.not_mem_nil⟩
    have hafter := haway.foldl (f := f) hother
    exact .inr ⟨hafter.waiting, fun st hst hname => absurd hname (hafter.statement st hst)⟩

theorem after_dropped (q : Inquiry) (front back : List Event) {event : Event} {m : BackendMessage}
    (hm : event.message? = some m) (hdrops : m.drops = true) :
    q.after true (front ++ event :: back) =
      { q with before := (q.after true front).dropped }.after true back := by
  have hon : ∀ a : Accounts, a.on q.preparing true m = a.dropped := by
    intro a
    cases m with
    | commandComplete tag => exact if_pos (Bool.and_eq_true_iff.2 ⟨hdrops, rfl⟩)
    | _ => cases hdrops
  unfold Inquiry.after
  rw [List.filterMap_append, List.filterMap_cons_some hm, List.foldl_append, List.foldl_cons, hon]

/-- A name has one owner. -/
theorem Assigned.owner {log : List Entry} {id : Nat} (h : Assigned log id name)
    (hunique : (parsedNames log).Nodup) {p : Entry} {sql : String} (hp : p ∈ log)
    (hparse : p.parse? = some (name, sql)) : p.runner.map Handle.id = some id := by
  obtain ⟨hne, p', hp', hrunner, sql', hparse'⟩ := h
  rw [parse_unique hunique hne hp hp' hparse hparse']
  exact hrunner

/-- The Parse under the name that a request offers is sent with it. -/
theorem Asked.offered_turn {q : Inquiry} {events : List Event} {p : Entry} {sql : String}
    (h : Asked q events w w') (hfits : Fits q w) (hw' : w'.Tidy) (hp : p ∈ w'.log)
    (hparse : p.parse? = some (name, sql)) (hne : name ≠ "") (hoffered : q.preparing = some name) :
    p.turn = w.turn := by
  have hsent : name ∈ parsedNames (drafted w.turn q.runner q.sent) := by
    rw [hfits.parses, hoffered]
    exact List.mem_singleton_self _
  obtain ⟨-, p', hp', sql', hparse'⟩ := mem_parsedNames.1 hsent
  have hmem : p' ∈ w'.log := by
    rw [h.log]
    exact List.mem_append_right _ (List.mem_append_left _ hp')
  rw [parse_unique hw'.parses hne hp hmem hparse hparse']
  obtain ⟨message, -, rfl⟩ := List.mem_map.1 hp'
  rfl

/-- After everything was dropped the cache is empty. A statement that still has a name is in the
caller's hands, and has it from an epoch that is over if that is so of the one that ran. -/
theorem Asked.outdated {q : Inquiry} {front back : List Event} {event : Event} {m : BackendMessage}
    (h : Asked q (front ++ event :: back) w w') (hw : w.Tidy) (hfits : Fits q w)
    (hforgets : w.session.forgetsOnDrop = true) (hm : event.message? = some m)
    (hdrops : m.drops = true)
    (hran : ∀ st, (q.after true (front ++ event :: back)).statement = some st →
      st.name = some name → st.epoch < (q.after true (front ++ event :: back)).ledger.epoch)
    {x : Handle} (hx : x ∈ w'.handles) (hname : x.statement.name = some name) :
    x.statement.epoch < w'.session.epoch ∧
      Assigned (w.log ++ drafted w.turn q.runner q.sent) x.id name ∧
      ∃ y ∈ w.hands, y.id = x.id := by
  have hnamed := after_named hfits hw true (front ++ event :: back)
  have hafter := after_dropped q front back hm hdrops
  have hledger := h.ledger
  rw [hforgets] at hledger
  have hepoch : w'.session.epoch = _ := congrArg Ledger.epoch hledger
  rw [hepoch]
  rcases h.origin hx with ⟨ran, st, hrunner, hst, rfl⟩ | hx | hx
  · rw [hforgets] at hst
    obtain ⟨ran', hrunner', -, hown⟩ := hnamed.statement st hst
    rw [hrunner'] at hrunner
    cases hrunner
    exact ⟨hran st hst hname, (hown name hname).1, _, hfits.ran_mem hrunner', rfl⟩
  · have hmem : x ∈ w.hands := hfits.hands.mem_iff.2 (List.mem_append_right _ hx)
    obtain ⟨hown, hold⟩ := hw.own x (List.mem_append_left _ hmem) name hname
    refine ⟨Nat.lt_of_le_of_lt hold ?_, hown.append _, x, hmem, rfl⟩
    have hbefore := epoch_le_after q true front
    rw [hfits.epoch] at hbefore
    rw [hafter]
    exact Nat.lt_of_lt_of_le (Nat.lt_succ_of_le hbefore)
      (epoch_le_after { q with before := (q.after true front).dropped } true back)
  · rw [hforgets, hafter] at hx
    have hnone := (foldl_on q.preparing true (back.filterMap Event.message?)
      (q.after true front).dropped).2
    obtain ⟨e, he, -⟩ := List.mem_map.1 hx
    cases hnone.subset he

/-- When the server says that it dropped everything, a name it has is void from then on, or its
statement is still to be found stale in that reply. -/
theorem Asked.bygone {q : Inquiry} {events : List Event} {heard rest : List Entry} {d p : Entry}
    {sql : String} (hw : w.Tidy) (hw' : w'.Tidy) (hfits : Fits q w) (h : Asked q events w w')
    (hforgets : w.session.forgetsOnDrop = true)
    (hlog : w'.log = w.log ++ (heard ++ d :: rest)) (hdrops : d.drops = true)
    (hp : p ∈ w.log ++ heard) (hparse : p.parse? = some (name, sql)) (hne : name ≠ "")
    (honce : ∀ e ∈ rest, e.isParseComplete = true → e.turn ≠ p.turn) :
    Bygone (Owner w.hands p) d.turn name (w.log ++ (heard ++ [d])) rest w' := by
  obtain ⟨m, hm, hmdrops⟩ := (Option.any_eq_true _ _).1 hdrops
  obtain ⟨front, event, back, rfl, rfl, hturn, hrest⟩ := h.split hlog (by rw [hm]; rfl)
  have hpw' : p ∈ w'.log := by
    rw [hlog, ← List.append_assoc]
    exact List.mem_append_left _ hp
  have howner : ∀ {id : Nat}, Assigned (w.log ++ drafted w.turn q.runner q.sent) id name →
      p.runner.map Handle.id = some id := by
    intro id ha
    have hlog' : w'.log = w.log ++ drafted w.turn q.runner q.sent ++ _ :=
      h.log.trans (List.append_assoc _ _ _).symm
    exact (hlog' ▸ ha.append _ : Assigned w'.log _ name).owner hw'.parses hpw' hparse
  have hmute : ∀ e ∈ rest, e.parse? = none ∧ e.close? = none ∧ e.bind? = none := by
    rw [hrest]
    intro e he
    obtain ⟨event, hevent, rfl⟩ := List.mem_map.1 he
    exact Entry.mute (h.kinds event
      (List.mem_append_right _ (List.mem_cons_of_mem _ hevent)))
  have hheard : ∀ {m : BackendMessage}, m ∈ back.filterMap Event.message? →
      ∃ e ∈ rest, e.event.message? = some m ∧ e.turn = w.turn ∧ e.runner = q.runner := by
    intro m hm
    obtain ⟨event, hevent, hmessage⟩ := List.mem_filterMap.1 hm
    exact ⟨_, hrest ▸ List.mem_map_of_mem hevent, hmessage, rfl, rfl⟩
  -- the Parse that carried the name was acknowledged before, if it was of this call at all
  have hother : .parseComplete ∈ back.filterMap Event.message? → q.preparing ≠ some name := by
    intro hack hpreparing
    obtain ⟨e, he, hmessage, heturn, -⟩ := hheard hack
    exact honce e he (decide_eq_true hmessage)
      (heturn.trans (h.offered_turn hfits hw' hpw' hparse hne hpreparing).symm)
  have hfront := after_named hfits hw true front
  have hafter := after_dropped q front back hm hmdrops
  refine ⟨?_, fun before c after hsplit hclose => ?_, ?_⟩
  · rw [hlog, List.append_assoc, List.append_assoc]
    rfl
  · rw [(hmute c (hsplit ▸ List.mem_append_right _ List.mem_cons_self)).2.1] at hclose
    cases hclose
  rcases dropped_foldl (a := q.after true front) (f := true) (fun st hst hname => by
      obtain ⟨ran, -, -, hown⟩ := hfront.statement st hst
      exact (hown name hname).2) hother with
    ⟨⟨st, hst, hname⟩, r, hr, hstale⟩ | ⟨hwaiting, hvoid⟩
  · obtain ⟨ran, hrunner, -, hown⟩ := hfront.statement st hst
    obtain ⟨e, he, hmessage, heturn, herunner⟩ := hheard hr
    refine .inl ⟨ran.id, ⟨howner (hown name hname).1, ran, hfits.ran_mem hrunner, rfl⟩,
      .stale he (heturn.trans hturn.symm) ?_ ?_⟩
    · rw [Entry.isStale_report hmessage]
      exact hstale
    · rw [herunner, hrunner]
      rfl
  · have hran : ∀ st, (q.after true (front ++ d.event :: back)).statement = some st →
        st.name = some name →
        st.epoch < (q.after true (front ++ d.event :: back)).ledger.epoch := by
      rw [hafter]
      exact hvoid
    refine .inr ⟨?_, fun x hx hname => ?_⟩
    · show name ∉ w'.session.ledger.pendingClose
      rw [h.ledger, hforgets, hafter]
      exact hwaiting
    · obtain ⟨hepoch, hown, hhand⟩ := h.outdated hw hfits hforgets hm hmdrops hran hx hname
      exact ⟨hepoch, ⟨howner hown, hhand⟩, fun e he _ => (hmute e he).2.2⟩

theorem Bygone.run (hb : Bygone IsOwner turn name mark since w) (hw : w.Tidy)
    (hparsed : name ∈ parsedNames w.log) (operations : List Operation) :
    ∃ since', Bygone IsOwner turn name mark since' (w.run operations) := by
  refine (run_keeps (Q := fun _ => True) (P := fun v => name ∈ parsedNames v.log ∧
    ∃ since', Bygone IsOwner turn name mark since' v) (fun v operation hv _ ⟨hparsed, _, hb⟩ =>
      ⟨?_, hb.step hv hparsed operation⟩) hw ⟨hparsed, since, hb⟩ operations fun _ _ => trivial).2
  obtain ⟨es, hes, -⟩ := (step_effect hv operation).log
  rw [hes, parsedNames_append]
  exact List.mem_append_left _ hparsed

/-- After the server said that it dropped everything, a name it had is closed for two reasons only.
The statement that had it was in the caller's hands, and was given up before it ran again; or its
plan was reported stale in the rest of the reply that said so. A name that was with a statement in
the cache is not closed any more, nor is one that waited to be closed, or one of a statement that
ran since. -/
theorem dropped_names_rest {s : Session} (hs : s.IsFresh) (hforgets : s.forgetsOnDrop = true)
    (operations more : List Operation) (operation : Operation) {heard rest : List Entry}
    {d p : Entry} {name sql : String}
    (hlog : (((start s).run operations).step operation).log =
      ((start s).run operations).log ++ (heard ++ d :: rest))
    (hdrops : d.drops = true) (hp : p ∈ ((start s).run operations).log ++ heard)
    (hparse : p.parse? = some (name, sql)) (hne : name ≠ "")
    (honce : ∀ e ∈ rest, e.isParseComplete = true → e.turn ≠ p.turn)
    {since after : List Entry} {c : Entry}
    (hlater : ((((start s).run operations).step operation).run more).log =
      ((start s).run operations).log ++ (heard ++ [d]) ++ (since ++ c :: after))
    (hclose : c.close? = some name) :
    ∃ h ∈ ((start s).run operations).hands, p.runner.map Handle.id = some h.id ∧
      Revived since d.turn h.id name := by
  have hw := run_tidy (start_tidy hs) operations
  have hforgets' : ((start s).run operations).session.forgetsOnDrop = true :=
    (run_steady (start_tidy hs) operations).2.trans hforgets
  generalize (start s).run operations = w at hlog hp hlater hw hforgets' ⊢
  have hw' := step_tidy hw operation
  have hbygone : Bygone (Owner w.hands p) d.turn name (w.log ++ (heard ++ [d])) rest
      (w.step operation) := by
    rcases step_passes_or_asks hw operation with ⟨_, _, _, h⟩ | ⟨q, events, hfits, h, -⟩
    · have hd := h.idle d (List.append_cancel_left (h.log.symm.trans hlog) ▸
        List.mem_append_right _ List.mem_cons_self)
      rw [hd.1.drops] at hdrops
      cases hdrops
    · exact h.bygone hw hw' hfits hforgets' hlog hdrops hp hparse hne honce
  have hparsed : name ∈ parsedNames (w.step operation).log := by
    refine mem_parsedNames.2 ⟨hne, p, ?_, sql, hparse⟩
    rw [hlog, ← List.append_assoc]
    exact List.mem_append_left _ hp
  obtain ⟨since', hrun⟩ := hbygone.run hw' hparsed more
  have hsince : since' = since ++ c :: after := List.append_cancel_left (hrun.log.symm.trans hlater)
  obtain ⟨id, ⟨howner, h, hmem, rfl⟩, hrevived⟩ := hrun.closes since c after hsince hclose
  exact ⟨h, hmem, howner, hrevived⟩

/-- The replies to a statement that is prepared, to a query that drops everything, and to another
statement. -/
def droppedReplies : List (List WireMessage) :=
  [[.parseComplete, .bindComplete, .commandComplete (Utf8.encode "SELECT 0")],
    [.commandComplete (Utf8.encode "DISCARD ALL")],
    [.closeComplete, .parseComplete, .bindComplete, .commandComplete (Utf8.encode "SELECT 0")]]

/-- A session that keeps no statement in its cache. -/
def uncachedSession : Session :=
  { sampleSession droppedReplies with statements := Cache.empty Statement.size 0 0 }

/-- A statement is prepared. -/
def preparedRun : List Operation :=
  [.borrow (.parameterized "SELECT"), .execute 0 []]

/-- After everything was dropped it is handed back, and another one is run. -/
def handedBackRun : List Operation :=
  [.release 0, .borrow (.parameterized "VALUES (1)"), .execute 1 []]

/-- The log of that. -/
def droppedLog : List Entry :=
  ((((start uncachedSession).run preparedRun).step (.query "DISCARD ALL")).run handedBackRun).log

instance : DecidableEq Handle := fun a b =>
  decidable_of_iff (a.id = b.id ∧ a.statement = b.statement) (by cases a; cases b; simp)

instance : DecidableEq Entry := fun a b =>
  decidable_of_iff (a.turn = b.turn ∧ a.runner = b.runner ∧ a.event = b.event)
    (by cases a; cases b; simp)

theorem dropped_names_rest_given_up :
    closedNames droppedLog = ["S_1"] ∧
    ∃ h ∈ ((start uncachedSession).run preparedRun).hands, some 0 = some h.id ∧
      Revived ((droppedLog.drop 11).take 4) 2 h.id "S_1" := by
  have hp : (droppedLog.get ⟨0, by decide +kernel⟩).runner.map Handle.id = some 0 := by
    decide +kernel
  have hd : (droppedLog.get ⟨10, by decide +kernel⟩).turn = 2 := by decide +kernel
  have hparse : (droppedLog.get ⟨0, by decide +kernel⟩).parse? = some ("S_1", "SELECT") := by
    decide +kernel
  have hlog : (((start uncachedSession).run preparedRun).step (.query "DISCARD ALL")).log =
      ((start uncachedSession).run preparedRun).log ++ ((droppedLog.drop 9).take 1 ++
        droppedLog.get ⟨10, by decide +kernel⟩ :: (droppedLog.drop 11).take 2) := by
    decide +kernel
  have hlater : droppedLog = ((start uncachedSession).run preparedRun).log ++
      ((droppedLog.drop 9).take 1 ++ [droppedLog.get ⟨10, by decide +kernel⟩]) ++
        ((droppedLog.drop 11).take 4 ++
          droppedLog.get ⟨15, by decide +kernel⟩ :: droppedLog.drop 16) := by
    decide +kernel
  refine ⟨by decide +kernel, ?_⟩
  rw [← hp, ← hd]
  exact dropped_names_rest ⟨rfl, rfl, rfl⟩ rfl preparedRun handedBackRun (.query "DISCARD ALL") hlog
    (by decide +kernel) (by decide +kernel) hparse (by decide) (by decide +kernel) hlater
    (by decide +kernel)

/-- No Close of a name follows the word that everything was dropped. -/
def LetsRest (log : List Entry) : Prop :=
  ∀ heard d since c after id name sql gap, log = heard ++ d :: (since ++ c :: after) →
    d.drops = true → Prepared heard id name sql gap → c.close? ≠ some name

/-- A statement that is handed back after it was dropped is closed nevertheless. -/
theorem dropped_name_closed :
    uncachedSession.IsFresh ∧ uncachedSession.forgetsOnDrop = true ∧ AnswersOnce droppedLog ∧
      ¬ LetsRest droppedLog := by
  refine ⟨⟨rfl, rfl, rfl⟩, rfl, by unfold AnswersOnce; decide +kernel, fun h => ?_⟩
  refine h (droppedLog.take 10) (droppedLog.get ⟨10, by decide +kernel⟩)
    ((droppedLog.drop 11).take 4) (droppedLog.get ⟨15, by decide +kernel⟩) (droppedLog.drop 16)
    (some 0) "S_1" "SELECT" ((droppedLog.drop 6).take 4) (by decide +kernel) (by decide +kernel) ?_
    (by decide +kernel)
  exact ⟨droppedLog.take 5, droppedLog.get ⟨5, by decide +kernel⟩, by decide +kernel,
    by decide +kernel, by decide +kernel, by decide +kernel⟩

end World

end PgClient
