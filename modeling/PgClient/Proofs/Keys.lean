import PgClient.Proofs.Binding

/-!
# What a statement is asked for

A statement may be asked for by a key, or by one of three calls that have a key of their
own. However it is asked for, what matters is the text, whether a procedure is
called, two flags, and the columns asked back: a `Wish`. A key tells as much of a wish as
identifies a statement (`Ask.key_eq_iff`). That is all of it, but for a flag: in a text with
parameters that asks nothing back, nobody looks at whether escapes are to be
processed. One call is left out of this: columns asked back of `borrowReturning` as an
empty list.

The keys are what a session goes by. Whatever happens to it, every statement that rests in its
cache rests under its own key, alone there (`Shelved`), so that who asks for a statement
is given one of exactly that key (`asks_served`).
-/

namespace PgClient

open Exchange

/-- A request for a statement. -/
inductive Ask where
  /-- By the key of a request. -/
  | keyed (sql : String) (escapes isParameterized : Bool) (returning : Returning)
  | query (sql : String)
  | call (sql : String)
  | returning (sql : String) (columns : Option (List String))
  deriving DecidableEq, Repr

/-- What a request asks for. -/
structure Wish where
  sql : String
  isCall : Bool
  isParameterized : Bool
  escapes : Bool
  /-- Nothing, if it is a list without columns. -/
  returning : Returning
  deriving DecidableEq, Repr

/-- A list without columns asks for nothing. -/
def Returning.normal : Returning → Returning
  | .columns [] => .nothing
  | returning => returning

namespace Wish

/-- The wish, up to what makes no difference: whether escapes are to be processed in a text with
parameters that asks nothing back. -/
def settled (w : Wish) : Wish :=
  if !w.isCall && w.isParameterized && w.returning = .nothing then { w with escapes := true } else w

/-- The key of a statement that is asked for so. -/
def key (w : Wish) : StatementKey :=
  if w.isCall then .call w.sql else .ofRequest w.sql w.escapes w.isParameterized w.returning

/-- What made no difference makes none to the key. -/
theorem key_settled (w : Wish) : w.settled.key = w.key := by
  unfold settled
  split
  · next h =>
      obtain ⟨sql, isCall, isParameterized, escapes, returning⟩ := w
      simp only [Bool.and_eq_true, Bool.not_eq_eq_eq_not, Bool.not_true, decide_eq_true_eq] at h
      obtain ⟨⟨rfl, rfl⟩, rfl⟩ := h
      rfl
  · rfl

end Wish

/-- The wish that a key stands for. -/
def StatementKey.wish : StatementKey → Wish
  | parameterized sql => ⟨sql, false, true, true, .nothing⟩
  | plain sql isParameterized escapes => ⟨sql, false, isParameterized, escapes, .nothing⟩
  | returning sql isParameterized escapes columns =>
    ⟨sql, false, isParameterized, escapes, columns.elim .generated .columns⟩
  | call sql => ⟨sql, true, true, true, .nothing⟩

theorem StatementKey.wish_ofRequest (sql : String) (escapes isParameterized : Bool)
    (returning : Returning) :
    (ofRequest sql escapes isParameterized returning).wish =
      (Wish.mk sql false isParameterized escapes returning.normal).settled := by
  cases returning with
  | nothing => cases isParameterized <;> rfl
  | generated => cases isParameterized <;> rfl
  | columns names =>
      cases names with
      | nil => cases isParameterized <;> rfl
      | cons name names => cases isParameterized <;> rfl

namespace Ask

/-- The statement that is asked for. -/
def borrow : Ask → Exchange Session Statement
  | keyed sql escapes isParameterized back =>
    Session.borrowStatement (.ofRequest sql escapes isParameterized back)
  | query sql => Session.borrowQuery sql
  | call sql => Session.borrowCall sql
  | returning sql columns => Session.borrowReturning sql columns

/-- The key it is looked up by. -/
def key : Ask → StatementKey
  | keyed sql escapes isParameterized back => .ofRequest sql escapes isParameterized back
  | query sql => .parameterized sql
  | call sql => .call sql
  | returning sql columns => .returning sql true true columns

theorem borrow_eq (a : Ask) : a.borrow = Session.borrowStatement a.key := by
  cases a <;> rfl

/-- What is asked for. A call that has a key of its own has both flags set. -/
def wish : Ask → Wish
  | keyed sql escapes isParameterized back =>
    ⟨sql, false, isParameterized, escapes, back.normal⟩
  | query sql => ⟨sql, false, true, true, .nothing⟩
  | call sql => ⟨sql, true, true, true, .nothing⟩
  | returning sql columns =>
    ⟨sql, false, true, true, (columns.elim .generated .columns : Returning).normal⟩

/-- A list without columns that is not passed by way of a key of a request. -/
def IsBare (a : Ask) : Prop :=
  ∃ sql, a = returning sql (some [])

instance (a : Ask) : Decidable a.IsBare :=
  match a with
  | returning sql (some []) => .isTrue ⟨sql, rfl⟩
  | keyed .. | query _ | call _ | returning _ none | returning _ (some (_ :: _)) =>
    .isFalse nofun

theorem wish_key {a : Ask} (h : ¬ a.IsBare) : a.key.wish = a.wish.settled := by
  cases a with
  | keyed sql escapes isParameterized back => exact StatementKey.wish_ofRequest ..
  | query sql | call sql => rfl
  | returning sql columns =>
      cases columns with
      | none => rfl
      | some names =>
          cases names with
          | nil => exact absurd ⟨sql, rfl⟩ h
          | cons name names => rfl

theorem key_wish {a : Ask} (h : ¬ a.IsBare) : a.key = a.wish.key := by
  cases a with
  | keyed sql escapes isParameterized back =>
      cases back with
      | nothing | generated => rfl
      | columns names => cases names <;> rfl
  | query sql | call sql => rfl
  | returning sql columns =>
      cases columns with
      | none => rfl
      | some names =>
          cases names with
          | nil => exact absurd ⟨sql, rfl⟩ h
          | cons name names => rfl

/-- Two requests are for one statement if and only if they ask for the same. -/
theorem key_eq_iff {a b : Ask} (ha : ¬ a.IsBare) (hb : ¬ b.IsBare) :
    a.key = b.key ↔ a.wish.settled = b.wish.settled := by
  constructor
  · intro h
    rw [← wish_key ha, ← wish_key hb, h]
  · intro h
    rw [key_wish ha, key_wish hb, ← Wish.key_settled, h, Wish.key_settled]

/-- A key does not tell whether escapes are to be processed in a text with parameters. -/
theorem escapes_untold :
    (keyed "SELECT 1" true true .nothing).key = (keyed "SELECT 1" false true .nothing).key ∧
      (keyed "SELECT 1" true true .nothing).wish ≠ (keyed "SELECT 1" false true .nothing).wish := by
  decide

end Ask

/-! ## The statements that rest -/

namespace Cache

variable {κ ν : Type} [BEq κ]

/-- Handing a value back adds no other one. -/
theorem put_subset (c : Cache κ ν) (key : κ) (value : ν) :
    ∀ e ∈ (c.put key value).2.entries, e ∈ c.entries ∨ e = (key, value) := by
  intro e he
  cases h : c.admits (c.sizeOf value) with
  | false =>
      rw [put_of_refused h] at he
      exact .inl he
  | true =>
      obtain ⟨gone, hsplit, -⟩ := put_of_admitted key h
      have hmem := List.mem_append_right gone he
      rw [← hsplit, List.mem_append, List.mem_singleton] at hmem
      exact hmem.imp_left fun hfilter => (List.mem_filter.1 hfilter).1

end Cache

namespace Session

theorem Sends.statements {st : Statement} {parameters : List (Option Bytes)} {s : Session}
    {r : EStateM.Result Halt Session (Option String)} (h : Sends st parameters s r) :
    (final r).statements = s.statements := by
  cases h <;> rfl

theorem sendQuery_statements (s : Session) : (final (sendQuery s)).statements = s.statements := by
  rcases sendQuery_cases s with ⟨c, -, hsend⟩ | ⟨e, c, -, -, -, hsend⟩
  · rw [hsend, final_ok]
  · rw [hsend, final_error]

/-- A request takes no statement into the cache; at most it empties it. -/
theorem execute_dwindles (st : Statement) (parameters : List (Option Bytes)) (w : World) :
    (final (execute st parameters w.session)).statements.entries.Sublist
      w.session.statements.entries := by
  cases hopen : w.session.isClosed with
  | true =>
      rw [execute_of_closed hopen]
      exact .refl _
  | false =>
      have hsends := sendStatement_sends (w.session.readied st) parameters w.session
      obtain ⟨events, a, hhears⟩ := (execute_answers hopen st parameters).hears
      exact (World.hears_handles hhears hsends.statements).2.2

theorem query_dwindles (sql : String) (w : World) :
    (final (query sql w.session)).statements.entries.Sublist w.session.statements.entries := by
  rcases query_refused_or_sent sql w.session with ⟨e, hrun, -⟩ | ⟨hopen, octets, hencode⟩
  · rw [hrun]
    exact .refl _
  · obtain ⟨events, a, hhears⟩ := (query_answers hopen hencode).hears
    exact (World.hears_handles hhears (sendQuery_statements _)).2.2

theorem takeNotices_statements (wait : Option Nat) (s : Session) :
    (final (takeNotices wait s)).statements = s.statements := by
  have hledger : (final (takeNotices wait s)).ledger = s.ledger := by
    have hnotices := takeNotices_notices wait s
    generalize takeNotices wait s = r at hnotices
    cases hnotices with
    | none result => rw [final_lift]
    | taken hidles => exact hidles.ledger
    | waiting hidles => exact hidles.ledger
    | failed hidles _ hend => exact hend.keeps.ledger.trans hidles.ledger
  exact congrArg Ledger.statements hledger

end Session

namespace World

/-- Every statement that rests does so under its own key, and alone. -/
structure Shelved (w : World) : Prop where
  unique : w.session.statements.Unique
  own : ∀ e ∈ w.session.statements.entries, e.2.key = e.1

variable {w w' : World}

theorem Shelved.dwindles (hw : w.Shelved)
    (h : w'.session.statements.entries.Sublist w.session.statements.entries) : w'.Shelved :=
  ⟨hw.unique.sublist (h.map _), fun e he => hw.own e (h.subset he)⟩

theorem Shelved.same (hw : w.Shelved) (h : w'.session.statements = w.session.statements) :
    w'.Shelved :=
  hw.dwindles (by rw [h])

theorem borrow_shelved (hw : w.Shelved) (key : StatementKey) : (w.borrow key).Shelved := by
  have hborrow : (final (Session.borrowStatement key w.session)).statements.entries.Sublist
      w.session.statements.entries := by
    obtain ⟨statements, hfinal, hsublist⟩ := borrowStatement_session key w.session
    rwa [hfinal]
  unfold borrow
  simp only []
  split
  · exact hw.dwindles (by rw [obtained_session]; exact hborrow)
  · refine hw.dwindles ?_
    show (w.obtained w.made _).session.statements.entries.Sublist _
    rw [obtained_session]
    exact hborrow

theorem release_shelved (hw : w.Shelved) (h : Handle) : (w.release h).Shelved := by
  have hunique := Cache.put_unique hw.unique h.statement.key h.statement
  have hsubset := w.session.statements.put_subset h.statement.key h.statement
  rcases hput : w.session.statements.put h.statement.key h.statement with ⟨given, statements⟩
  rw [hput] at hunique hsubset
  obtain ⟨journal, asides, hrun, -⟩ := releaseStatement_apply hput
  have hstatements : (w.release h).session.statements = statements := by
    show (final (Session.releaseStatement h.statement w.session)).statements = _
    rw [hrun]
    rfl
  constructor
  · rw [hstatements]
    exact hunique
  · rw [hstatements]
    intro e he
    rcases hsubset e he with hold | rfl
    · exact hw.own e hold
    · rfl

theorem step_shelved (hw : w.Shelved) (operation : Operation) : (w.step operation).Shelved := by
  cases hstuck : w.isStuck with
  | true =>
      rw [step_of_stuck hstuck]
      exact hw
  | false =>
      rw [step_of_running hstuck]
      cases operation with
      | borrow key => exact borrow_shelved hw key
      | create key => exact hw.same (by rw [show w.act _ = w.create key from rfl, create_session])
      | setFetchSize id rows => exact hw.same rfl
      | release id =>
          rcases w.act_release id with hact | ⟨h, -, hact⟩
          · rw [hact]
            exact hw
          · rw [hact]
            exact release_shelved hw h
      | query sql => exact hw.dwindles (Session.query_dwindles sql w)
      | execute id parameters =>
          rcases w.act_execute id parameters with hact | ⟨h, -, hact⟩
          · rw [hact]
            exact hw
          · rw [hact]
            exact hw.dwindles (Session.execute_dwindles h.statement parameters w)
      | takeNotices wait => exact hw.same (Session.takeNotices_statements wait w.session)
      | close =>
          exact hw.same (congrArg Ledger.statements (Session.close_keeps w.session).ledger)
      | abort =>
          exact hw.same (congrArg Ledger.statements (Session.abort_keeps w.session).ledger)
      | arrive octets ended faults => exact hw.same rfl

theorem run_shelved (hw : w.Shelved) (operations : List Operation) :
    (w.run operations).Shelved := by
  induction operations generalizing w with
  | nil => exact hw
  | cons operation operations ih => exact ih (step_shelved hw operation)

theorem start_shelved {s : Session} (hs : s.IsFresh) : (start s).Shelved := by
  have hnone : (start s).session.statements.entries = [] := hs.statements
  constructor
  · rw [Cache.Unique, hnone]
    exact List.nodup_nil
  · rw [hnone]
    exact List.forall_mem_nil _

theorem ofKey_key {key : StatementKey} {st : Statement}
    (h : (Statement.ofKey key).mapError Cache.creationError = .ok st) : st.key = key := by
  unfold Statement.ofKey at h
  split at h
  · cases h
  · split at h <;> cases h <;> rfl

/-- Who asks for a statement is given one of the key it is looked up by. -/
theorem Shelved.served (hw : w.Shelved) {key : StatementKey} {st : Statement} {s' : Session}
    (h : Session.borrowStatement key w.session = .ok st s') : st.key = key := by
  rw [borrowStatement_apply] at h
  cases hget : w.session.statements.get? key with
  | some st' =>
      rw [hget] at h
      cases h
      exact hw.own _ (Cache.mem_of_get? hget)
  | none =>
      rw [hget] at h
      cases hmade : (Statement.ofKey key).mapError Cache.creationError with
      | error e =>
          rw [hmade] at h
          cases h
      | ok st' =>
          rw [hmade] at h
          cases h
          exact ofKey_key hmade

end World

/-- Two requests have one key if and only if they ask for the same, but for the flag that makes no
difference to a text with parameters that asks nothing back. Whatever a session did, no key
occupies two places of its cache, and a request is served a statement of its own key. -/
theorem asks_served {a b : Ask} (ha : ¬ a.IsBare) (hb : ¬ b.IsBare) {s : Session} (hs : s.IsFresh)
    (operations : List Operation) :
    (a.key = b.key ↔ a.wish.settled = b.wish.settled) ∧
      ((World.start s).run operations).session.statements.Unique ∧
      ∀ st s', a.borrow ((World.start s).run operations).session = .ok st s' → st.key = a.key := by
  have hshelved := World.run_shelved (World.start_shelved hs) operations
  refine ⟨Ask.key_eq_iff ha hb, hshelved.unique, fun st s' hborrow => ?_⟩
  rw [a.borrow_eq] at hborrow
  exact hshelved.served hborrow

/-- A list without columns is no request for columns, and one statement serves both. -/
theorem asks_served_columnless :
    ((Ask.keyed "UPDATE t" true true (.columns [])).key = (Ask.query "UPDATE t").key ↔
        (Ask.keyed "UPDATE t" true true (.columns [])).wish.settled =
          (Ask.query "UPDATE t").wish.settled) ∧
      ((World.start (World.sampleSession [])).run [.borrow (.parameterized "UPDATE t"),
        .release 0]).session.statements.Unique ∧
      ∀ st s', (Ask.keyed "UPDATE t" true true (.columns [])).borrow
        ((World.start (World.sampleSession [])).run [.borrow (.parameterized "UPDATE t"),
          .release 0]).session = .ok st s' → st.key = .parameterized "UPDATE t" :=
  asks_served (by decide) (by decide) (World.sampleSession_isFresh [])
    [.borrow (.parameterized "UPDATE t"), .release 0]

end PgClient
