import PgClient.Proofs.Causes
import PgClient.Proofs.Closing

/-!
# An error that lingers

Once the reply to a request was read to its end, an error is remembered only if
the transaction failed: the message that ends the reply either says so or clears
the memory. But a server may also report an error while no request is under way.
Nothing ends such a report, so the error stays, although there is no transaction
that it could have made fail, and the first error of the next request is blamed
on it. This is the only way: between two calls an open session remembers an error
either because its transaction failed, or because the reading of notices came to
that very error.
-/

namespace PgClient

open Exchange

namespace Standing

/-- Without a ReadyForQuery the first error is remembered, and that is all. -/
theorem foldl_unready {d : Bool} {ms : List BackendMessage}
    (h : ∀ m ∈ ms, m.tag ≠ .readyForQuery) (o : Standing) :
    (ms.foldl (on d) o).transaction = o.transaction ∧
      (ms.foldl (on d) o).failCause = o.failCause.or (o.errors d ms).head? := by
  induction ms generalizing o with
  | nil => exact ⟨rfl, (Option.or_none).symm⟩
  | cons m ms ih =>
      obtain ⟨htransaction, hcause⟩ :=
        ih (fun m' hm' => h m' (List.mem_cons_of_mem _ hm')) (o.on d m)
      rw [List.foldl_cons, htransaction, hcause, errors]
      cases m with
      | readyForQuery status => exact absurd rfl (h _ List.mem_cons_self)
      | errorResponse report =>
          refine ⟨rfl, ?_⟩
          show (some (o.failCause.getD _)).or _ = _
          rw [Option.some_or]
          cases o.failCause <;> rfl
      | _ => exact ⟨rfl, rfl⟩

/-- Messages without an error leave no error to remember. -/
theorem foldl_calm {d : Bool} {ms : List BackendMessage} {o : Standing}
    (hcause : o.failCause = none) (h : o.errors d ms = []) :
    (ms.foldl (on d) o).failCause = none := by
  induction ms generalizing o with
  | nil => exact hcause
  | cons m ms ih =>
      obtain ⟨hm, hms⟩ := List.append_eq_nil_iff.1 h
      refine ih ?_ hms
      cases m with
      | errorResponse report => cases hm
      | readyForQuery status =>
          show (if (BackendMessage.readyForQuery status).settles then none else o.failCause) = none
          rw [hcause, ite_self]
      | _ => exact hcause

/-- A ReadyForQuery that has a meaning ends the memory, unless the transaction failed. -/
theorem on_ready {d : Bool} {o : Standing} {status : UInt8} (hstatus : Session.IsStatus status) :
    (o.on d (.readyForQuery status)).failCause = none ∨
      (o.on d (.readyForQuery status)).transaction = .failed := by
  rcases hstatus with rfl | rfl | rfl
  · exact .inl rfl
  · exact .inl rfl
  · exact .inr rfl

end Standing

namespace Session

/-! ## What a call leaves to be remembered -/

/-- After a request nothing is remembered of a transaction that has not failed,
unless nothing was sent. -/
theorem request_remembers {s s' : Session} {reply : Reply} (hsettles : Settles s reply s')
    (hgathered : Gathered s (.ok reply s')) (hopen : s'.isClosed = false) :
    s'.standing = s.standing ∨ s'.failCause = none ∨ s'.status.transaction = .failed := by
  obtain ⟨ms, hgathers⟩ := hgathered
  have hlearns := hgathers.learns
  have hready : Conversation.UpToReady s s' →
      s'.failCause = none ∨ s'.status.transaction = .failed := by
    rintro ⟨-, status, hstatus, -, events, before, hevents, hmessages, -⟩
    obtain ⟨events', hevents', rfl⟩ := hlearns.history
    obtain rfl := List.append_cancel_left (hevents'.symm.trans hevents)
    have hstanding := hlearns.standing
    rw [hmessages, List.foldl_append] at hstanding
    rw [show s'.failCause = s'.standing.failCause from rfl,
      show s'.status.transaction = s'.standing.transaction from rfl, hstanding]
    exact Standing.on_ready hstatus
  cases hresult : reply.result with
  | ok _ => exact .inr (hready (hsettles.ready (.inl hresult)))
  | error e =>
      rcases hsettles.kinds e hresult with hfatal | ⟨error, rfl⟩ | ⟨fault, rfl⟩
      · have hclosed := hsettles.closed_iff.2 ⟨e, hresult, hfatal⟩
        rw [hopen] at hclosed
        cases hclosed
      · exact .inr (hready (hsettles.ready (.inr ⟨error, hresult⟩)))
      · have hstanding := hlearns.standing
        rw [hgathers.unsent fault hresult] at hstanding
        exact .inl hstanding

theorem keeps_unready {s s' : Session} (h : Keeps s s') :
    ∃ events, s'.history = s.history ++ events ∧
      ∀ m ∈ events.filterMap Event.message?, m.tag ≠ .readyForQuery := by
  obtain ⟨events, hevents, haside⟩ := h.channel.history
  refine ⟨events, hevents, ?_⟩
  rw [filterMap_message?_of_isAside haside]
  exact List.forall_mem_nil _

theorem Idles.unready {s s' : Session} {h : Option Halt} (hidles : Idles s h s') :
    ∃ events, s'.history = s.history ++ events ∧
      ∀ m ∈ events.filterMap Event.message?, m.tag ≠ .readyForQuery := by
  obtain ⟨events, hevents, hkinds⟩ := hidles.history
  refine ⟨events, hevents, fun m hm hready => ?_⟩
  obtain ⟨e, he, hmessage⟩ := List.mem_filterMap.1 hm
  rcases hkinds e he with haside | ⟨m', hm', haccepts⟩
  · rw [Event.message?_of_isAside haside] at hmessage
    cases hmessage
  · obtain rfl := Option.some.inj (hm'.symm.trans hmessage)
    rw [hready] at haccepts
    cases haccepts

/-- No ReadyForQuery is read while no request is under way. -/
theorem takeNotices_unready (wait : Option Nat) (s : Session) :
    ∃ events, (final (takeNotices wait s)).history = s.history ++ events ∧
      ∀ m ∈ events.filterMap Event.message?, m.tag ≠ .readyForQuery := by
  have hnotices := takeNotices_notices wait s
  generalize takeNotices wait s = r at hnotices
  cases hnotices with
  | none => exact ⟨[], by rw [final_lift, List.append_nil], List.forall_mem_nil _⟩
  | taken hidles => exact hidles.unready
  | waiting hidles => exact hidles.unready
  | @failed s₁ s' e hidles hopen hend =>
      obtain ⟨events, hevents, hother⟩ := hidles.unready
      obtain ⟨events', hevents', hother'⟩ := keeps_unready hend.keeps
      refine ⟨events ++ events', ?_, ?_⟩
      · show s'.history = _
        rw [hevents', hevents, List.append_assoc]
      · rw [List.filterMap_append]
        exact List.forall_mem_append.2 ⟨hother, hother'⟩

/-- The reading of notices remembers the error it came to, if none is remembered. -/
theorem takeNotices_remembers (wait : Option Nat) (s : Session) :
    (final (takeNotices wait s)).status.transaction = s.status.transaction ∧
      (final (takeNotices wait s)).failCause =
        s.failCause.or ((halt? (takeNotices wait s)).bind Halt.serverError?) := by
  obtain ⟨ms, hlearns, herrors⟩ := takeNotices_relays wait s
  obtain ⟨events, hevents, hother⟩ := takeNotices_unready wait s
  obtain ⟨events', hevents', rfl⟩ := hlearns.history
  obtain rfl := List.append_cancel_left (hevents'.symm.trans hevents)
  obtain ⟨htransaction, hcause⟩ :=
    Standing.foldl_unready (d := s.options.showErrorDetail) hother s.standing
  rw [← hlearns.standing] at htransaction hcause
  rw [herrors] at hcause
  refine ⟨htransaction, hcause.trans ?_⟩
  cases (halt? (takeNotices wait s)).bind Halt.serverError? <;> rfl

end Session

namespace World

open Session

/-! ## What is remembered after a run -/

/-- In a run a reading of notices came to this error. -/
def CameTo (s : Session) (operations : List Operation) (e : ServerError) : Prop :=
  ∃ earlier wait later, operations = earlier ++ .takeNotices wait :: later ∧
    halt? (Session.takeNotices wait ((start s).run earlier).session) = some (.failed (.server e))

theorem CameTo.append {s : Session} {operations : List Operation} {e : ServerError}
    (h : CameTo s operations e) (more : List Operation) : CameTo s (operations ++ more) e := by
  obtain ⟨earlier, wait, later, rfl, hhalt⟩ := h
  exact ⟨earlier, wait, later ++ more, by rw [List.append_assoc, List.cons_append], hhalt⟩

/-- What an error is remembered for. -/
def Explained (s : Session) (operations : List Operation) (w : World) : Prop :=
  ∀ e, w.session.failCause = some e → w.session.status.transaction = .failed ∨
    w.session.status.transaction = .idle ∧ CameTo s operations e

theorem Explained.of_standing {s : Session} {operations : List Operation} {w w' : World}
    (h : Explained s operations w) (hs : w'.session.standing = w.session.standing)
    (operation : Operation) : Explained s (operations ++ [operation]) w' := by
  have hcause : w'.session.failCause = w.session.failCause := congrArg Standing.failCause hs
  have htransaction : w'.session.status.transaction = w.session.status.transaction :=
    congrArg Standing.transaction hs
  intro e he
  rw [hcause] at he
  rw [htransaction]
  exact (h e he).imp_right fun ⟨hidle, hcame⟩ => ⟨hidle, hcame.append _⟩

theorem Explained.of_cleared {s : Session} {operations : List Operation} {w : World}
    (h : w.session.failCause = none ∨ w.session.status.transaction = .failed) :
    Explained s operations w := by
  rintro e he
  rcases h with h | h
  · rw [h] at he
    cases he
  · exact .inl h

/-- A request leaves the memory as it was, or has reported a state that explains it. -/
theorem Explained.requested {s : Session} {operations : List Operation} {w w' : World}
    {operation : Operation} {r : EStateM.Result Halt Session Reply}
    (h : Explained s operations w) (hsettled : Settled w.session r)
    (hgathered : Gathered w.session r) (hopen : (final r).isClosed = false)
    (hends : halt? r ≠ some .waiting) (hw' : w'.session = final r) :
    Explained s (operations ++ [operation]) w' := by
  cases r with
  | error halt s' =>
      obtain ⟨rfl, -⟩ := hsettled
      exact absurd rfl hends
  | ok reply s' =>
      rcases request_remembers hsettled hgathered hopen with hsame | hcleared
      · exact h.of_standing (hw' ▸ hsame) operation
      · exact .of_cleared (hw' ▸ hcleared)

/-- What is remembered of an idle session came in between two requests. -/
theorem Explained.noticed {s : Session} {operations : List Operation} {w : World}
    (hw : w = (start s).run operations) (h : Explained s operations w) (wait : Option Nat)
    (hwas : w.session.isClosed = false) :
    Explained s (operations ++ [.takeNotices wait]) (w.act (.takeNotices wait)) := by
  obtain ⟨htransaction, hcause⟩ := takeNotices_remembers wait w.session
  intro e he
  rw [show (w.act (.takeNotices wait)).session.status.transaction = _ from htransaction]
  rw [show (w.act (.takeNotices wait)).session.failCause = _ from hcause] at he
  cases hbefore : w.session.failCause with
  | some e' =>
      rw [hbefore] at he
      cases he
      exact (h _ hbefore).imp_right fun ⟨hidle, hcame⟩ => ⟨hidle, hcame.append _⟩
  | none =>
      rw [hbefore, Option.none_or] at he
      obtain ⟨halt, hhalt, hserver⟩ := Option.bind_eq_some_iff.1 he
      have hidle : w.session.status.transaction = .idle := by
        by_contra hbusy
        rw [takeNotices_of_busy wait hwas hbusy] at hhalt
        cases hhalt
      refine .inr ⟨hidle, operations, wait, [], rfl, ?_⟩
      rw [← hw, hhalt]
      cases halt with
      | waiting => cases hserver
      | failed error =>
          cases error with
          | server e' => cases hserver; rfl
          | _ => cases hserver

theorem Explained.act {s : Session} {operations : List Operation} {w : World}
    (hw : w = (start s).run operations) (h : Explained s operations w) (operation : Operation)
    (hopen : (w.act operation).session.isClosed = false)
    (hstuck : (w.act operation).isStuck = false) :
    Explained s (operations ++ [operation]) (w.act operation) := by
  have hends : ∀ {α : Type} (runner : Option Handle) {r : EStateM.Result Halt Session α},
      (w.called runner r).isStuck = false → halt? r ≠ some .waiting :=
    fun _ _ hr => of_decide_eq_false hr
  have hlocal : ∀ {operation : Operation}, operation.isLocal = true →
      Explained s (operations ++ [operation]) (w.act operation) := by
    intro operation hoperation
    obtain ⟨journal, asides, statements, pendingClose, hact, -⟩ := w.act_local hoperation
    exact h.of_standing (by rw [hact]; rfl) _
  cases operation with
  | borrow | create | setFetchSize | release => exact hlocal rfl
  | arrive octets ended faults => exact h.of_standing rfl _
  | query sql =>
      exact h.requested (query_settled sql w.session) (query_gathered sql w.session) hopen
        (hends none hstuck) rfl
  | execute id parameters =>
      rcases w.act_execute id parameters with hact | ⟨handle, -, hact⟩
      · exact h.of_standing (by rw [hact]) _
      · rw [hact] at hopen hstuck ⊢
        exact h.requested (execute_settled handle.statement parameters w.session)
          (execute_gathered handle.statement parameters w.session) hopen
          (hends (some handle) hstuck) rfl
  | takeNotices wait => exact h.noticed hw wait (act_open hopen)
  | close => exact absurd (Session.close_reaches.final w.session) (ne_true_of_eq_false hopen)
  | abort => exact absurd (Session.abort_reaches.final w.session) (ne_true_of_eq_false hopen)

/-- A session that has begun remembers no error. -/
theorem begin_calm {channel : Channel} {user database : String} {options : SessionOptions}
    {s : Session} (h : begin (new channel user database options) = .ok () s) :
    s.failCause = none := by
  obtain ⟨ms, hlearns, herrors⟩ := begin_relays.ok h
  have hstanding := hlearns.standing
  have hcalm := Standing.foldl_calm rfl herrors
  rw [← hstanding] at hcalm
  exact hcalm

/-- Between two calls an open session remembers an error for one of two reasons: its
transaction failed, or the error was reported while no request was under way. -/
theorem memory_explained {channel : Channel} {user database : String} {options : SessionOptions}
    {s : Session} (hs : begin (new channel user database options) = .ok () s)
    (operations : List Operation)
    (hopen : ((start s).run operations).session.isClosed = false)
    (hstuck : ((start s).run operations).isStuck = false) :
    Explained s operations ((start s).run operations) := by
  induction operations using List.reverseRecOn with
  | nil => exact .of_cleared (.inl (begin_calm hs))
  | append_singleton operations operation ih =>
      rw [run_append] at hopen hstuck ⊢
      have hstep : ((start s).run operations).run [operation] =
          ((start s).run operations).step operation := rfl
      rw [hstep] at hopen hstuck ⊢
      cases hrunning : ((start s).run operations).isStuck with
      | true =>
          rw [step_of_stuck hrunning, hrunning] at hstuck
          cases hstuck
      | false =>
          rw [step_of_running hrunning] at hopen hstuck ⊢
          exact (ih (act_open hopen) hrunning).act rfl operation hopen hstuck

/-- A report that belongs to no request. -/
def strayReport : Bytes :=
  (WireMessage.errorResponse (Utf8.encode "SERROR\x00C57014\x00Mstray\x00")).encode

/-- A server that lets the client in, and then reports an error of its own accord. -/
def strayChannel : Channel where
  socket := { inbound := Conversation.readyFrame 0x49 ++ strayReport }
  host := { name := "localhost", port := 5432 }

/-- The session with that server, once it has begun. -/
def straySession : Session :=
  final (begin (new strayChannel "postgres" "postgres" {}))

theorem straySession_begun :
    begin (new strayChannel "postgres" "postgres" {}) = .ok () straySession := by
  have hhalt : halt? (begin (new strayChannel "postgres" "postgres" {})) = none := by
    decide +kernel
  unfold straySession
  cases h : begin (new strayChannel "postgres" "postgres" {}) with
  | ok _ s => rfl
  | error halt s =>
      rw [h] at hhalt
      cases hhalt

/-- The report is remembered although no transaction has failed. -/
theorem memory_explained_stray :
    (((start straySession).run [.takeNotices none]).session.failCause.map ServerError.sqlState =
        some "57014" ∧
      ((start straySession).run [.takeNotices none]).session.status.transaction = .idle) ∧
    Explained straySession [.takeNotices none]
      ((start straySession).run [.takeNotices none]) :=
  ⟨⟨by decide +kernel, by decide +kernel⟩,
    memory_explained straySession_begun _ (by decide +kernel) (by decide +kernel)⟩

/-- What the server answers to the next request. -/
def laterReply : Bytes :=
  (WireMessage.errorResponse (Utf8.encode "SERROR\x00C42601\x00Msyntax error\x00")).encode ++
    Conversation.readyFrame 0x49

/-- A session that is open, between two calls and in no transaction remembers the
error that was reported out of the blue, and blames the next one on it. -/
theorem stray_error_blamed :
    let w := (start straySession).run [.takeNotices none]
    (w.isStuck = false ∧ w.session.isClosed = false ∧ w.session.status.transaction = .idle ∧
      w.session.failCause.isSome = true) ∧
    (match Session.query "SELECT 1" (w.run [.arrive laterReply false {}]).session with
      | .ok reply _ => reply.deliveries.filterMap Delivery.serverError?
      | .error _ _ => []).map (fun e : ServerError => (e.sqlState, e.causes.map ServerError.sqlState)) =
        [("42601", ["57014"])] := by
  decide +kernel

end World

end PgClient
