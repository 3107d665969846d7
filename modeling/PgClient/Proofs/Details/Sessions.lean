import Mathlib.Data.List.Forall2
import PgClient.Proofs.Details.Calls
import PgClient.Session.Startup

/-!
# Details are not told

The details of a report may hold data of the user's rows. A session that is not to show them does
not give them away in any other manner either: a server that says the same with other details is
answered with the same octets, and neither the log nor the errors a caller gets to see are any
different. That is a statement about two runs (`World.details_untold`), in which the caller does
the same and the streams of the server are the same up to details.

The two runs are taken through their turns side by side (`World.Alike`). After each turn the
sessions are alike, or rather they are as long as they are open: where a stream broke the protocol
the two may have been left with octets that have nothing to do with one another, and nobody reads
those. What the rest of the runs may bring is carried along as a relation. The octets so far may
end in the middle of a message, and then only what is still to come shows that the two streams go
on alike behind it.
-/

namespace PgClient

open Exchange

/-! ## What a caller comes to know -/

/-- The error that was delivered, if it was one. -/
def Delivery.error? : Delivery → Option Error
  | .error e => some e
  | _ => none

/-- The errors a reply told the caller about, the result of the request last. -/
def Reply.errors (r : Reply) : List Error :=
  r.deliveries.filterMap Delivery.error? ++
    match r.result with
    | .ok _ => []
    | .error e => [e]

/-- The error a call came to, if it came to one. -/
def errorsOf {α : Type} : EStateM.Result Halt Session α → List Error
  | .error (.failed e) _ => [e]
  | _ => []

/-- The errors a request told its caller about. -/
def errorsOfReply : EStateM.Result Halt Session Reply → List Error
  | .ok reply _ => reply.errors
  | r => errorsOf r

/-- All there is to ask about an error: its text and the texts of its causes, its SQLSTATE, whether
the session survives it, and whether preparing the statement again mends it. -/
structure Complaint where
  message : String
  causes : List String
  sqlState : Option String
  isFatal : Bool
  heals : Bool
  deriving DecidableEq, Repr

/-- What a session answers about an error. -/
def Session.complaint (s : Session) (e : Error) : Complaint where
  message := e.message
  causes := (e.serverError?.elim [] ServerError.causes).map ServerError.render
  sqlState := e.sqlState
  isFatal := e.isFatal
  heals := s.healsOnRetry e

theorem ServerError.causes_redacted (e : ServerError) :
    e.redacted.causes.map ServerError.render = e.causes.map ServerError.render := by
  induction e with
  | first report showDetail => rfl
  | after report showDetail cause ih =>
      show cause.redacted.render :: cause.redacted.causes.map ServerError.render = _
      rw [cause.render_redacted, ih]
      rfl

/-- Nothing there is to ask about an error is about its details. -/
theorem Session.complaint_redacted (s : Session) (e : Error) :
    s.complaint e.redacted = s.complaint e := by
  have hcauses : (e.redacted.serverError?.elim [] ServerError.causes).map ServerError.render =
      (e.serverError?.elim [] ServerError.causes).map ServerError.render := by
    cases e with
    | server error => exact error.causes_redacted
    | _ => rfl
  have hheals : s.healsOnRetry e.redacted = s.healsOnRetry e := by
    unfold healsOnRetry
    rw [e.isStalePlan_redacted]
  unfold complaint
  rw [e.message_redacted, hcauses, e.sqlState_redacted, e.isFatal_redacted, hheals]

/-! ## Errors without details -/

theorem Delivery.error?_redacted (d : Delivery) :
    d.redacted.error? = d.error?.map Error.redacted := by
  cases d <;> rfl

theorem Reply.errors_redacted (r : Reply) : r.redacted.errors = r.errors.map Error.redacted := by
  have hdeliveries : (r.deliveries.map Delivery.redacted).filterMap Delivery.error? =
      (r.deliveries.filterMap Delivery.error?).map Error.redacted := by
    rw [List.filterMap_map, List.map_filterMap]
    exact congrArg (List.filterMap · r.deliveries) (funext Delivery.error?_redacted)
  unfold errors
  rw [List.map_append, ← hdeliveries]
  rcases r with ⟨_ | _, deliveries, statement⟩ <;> rfl

namespace Session.Paired

variable {α : Type} {L : Bytes → Bytes → Prop} {V : α → α → Prop}

theorem errors {r r' : EStateM.Result Halt Session α} (h : Paired L V r r') :
    (errorsOf r').map Error.redacted = (errorsOf r).map Error.redacted := by
  cases h with
  | value | waiting => rfl
  | failed he => exact congrArg (fun e => [e]) he

theorem replyErrors {r r' : EStateM.Result Halt Session Reply}
    (h : Paired L (fun reply reply' => reply'.redacted = reply.redacted) r r') :
    (errorsOfReply r').map Error.redacted = (errorsOfReply r).map Error.redacted := by
  cases h with
  | value hv =>
      show (Reply.errors _).map Error.redacted = (Reply.errors _).map Error.redacted
      rw [← Reply.errors_redacted, hv, Reply.errors_redacted]
  | waiting => rfl
  | failed he => exact congrArg (fun e => [e]) he

end Session.Paired

/-! ## What else a caller does -/

/-- What a caller does between requests, besides what an operation is. -/
inductive Chore where
  | begin
  | ensureOpen
  /-- An error is looked into, and the session ends if it cannot survive it. -/
  | check (e : Error)
  | setReadTimeout (millis : Option Nat)
  | setAutosave (autosave : Autosave)
  | setForgetsOnDrop (forgets : Bool)
  | takeWarnings
  | takeNotifications

/-- A chore, done. A session that has ended does not begin. -/
def Chore.perform : Chore → Exchange Session Unit
  | begin => do unless (← get).isClosed do Session.begin
  | ensureOpen => Session.ensureOpen
  | check e => Session.checkFatal (.error e : Except Error Unit)
  | setReadTimeout millis => Session.onChannel (Channel.setReadTimeout millis)
  | setAutosave autosave => modify fun s => { s with options := { s.options with autosave } }
  | setForgetsOnDrop forgets => modify fun s => { s with forgetsOnDrop := forgets }
  | takeWarnings => modify fun s => { s with status := s.status.takeWarnings.2 }
  | takeNotifications => modify fun s => { s with status := s.status.takeNotifications.2 }

namespace Session

variable {F : Bytes → Bytes → Prop} {s s' : Session}

theorem beginning_paired (hF : F [] []) (h : After (Ahead F) s s') :
    Paired (Ahead F) Eq (Chore.begin.perform s) (Chore.begin.perform s') := by
  unfold Chore.perform
  simp only []
  rw [bind_of_ok (get_apply s), bind_of_ok (get_apply s'), h.isClosed]
  cases hclosed : s.isClosed with
  | true => exact .value rfl h
  | false => exact begin_paired hF (h.mono fun _ _ hleft => hleft hclosed)

theorem check_paired (e : Error) (h : After (Ahead F) s s') :
    Paired (Ahead F) Eq ((Chore.check e).perform s) ((Chore.check e).perform s') := by
  have hperform : (Chore.check e).perform = checkFatal (.error e : Except Error Unit) := rfl
  rw [hperform]
  refine h.paired (fun _ => checkFatal_mirrors _) fun hopen => ?_
  cases hfatal : e.isFatal with
  | true =>
      obtain ⟨t, ht, hclosed, -⟩ := checkFatal_fatal (α := Unit) hfatal s
      rw [ht, final_ok, hclosed] at hopen
      cases hopen
  | false =>
      rwa [checkFatal_mild (fun _ h => by cases h; exact hfatal) s] at hopen

theorem chore_paired (hF : F [] []) (chore : Chore) (h : After (Ahead F) s s') :
    Paired (Ahead F) Eq (chore.perform s) (chore.perform s') := by
  cases chore with
  | begin => exact beginning_paired hF h
  | check e => exact check_paired e h
  | ensureOpen =>
      refine h.paired (fun _ => mirrors_assembles.ask (fun _ => rfl) fun s => ?_) fun hopen => ?_
      · split
        · exact .fail rfl
        · exact .pure rfl
      · unfold Chore.perform ensureOpen at hopen
        simp only [] at hopen
        rw [bind_of_ok (get_apply s)] at hopen
        split at hopen <;> exact hopen
  | setReadTimeout millis =>
      exact h.paired (fun _ => onChannel_mirrors (Channel.modify_mirrors
        (g := fun c => { c with readTimeout := millis.filter (· != 0) }) (fun _ => rfl)
        (fun _ => rfl) (fun _ => rfl) fun _ => rfl)) id
  | setAutosave autosave =>
      refine h.paired (fun L => .modify fun {s s'} h => ⟨?_, h.left, h.quiet⟩) id
      show { s'.veil with options := { s'.veil.options with autosave } } =
        { s.veil with options := { s.veil.options with autosave } }
      rw [h.veil]
  | setForgetsOnDrop forgets =>
      exact h.paired (fun _ => change_mirrors (f := fun s => { s with forgetsOnDrop := forgets })
        (fun _ => rfl) (fun _ => rfl) fun _ => rfl) id
  | takeWarnings =>
      exact h.paired (fun _ => change_mirrors
        (f := fun s => { s with status := s.status.takeWarnings.2 })
        (fun _ => rfl) (fun _ => rfl) fun _ => rfl) id
  | takeNotifications =>
      exact h.paired (fun _ => change_mirrors
        (f := fun s => { s with status := s.status.takeNotifications.2 })
        (fun _ => rfl) (fun _ => rfl) fun _ => rfl) id

end Session

/-! ## Runs -/

/-- What happens next in a run. -/
inductive Turn where
  | operation (operation : Operation)
  | chore (chore : Chore)

namespace Turn

/-- The octets that are about to arrive. -/
def octets : Turn → Bytes
  | operation (.arrive octets _ _) => octets
  | _ => []

/-- Everything that arrives in the course of a run. -/
def arriving (turns : List Turn) : Bytes :=
  turns.flatMap octets

/-- The turns are the same, but for the octets that arrive. -/
inductive Same : Turn → Turn → Prop where
  | refl (turn : Turn) : Same turn turn
  | arrive (octets octets' : Bytes) (ended : Bool) (faults : Faults) :
      Same (operation (.arrive octets ended faults)) (operation (.arrive octets' ended faults))

end Turn

namespace World

/-- The errors an operation tells its caller about. -/
def raises (w : World) : Operation → List Error
  | .borrow key => errorsOf (Session.borrowStatement key w.session)
  | .create key => errorsOf (Session.createStatement key w.session)
  | .query sql => errorsOfReply (Session.query sql w.session)
  | .execute id parameters =>
    (w.hand? id).elim [] fun h => errorsOfReply (Session.execute h.statement parameters w.session)
  | .takeNotices wait => errorsOf (Session.takeNotices wait w.session)
  | .setFetchSize .. | .release _ | .close | .abort | .arrive .. => []

/-- The world after a turn. Nothing happens any more once a call does not come back. -/
def turned (w : World) (turn : Turn) : World :=
  if w.isStuck then w
  else
    match turn with
    | .operation operation => w.act operation
    | .chore chore => w.called none (chore.perform w.session)

/-- The errors a turn tells the caller about. -/
def raised (w : World) (turn : Turn) : List Error :=
  if w.isStuck then []
  else
    match turn with
    | .operation operation => w.raises operation
    | .chore chore => errorsOf (chore.perform w.session)

/-- The world after a run. -/
def follow (w : World) (turns : List Turn) : World :=
  turns.foldl turned w

/-- All errors that a run tells the caller about. -/
def errors (w : World) : List Turn → List Error
  | [] => []
  | turn :: turns => w.raised turn ++ (w.turned turn).errors turns

/-- Worlds that nobody who is not shown details can tell apart, as long as no more than `F` says
arrives. -/
structure Alike (F : Bytes → Bytes → Prop) (w w' : World) : Prop where
  session : w.session.Alike
    (fun u u' => w.isStuck = false → w.session.isClosed = false → Ahead F u u') w'.session
  hands : w'.hands = w.hands
  resident : w'.resident = w.resident
  made : w'.made = w.made
  isStuck : w'.isStuck = w.isStuck

variable {F : Bytes → Bytes → Prop} {w w' : World}

namespace Alike

theorem after (h : Alike F w w') (hstuck : w.isStuck = false) :
    Session.After (Ahead F) w.session w'.session :=
  h.session.mono fun _ _ hleft hopen => hleft hstuck hopen

theorem hand? (h : Alike F w w') (id : Nat) : w'.hand? id = w.hand? id := by
  unfold World.hand?
  rw [h.hands]

theorem others (h : Alike F w w') (id : Nat) : w'.others id = w.others id := by
  unfold World.others
  rw [h.hands]

theorem statements (h : Alike F w w') : w'.session.statements = w.session.statements :=
  h.session.same Session.statements fun _ => rfl

theorem called {α : Type} {V : α → α → Prop} {r r' : EStateM.Result Halt Session α}
    (h : Alike F w w') (runner : Option Handle) (hr : Session.Paired (Ahead F) V r r') :
    Alike F (w.called runner r) (w'.called runner r') := by
  cases hr with
  | value _ hs =>
      exact ⟨hs.mono fun _ _ hleft _ => hleft, h.hands, h.resident, h.made, rfl⟩
  | @failed e e' _ _ _ hs =>
      have hfailed : ∀ e, decide (some (Halt.failed e) = some .waiting) = false := fun _ =>
        decide_eq_false nofun
      exact ⟨hs.mono fun _ _ hleft _ => hleft, h.hands, h.resident, h.made,
        (hfailed e').trans (hfailed e).symm⟩
  | waiting hs =>
      exact ⟨hs.mono fun _ _ _ hstuck => Bool.noConfusion hstuck, h.hands, h.resident, h.made, rfl⟩

theorem obtained {r r' : EStateM.Result Halt Session Statement} (h : Alike F w w') (id : Nat)
    (hr : Session.Paired (Ahead F) Eq r r') : Alike F (w.obtained id r) (w'.obtained id r') := by
  have hcalled := h.called none hr
  cases hr with
  | value hv =>
      cases hv
      exact { hcalled with hands := congrArg (_ :: ·) h.hands }
  | failed | waiting => exact hcalled

theorem borrow_paired (h : Alike F w w') (hstuck : w.isStuck = false) (key : StatementKey) :
    Session.Paired (Ahead F) Eq (Session.borrowStatement key w.session)
      (Session.borrowStatement key w'.session) := by
  refine (h.after hstuck).paired (fun _ => Session.borrowStatement_mirrors key) fun hopen => ?_
  obtain ⟨statements, hborrow, -⟩ := borrowStatement_session key w.session
  rwa [hborrow] at hopen

theorem create_paired (h : Alike F w w') (hstuck : w.isStuck = false) (key : StatementKey) :
    Session.Paired (Ahead F) Eq (Session.createStatement key w.session)
      (Session.createStatement key w'.session) := by
  refine (h.after hstuck).paired (fun _ => Session.lift_mirrors _) fun hopen => ?_
  rwa [createStatement_apply, final_lift] at hopen

theorem borrow (h : Alike F w w') (hstuck : w.isStuck = false) (key : StatementKey) :
    Alike F (w.borrow key) (w'.borrow key) := by
  have hpaired := h.borrow_paired hstuck key
  unfold World.borrow
  simp only []
  rw [h.statements, h.resident, h.made]
  split
  · exact h.obtained _ hpaired
  · exact { h.obtained _ hpaired with made := rfl }

theorem create (h : Alike F w w') (hstuck : w.isStuck = false) (key : StatementKey) :
    Alike F (w.create key) (w'.create key) := by
  have hpaired := h.create_paired hstuck key
  unfold World.create
  rw [h.made]
  exact { h.obtained _ hpaired with made := rfl }

theorem release (h : Alike F w w') (hstuck : w.isStuck = false) (handle : Handle) :
    Alike F (w.release handle) (w'.release handle) := by
  have hpaired : Session.Paired (Ahead F) Eq
      (Session.releaseStatement handle.statement w.session)
      (Session.releaseStatement handle.statement w'.session) := by
    refine (h.after hstuck).paired (fun _ => Session.releaseStatement_mirrors _) fun hopen => ?_
    obtain ⟨_, _, _, _, hsession, -⟩ := w.release_session handle
    rw [show final (Session.releaseStatement handle.statement w.session) = _ from hsession] at hopen
    exact hopen
  have hcalled := h.called none hpaired
  exact { hcalled with
    hands := h.others handle.id
    resident := by
      show settled w'.session.statements w'.resident handle = _
      rw [h.statements, h.resident]
      rfl }

theorem execute (hF : F [] []) (h : Alike F w w') (hstuck : w.isStuck = false) (handle : Handle)
    (parameters : List (Option Bytes)) :
    Alike F (w.execute handle parameters) (w'.execute handle parameters) := by
  have hpaired := Session.execute_paired hF handle.statement parameters (h.after hstuck)
  have hcalled := h.called (some handle) hpaired
  have hothers := h.others handle.id
  unfold World.execute
  simp only []
  generalize Session.execute handle.statement parameters w.session = r at hpaired hcalled
  generalize Session.execute handle.statement parameters w'.session = r' at hpaired hcalled
  cases hpaired with
  | @value reply reply' t t' hv =>
      have hstatement : reply'.redacted.statement = reply.redacted.statement := by rw [hv]
      refine { hcalled with hands := ?_ }
      show { handle with statement := reply'.redacted.statement.getD handle.statement } :: _ = _
      rw [hstatement, hothers]
      rfl
  | failed | waiting => exact { hcalled with hands := hothers }

/-- What arrives is up to the server. -/
theorem arrive {G : Bytes → Bytes → Prop} {octets octets' : Bytes} (h : Alike F w w')
    (hG : ∀ v v', G v v' → F (octets ++ v) (octets' ++ v')) (ended : Bool) (faults : Faults) :
    Alike G (w.arrive octets ended faults) (w'.arrive octets' ended faults) := by
  have hunread : ∀ (w : World) (octets : Bytes),
      (w.arrive octets ended faults).session.channel.unread =
        w.session.channel.unread ++ octets := fun w octets =>
    (List.append_assoc _ _ _).symm
  refine ⟨⟨?_, fun hstuck hopen v v' hv => ?_, h.session.quiet⟩, h.hands, h.resident, h.made,
    h.isStuck⟩
  · have hveil : ∀ (w : World) (octets : Bytes),
        (w.arrive octets ended faults).session.veil = { w.session.veil with
          channel := { w.session.veil.channel with
            socket := { w.session.veil.channel.socket with ended, faults } } } :=
      fun _ _ => rfl
    rw [hveil, hveil, h.session.veil]
  · rw [hunread, hunread, List.append_assoc, List.append_assoc]
    exact h.session.left hstuck hopen _ _ (hG v v' hv)

theorem mono {G : Bytes → Bytes → Prop} (h : Alike F w w') (hG : ∀ v v', G v v' → F v v') :
    Alike G w w' :=
  { h with session := h.session.mono fun _ _ hleft hstuck hopen v v' hv =>
      hleft hstuck hopen v v' (hG v v' hv) }

/-- What a caller does to worlds that are alike leaves them alike, and the errors are the same but
for details. -/
theorem act (hF : F [] []) (h : Alike F w w') (hstuck : w.isStuck = false) {operation : Operation}
    (hcaller : ∀ octets ended faults, operation ≠ .arrive octets ended faults) :
    Alike F (w.act operation) (w'.act operation) ∧
      (w'.raises operation).map Error.redacted = (w.raises operation).map Error.redacted := by
  have hafter := h.after hstuck
  cases operation with
  | arrive octets ended faults => exact absurd rfl (hcaller octets ended faults)
  | borrow key => exact ⟨h.borrow hstuck key, (h.borrow_paired hstuck key).errors⟩
  | create key => exact ⟨h.create hstuck key, (h.create_paired hstuck key).errors⟩
  | setFetchSize id rows =>
      refine ⟨{ h with hands := ?_ }, rfl⟩
      show w'.hands.map _ = w.hands.map _
      rw [h.hands]
  | release id =>
      refine ⟨?_, rfl⟩
      show Alike F ((w.hand? id).elim w _) ((w'.hand? id).elim w' _)
      rw [h.hand?]
      cases w.hand? id with
      | none => exact h
      | some handle => exact h.release hstuck handle
  | query sql =>
      have hpaired := Session.query_paired hF sql hafter
      exact ⟨h.called none hpaired, hpaired.replyErrors⟩
  | execute id parameters =>
      show Alike F ((w.hand? id).elim w _) ((w'.hand? id).elim w' _) ∧
        ((w'.hand? id).elim [] _).map _ = ((w.hand? id).elim [] _).map _
      rw [h.hand?]
      cases w.hand? id with
      | none => exact ⟨h, rfl⟩
      | some handle =>
          exact ⟨h.execute hF hstuck handle parameters,
            (Session.execute_paired hF handle.statement parameters hafter).replyErrors⟩
  | takeNotices wait =>
      have hpaired := Session.takeNotices_paired hF wait hafter
      exact ⟨h.called none hpaired, hpaired.errors⟩
  | close =>
      refine ⟨h.called none (hafter.paired (V := Eq)
        (fun _ => Session.mirrors_endures.close) fun hopen => ?_), rfl⟩
      rw [Session.close_reaches.final] at hopen
      cases hopen
  | abort =>
      refine ⟨h.called none (hafter.paired (V := Eq)
        (fun _ => Session.mirrors_endures.abort) fun hopen => ?_), rfl⟩
      rw [Session.abort_reaches.final] at hopen
      cases hopen

/-- One turn of two runs. -/
theorem turned {G : Bytes → Bytes → Prop} (hG : G [] []) (h : Alike F w w') {turn turn' : Turn}
    (hsame : turn.Same turn')
    (harrives : ∀ v v', G v v' → F (turn.octets ++ v) (turn'.octets ++ v')) :
    Alike G (w.turned turn) (w'.turned turn') ∧
      (w'.raised turn').map Error.redacted = (w.raised turn).map Error.redacted := by
  unfold World.turned World.raised
  rw [h.isStuck]
  cases hstuck : w.isStuck with
  | true =>
      refine ⟨{ h with session := h.session.mono fun _ _ _ hrunning => ?_ }, rfl⟩
      exact Bool.noConfusion (hstuck.symm.trans hrunning)
  | false =>
      simp only [Bool.false_eq_true, if_false]
      cases hsame with
      | arrive octets octets' ended faults => exact ⟨h.arrive harrives ended faults, rfl⟩
      | refl =>
          cases turn with
          | chore chore =>
              have hleft : Alike G w w' := h.mono harrives
              have hpaired := Session.chore_paired hG chore (hleft.after hstuck)
              exact ⟨hleft.called none hpaired, hpaired.errors⟩
          | operation operation =>
              cases operation with
              | arrive octets ended faults => exact ⟨h.arrive harrives ended faults, rfl⟩
              | _ => exact (h.mono harrives).act hG hstuck nofun

/-- What the rest of two runs may bring. -/
def Coming (turns turns' : List Turn) (v v' : Bytes) : Prop :=
  ∃ n, v = Turn.arriving (turns.take n) ∧ v' = Turn.arriving (turns'.take n)

theorem follow {turns turns' : List Turn} (hsame : List.Forall₂ Turn.Same turns turns')
    (h : Alike (Coming turns turns') w w') :
    Alike (Coming [] []) (w.follow turns) (w'.follow turns') ∧
      (w'.errors turns').map Error.redacted = (w.errors turns).map Error.redacted := by
  induction hsame generalizing w w' with
  | nil => exact ⟨h, rfl⟩
  | @cons turn turn' turns turns' hturn _ ih =>
      have harrives : ∀ v v', Coming turns turns' v v' →
          Coming (turn :: turns) (turn' :: turns') (turn.octets ++ v) (turn'.octets ++ v') := by
        rintro _ _ ⟨n, rfl, rfl⟩
        exact ⟨n + 1, rfl, rfl⟩
      obtain ⟨hnext, hraised⟩ := h.turned ⟨0, rfl, rfl⟩ hturn harrives
      obtain ⟨hlast, herrors⟩ := ih hnext
      refine ⟨hlast, ?_⟩
      show (w'.raised turn' ++ _).map _ = (w.raised turn ++ _).map _
      rw [List.map_append, List.map_append, hraised, herrors]

end Alike

/-- What is to be seen of a run: the octets that went out, the log, and what the session says about
the errors it told its caller. -/
structure Seen where
  clear : Bytes
  encrypted : Bytes
  log : List (Level × String)
  complaints : List Complaint
  isStuck : Bool
  deriving DecidableEq, Repr

/-- The errors are asked about at the end of the run, whenever it was that the caller was told. -/
def seen (s : Session) (turns : List Turn) : Seen :=
  let w := (start s).follow turns
  { clear := w.session.channel.socket.clear
    encrypted := w.session.channel.socket.encrypted
    log := w.session.history.map fun e => (e.level, e.text)
    complaints := ((start s).errors turns).map w.session.complaint
    isStuck := w.isStuck }

theorem Alike.sent (h : Alike F w w') :
    w'.session.channel.socket.clear = w.session.channel.socket.clear ∧
      w'.session.channel.socket.encrypted = w.session.channel.socket.encrypted :=
  ⟨h.session.same (·.channel.socket.clear) fun _ => rfl,
    h.session.same (·.channel.socket.encrypted) fun _ => rfl⟩

theorem Alike.log (h : Alike F w w') :
    w'.session.history.map (fun e => (e.level, e.text)) =
      w.session.history.map fun e => (e.level, e.text) := by
  have hshown : ∀ s : Session, s.history.map (fun e => (e.level, e.text)) =
      s.veil.history.map fun e => (e.level, e.text) := by
    intro s
    have hveil : s.veil.history = s.history.map Event.redacted := Array.toList_map
    rw [hveil, List.map_map]
    refine List.map_congr_left fun e _ => ?_
    show _ = (e.redacted.level, e.redacted.text)
    rw [e.level_redacted, e.text_redacted]
  rw [hshown w.session, ← h.session.veil]
  exact hshown w'.session

theorem Alike.complaints (h : Alike F w w') {es es' : List Error}
    (hes : es'.map Error.redacted = es.map Error.redacted) :
    es'.map w'.session.complaint = es.map w.session.complaint := by
  have hsession : w'.session.complaint = w.session.complaint :=
    h.session.same Session.complaint fun _ => rfl
  have hredacted : ∀ es : List Error, es.map w.session.complaint =
      (es.map Error.redacted).map w.session.complaint := by
    intro es
    rw [List.map_map]
    exact List.map_congr_left fun e _ => (w.session.complaint_redacted e).symm
  rw [hsession, hredacted, hes, ← hredacted]

/-- If details are not to be shown, they are not to be seen. Whatever is done with a session, if
what arrived so far is always the same up to details, then at every moment the same octets went
out, the log says the same, and so do the errors the caller was told about. -/
theorem details_untold {s : Session} (hquiet : s.options.showErrorDetail = false)
    {turns turns' : List Turn} (hsame : List.Forall₂ Turn.Same turns turns')
    (hstreams : ∀ n, SameUpToDetails (s.channel.unread ++ Turn.arriving (turns.take n))
      (s.channel.unread ++ Turn.arriving (turns'.take n))) (n : Nat) :
    seen s (turns'.take n) = seen s (turns.take n) := by
  have hstart : Alike (Alike.Coming (turns.take n) (turns'.take n)) (start s) (start s) := by
    refine ⟨⟨rfl, ?_, hquiet⟩, rfl, rfl, rfl, rfl⟩
    rintro - - _ _ ⟨m, rfl, rfl⟩
    rw [List.take_take, List.take_take]
    exact hstreams (min m n)
  obtain ⟨h, herrors⟩ := hstart.follow (List.forall₂_take n hsame)
  have hsent := h.sent
  unfold seen
  simp only [Seen.mk.injEq]
  exact ⟨hsent.1, hsent.2, h.log, h.complaints herrors, h.isStuck⟩

/-- A report with something to say about a row. -/
def refusalText (detail : String) : String :=
  "SERROR\x00C23505\x00D" ++ detail ++ "\x00"

/-- What the server answers when it refuses a query. -/
def refusal (detail : String) : Bytes :=
  (WireMessage.errorResponse (Utf8.encode (refusalText detail))).encode ++
    Session.Conversation.readyFrame 0x49

/-- A query and its refusal. -/
def refusedQuery (detail : String) : List Turn :=
  [.operation (.arrive (refusal detail) false {}), .operation (.query "SELECT 1")]

/-- A session that is not to show details. -/
def quietSession : Session :=
  Session.new { socket := {}, host := { name := "localhost", port := 5432 } } "postgres" "postgres"
    { showErrorDetail := false }

theorem arriving_refusedQuery (detail : String) (n : Nat) :
    Turn.arriving ((refusedQuery detail).take (n + 1)) = refusal detail := by
  have hquery : ∀ n, Turn.arriving ([Turn.operation (.query "SELECT 1")].take n) = [] := by
    rintro (_ | _ | n) <;> rfl
  show refusal detail ++ Turn.arriving (List.take n _) = _
  rw [hquery, List.append_nil]

theorem refusal_same {detail detail' : String}
    (hshown : Report.shown (refusalText detail) = Report.shown (refusalText detail'))
    (h : (WireMessage.errorResponse (Utf8.encode (refusalText detail))).WellFormed)
    (h' : (WireMessage.errorResponse (Utf8.encode (refusalText detail'))).WellFormed) :
    SameUpToDetails (refusal detail) (refusal detail') :=
  .message (.error hshown h h') (.refl (Session.Conversation.readyFrame 0x49))

theorem details_untold_refusal :
    let turns := refusedQuery "Alice"
    let turns' := refusedQuery "Bob"
    quietSession.options.showErrorDetail = false ∧ List.Forall₂ Turn.Same turns turns' ∧
      (∀ n, SameUpToDetails (quietSession.channel.unread ++ Turn.arriving (turns.take n))
        (quietSession.channel.unread ++ Turn.arriving (turns'.take n))) ∧
      Turn.arriving turns ≠ Turn.arriving turns' ∧
      (seen quietSession turns).complaints.map Complaint.sqlState = [some "23505", some "23505"] ∧
      ∀ n, seen quietSession (turns'.take n) = seen quietSession (turns.take n) := by
  intro turns turns'
  have hsame : List.Forall₂ Turn.Same turns turns' :=
    .cons (.arrive _ _ _ _) (.cons (.refl _) .nil)
  have hstreams : ∀ n, SameUpToDetails
      (quietSession.channel.unread ++ Turn.arriving (turns.take n))
      (quietSession.channel.unread ++ Turn.arriving (turns'.take n)) := by
    intro n
    show SameUpToDetails (Turn.arriving _) (Turn.arriving _)
    cases n with
    | zero => exact .done
    | succ n =>
        rw [arriving_refusedQuery, arriving_refusedQuery]
        exact refusal_same (by decide +kernel) (by decide +kernel) (by decide +kernel)
  exact ⟨rfl, hsame, hstreams, by decide +kernel, by decide +kernel,
    details_untold rfl hsame hstreams⟩

end World

end PgClient
