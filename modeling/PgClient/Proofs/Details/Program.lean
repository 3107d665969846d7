import PgClient.Program
import PgClient.Proofs.Details.Attempts
import PgClient.Proofs.Details.Sessions

/-!
# What the program tells

A program that is not to show details is run twice, over sockets that are the same up to details.
Up to the warnings nobody can tell the runs apart (`Console.Alike`, `visit_twin`): what is written
comes from the journal, from the errors and from the results, and none of these holds a detail that
is not to be shown. At the end the warnings that are left are told, and those are told in full. So
the lines in front of them and behind them are all that is bound to be the same (`run_tells`).

The lines there are do not matter to what is done after the warnings (`endVisit_under`). That is why
the end of the runs can be compared without them.
-/

namespace PgClient

open Exchange

namespace Rows

/-- What is shown of a reply does not depend on its errors. -/
theorem ofDeliveries_redacted (deliveries : List Delivery) :
    ofDeliveries (deliveries.map Delivery.redacted) =
      { ofDeliveries deliveries with
        errors := (ofDeliveries deliveries).errors.map Error.redacted } := by
  have hfold : ∀ (deliveries : List Delivery) (r : Rows),
      (deliveries.map Delivery.redacted).foldl add
          { r with errors := r.errors.map Error.redacted } =
        { deliveries.foldl add r with
          errors := (deliveries.foldl add r).errors.map Error.redacted } := by
    intro deliveries
    induction deliveries with
    | nil => intro r; rfl
    | cons delivery deliveries ih =>
        intro r
        rw [List.map_cons, List.foldl_cons, List.foldl_cons, ← ih]
        cases delivery with
        | error e =>
            show _ = List.foldl add { r with errors := (r.errors ++ [e]).map Error.redacted } _
            rw [List.map_append]
            rfl
        | _ => rfl
  exact hfold deliveries {}

end Rows

namespace Program

/-! ## The program as far as a reader can tell -/

/-- Nobody who reads the output can tell the programs apart. -/
structure Console.Alike (c c' : Console) : Prop where
  code : c'.code = c.code
  lines : c'.lines = c.lines
  told : c'.told = c.told
  journal : c'.journal.map Event.redacted = c.journal.map Event.redacted

variable {α β : Type} {c c' : Console} {V : α → α → Prop}

/-- Runs of a part of the program that nobody can tell apart. -/
abbrev Matches (V : α → α → Prop) (x x' : Exchange Console α) : Prop :=
  Mirrors Console.Alike Console.Alike V x x'

theorem write_matches (line : Line) : Matches Eq (write line) (write line) :=
  .modify fun h => ⟨h.code, congrArg (·.push line) h.lines, h.told, h.journal⟩

theorem log_matches (level : Level) (text : String) :
    Matches Eq (log level text) (log level text) :=
  write_matches _

theorem setCode_matches (code : Nat) : Matches Eq (setCode code) (setCode code) :=
  .modify fun h => ⟨rfl, h.lines, h.told, h.journal⟩

/-- An event has the same line with its details and without them. -/
def eventLine (e : Event) : Line :=
  .log e.level e.text

theorem eventLine_redacted (e : Event) : eventLine e.redacted = eventLine e := by
  unfold eventLine
  rw [e.level_redacted, e.text_redacted]

theorem Console.Alike.caughtUp (h : c.Alike c') : c.caughtUp.Alike c'.caughtUp := by
  have hlist : c'.journal.toList.map Event.redacted = c.journal.toList.map Event.redacted := by
    rw [← Array.toList_map, ← Array.toList_map, h.journal]
  have hlines : ∀ es es' : List Event, es'.map Event.redacted = es.map Event.redacted →
      es'.map eventLine = es.map eventLine := by
    intro es es' hes
    have hredacted : ∀ es : List Event, es.map eventLine = (es.map Event.redacted).map eventLine :=
      fun es => by
        rw [List.map_map]
        exact List.map_congr_left fun e _ => (eventLine_redacted e).symm
    rw [hredacted es', hes, ← hredacted]
  refine ⟨h.code, ?_, ?_, h.journal⟩
  · show c'.lines ++ (List.map eventLine _).toArray = c.lines ++ (List.map eventLine _).toArray
    rw [h.lines, h.told, hlines (c'.journal.toList.drop c.told) (c.journal.toList.drop c.told)
      (by rw [List.map_drop, List.map_drop, hlist])]
  · have hsize := congrArg Array.size h.journal
    rw [Array.size_map, Array.size_map] at hsize
    exact hsize

/-- The console after something was done with a session. -/
theorem Console.Alike.withSession {M : Bytes → Bytes → Prop} {s s' : Session} (h : c.Alike c')
    (hs : Session.Alike M s s') :
    ({ c with session := some s } : Console).caughtUp.Alike
      ({ c' with session := some s' } : Console).caughtUp :=
  Console.Alike.caughtUp ⟨h.code, h.lines, h.told, congrArg (·.channel.journal) hs.veil⟩

/-- Sessions nobody can tell apart. -/
abbrev Kept : Session → Session → Prop :=
  Session.After (Ahead Still)

theorem onSession_matches {x x' : Exchange Session α} {s s' : Session}
    (hx : Session.Paired (Ahead Still) V (x s) (x' s')) :
    Matches (fun p p' => V p.1 p'.1 ∧ Kept p.2 p'.2) (onSession s x) (onSession s' x') := by
  refine ⟨fun {c c'} h => ?_⟩
  unfold onSession
  generalize x s = r at hx
  generalize x' s' = r' at hx
  cases hx with
  | value hv ht => exact .value ⟨hv, ht⟩ (h.withSession ht)
  | failed he ht => exact .failed he (h.withSession ht)
  | waiting ht => exact .lost nofun (h.withSession ht)

/-! ## Opening the session -/

/-- Results of opening a session that look the same. -/
inductive Connected : Except Error Session → Except Error Session → Prop where
  | opened {s s' : Session} (h : Kept s s') : Connected (.ok s) (.ok s')
  | failed {e e' : Error} (he : e'.redacted = e.redacted) : Connected (.error e) (.error e')

/-- Programs that did not connect yet, and will do so over sockets that are the same up to
details. -/
structure Console.Unopened (config : Config) (c c' : Console) : Prop
    extends Console.Alike c c' where
  dialers : Dialer.Same (config.tls.options.asks config.connection.address) c.dialer c'.dialer
  session : c.session = none
  session' : c'.session = none

/-- The console with more lines. -/
def Console.extended (c : Console) (lines : List Line) : Console :=
  { c with lines := c.lines ++ lines.toArray }

theorem Console.extended_push (c : Console) (line : Line) (lines : List Line) :
    ({ c with lines := c.lines.push line } : Console).extended lines =
      c.extended (line :: lines) := by
  unfold Console.extended
  simp

theorem forM_write (line : β → Line) (bs : List β) (c : Console) :
    bs.forM (fun b => write (line b)) c = .ok ⟨⟩ (c.extended (bs.map line)) := by
  induction bs generalizing c with
  | nil =>
      show EStateM.Result.ok _ c = .ok _ { c with lines := c.lines ++ #[] }
      rw [Array.append_empty]
  | cons b bs ih =>
      exact (ih _).trans (congrArg _ (c.extended_push (line b) (bs.map line)))

/-- The lines a program begins with. -/
def greeting (config : Config) : List Line :=
  .log .info s!"Welcome to {Arguments.title.1}! (Version {Arguments.title.2})" ::
    config.render.map (.log .info)

theorem greet_apply (config : Config) (c : Console) :
    greet config c = .ok () (c.extended (greeting config)) := by
  unfold greeting
  rw [← Console.extended_push]
  exact forM_write (Line.log .info) config.render _

theorem Console.Unopened.extended {config : Config} (h : c.Unopened config c') (lines : List Line) :
    (c.extended lines).Unopened config (c'.extended lines) := by
  have hjournal : ∀ c : Console, (c.extended lines).journal = c.journal := fun _ => rfl
  refine { h with lines := ?_, journal := ?_ }
  · exact congrArg (· ++ lines.toArray) h.lines
  · rw [hjournal, hjournal]
    exact h.journal

theorem connect_twin (store : KeyStore) {config : Config}
    (hquiet : config.protocol.showErrorDetail = false) (h : c.Unopened config c') :
    Twin Console.Alike Console.Alike Connected (connect store config c)
      (connect store config c') := by
  have hopens :=
    Dialer.openSession_ends store config.connection hquiet config.tls.options h.dialers
  have hfails : ∀ {t t' : Dialer}, t.Told t' →
      ({ c with dialer := t } : Console).caughtUp.Alike
        ({ c' with dialer := t' } : Console).caughtUp := fun ht => by
    refine Console.Alike.caughtUp ⟨h.code, h.lines, h.told, ?_⟩
    unfold Console.journal
    simp only [h.session, h.session']
    exact ht
  unfold connect
  simp only [attempt_apply]
  generalize Dialer.openSession store config.connection config.protocol config.tls.options
    c.dialer = r at hopens
  generalize Dialer.openSession store config.connection config.protocol config.tls.options
    c'.dialer = r' at hopens
  cases hopens with
  | value ht =>
      refine .value (.opened ht.1) (Console.Alike.caughtUp ⟨h.code, h.lines, h.told, ?_⟩)
      exact congrArg (·.channel.journal) ht.1.veil
  | @halted halt halt' _ _ hhalt ht =>
      cases halt with
      | waiting =>
          cases halt' with
          | waiting => exact .lost nofun (hfails ht)
          | failed e' => cases hhalt
      | failed e =>
          cases halt' with
          | waiting => cases hhalt
          | failed e' => exact .value (.failed (Halt.failed.inj hhalt)) (hfails ht)

/-- Sessions nobody can tell apart, or none. -/
inductive Visited : Option Session → Option Session → Prop where
  | none : Visited none none
  | some {s s' : Session} (h : Kept s s') : Visited (some s) (some s')

theorem announce_matches {s s' : Session} (h : Kept s s') :
    Matches Eq (announce s) (announce s') := by
  rw [h.same announce fun _ => rfl]
  exact (log_matches _ _).andThen fun _ => .forM (fun _ => log_matches _ _) _

/-! ## Running a query -/

/-- What is shown of a reply does not depend on its errors. -/
theorem showRows_redacted (charset : Charset) (deliveries : List Delivery) :
    showRows charset (Rows.ofDeliveries (deliveries.map Delivery.redacted)) =
      showRows charset (Rows.ofDeliveries deliveries) := by
  rw [Rows.ofDeliveries_redacted]
  rfl

theorem showRows_matches (charset : Charset) (rows : Rows) :
    Matches Eq (showRows charset rows) (showRows charset rows) := by
  have hrest : Matches Eq
      (do
        rows.rows.forM fun row => write (.print (rowText charset row))
        rows.statuses.forM (log .info))
      (do
        rows.rows.forM fun row => write (.print (rowText charset row))
        rows.statuses.forM (log .info)) :=
    (Mirrors.forM (fun _ => write_matches _) _).andThen fun _ => .forM (fun _ => log_matches _ _) _
  unfold showRows
  simp only []
  split
  · exact hrest
  · exact (write_matches _).andThen fun _ => hrest

/-- Results that look the same are the same, or they are errors that look the same. -/
theorem result_cases {result result' : Except Error α}
    (h : result'.mapError Error.redacted = result.mapError Error.redacted) :
    (∃ a, result = .ok a ∧ result' = .ok a) ∨
      ∃ e e', result = .error e ∧ result' = .error e' ∧ e'.redacted = e.redacted := by
  cases result with
  | ok a =>
      cases result' with
      | ok a' => exact .inl ⟨a, rfl, congrArg Except.ok (Except.ok.inj h)⟩
      | error e' => cases h
  | error e =>
      cases result' with
      | ok a' => cases h
      | error e' => exact .inr ⟨e, e', rfl, rfl, Except.error.inj h⟩

theorem showResult_matches {s s' : Session} {result result' : Except Error Unit} (h : Kept s s')
    (hresult : result'.mapError Error.redacted = result.mapError Error.redacted) :
    Matches Kept (showResult s result) (showResult s' result') := by
  rcases result_cases hresult with ⟨_, rfl, rfl⟩ | ⟨e, e', rfl, rfl, he⟩
  · exact .pure h
  · have hcomplaint : s'.complaint = s.complaint := h.same Session.complaint fun _ => rfl
    have hsame : s'.complaint e' = s.complaint e := by
      rw [hcomplaint, ← s.complaint_redacted e', he, s.complaint_redacted e]
    have hheals : s'.healsOnRetry e' = s.healsOnRetry e := congrArg Complaint.heals hsame
    have hdone : Matches Kept (do setCode dataError; return s)
        (do setCode dataError; return s') := (setCode_matches _).bind fun _ _ _ => .pure h
    unfold showResult
    simp only [Error.message_congr he, hheals]
    refine (log_matches _ _).bind fun _ _ _ => ?_
    split
    · exact (log_matches _ _).bind fun _ _ _ => hdone
    · exact hdone

theorem runQuery_matches (sql : String) {s s' : Session} (h : Kept s s') :
    Matches Kept (runQuery s sql) (runQuery s' sql) := by
  refine (onSession_matches (Session.query_paired ⟨rfl, rfl⟩ sql h)).bind ?_
  rintro ⟨reply, t⟩ ⟨reply', t'⟩ ⟨hreply, ht⟩
  have hcharset : t'.channel.charset = t.channel.charset := ht.same (·.channel.charset) fun _ => rfl
  have hdeliveries : reply'.deliveries.map Delivery.redacted =
      reply.deliveries.map Delivery.redacted := congrArg Reply.deliveries hreply
  simp only []
  rw [hcharset, ← showRows_redacted _ reply'.deliveries, hdeliveries, showRows_redacted]
  exact (showRows_matches _ _).bind fun _ _ _ =>
    showResult_matches ht (congrArg Reply.result hreply)

/-! ## Waiting for notifications -/

theorem attempt_paired {x x' : Exchange Session α} {s s' : Session}
    (h : Session.Paired (Ahead Still) Eq (x s) (x' s')) :
    Session.Paired (Ahead Still)
      (fun result result' => result'.mapError Error.redacted = result.mapError Error.redacted)
      (x.attempt s) (x'.attempt s') := by
  rw [attempt_apply, attempt_apply]
  generalize x s = r at h
  generalize x' s' = r' at h
  cases h with
  | value hv ht => exact .value (by rw [hv]) ht
  | failed he ht => exact .value (congrArg Except.error he) ht
  | waiting ht => exact .waiting ht

theorem Kept.change {s s' : Session} {f : Session → Session} (h : Kept s s')
    (hveil : ∀ s, (f s).veil = f s.veil) (hchannel : ∀ s, (f s).channel = s.channel)
    (hoptions : ∀ s, (f s).options = s.options) (hclosed : ∀ s, (f s).isClosed = s.isClosed) :
    Kept (f s) (f s') := by
  refine ⟨by rw [hveil, hveil, h.veil], fun hopen => ?_, by rw [hoptions]; exact h.quiet⟩
  rw [hchannel, hchannel]
  exact h.left ((hclosed s).symm.trans hopen)

theorem listen_matches (seconds : Nat) {s s' : Session} (h : Kept s s') :
    Matches Kept (listen s seconds) (listen s' seconds) := by
  refine (log_matches _ _).bind fun _ _ _ => ?_
  refine (onSession_matches (attempt_paired (Session.takeNotices_paired ⟨rfl, rfl⟩ _ h))).bind ?_
  rintro ⟨result, t⟩ ⟨result', t'⟩ ⟨hresult, ht⟩
  have hnotices : t'.status.notifications = t.status.notifications :=
    ht.same (·.status.notifications) fun _ => rfl
  have hshown : Matches Kept (showNotices t) (showNotices t') := by
    unfold showNotices Status.takeNotifications
    simp only [hnotices]
    exact (Mirrors.forM (fun _ => write_matches _) _).bind fun _ _ _ => .pure (Kept.change
      (f := fun s => { s with status := s.status.takeNotifications.2 }) ht (fun _ => rfl)
      (fun _ => rfl) (fun _ => rfl) fun _ => rfl)
  rcases result_cases hresult with ⟨_, rfl, rfl⟩ | ⟨e, e', rfl, rfl, he⟩
  · exact hshown
  · simp only [Error.message_congr he]
    exact (log_matches _ _).bind fun _ _ _ => (setCode_matches _).bind fun _ _ _ => hshown

/-! ## Up to the warnings -/

theorem waitFor_matches (args : Arguments) {s s' : Session} (h : Kept s s') :
    Matches Kept (waitFor args s) (waitFor args s') := by
  unfold waitFor
  rw [h.isClosed]
  split
  · exact listen_matches _ h
  · exact .pure h

theorem start_twin (store : KeyStore) {config : Config} (args : Arguments)
    (hquiet : config.protocol.showErrorDetail = false) (h : c.Unopened config c') :
    Twin Console.Alike Console.Alike Visited (start store config args c)
      (start store config args c') := by
  unfold start
  refine (connect_twin store hquiet h).bind fun _ _ hconnected ht => ?_
  cases hconnected with
  | @failed e e' he =>
      have hfailed : Matches Visited
          (do
            log .error ("Could not connect to " ++ config.connection.address.render ++ ": "
              ++ e.message)
            setCode unavailable
            return none)
          (do
            log .error ("Could not connect to " ++ config.connection.address.render ++ ": "
              ++ e.message)
            setCode unavailable
            return none) :=
        (log_matches _ _).bind fun _ _ _ => (setCode_matches _).bind fun _ _ _ => .pure .none
      simp only [Error.message_congr he]
      exact hfailed.twin ht
  | opened hs =>
      refine ((announce_matches hs).twin ht).bind fun _ _ _ ht => ?_
      cases args.query with
      | none => exact .value (.some hs) ht
      | some sql => exact ((runQuery_matches sql hs).bind fun _ _ h => .pure (.some h)).twin ht

/-- Up to the warnings nobody can tell the programs apart. -/
theorem visit_twin (store : KeyStore) {config : Config} (args : Arguments)
    (hquiet : config.protocol.showErrorDetail = false) (h : c.Unopened config c') :
    Twin Console.Alike Console.Alike Visited (visit store config args c)
      (visit store config args c') := by
  unfold visit
  rw [bind_of_ok (greet_apply config c), bind_of_ok (greet_apply config c')]
  refine (start_twin store args hquiet (h.extended _)).bind fun _ _ hvisited ht => ?_
  cases hvisited with
  | none => exact .value .none ht
  | some hs => exact ((waitFor_matches args hs).bind fun _ _ h => .pure (.some h)).twin ht

/-! ## The warnings -/

/-- The console with lines in front of its own. -/
def Console.under (lines : Array Line) (c : Console) : Console :=
  { c with lines := lines ++ c.lines }

/-- The same end, with lines in front. -/
def under (lines : Array Line) : EStateM.Result Halt Console α → EStateM.Result Halt Console α
  | .ok a c => .ok a (c.under lines)
  | .error halt c => .error halt (c.under lines)

theorem Console.caughtUp_under (lines : Array Line) (c : Console) :
    (c.under lines).caughtUp = c.caughtUp.under lines := by
  unfold Console.caughtUp Console.under
  simp only [Array.append_assoc]
  rfl

/-- The lines there are do not matter to the ending of a session. -/
theorem endVisit_under (lines : Array Line) (s : Session) (c : Console) :
    endVisit s (c.under lines) = under lines (endVisit s c) := by
  have hclose : onSession s Session.close (c.under lines) =
      under lines (onSession s Session.close c) := by
    have hsession : ∀ s : Session, ({ c.under lines with session := some s } : Console).caughtUp =
        ({ c with session := some s } : Console).caughtUp.under lines := fun s =>
      Console.caughtUp_under lines { c with session := some s }
    unfold onSession
    rcases Session.close s with ⟨_, t⟩ | ⟨halt, t⟩
    · exact congrArg _ (hsession t)
    · exact congrArg _ (hsession t)
  have hlog : ∀ t : Console, log .info "Shutting down..." (t.under lines) =
      under lines (log .info "Shutting down..." t) := fun t => by
    have hpush : (lines ++ t.lines).push (.log .info "Shutting down...") =
        lines ++ t.lines.push (.log .info "Shutting down...") := Array.append_push.symm
    exact congrArg (fun all => EStateM.Result.ok PUnit.unit ({ t with lines := all } : Console))
      hpush
  have hend : endVisit s = onSession s Session.close >>= fun _ => log .info "Shutting down..." := by
    unfold endVisit
    rw [show (discard (onSession s Session.close) : Exchange Console PUnit) =
      onSession s Session.close >>= fun _ => pure ⟨⟩ from rfl, bind_assoc]
    rfl
  rw [hend, bind_apply, bind_apply, hclose]
  cases onSession s Session.close c with
  | ok _ t => exact hlog t
  | error => rfl

theorem endVisit_matches {s s' : Session} (h : Kept s s') :
    Matches Eq (endVisit s) (endVisit s') := by
  have hclose : Session.Paired (Ahead Still) Eq (Session.close s) (Session.close s') := by
    refine h.paired (fun _ => Session.mirrors_endures.close) fun hopen => ?_
    rw [Session.close_reaches.final] at hopen
    cases hopen
  exact ((onSession_matches hclose).bind fun _ _ _ => .pure rfl).bind fun _ _ _ => log_matches _ _

/-- Reports as the program tells them: in full. -/
def tellings (reports : List Report) : List Line :=
  reports.map fun w => .log .warn (w.render true)

/-- The reports a visit leaves to be told. -/
def leftOver : Option Session → List Report
  | some s => s.status.warnings
  | none => []

/-- The lines are the same in front of what is told and behind it. -/
structure Console.Differ (tell tell' : List Line) (c c' : Console) : Prop where
  code : c'.code = c.code
  lines : ∃ before after, c.lines.toList = before ++ tell ++ after ∧
    c'.lines.toList = before ++ tell' ++ after

theorem Console.Alike.differ (h : c.Alike c') : Console.Differ [] [] c c' :=
  ⟨h.code, c.lines.toList, [], by simp, by rw [h.lines]; simp⟩

/-- Ends that look the same, with other reports told ahead of them. -/
theorem under_twin {r r' : EStateM.Result Halt Console α} (lines : Array Line)
    (tell tell' : List Line) (h : Twin Console.Alike Console.Alike V r r') :
    Twin (Console.Differ tell tell') (Console.Differ tell tell') V
      (under (lines ++ tell.toArray) r) (under (lines ++ tell'.toArray) r') := by
  have hunder : ∀ {t t' : Console}, t.Alike t' → Console.Differ tell tell'
      (t.under (lines ++ tell.toArray)) (t'.under (lines ++ tell'.toArray)) := fun {t t'} ht => by
    refine ⟨ht.code, lines.toList, t.lines.toList, ?_, ?_⟩
    · show ((lines ++ tell.toArray) ++ t.lines).toList = _
      rw [Array.toList_append, Array.toList_append]
    · show ((lines ++ tell'.toArray) ++ t'.lines).toList = _
      rw [ht.lines, Array.toList_append, Array.toList_append]
  cases h with
  | value hv ht => exact .value hv (hunder ht)
  | failed he ht => exact .failed he (hunder ht)
  | lost hlost ht => exact .lost hlost (hunder ht)

theorem leave_some (s : Session) (c : Console) : leave (some s) c =
    under (c.lines ++ (tellings s.status.warnings).toArray)
      (endVisit { s with status := s.status.takeWarnings.2 } { c with lines := #[] }) := by
  have hlines : ({ c with lines := #[] } : Console).under
      (c.lines ++ (tellings s.status.warnings).toArray) =
        c.extended (tellings s.status.warnings) := by
    unfold Console.under Console.extended
    rw [Array.append_empty]
  rw [← endVisit_under, hlines]
  exact bind_of_ok (forM_write (fun w : Report => Line.log .warn (w.render true))
    s.status.warnings c)

theorem leave_twin {session session' : Option Session} (hs : Visited session session')
    (h : c.Alike c') :
    Twin (Console.Differ (tellings (leftOver session)) (tellings (leftOver session')))
      (Console.Differ (tellings (leftOver session)) (tellings (leftOver session'))) Eq
      (leave session c) (leave session' c') := by
  cases hs with
  | none => exact ((log_matches _ _).twin h).mono (fun h => h.differ) fun h => h.differ
  | @some s s' hs =>
      have hended : Kept { s with status := s.status.takeWarnings.2 }
          { s' with status := s'.status.takeWarnings.2 } :=
        Kept.change (f := fun s => { s with status := s.status.takeWarnings.2 }) hs (fun _ => rfl)
          (fun _ => rfl) (fun _ => rfl) fun _ => rfl
      have hbare : ({ c with lines := #[] } : Console).Alike { c' with lines := #[] } :=
        ⟨h.code, rfl, h.told, h.journal⟩
      rw [leave_some, leave_some, h.lines]
      exact under_twin _ _ _ ((endVisit_matches hended).twin hbare)

/-- The reports that are told at the end. -/
def lastReports (store : KeyStore) (config : Config) (args : Arguments) (dialer : Dialer) :
    List Report :=
  match visit store config args { dialer } with
  | .ok session _ => leftOver session
  | .error _ _ => []

theorem leftOver_redacted {session session' : Option Session} (h : Visited session session') :
    (leftOver session').map Report.redacted = (leftOver session).map Report.redacted := by
  cases h with
  | none => rfl
  | some hs => exact congrArg (·.status.warnings) hs.veil

/-- Two runs of the program differ in nothing but how much the reports say that are told at the
end. -/
theorem work_twin (store : KeyStore) {config : Config} (args : Arguments)
    (hquiet : config.protocol.showErrorDetail = false) {dialer dialer' : Dialer}
    (hsame : Dialer.Same (config.tls.options.asks config.connection.address) dialer dialer') :
    let told := fun dialer => tellings (lastReports store config args dialer)
    (lastReports store config args dialer').map Report.redacted =
      (lastReports store config args dialer).map Report.redacted ∧
    Twin (Console.Differ (told dialer) (told dialer')) (Console.Differ (told dialer) (told dialer'))
      Eq (work store config args { dialer }) (work store config args { dialer := dialer' }) := by
  have hunopened : Console.Unopened config { dialer } { dialer := dialer' } :=
    ⟨⟨rfl, rfl, rfl, hsame.told⟩, hsame, rfl, rfl⟩
  have hvisit := visit_twin store args hquiet hunopened
  simp only [work, bind_apply]
  unfold lastReports
  generalize visit store config args { dialer } = r at hvisit
  generalize visit store config args { dialer := dialer' } = r' at hvisit
  cases hvisit with
  | value hs h => exact ⟨leftOver_redacted hs, leave_twin hs h⟩
  | failed he h => exact ⟨rfl, .failed he h.differ⟩
  | lost hlost h => exact ⟨rfl, .lost hlost h.differ⟩

/-! ## Runs -/

/-- What the program goes by. Without it the program does not come to connect. -/
def plan? (environment : String → Option String) (store : KeyStore) (arguments : List String) :
    Option (Arguments × Config) :=
  match Arguments.ofList environment arguments with
  | .error _ => none
  | .ok args =>
    match Config.ofFile args.configFile (store.read args.configFile) with
    | .error _ => none
    | .ok config => some (args, config)

/-- What comes of a program that came to connect. -/
def outcomeOf (limit : Level) : EStateM.Result Halt Console Unit → Outcome
  | .ok _ c => c.outcome limit false
  | .error halt c => c.outcome limit (halt = .waiting)

/-- What is written of lines. -/
def written (limit : Level) (lines : List Line) : List String :=
  lines.flatMap (Line.written limit)

/-- Outcomes that differ in one part of what was written, if in anything a reader sees. -/
structure Outcome.Differ (part part' : List String) (o o' : Outcome) : Prop where
  code : o'.code = o.code
  isWaiting : o'.isWaiting = o.isWaiting
  output : ∃ before after, o.output = before ++ part ++ after ∧
    o'.output = before ++ part' ++ after

theorem Outcome.Differ.output_eq_iff {part part' : List String} {o o' : Outcome}
    (h : Outcome.Differ part part' o o') : o'.output = o.output ↔ part' = part := by
  obtain ⟨before, after, ho, ho'⟩ := h.output
  rw [ho, ho', List.append_left_inj, List.append_right_inj]

theorem Console.Differ.outcome {tell tell' : List Line} (h : Console.Differ tell tell' c c')
    (limit : Level) (isWaiting : Bool) :
    Outcome.Differ (written limit tell) (written limit tell') (c.outcome limit isWaiting)
      (c'.outcome limit isWaiting) := by
  obtain ⟨before, after, hlines, hlines'⟩ := h.lines
  refine ⟨h.code, rfl, written limit before, written limit after, ?_, ?_⟩
  · show written limit c.lines.toList = _
    rw [hlines]
    unfold written
    rw [List.flatMap_append, List.flatMap_append]
  · show written limit c'.lines.toList = _
    rw [hlines']
    unfold written
    rw [List.flatMap_append, List.flatMap_append]

theorem outcomeOf_differ {tell tell' : List Line} {r r' : EStateM.Result Halt Console Unit}
    (h : Twin (Console.Differ tell tell') (Console.Differ tell tell') Eq r r') (limit : Level) :
    Outcome.Differ (written limit tell) (written limit tell') (outcomeOf limit r)
      (outcomeOf limit r') := by
  cases h with
  | value _ h => exact h.outcome limit false
  | failed _ h => exact h.outcome limit false
  | lost _ h => exact h.outcome limit _

section

variable {environment : String → Option String} {store : KeyStore} {arguments : List String}
  {dialer dialer' : Dialer}

theorem run_of_plan {args : Arguments} {config : Config}
    (h : plan? environment store arguments = some (args, config)) (dialer : Dialer) :
    run environment store dialer arguments =
      outcomeOf args.logLevel (work store config args { dialer }) := by
  unfold plan? at h
  unfold run
  split at h
  · cases h
  · next hargs =>
      split at h
      · cases h
      · next hconfig =>
          cases h
          rw [hargs]
          simp only [hconfig]
          cases work store config args { dialer } <;> rfl

theorem run_of_no_plan (h : plan? environment store arguments = none) (dialer dialer' : Dialer) :
    run environment store dialer' arguments = run environment store dialer arguments := by
  unfold plan? at h
  unfold run
  split at h
  · next fault hargs =>
      rw [hargs]
      cases fault <;> rfl
  · next hargs =>
      split at h
      · next hconfig =>
          rw [hargs]
          simp only [hconfig]
      · cases h

/-- The reports a run tells at its end. -/
def reportsAtEnd (environment : String → Option String) (store : KeyStore)
    (arguments : List String) (dialer : Dialer) : List Report :=
  (plan? environment store arguments).elim [] fun (args, config) =>
    lastReports store config args dialer

/-- What is written of the reports a run tells at its end. -/
def writtenAtEnd (environment : String → Option String) (store : KeyStore)
    (arguments : List String) (dialer : Dialer) : List String :=
  (plan? environment store arguments).elim [] fun (args, _) =>
    written args.logLevel (tellings (reportsAtEnd environment store arguments dialer))

/-- The servers say the same up to details, and the program is not to show those. -/
def Untold (environment : String → Option String) (store : KeyStore) (arguments : List String)
    (dialer dialer' : Dialer) : Prop :=
  ∀ args config, plan? environment store arguments = some (args, config) →
    config.protocol.showErrorDetail = false ∧
      Dialer.Same (config.tls.options.asks config.connection.address) dialer dialer'

theorem reportsAtEnd_same (h : Untold environment store arguments dialer dialer') :
    (reportsAtEnd environment store arguments dialer').map Report.redacted =
      (reportsAtEnd environment store arguments dialer).map Report.redacted := by
  unfold reportsAtEnd
  cases hplan : plan? environment store arguments with
  | none => rfl
  | some plan =>
      obtain ⟨hquiet, hsame⟩ := h plan.1 plan.2 hplan
      exact (work_twin store plan.1 hquiet hsame).1

theorem run_differ (h : Untold environment store arguments dialer dialer') :
    Outcome.Differ (writtenAtEnd environment store arguments dialer)
      (writtenAtEnd environment store arguments dialer')
      (run environment store dialer arguments) (run environment store dialer' arguments) := by
  cases hplan : plan? environment store arguments with
  | none =>
      rw [run_of_no_plan hplan dialer dialer']
      unfold writtenAtEnd
      rw [hplan]
      exact ⟨rfl, rfl, (run environment store dialer arguments).output, [], by simp, by simp⟩
  | some plan =>
      obtain ⟨hquiet, hsame⟩ := h plan.1 plan.2 hplan
      rw [run_of_plan hplan, run_of_plan hplan]
      unfold writtenAtEnd reportsAtEnd
      rw [hplan]
      exact outcomeOf_differ (work_twin store plan.1 hquiet hsame).2 plan.1.logLevel

/-- If the program is not to show details, other details change nothing but what is written of the
reports it was left with: not the code it ends with, and not the lines in front of those reports and
behind them. These reports are told in full, so the output is the same if and only if their lines
are. -/
theorem run_tells (h : Untold environment store arguments dialer dialer') :
    let o := run environment store dialer arguments
    let o' := run environment store dialer' arguments
    let last := writtenAtEnd environment store arguments dialer
    let last' := writtenAtEnd environment store arguments dialer'
    (reportsAtEnd environment store arguments dialer').map Report.redacted =
        (reportsAtEnd environment store arguments dialer).map Report.redacted ∧
      Outcome.Differ last last' o o' ∧ (o'.output = o.output ↔ last' = last) :=
  ⟨reportsAtEnd_same h, run_differ h, (run_differ h).output_eq_iff⟩

end

/-! ## A warning -/

/-- A warning with something to say about a row. -/
def warningText (detail : String) : String :=
  "SWARNING\x00C01000\x00Mm\x00D" ++ detail ++ "\x00"

/-- What a server sends that lets the client in without a password, and warns it. -/
def warningStream (detail : String) : Bytes :=
  Tag.authentication.octet :: (Bytes.int32 8 ++ (Bytes.int32 0 ++ []) ++
    ((WireMessage.noticeResponse (Utf8.encode (warningText detail))).encode ++
      Session.Conversation.readyFrame 0x49))

/-- Such a server, which does without TLS. -/
def warningDialer (detail : String) : Dialer where
  dial k :=
    if k = 0 then .connected { inbound := 0x4E :: warningStream detail, ended := true } else .silent

/-- A settings file after which details are not shown. -/
def quietStore : KeyStore :=
  .ofFiles fun _ => .ok (Utf8.encode "[protocol]\nlog_server_error_detail = false\n")

def quietConfig : Config where
  path := "pg_frontend.toml"
  protocol := { showErrorDetail := false }

set_option maxRecDepth 100000 in
theorem quiet_plan : plan? (fun _ => none) quietStore [] = some ({}, quietConfig) := by
  decide +kernel

theorem warningStream_same {detail detail' : String}
    (hshown : Report.shown (warningText detail) = Report.shown (warningText detail'))
    (h : (WireMessage.noticeResponse (Utf8.encode (warningText detail))).WellFormed)
    (h' : (WireMessage.noticeResponse (Utf8.encode (warningText detail'))).WellFormed) :
    AtLogin (warningStream detail) (warningStream detail') :=
  .admitted (.intro (by decide) (by decide) rfl)
    (.message (.notice hshown h h') (.refl (Session.Conversation.readyFrame 0x49)))

theorem warnings_untold :
    Untold (fun _ => none) quietStore [] (warningDialer "Alice") (warningDialer "Bob") := by
  intro args config hplan
  rw [quiet_plan] at hplan
  cases hplan
  refine ⟨rfl, rfl, fun k => ?_⟩
  cases k with
  | zero =>
      exact .connected (.refused (warningStream_same (by decide +kernel) (by decide +kernel)
        (by decide +kernel))) (.fails _)
  | succ k => exact .silent

theorem run_tells_warning :
    let o := run (fun _ => none) quietStore (warningDialer "Alice") []
    let o' := run (fun _ => none) quietStore (warningDialer "Bob") []
    Untold (fun _ => none) quietStore [] (warningDialer "Alice") (warningDialer "Bob") ∧
      o'.code = o.code ∧ o'.isWaiting = o.isWaiting :=
  have h := (run_tells warnings_untold).2.1
  ⟨warnings_untold, h.code, h.isWaiting⟩

/-- The detail of a warning is written although no details are to be shown, so that the output gives
away which one it was. -/
theorem warning_told_in_full :
    let o := run (fun _ => none) quietStore (warningDialer "Alice") []
    let o' := run (fun _ => none) quietStore (warningDialer "Bob") []
    plan? (fun _ => none) quietStore [] = some ({}, quietConfig) ∧
      Untold (fun _ => none) quietStore [] (warningDialer "Alice") (warningDialer "Bob") ∧
      "  Detail: Alice" ∈ o.output ∧ "  Detail: Bob" ∈ o'.output ∧ o'.output ≠ o.output := by
  have halice : writtenAtEnd (fun _ => none) quietStore [] (warningDialer "Alice") =
      ["WARN WARNING: m", "  Detail: Alice", "  Server SQLState: 01000"] := by
    decide +kernel
  have hbob : writtenAtEnd (fun _ => none) quietStore [] (warningDialer "Bob") =
      ["WARN WARNING: m", "  Detail: Bob", "  Server SQLState: 01000"] := by
    decide +kernel
  have hdiffer := run_differ warnings_untold
  rw [halice, hbob] at hdiffer
  obtain ⟨before, after, ho, ho'⟩ := hdiffer.output
  refine ⟨quiet_plan, warnings_untold, ?_, ?_, ?_⟩
  · rw [ho]
    simp
  · rw [ho']
    simp
  · rw [Ne, hdiffer.output_eq_iff]
    decide

end Program

end PgClient
