import PgClient.Proofs.CallTasks
import PgClient.Proofs.Causes

/-!
# What is gathered for others

Warnings and notifications are queued for whoever wants to take them, and whoever it is may come
at any time, also while a call is under way. So the calls are cut into the steps between which
that is possible (`Call.task`): reading a message is a step of its own, and what is made of it is
the next one. Made one after the other, the steps are the call (`Call.task_agrees`).

What a step may do is then one of three things (`Owes`). Most do nothing to the queues. One that
reads a message owes it to those who gather, and the step after pays what is owed, even if it
fails. A task is sound if its steps follow one another like this (`Task.Sound`); nothing in that
depends on what others do at the seams. The queues, what was taken from them, and what is owed
are therefore together what was received, in order, at every moment of every run.
-/

namespace PgClient

open Exchange

/-! ## What is gathered -/

/-- What others may take. -/
@[ext]
structure Takings where
  warnings : List Report
  notifications : List Notification

namespace Takings

instance : Append Takings where
  append a b := ⟨a.warnings ++ b.warnings, a.notifications ++ b.notifications⟩

theorem append_assoc (a b c : Takings) : a ++ b ++ c = a ++ (b ++ c) :=
  Takings.ext (List.append_assoc ..) (List.append_assoc ..)

/-- What is to be gathered of messages. -/
def ofMessages (ms : List BackendMessage) : Takings where
  warnings := ms.filterMap BackendMessage.notice?
  notifications := ms.filterMap BackendMessage.notification?

theorem ofMessages_append (ms ms' : List BackendMessage) :
    ofMessages (ms ++ ms') = ofMessages ms ++ ofMessages ms' :=
  Takings.ext List.filterMap_append List.filterMap_append

theorem append_nil (a : Takings) : a ++ ofMessages [] = a :=
  Takings.ext (List.append_nil _) (List.append_nil _)

end Takings

/-- What has been gathered and was not taken. -/
def Status.takings (s : Status) : Takings where
  warnings := s.warnings
  notifications := s.notifications

namespace Session

/-- No message was heard, and nothing was gathered. -/
structure Deaf (s : Session) (_ : Option Halt) (s' : Session) : Prop where
  history : ∃ events, s'.history = s.history ++ events ∧ events.filterMap Event.message? = []
  gathered : s'.status.takings = s.status.takings

theorem deaf_composes : Composes Deaf where
  refl s := ⟨⟨[], (List.append_nil _).symm, rfl⟩, rfl⟩
  trans := by
    rintro s t u h ⟨⟨es, hes, hnone⟩, hst⟩ ⟨⟨fs, hfs, hnone'⟩, htu⟩
    refine ⟨⟨es ++ fs, ?_, ?_⟩, htu.trans hst⟩
    · rw [hfs, hes, List.append_assoc]
    · rw [List.filterMap_append, hnone, hnone']
      rfl

theorem deaf_of_same {s s' : Session} {h : Option Halt} (hchannel : s'.channel = s.channel)
    (hgathered : s'.status.takings = s.status.takings) : Deaf s h s' := by
  refine ⟨⟨[], ?_, rfl⟩, hgathered⟩
  rw [history, hchannel, List.append_nil]
  rfl

theorem deaf_of_keeps {s s' : Session} {h : Option Halt} (hkeeps : s.channel.Keeps s'.channel)
    (hgathered : s'.status.takings = s.status.takings) : Deaf s h s' := by
  obtain ⟨events, hevents, haside⟩ := hkeeps.history
  exact ⟨⟨events, hevents, filterMap_message?_of_isAside haside⟩, hgathered⟩

theorem onChannel_deaf {α : Type} {x : Exchange Channel α}
    (hx : Obeys (fun c _ c' => c.Keeps c') x) : Obeys Deaf (onChannel x) :=
  hx.zoom fun _ _ _ hkeeps => deaf_of_keeps hkeeps rfl

theorem record_deaf {event : Event} (h : event.isAside = true) : Obeys Deaf (record event) :=
  onChannel_deaf fun c => c.told_keeps h

theorem fail_deaf {α : Type} (e : Error) : Obeys Deaf (fail e : Exchange Session α) :=
  fun _ => deaf_of_same rfl rfl

theorem attempt_deaf {α : Type} {x : Exchange Session α} (hx : Obeys Deaf x) :
    Obeys Deaf x.attempt := by
  intro s
  rw [final_attempt]
  exact ⟨(hx s).history, (hx s).gathered⟩

theorem deaf_endures : Endures (Obeys Deaf) where
  toAssembles := assembles_of_composes deaf_composes
  told _ h := record_deaf h
  sends _ := onChannel_deaf fun _ => .of_journal rfl rfl
  flushes := attempt_deaf (onChannel_deaf Channel.flush_keeps)
  shuts := attempt_deaf (onChannel_deaf Channel.close_keeps)
  marks how s :=
    have haside : (Event.disconnected how s.party).isAside = true := rfl
    deaf_of_keeps (s.channel.told_keeps haside) rfl

theorem checkFatal_deaf {α : Type} (result : Except Error α) : Obeys Deaf (checkFatal result) :=
  deaf_endures.toAssembles.checkFatal (fun _ h => record_deaf h) deaf_endures.abort result

theorem deaf_governs : Governs (Obeys Deaf) where
  toAssembles := assembles_of_composes deaf_composes
  told _ h := record_deaf h
  recodes charset s := by
    have haside : (Event.charsetSet s.channel.host charset).isAside = true := rfl
    have hkeeps := s.channel.told_keeps haside
    exact deaf_of_keeps ⟨hkeeps.unread, hkeeps.history⟩ rfl
  sets _ h s := by
    rw [modify_apply, final_ok, h.settings s]
    exact deaf_of_same rfl rfl
  leaves _ := deaf_composes.bind deaf_endures.close fun _ => fail_deaf _
  fails e _ := fail_deaf e

theorem onParameter_deaf (name value : String) : Obeys Deaf (onParameter name value) :=
  onParameter_obeys deaf_governs (fun {_ _ _ _} h => ⟨h.history, h.gathered⟩) name value

theorem onReady_deaf (status : UInt8) : Obeys Deaf (onReady status) := by
  unfold onReady
  simp only []
  split <;> exact fun _ => deaf_of_same rfl rfl

theorem onError_deaf (report : Report) : Obeys Deaf (onError report) := by
  intro s
  rw [Conversation.onError_apply]
  exact deaf_of_same rfl rfl

theorem discard_deaf {α : Type} {x : Exchange Session α} (hx : Obeys Deaf x) :
    Obeys Deaf (discard x) :=
  deaf_composes.bind hx fun _ => deaf_composes.pure ()

theorem lift_deaf {α : Type} (result : Except Error α) :
    Obeys Deaf (lift result : Exchange Session α) := by
  cases result with
  | ok a => exact deaf_composes.pure a
  | error e => exact fail_deaf e

theorem borrowStatement_deaf (key : StatementKey) : Obeys Deaf (borrowStatement key) := by
  intro s
  rw [World.borrowStatement_apply]
  cases s.statements.get? key with
  | some st => exact deaf_of_same rfl rfl
  | none => exact lift_deaf _ s

theorem releaseStatement_deaf (statement : Statement) :
    Obeys Deaf (releaseStatement statement) := by
  intro s
  rcases hput : s.statements.put statement.key statement with ⟨given, statements⟩
  obtain ⟨journal, asides, hrun, hhistory, haside⟩ := World.releaseStatement_apply hput
  rw [hrun]
  exact ⟨⟨asides, hhistory, filterMap_message?_of_isAside haside⟩, rfl⟩

theorem Sends.deaf {st : Statement} {parameters : List (Option Bytes)} {s : Session}
    {r : EStateM.Result Halt Session (Option String)} (h : Sends st parameters s r) :
    Deaf s none (final r) := by
  refine ⟨h.prepares.history, ?_⟩
  cases h <;> rfl

/-! ### What a step makes of a message -/

/-- A step of a call. A message that was heard is owed to those who gather until the step after. -/
inductive Owes (s : Session) : Option BackendMessage → Session → Option BackendMessage → Prop where
  | idles {s' : Session} (hdeaf : Deaf s none s') : Owes s none s' none
  | hears {m : BackendMessage} {s' : Session} (hhistory : ∃ events,
        s'.history = s.history ++ events ∧ events.filterMap Event.message? = [m])
      (hgathered : s'.status.takings = s.status.takings) : Owes s none s' (some m)
  | heeds {m : BackendMessage} {s' : Session} (hhistory : ∃ events,
        s'.history = s.history ++ events ∧ events.filterMap Event.message? = [])
      (hgathered : s'.status.takings = s.status.takings ++ .ofMessages [m]) :
      Owes s (some m) s' none

variable {s s' : Session} {m : BackendMessage} {h : Option Halt}

theorem Deaf.owes (hdeaf : Deaf s h s') : Owes s none s' none :=
  .idles ⟨hdeaf.history, hdeaf.gathered⟩

/-- Most messages are not for others. -/
theorem Deaf.heeds (hdeaf : Deaf s h s') (hm : Takings.ofMessages [m] = .ofMessages []) :
    Owes s (some m) s' none :=
  .heeds hdeaf.history (by rw [hm, Takings.append_nil]; exact hdeaf.gathered)

theorem receive_owes {phase : Phase} (hphase : phase ≠ .login) :
    match receive phase s with
    | .ok m s' => phase.accepts m.tag = true ∧ Owes s none s' (some m)
    | .error _ s' => Owes s none s' none := by
  cases hr : receive phase s with
  | ok m s' =>
      have hreads := receive_reads hphase hr
      have hreceives := hreads.receives
      refine ⟨hreads.accepts, .hears ⟨_, hreceives.history, rfl⟩ ?_⟩
      rw [← hreceives.others]
  | error halt s' =>
      have hlearns := (receive_unheard hr).1
      rw [receive_apply] at hr
      obtain ⟨c, -, rfl⟩ := onChannel_error hr
      exact .idles ⟨hlearns.history, rfl⟩

theorem announce_owes (haccept : Phase.startup.accepts m.tag = true) (s : Session) :
    Owes s (some m) (final (announce m s)) none := by
  cases m with
  | readyForQuery status =>
      exact (deaf_composes.bind (onReady_deaf status) (fun _ => deaf_composes.pure _) s).heeds rfl
  | errorResponse report =>
      exact (deaf_composes.bind (onError_deaf report) (fun _ => fail_deaf _) s).heeds rfl
  | noticeResponse report =>
      exact .heeds ⟨[], (List.append_nil _).symm, rfl⟩
        (Takings.ext rfl (List.append_nil _).symm)
  | parameterStatus name value =>
      exact (deaf_composes.bind (onParameter_deaf name value)
        (fun _ => deaf_composes.pure _) s).heeds rfl
  | notificationResponse notification => cases haccept
  | _ => exact Deaf.heeds (h := none) (deaf_of_same rfl rfl) rfl

theorem takeIdle_owes (m : BackendMessage) (s : Session) :
    Owes s (some m) (final (takeIdle m s)) none := by
  cases m with
  | errorResponse report =>
      exact (deaf_composes.bind (onError_deaf report) (fun _ => fail_deaf _) s).heeds rfl
  | noticeResponse report =>
      exact .heeds ⟨[], (List.append_nil _).symm, rfl⟩
        (Takings.ext rfl (List.append_nil _).symm)
  | notificationResponse notification =>
      exact .heeds ⟨[], (List.append_nil _).symm, rfl⟩
        (Takings.ext (List.append_nil _).symm rfl)
  | parameterStatus name value => exact (onParameter_deaf name value s).heeds rfl
  | _ => exact Deaf.heeds (h := none) (deaf_of_same rfl rfl) rfl

namespace Conversation

theorem onReport_deaf (report : Report) :
    Obeys (fun c h c' => Deaf c.session h c'.session) (onReport report) := by
  have hR := composes_session deaf_composes
  have hkeeps : ∀ {α : Type} (x : Exchange Conversation α),
      (∀ c, (final (x c)).session.channel = c.session.channel ∧
        (final (x c)).session.status = c.session.status) →
      Obeys (fun c h c' => Deaf c.session h c'.session) x :=
    fun x hx c => deaf_of_same (hx c).1 (by rw [(hx c).2])
  refine hR.bind (onSession_obeys (onError_deaf report)) fun e => ?_
  split
  · refine hR.bind hR.get fun c => ?_
    split <;> exact hkeeps _ fun _ => ⟨rfl, rfl⟩
  · exact hkeeps _ fun _ => ⟨rfl, rfl⟩

theorem forgetStatements_deaf : Obeys Deaf forgetStatements := by
  intro s
  rw [forgetStatements_apply]
  split
  · have haside : (Event.statementsDropped s.party).isAside = true := rfl
    have hkeeps := s.channel.told_keeps haside
    exact deaf_of_keeps hkeeps rfl
  · exact deaf_of_same rfl rfl

theorem take_owes (m : BackendMessage) (c : Conversation) :
    Owes c.session (some m) (final (take m c)).session none := by
  have hR := composes_session deaf_composes
  have hsame : ∀ {c' : Conversation}, c'.session = c.session →
      Takings.ofMessages [m] = .ofMessages [] → Owes c.session (some m) c'.session none :=
    fun hc' hm => (deaf_of_same (h := none) (by rw [hc']) (by rw [hc'])).heeds hm
  cases m with
  | readyForQuery status =>
      exact (hR.bind (onSession_obeys (onReady_deaf status)) (fun _ => hR.pure true) c).heeds rfl
  | parseComplete =>
      rw [show take .parseComplete c = _ from bind_of_ok (onParsed_apply c)]
      exact hsame rfl rfl
  | commandComplete tag =>
      unfold take
      simp only []
      split
      · exact (hR.bind (onSession_obeys forgetStatements_deaf)
          (fun _ _ => deaf_of_same rfl rfl) c).heeds rfl
      · exact hsame rfl rfl
  | errorResponse report =>
      exact (hR.bind (onReport_deaf report) (fun _ => hR.pure false) c).heeds rfl
  | noticeResponse report =>
      exact .heeds ⟨[], (List.append_nil _).symm, rfl⟩
        (Takings.ext rfl (List.append_nil _).symm)
  | notificationResponse notification =>
      exact .heeds ⟨[], (List.append_nil _).symm, rfl⟩
        (Takings.ext (List.append_nil _).symm rfl)
  | parameterStatus name value =>
      exact (hR.bind (onSession_obeys (onParameter_deaf name value))
        (fun _ => hR.pure false) c).heeds rfl
  | _ => exact hsame rfl rfl

end Conversation

end Session

/-! ### Whole calls -/

namespace Task

variable {σ α β : Type} {view : σ → Session}

/-- Every step of a task is one of a call, and nothing is owed once it is over, wherever it ends
and whatever was done to the session at its seams. -/
def Sound (view : σ → Session) : Task σ α → Option BackendMessage → Prop
  | done _, owed => owed = none
  | step x next, owed => ∀ t, match x t with
    | .ok b t' => ∃ owed', (view t).Owes owed (view t') owed' ∧ (next b).Sound view owed'
    | .error _ t' => (view t).Owes owed (view t') none

variable {owed : Option BackendMessage}

theorem sound_once {x : Exchange σ α}
    (hx : ∀ t, (view t).Owes owed (view (final (x t))) none) : (once x).Sound view owed := by
  intro t
  have howes := hx t
  cases hr : x t with
  | ok a t' =>
      rw [hr] at howes
      exact ⟨none, howes, rfl⟩
  | error halt t' =>
      rw [hr] at howes
      exact howes

theorem sound_step {x : Exchange σ β} {next : β → Task σ α}
    (hx : ∀ t, (view t).Owes owed (view (final (x t))) none)
    (hnext : ∀ b, (next b).Sound view none) : (step x next).Sound view owed := by
  intro t
  have howes := hx t
  cases hr : x t with
  | ok b t' =>
      rw [hr] at howes
      exact ⟨none, howes, hnext b⟩
  | error halt t' =>
      rw [hr] at howes
      exact howes

theorem Sound.bind {t : Task σ α} {f : α → Task σ β} (ht : t.Sound view owed)
    (hf : ∀ a, (f a).Sound view none) : (t.bind f).Sound view owed := by
  induction t generalizing owed with
  | done a =>
      cases ht
      exact hf a
  | step x next ih =>
      intro t
      have hstep := ht t
      cases hr : x t with
      | ok b t' =>
          rw [hr] at hstep
          obtain ⟨owed', howes, hnext⟩ := hstep
          exact ⟨owed', howes, ih b hnext⟩
      | error halt t' =>
          rw [hr] at hstep
          exact hstep

theorem Sound.attempt {t : Task σ α} (ht : t.Sound view owed) : t.attempt.Sound view owed := by
  induction t generalizing owed with
  | done a => exact ht
  | step x next ih =>
      rw [Task.attempt]
      intro t
      have hstep := ht t
      rw [attempt_apply]
      cases hr : x t with
      | ok b t' =>
          rw [hr] at hstep
          obtain ⟨owed', howes, hnext⟩ := hstep
          exact ⟨owed', howes, ih b hnext⟩
      | error halt t' =>
          rw [hr] at hstep
          cases halt with
          | failed e => exact ⟨none, hstep, rfl⟩
          | waiting => exact hstep

theorem Sound.loop {exhausted : Exchange σ Unit} {round : Task σ Bool}
    (hexhausted : (once exhausted).Sound view none) (hround : round.Sound view none) (n : Nat) :
    (loop exhausted round n).Sound view none := by
  induction n with
  | zero => exact hexhausted
  | succ n ih =>
      refine hround.bind fun last => ?_
      cases last with
      | true => rfl
      | false => exact ih

theorem Sound.zoom {τ : Type} {part : τ → σ} {update : σ → τ → τ}
    (hpart : ∀ s c, part (update s c) = s) {t : Task σ α} (ht : t.Sound view owed) :
    (t.zoom part update).Sound (fun c => view (part c)) owed := by
  induction t generalizing owed with
  | done a => exact ht
  | step x next ih =>
      intro c
      have hstep := ht (part c)
      simp only [zoom_apply]
      cases hr : x (part c) with
      | ok b s =>
          rw [hr] at hstep
          obtain ⟨owed', howes, hnext⟩ := hstep
          refine ⟨owed', ?_, ih b hnext⟩
          simp only [hpart]
          exact howes
      | error halt s =>
          rw [hr] at hstep
          simp only [hpart]
          exact hstep

end Task

namespace Session

theorem deaf_sound {α : Type} {x : Exchange Session α} (hx : Obeys Deaf x) :
    (Task.once x).Sound id none :=
  Task.sound_once fun s => (hx s).owes

/-- A message of a phase is heard, if one is. -/
def Catches (phase : Phase) (x : Exchange Session BackendMessage) : Prop :=
  ∀ s, match x s with
    | .ok m s' => phase.accepts m.tag = true ∧ Owes s none s' (some m)
    | .error _ s' => Owes s none s' none

theorem receive_catches {phase : Phase} (hphase : phase ≠ .login) : Catches phase (receive phase) :=
  fun _ => receive_owes hphase

theorem deaf_of_reading {s : Session} {h : Option Halt} {c : Channel}
    (hr : Channel.Reading s.channel h c) : Deaf s none { s with channel := c } := by
  obtain ⟨octets, hoff⟩ := hr.reads
  refine ⟨⟨[], ?_, rfl⟩, rfl⟩
  rw [List.append_nil]
  exact congrArg Array.toList hoff.journal

theorem receiveAfter_catches (octet : UInt8) :
    Catches .idle
      (do onChannel (Channel.receiveAfter .idle octet (← get).options.showErrorDetail)) := by
  intro s
  rw [bind_of_ok (get_apply s), onChannel_apply]
  cases hc : Channel.receiveAfter .idle octet s.options.showErrorDetail s.channel with
  | error halt c => exact (deaf_of_reading (Channel.receiveAfter_error (by decide) hc)).owes
  | ok m c =>
      obtain ⟨haccepts, hm⟩ := receives_of_receiveAfter (by decide) hc
      refine ⟨haccepts, .hears ⟨_, hm.history, rfl⟩ ?_⟩
      rw [← hm.others]

/-- A message is read, and then something is made of it. -/
theorem Catches.sound {α : Type} {phase : Phase} {x : Exchange Session BackendMessage}
    (hx : Catches phase x) {next : BackendMessage → Task Session α}
    (hnext : ∀ m, phase.accepts m.tag = true → (next m).Sound id (some m)) :
    (Task.step x next).Sound id none := by
  intro s
  have howes := hx s
  cases hr : x s with
  | ok m s' =>
      rw [hr] at howes
      exact ⟨some m, howes.2, hnext m howes.1⟩
  | error halt s' =>
      rw [hr] at howes
      exact howes

theorem announcing_sound : announcing.Sound id none :=
  (receive_catches (show Phase.startup ≠ .login by decide)).sound fun _ haccept =>
    Task.sound_once (announce_owes haccept)

theorem beginning_sound : beginning.Sound id none := by
  have hloop := Task.Sound.loop (deaf_sound (fail_deaf (.protocolViolation .sessionSetup)))
    announcing_sound maxStartupMessages
  refine hloop.attempt.bind fun result => ?_
  cases result with
  | ok _ =>
      exact deaf_sound (deaf_composes.bind deaf_composes.get fun s => deaf_composes.bind
        deaf_composes.get fun _ => record_deaf rfl)
  | error e =>
      exact Task.sound_step (fun s => (deaf_endures.abort s).owes)
        fun _ => deaf_sound (fail_deaf e)

theorem noticing_sound (wait : Nat) : (noticing wait).Sound id none := by
  have hawait : Obeys Deaf (onChannel (Channel.awaitOctet wait)) :=
    (Channel.awaitOctet_reading wait).zoom fun _ _ _ hr =>
      ⟨(deaf_of_reading hr).history, (deaf_of_reading hr).gathered⟩
  refine Task.sound_step (fun s => (hawait s).owes) fun octet => ?_
  cases octet with
  | none => rfl
  | some octet =>
      exact (receiveAfter_catches octet).sound fun m _ =>
        Task.sound_step (takeIdle_owes m) fun _ => rfl

theorem takingNotices_sound (wait : Option Nat) : (takingNotices wait).Sound id none := by
  have hget : Obeys Deaf (get : Exchange Session Session) := deaf_composes.get
  refine Task.sound_step (fun s => (deaf_composes.bind hget (fun s => ?_) s).owes) fun _ =>
    Task.sound_step (fun s => (hget s).owes) fun s => ?_
  · split
    · exact fail_deaf _
    · exact deaf_composes.pure ()
  · split
    · rfl
    · refine Task.sound_step (fun s => (hget s).owes) fun s => ?_
      have hloop := Task.Sound.loop (deaf_sound (deaf_composes.pure ()))
        (noticing_sound (wait.getD 0)) (s.channel.unread.length + 1)
      exact hloop.attempt.bind fun result =>
        deaf_sound (deaf_composes.bind (checkFatal_deaf result) fun _ => lift_deaf result)

namespace Conversation

theorem onSession_sound {α : Type} {x : Exchange Session α} (hx : Obeys Deaf x) (c : Conversation) :
    c.session.Owes none (final (onSession x c)).session none :=
  (onSession_obeys hx c : Deaf c.session _ _).owes

theorem taking_sound : taking.Sound session none := by
  intro c
  have hcatches := receive_catches (show Phase.reply ≠ .login by decide) c.session
  rw [onSession_apply]
  cases hr : receive .reply c.session with
  | ok m s =>
      rw [hr] at hcatches
      exact ⟨some m, hcatches.2, Task.sound_once (take_owes m)⟩
  | error halt s =>
      rw [hr] at hcatches
      exact hcatches

theorem same_owes {c c' : Conversation} (h : c'.session = c.session) :
    c.session.Owes none c'.session none :=
  (deaf_of_same (h := none) (by rw [h]) (by rw [h])).owes

theorem reading_sound : reading.Sound session none := by
  refine Task.sound_step (fun c => same_owes rfl) fun c => ?_
  have hwaiting : (Task.once (throw .waiting) : Task Conversation Unit).Sound session none :=
    Task.sound_once fun c => same_owes rfl
  refine (Task.Sound.loop hwaiting taking_sound _).bind fun _ =>
    Task.sound_once fun c => same_owes ?_
  have hdeliver : deliver .completed c =
      .ok () { c with deliveries := c.deliveries.push .completed } := rfl
  rw [bind_of_ok hdeliver, bind_of_ok (get_apply _)]
  cases c.firstError <;> rfl

theorem conversing_sound {request : Task Conversation Unit} (h : request.Sound session none) :
    (conversing request).Sound session none :=
  h.attempt.bind fun result => Task.sound_once (onSession_sound (checkFatal_deaf result))

theorem querying_sound (sql : String) : (querying sql).Sound session none := by
  refine Task.sound_step (fun c => same_owes rfl) fun c => ?_
  split
  · rfl
  · split
    · rfl
    · refine Task.sound_step (onSession_sound (deaf_composes.bind (record_deaf rfl) fun _ =>
        deaf_endures.sends _)) fun _ => conversing_sound ?_
      exact Task.sound_step (onSession_sound (onChannel_deaf Channel.flush_keeps))
        fun _ => reading_sound

theorem executing_sound (statement : Statement) (parameters : List (Option Bytes)) :
    (executing statement parameters).Sound session none := by
  refine Task.sound_step (fun c => same_owes rfl) fun c => ?_
  split
  · rfl
  · refine Task.sound_step (fun c => same_owes rfl) fun _ => conversing_sound ?_
    refine Task.sound_step (fun c => ?_) fun preparing =>
      Task.sound_step (fun c => same_owes rfl) fun _ => reading_sound
    rw [final_onSession]
    exact (sendStatement_sends _ parameters c.session).deaf.owes

end Conversation

theorem Call.task_sound (call : Call) : call.task.Sound Conversation.session none := by
  cases call with
  | begin => exact beginning_sound.zoom fun _ _ => rfl
  | takeNotices wait => exact (takingNotices_sound wait).zoom fun _ _ => rfl
  | query sql => exact Conversation.querying_sound sql
  | execute statement parameters => exact Conversation.executing_sound statement parameters
  | close => exact Task.sound_once (Conversation.onSession_sound deaf_endures.close)
  | abort => exact Task.sound_once (Conversation.onSession_sound deaf_endures.abort)
  | borrow key =>
      exact Task.sound_once (Conversation.onSession_sound (discard_deaf (borrowStatement_deaf key)))
  | create key => exact Task.sound_once (Conversation.onSession_sound (discard_deaf (lift_deaf _)))
  | release statement =>
      exact Task.sound_once (Conversation.onSession_sound (releaseStatement_deaf statement))

end Session

/-! ## Others come in -/

/-- A session that others have access to: the call that is under way, if there is one, and what
the others came by, each time they took something. -/
structure Scene where
  conversation : Session.Conversation
  task : Option (Task Session.Conversation Unit) := none
  warnings : List (List Report) := []
  notifications : List (List Notification) := []

/-- What happens next. -/
inductive Move where
  | call (call : Session.Call)
  /-- The call under way makes a step. -/
  | work
  /-- More octets are about to arrive, and the socket is about to fail otherwise. -/
  | arrive (octets : Bytes) (ended : Bool) (faults : Faults)
  | takeWarnings
  | takeNotifications

namespace Scene

/-- A session that nobody did anything with. -/
def of (session : Session) : Scene :=
  { conversation := { session } }

def session (v : Scene) : Session :=
  v.conversation.session

/-- The same with another status. -/
def withStatus (v : Scene) (status : Status) : Scene :=
  { v with conversation := { v.conversation with session := { v.session with status } } }

/-- The call makes a step. One that cannot be made is the last one of its call. -/
def work (v : Scene) : Scene :=
  match v.task with
  | none => v
  | some (.done _) => { v with task := none }
  | some (.step x next) =>
    match x v.conversation with
    | .ok b c => { v with conversation := c, task := some (next b) }
    | .error _ c => { v with conversation := c, task := none }

/-- A call begins once the one before it is over; everything else may happen at any time. -/
def move (v : Scene) : Move → Scene
  | .call call =>
    match v.task with
    | none => { v with conversation := { session := v.session }, task := some call.task }
    | some _ => v
  | .work => v.work
  | .arrive octets ended faults =>
    let channel := v.session.channel
    let socket := { channel.socket with
      inbound := channel.socket.inbound ++ octets, ended, faults }
    let session := { v.session with channel := { channel with socket } }
    { v with conversation := { v.conversation with session } }
  | .takeWarnings =>
    let (taken, status) := v.session.status.takeWarnings
    { v.withStatus status with warnings := v.warnings ++ [taken] }
  | .takeNotifications =>
    let (taken, status) := v.session.status.takeNotifications
    { v.withStatus status with notifications := v.notifications ++ [taken] }

def run (v : Scene) (moves : List Move) : Scene :=
  moves.foldl move v

/-- Nobody comes in while a call makes its steps: this is how it ends. -/
theorem works_through (t : Task Session.Conversation Unit) (v : Scene) :
    ∃ n, ({ v with task := some t } : Scene).run (List.replicate n .work) =
      { v with conversation := final (t.run v.conversation), task := none } := by
  induction t generalizing v with
  | done a => exact ⟨1, rfl⟩
  | step x next ih =>
      have hwork : ({ v with task := some (.step x next) } : Scene).work =
          match x v.conversation with
          | .ok b c => { v with conversation := c, task := some (next b) }
          | .error _ c => { v with conversation := c, task := none } := rfl
      have hrun : (Task.step x next).run v.conversation =
          (x >>= fun b => (next b).run) v.conversation := rfl
      rw [hrun, bind_apply]
      cases hr : x v.conversation with
      | ok b c =>
          rw [hr] at hwork
          obtain ⟨n, hn⟩ := ih b { v with conversation := c }
          exact ⟨n + 1, (congrArg (run · (List.replicate n .work)) hwork).trans hn⟩
      | error halt c =>
          rw [hr] at hwork
          exact ⟨1, hwork⟩

/-- A call that others do not come in on does to the session what it always does. -/
theorem performs (call : Session.Call) (s : Session) :
    ∃ n, let v := (of s).run (.call call :: List.replicate n .work)
      v.task = none ∧ v.session = final (call.perform s) := by
  obtain ⟨n, hn⟩ := works_through call.task (of s)
  have hrun : (of s).run (.call call :: List.replicate n .work) =
      ({ of s with task := some call.task } : Scene).run (List.replicate n .work) := rfl
  refine ⟨n, ?_⟩
  rw [hrun, hn]
  exact ⟨rfl, (call.task_agrees s).2⟩

/-! ### What was taken and what is left -/

/-- What others came by so far. -/
def taken (v : Scene) : Takings where
  warnings := v.warnings.flatten
  notifications := v.notifications.flatten

/-- What was taken and what is left, except for what is owed, is all there was to be gathered. -/
structure Balanced (s : Session) (v : Scene) (owed : Option BackendMessage) : Prop where
  balance : ∃ events, v.session.history = s.history ++ events ∧
    owed.toList <:+ events.filterMap Event.message? ∧
    v.taken ++ v.session.status.takings ++ .ofMessages owed.toList =
      s.status.takings ++ .ofMessages (events.filterMap Event.message?)
  task : v.task.elim (owed = none) fun t => t.Sound Session.Conversation.session owed

variable {s : Session} {v : Scene} {owed : Option BackendMessage}

theorem balanced_of (s : Session) : Balanced s (of s) none where
  balance := ⟨[], (List.append_nil _).symm, List.suffix_rfl, rfl⟩
  task := rfl

/-- What others do changes nothing about it. -/
theorem Balanced.of_same {w : Scene} (h : Balanced s v owed)
    (hhistory : w.session.history = v.session.history) (htask : w.task = v.task)
    (hgathered : w.taken ++ w.session.status.takings = v.taken ++ v.session.status.takings) :
    Balanced s w owed where
  balance := by rw [hhistory, hgathered]; exact h.balance
  task := by rw [htask]; exact h.task

/-- Nor does a step of the call, and what was owed is not any longer. -/
theorem Balanced.owes {w : Scene} {owed' : Option BackendMessage} (h : Balanced s v owed)
    (hstep : v.session.Owes owed w.session owed') (htaken : w.taken = v.taken)
    (htask : w.task.elim (owed' = none) fun t => t.Sound Session.Conversation.session owed') :
    Balanced s w owed' := by
  obtain ⟨events, hevents, -, hbalance⟩ := h.balance
  have hlonger : ∀ {more : List Event}, w.session.history = v.session.history ++ more →
      w.session.history = s.history ++ (events ++ more) := fun hmore => by
    rw [hmore, hevents, List.append_assoc]
  refine ⟨?_, htask⟩
  rw [htaken]
  cases hstep with
  | idles hdeaf =>
      obtain ⟨more, hmore, hnone⟩ := hdeaf.history
      refine ⟨events ++ more, hlonger hmore, List.nil_suffix, ?_⟩
      rw [List.filterMap_append, hnone, List.append_nil, hdeaf.gathered]
      exact hbalance
  | hears hhistory hgathered =>
      obtain ⟨more, hmore, hone⟩ := hhistory
      refine ⟨events ++ more, hlonger hmore, ?_, ?_⟩ <;> rw [List.filterMap_append, hone]
      · exact List.suffix_append ..
      · rw [hgathered, Takings.ofMessages_append, ← Takings.append_assoc, ← hbalance]
        exact congrArg (· ++ _) (Takings.append_nil _).symm
  | heeds hhistory hgathered =>
      obtain ⟨more, hmore, hnone⟩ := hhistory
      refine ⟨events ++ more, hlonger hmore, List.nil_suffix, ?_⟩
      rw [List.filterMap_append, hnone, List.append_nil, hgathered, ← hbalance,
        ← Takings.append_assoc]
      exact Takings.append_nil _

theorem Balanced.work (h : Balanced s v owed) :
    ∃ owed', Balanced s v.work owed' ∧ (owed.isSome = true → owed' = none) := by
  have htask := h.task
  unfold Scene.work
  cases hv : v.task with
  | none =>
      rw [hv] at htask
      exact ⟨owed, h, fun _ => htask⟩
  | some t =>
      rw [hv] at htask
      cases t with
      | done a =>
          exact ⟨owed, ⟨h.balance, htask⟩, fun _ => htask⟩
      | step x next =>
          have hstep := htask v.conversation
          simp only []
          cases hr : x v.conversation with
          | ok b c =>
              rw [hr] at hstep
              obtain ⟨owed', howes, hnext⟩ := hstep
              refine ⟨owed', h.owes howes rfl hnext, fun hsome => ?_⟩
              cases howes with
              | heeds => rfl
              | idles | hears => cases hsome
          | error halt c =>
              rw [hr] at hstep
              exact ⟨none, h.owes hstep rfl rfl, fun _ => rfl⟩

theorem Balanced.move (h : Balanced s v owed) (move : Move) :
    ∃ owed', Balanced s (v.move move) owed' := by
  cases move with
  | call call =>
      have htask := h.task
      unfold Scene.move
      cases hv : v.task with
      | some t => exact ⟨owed, h⟩
      | none =>
          rw [hv] at htask
          cases htask
          exact ⟨none, h.balance, call.task_sound⟩
  | work =>
      obtain ⟨owed', h', -⟩ := h.work
      exact ⟨owed', h'⟩
  | arrive octets ended faults => exact ⟨owed, h.of_same rfl rfl rfl⟩
  | takeWarnings =>
      refine ⟨owed, h.of_same rfl rfl (Takings.ext ?_ rfl)⟩
      show (v.warnings ++ [v.session.status.warnings]).flatten ++ [] = _
      rw [List.flatten_concat, List.append_nil]
      rfl
  | takeNotifications =>
      refine ⟨owed, h.of_same rfl rfl (Takings.ext rfl ?_)⟩
      show (v.notifications ++ [v.session.status.notifications]).flatten ++ [] = _
      rw [List.flatten_concat, List.append_nil]
      rfl

theorem run_balanced (moves : List Move) (h : Balanced s v owed) :
    ∃ owed', Balanced s (v.run moves) owed' := by
  induction moves generalizing v owed with
  | nil => exact ⟨owed, h⟩
  | cons move moves ih =>
      obtain ⟨owed', h'⟩ := h.move move
      exact ih h'

/-- What others came by, and then what is left for them, is what there was to be gathered from the
first moment on; what is owed may be missing. -/
structure Complete (s : Session) (v : Scene) (owed : List BackendMessage) : Prop where
  warnings : v.warnings.flatten ++ v.session.status.warnings ++
      owed.filterMap BackendMessage.notice? =
    s.status.warnings ++ (s.heard v.session).filterMap BackendMessage.notice?
  notifications : v.notifications.flatten ++ v.session.status.notifications ++
      owed.filterMap BackendMessage.notification? =
    s.status.notifications ++ (s.heard v.session).filterMap BackendMessage.notification?

theorem Balanced.complete (h : Balanced s v owed) :
    Complete s v owed.toList ∧ owed.toList <:+ s.heard v.session := by
  obtain ⟨events, hevents, hlast, hbalance⟩ := h.balance
  have hheard : s.heard v.session = events.filterMap Event.message? := by
    unfold Session.heard
    rw [hevents, List.drop_left]
  rw [← hheard] at hlast hbalance
  exact ⟨⟨congrArg Takings.warnings hbalance, congrArg Takings.notifications hbalance⟩, hlast⟩

/-- No warning and no notification is lost, taken twice, or taken out of order, whoever takes them
and whenever it is, and whether or not the call that received them comes to a good end. Between
calls that is all there is to say. Within a call the message received last may be missing, and
the next step of the call makes up for it. -/
theorem gathered_exactly_once (s : Session) (moves : List Move) :
    let v := (of s).run moves
    (v.task = none → Complete s v []) ∧
      (Complete s v [] ∨ ∃ m, (s.heard v.session).getLast? = some m ∧ Complete s v [m] ∧
        Complete s v.work []) := by
  obtain ⟨owed, h⟩ := run_balanced moves (balanced_of s)
  obtain ⟨owed', hwork, hpaid⟩ := h.work
  have hcomplete := h.complete
  refine ⟨fun htask => ?_, ?_⟩
  · have howed := h.task
    rw [htask] at howed
    cases howed
    exact hcomplete.1
  · cases owed with
    | none => exact .inl hcomplete.1
    | some m =>
        cases hpaid rfl
        obtain ⟨before, hbefore⟩ := hcomplete.2
        refine .inr ⟨m, ?_, hcomplete.1, hwork.complete.1⟩
        rw [← hbefore]
        exact List.getLast?_concat

end Scene

end PgClient
