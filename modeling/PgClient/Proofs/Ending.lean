import PgClient.Proofs.Grammar
import PgClient.Proofs.Settled

/-!
# The end of a session

A session ends because its caller ends it, because a call came to an error that it cannot survive,
or because the server reported a setting that the client cannot live with. Each of the three sets
the same flag (`Ending`), also where the socket fails on the way; and where one of them happens in
the course of another, the later one finds the flag set and lets it be.

There is no way back. A call on a session that has ended comes back at once and leaves all of it
as it was (`Rests`), so that no step of a run opens it again or says another word
(`Hushed`). A farewell is only said by a session that ends, so it is said once and last.
-/

namespace PgClient

open Exchange FrontendMessage

namespace Session

variable {s : Session}

/-! ## Coming to an end -/

/-- A call that came to an error which no session survives has ended the session. -/
def Closes (h : Option Halt) (s' : Session) : Prop :=
  ∀ e, h = some (.failed e) → e.isFatal = true → s'.isClosed = true

theorem closes_of_settled {s : Session} {r : EStateM.Result Halt Session Reply}
    (h : Settled s r) : Closes (replyHalt r) (final r) := by
  cases r with
  | error halt s' =>
      obtain ⟨rfl, -⟩ := h
      exact nofun
  | ok reply s' =>
      intro e he hfatal
      rcases reply with ⟨_ | e', deliveries, statement⟩ <;> cases he
      exact h.closed_iff.2 ⟨_, rfl, hfatal⟩

theorem takeNotices_closes (wait : Option Nat) (s : Session) :
    Closes (halt? (takeNotices wait s)) (final (takeNotices wait s)) := by
  have hsettled := takeNotices_settled wait s
  rintro e he hfatal
  cases h : takeNotices wait s with
  | ok _ s' =>
      rw [h] at he
      cases he
  | error halt s' =>
      rw [h] at he hsettled
      cases he
      exact hsettled.2 hfatal

theorem begin_closes (s : Session) : Closes (halt? (begin s)) (final (begin s)) := by
  have hbegins := begin_begins s
  generalize begin s = r at hbegins
  rintro e he -
  cases hbegins with
  | begun => cases he
  | waiting => cases he
  | @failed t _ _ _ habort =>
      have hclosed := abort_reaches.final t
      rwa [habort] at hclosed

/-- What ends a session, whatever its socket does. -/
structure Ending (s : Session) : Prop where
  close : ∃ s', close s = .ok () s' ∧ s'.isClosed = true
  abort : ∃ s', abort s = .ok () s' ∧ s'.isClosed = true
  begin : Closes (halt? (begin s)) (final (begin s))
  query : ∀ sql, Closes (replyHalt (query sql s)) (final (query sql s))
  execute : ∀ st parameters,
    Closes (replyHalt (execute st parameters s)) (final (execute st parameters s))
  takeNotices : ∀ wait, Closes (halt? (takeNotices wait s)) (final (takeNotices wait s))

theorem ending (s : Session) : Ending s where
  close := by
    obtain ⟨_, s', hs', hclosed⟩ := close_reaches s
    exact ⟨s', hs', hclosed⟩
  abort := by
    obtain ⟨_, s', hs', hclosed⟩ := abort_reaches s
    exact ⟨s', hs', hclosed⟩
  begin := begin_closes s
  query sql := closes_of_settled (query_settled sql s)
  execute st parameters := closes_of_settled (execute_settled st parameters s)
  takeNotices wait := takeNotices_closes wait s

/-! ## After the end -/

/-- What a session that has ended says to every call. -/
structure Rests (s : Session) : Prop where
  query : ∀ sql, query sql s = .ok (refused .closed none) s
  execute : ∀ st parameters, execute st parameters s = .ok (refused .closed (some st)) s
  takeNotices : ∀ wait, takeNotices wait s = .error (.failed .closed) s
  close : close s = .ok () s
  /-- The socket is closed once more. -/
  abort : ∃ channel, abort s = .ok () { s with channel } ∧ channel.unread = s.channel.unread ∧
    channel.socket.sent = s.channel.socket.sent

theorem close_of_closed (hclosed : s.isClosed = true) : close s = .ok () s := by
  unfold close
  rw [bind_of_ok (get_apply s), hclosed]
  rfl

theorem abort_of_closed (hclosed : s.isClosed = true) : ∃ channel,
    abort s = .ok () { s with channel } ∧ channel.unread = s.channel.unread ∧
      channel.socket.sent = s.channel.socket.sent := by
  have hrun := onChannel_apply Channel.close s
  rw [Channel.close_apply] at hrun
  -- the flag is not looked at before the socket is
  have hrest : ∀ t : Session, t.isClosed = true →
      (do unless (← get).isClosed do markClosed "terminated" : Exchange Session Unit) t =
        .ok () t := by
    intro t ht
    rw [bind_of_ok (get_apply t), ht]
    rfl
  unfold abort
  cases hshutdown : s.channel.socket.faults.shutdown with
  | true =>
      rw [hshutdown] at hrun
      rw [bind_of_ok (attempt_of_failed hrun)]
      exact ⟨_, hrest _ hclosed, rfl, rfl⟩
  | false =>
      rw [hshutdown] at hrun
      rw [bind_of_ok (attempt_of_ok hrun)]
      exact ⟨_, hrest _ hclosed, rfl, rfl⟩

theorem rests (hclosed : s.isClosed = true) : Rests s where
  query _ := query_of_closed hclosed
  execute _ _ := execute_of_closed hclosed
  takeNotices := takeNotices_of_closed hclosed
  close := close_of_closed hclosed
  abort := abort_of_closed hclosed

end Session

/-! ## What is said before the end -/

theorem closing_unparted (names : List String) : FrontendMessage.terminate ∉ closing names := by
  intro h
  obtain ⟨name, -, hname⟩ := List.mem_map.1 h
  cases hname

theorem Request.unparted (r : Request) : FrontendMessage.terminate ∉ r.messages := by
  cases r with
  | text sql => simp [messages]
  | run name prepares parameters rows => cases prepares <;> simp [messages]

/-- A transcript without the farewell that may be at its end. -/
def Transcript.said (t : Transcript) : List FrontendMessage :=
  t.utterances.flatMap Utterance.messages ++ t.farewell.elim [] closing

theorem Transcript.said_unparted (t : Transcript) : FrontendMessage.terminate ∉ t.said := by
  intro h
  rcases List.mem_append.1 h with h | h
  · obtain ⟨u, -, hu⟩ := List.mem_flatMap.1 h
    rcases List.mem_append.1 hu with hu | hu
    · exact closing_unparted _ hu
    · exact u.request.unparted hu
  · cases hfarewell : t.farewell with
    | none =>
        rw [hfarewell] at h
        cases h
    | some names =>
        rw [hfarewell] at h
        exact closing_unparted names h

theorem Transcript.messages_said (t : Transcript) :
    t.messages = t.said ++ if t.farewell.isSome then [.terminate] else [] := by
  unfold messages said
  cases t.farewell with
  | none => simp
  | some names => simp

namespace World

variable {w : World}

/-- A session that has ended, with nothing said since. -/
structure Hushed (w w' : World) : Prop where
  isClosed : w'.session.isClosed = true
  sent : w'.session.channel.socket.sent = w.session.channel.socket.sent

theorem act_hushed (hclosed : w.session.isClosed = true) (operation : Operation) :
    Hushed w (w.act operation) := by
  have hsame : ∀ {w' : World}, w'.session = w.session → Hushed w w' := fun h =>
    ⟨by rw [h, hclosed], by rw [h]⟩
  have hrests := Session.rests hclosed
  have hlocal : ∀ {operation : Operation}, operation.isLocal = true →
      Hushed w (w.act operation) := by
    intro operation h
    obtain ⟨journal, asides, statements, pendingClose, hact, -⟩ := w.act_local h
    refine ⟨?_, ?_⟩ <;> rw [hact]
    exact hclosed
  cases operation with
  | borrow | create | setFetchSize | release => exact hlocal rfl
  | query sql => exact hsame (congrArg final (hrests.query sql))
  | execute id parameters =>
      rcases w.act_execute id parameters with hact | ⟨h, -, hact⟩
      · rw [hact]
        exact hsame rfl
      · rw [hact]
        exact hsame (congrArg final (hrests.execute h.statement parameters))
  | takeNotices wait => exact hsame (congrArg final (hrests.takeNotices wait))
  | close => exact hsame (congrArg final hrests.close)
  | abort =>
      obtain ⟨channel, habort, -, hsent⟩ := hrests.abort
      have hsession : (w.act .abort).session = { w.session with channel } := congrArg final habort
      refine ⟨?_, ?_⟩ <;> rw [hsession]
      · exact hclosed
      · exact hsent
  | arrive octets ended faults => exact ⟨hclosed, rfl⟩

theorem step_hushed (hclosed : w.session.isClosed = true) (operation : Operation) :
    Hushed w (w.step operation) := by
  cases hstuck : w.isStuck with
  | true =>
      rw [step_of_stuck hstuck]
      exact ⟨hclosed, rfl⟩
  | false =>
      rw [step_of_running hstuck]
      exact act_hushed hclosed operation

theorem run_hushed (hclosed : w.session.isClosed = true) (operations : List Operation) :
    Hushed w (w.run operations) := by
  induction operations generalizing w with
  | nil => exact ⟨hclosed, rfl⟩
  | cons operation operations ih =>
      have hstep := step_hushed hclosed operation
      have hrest := ih hstep.isClosed
      exact ⟨hrest.isClosed, hrest.sent.trans hstep.sent⟩

/-- What a world that was told in a transcript has said: at most one Terminate, behind everything
else, and only if the session has ended. -/
theorem Tells.parted {sent : Bytes} {t : Transcript} (h : Tells sent w t) :
    ∃ octets said, w.session.channel.socket.sent = sent ++ octets ∧
      FrontendMessage.terminate ∉ said ∧ (Spells octets said ∨
        Spells octets (said ++ [.terminate]) ∧ w.session.isClosed = true) := by
  obtain ⟨octets, hsent, hspells⟩ := h.said.sent
  refine ⟨octets, t.said, hsent, t.said_unparted, ?_⟩
  rw [t.messages_said] at hspells
  cases hfarewell : t.farewell with
  | none =>
      rw [hfarewell] at hspells
      exact .inl (by simpa using hspells)
  | some names =>
      rw [hfarewell] at hspells
      refine .inr ⟨hspells, eq_true_of_ne_false fun hopen => ?_⟩
      rw [(h.said.kept hopen).1] at hfarewell
      cases hfarewell

/-- A session ends, whatever its socket does, when it is closed or aborted, and with every error
that it cannot survive. From then on it comes back at once from every call, as it was; nothing
opens it again, and no octet goes out. What went out since the login has at most one Terminate in
it, at its very end. -/
theorem ends_for_good (channel : Channel) (user database : String) (options : SessionOptions)
    (hout : channel.outgoing = []) (operations more : List Operation) :
    let w := (opened channel user database options).run operations
    let w' := (opened channel user database options).run (operations ++ more)
    w.session.Ending ∧ (w.session.isClosed = true → w.session.Rests ∧ Hushed w w') ∧
      ∃ octets said, w.session.channel.socket.sent = channel.socket.sent ++ octets ∧
        FrontendMessage.terminate ∉ said ∧ (Spells octets said ∨
          Spells octets (said ++ [.terminate]) ∧ w.session.isClosed = true) := by
  intro w w'
  have hmore : w' = w.run more := run_append ..
  obtain ⟨t₀, h₀⟩ := opened_tells user database options hout
  obtain ⟨t, h, -⟩ := h₀.run operations
  exact ⟨w.session.ending, fun hclosed => ⟨Session.rests hclosed, hmore ▸ run_hushed hclosed more⟩,
    h.parted⟩

/-- A session that was closed takes its leave once, whatever is asked of it afterwards. -/
theorem ends_for_good_closed :
    let w := greetedWorld.run [.close]
    let w' := greetedWorld.run ([.close] ++ [.query "SELECT 1", .close, .abort])
    greetedChannel.outgoing = [] ∧ w.session.isClosed = true ∧
      w.session.channel.socket.sent = farewell ∧ w.session.Ending ∧ w.session.Rests ∧
      Hushed w w' ∧ w'.session.channel.socket.sent = farewell := by
  intro w w'
  have hclosed : w.session.isClosed = true := by decide +kernel
  have hsent : w.session.channel.socket.sent = farewell := by decide +kernel
  obtain ⟨hending, hended, -⟩ : w.session.Ending ∧
      (w.session.isClosed = true → w.session.Rests ∧ Hushed w w') ∧ _ :=
    ends_for_good greetedChannel "postgres" "postgres" { queryMode := .extendedCacheEverything }
      rfl [.close] [.query "SELECT 1", .close, .abort]
  obtain ⟨hrests, hhushed⟩ := hended hclosed
  exact ⟨rfl, hclosed, hsent, hending, hrests, hhushed, hhushed.sent.trans hsent⟩

end World

end PgClient
