import PgClient.Dialer
import PgClient.Proofs.Farewell
import PgClient.Proofs.Run

/-!
# A session that has begun

A client that was let in has said all it had to say: each message of the login is
written before the answer to it is read. Whatever the server announces then, it is
about settings and keys. A session that comes out of it open has prepared no
statement, has no name to close and nothing to say yet, which is where every run
begins.
-/

namespace PgClient

open Exchange

namespace Channel

/-! ## The login -/

/-- Nothing is left to be written. -/
def Empties (_ : Channel) (h : Option Halt) (c' : Channel) : Prop :=
  h = none → c'.outgoing = []

/-- If there was nothing to be written, nothing is left to be written. -/
def Drains (c : Channel) (h : Option Halt) (c' : Channel) : Prop :=
  h = none → c.outgoing = [] → c'.outgoing = []

theorem drains_composes : Composes Drains where
  refl _ := fun _ => id
  trans h h' := fun hnone hout => h' hnone (h rfl hout)

theorem flush_empties : Obeys Empties flush :=
  fun c _ => flush_outgoing c

/-- What was written first is not there to be written any more. -/
theorem empties_drained {α β : Type} {x : Exchange Channel α} {f : α → Exchange Channel β}
    (hx : Obeys Empties x) (hf : ∀ a, Obeys Drains (f a)) : Obeys Empties (x >>= f) := by
  intro c
  rw [bind_apply]
  cases h : x c with
  | ok a c' => exact fun hnone => hf a c' hnone (hx.ok h rfl)
  | error halt c' => exact nofun

theorem empties_bind {α β : Type} {x : Exchange Channel α} {f : α → Exchange Channel β}
    (hf : ∀ a, Obeys Empties (f a)) : Obeys Empties (x >>= f) := by
  intro c
  rw [bind_apply]
  cases x c with
  | ok a c' => exact hf a c'
  | error halt c' => exact nofun

theorem sendStartup_empties (s : ConnectionSettings) : Obeys Empties (sendStartup s) :=
  empties_bind fun _ => empties_bind fun _ => flush_empties

theorem sendPassword_drains (message : FrontendMessage) : Obeys Drains (sendPassword message) :=
  have hempties : Obeys Empties (sendPassword message) :=
    empties_bind fun _ => empties_bind fun _ => flush_empties
  fun c hnone _ => hempties c hnone

theorem authenticate_drains (s : ConnectionSettings) (showDetail : Bool) :
    Obeys Drains (authenticate s showDetail) := by
  have hstops : ∀ c halt, Drains c (some halt) c := fun _ _ => nofun
  have hreceive : Obeys Drains (receive .login showDetail) := fun c _ hout =>
    (receive_mute .login showDetail c).1.trans hout
  exact authenticate_obeys drains_composes hstops hreceive
    (answer_obeys drains_composes hstops (fun _ _ _ hout => hout)
      (fun m _ => sendPassword_drains m) s)

theorem present_empties (s : ConnectionSettings) (showDetail : Bool) :
    Obeys Empties (present s showDetail) :=
  empties_drained (sendStartup_empties s) fun _ => authenticate_drains s showDetail

theorem refuse_ne_ok (e : Error) (c c' : Channel) : refuse e c ≠ .ok () c' := by
  intro h
  obtain ⟨closing, _, -, h⟩ := bind_ok h
  cases closing with
  | ok _ => cases h
  | error closing =>
      obtain ⟨_, _, -, hfail⟩ := bind_ok h
      cases hfail

/-- A login that succeeded has left nothing to be written. -/
theorem login_outgoing {s : ConnectionSettings} {showDetail : Bool} {c c' : Channel}
    (h : login s showDetail c = .ok () c') : c'.outgoing = [] := by
  obtain ⟨result, c₁, hattempt, hrest⟩ := bind_ok h
  rw [attempt_apply] at hattempt
  cases hrun : present s showDetail c with
  | error halt c₂ =>
      rw [hrun] at hattempt
      cases halt with
      | waiting => cases hattempt
      | failed e =>
          cases hattempt
          exact absurd hrest (refuse_ne_ok e _ _)
  | ok _ c₂ =>
      rw [hrun] at hattempt
      cases hattempt
      cases hrest
      exact (present_empties s showDetail).ok hrun rfl

end Channel

namespace Session

/-! ## What the server announces -/

/-- An announcement that was taken in has left an open session open, its ledger
as it was and the buffer alone. -/
def Announces (s : Session) (h : Option Halt) (s' : Session) : Prop :=
  h = none → s.isClosed = false →
    s'.isClosed = false ∧ s'.ledger = s.ledger ∧ s'.channel.outgoing = s.channel.outgoing

theorem announces_composes : Composes Announces where
  refl _ := fun _ hopen => ⟨hopen, rfl, rfl⟩
  trans := by
    intro s t u h hst htu hnone hopen
    obtain ⟨ht, hledger, hout⟩ := hst rfl hopen
    obtain ⟨hu, hledger', hout'⟩ := htu hnone ht
    exact ⟨hu, hledger'.trans hledger, hout'.trans hout⟩

theorem Aside.announces {s s' : Session} {h : Option Halt} (ha : Aside s h s') :
    Announces s h s' := by
  intro hnone hopen
  have hstill : s'.isClosed = false := (ha.calm hnone).trans hopen
  exact ⟨hstill, ha.keeps.ledger, (ha.quiet hstill).2.1⟩

theorem receive_announces : Obeys Announces (receive .startup) := by
  intro s
  cases h : receive .startup s with
  | error halt s' => exact nofun
  | ok m s' =>
      intro _ hopen
      have hread := receive_reads (by decide) h
      have hledger : s'.ledger = s.ledger := by rw [← hread.others]; rfl
      have hclosed : s'.isClosed = s.isClosed := by rw [← hread.others]
      exact ⟨hclosed.trans hopen, hledger, hread.outgoing⟩

theorem readAnnouncement_announces (limit : Nat) : Obeys Announces (readAnnouncement limit) :=
  announces_composes.loop readAnnouncement_succ (fun _ => nofun)
    (announces_composes.bind receive_announces (announce_of_aside announces_composes
      Aside.announces (fun _ _ _ hopen => ⟨hopen, rfl, rfl⟩) fun _ _ => nofun)) limit

/-- A session that has begun is open and has no statement. -/
theorem begin_fresh {channel : Channel} {user database : String} {options : SessionOptions}
    {s : Session} (hout : channel.outgoing = [])
    (h : begin (Session.new channel user database options) = .ok () s) :
    s.isClosed = false ∧ s.IsFresh := by
  obtain ⟨result, s₁, hstart, h⟩ := bind_ok h
  rw [attempt_apply] at hstart
  cases hrun : start (Session.new channel user database options) with
  | error halt s' =>
      rw [hrun] at hstart
      cases halt with
      | waiting => cases hstart
      | failed e =>
          cases hstart
          obtain ⟨_, _, -, hfail⟩ := bind_ok h
          cases hfail
  | ok _ s' =>
      rw [hrun] at hstart
      cases hstart
      obtain ⟨hopen, hledger, hsame⟩ :=
        (readAnnouncement_announces maxStartupMessages).ok hrun rfl rfl
      obtain ⟨_, _, hget, h⟩ := bind_ok h
      cases hget
      cases h
      refine ⟨hopen, ?_, ?_, hsame.trans hout⟩
      · exact congrArg (fun l => l.statements.entries) hledger
      · exact congrArg Ledger.pendingClose hledger

end Session

end PgClient
