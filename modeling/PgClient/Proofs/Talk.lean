import PgClient.Login
import PgClient.Proofs.Notices
import PgClient.Session.Startup

/-!
# What talking leaves alone

Reading, collecting, writing and closing change what is still to be read and to be
written, what was sent so far, and the journal. The rest of a channel is settled when
it is set up: the medium of its socket and how that behaves, the host at the other
side, and, unless the server asks for another one, the character set. `Remains` says
so once for every operation. What was sent is the octets that were sent before and
some more, and they go out in the clear or within TLS, as the medium has it (`Took`).
-/

namespace PgClient

open Exchange

/-- The second socket is the first one after it took octets to send. What arrives, how
the sides end, what fails and what is known of a handshake may have changed as well. -/
structure Socket.Took (octets : Bytes) (s s' : Socket) : Prop where
  same : s' = { s.write octets with
    hello := s'.hello
    inbound := s'.inbound
    faults := { s'.faults with read := s.faults.read }
    laterFaults := s'.laterFaults
    isShut := s'.isShut }

namespace Socket

variable {s t u : Socket} {a b octets : Bytes}

theorem took_nil (h : t = { s with
    hello := t.hello, inbound := t.inbound, isShut := t.isShut }) : Took [] s t := by
  refine ⟨?_⟩
  rw [h]
  rcases s with ⟨medium, _, _, _, _, _, _, _, _, _⟩
  cases medium <;> simp only [write, List.append_nil]

theorem took_write (s : Socket) (octets : Bytes) : Took octets s (s.write octets) := by
  refine ⟨?_⟩
  unfold write
  cases s.medium <;> rfl

theorem Took.trans (h : Took a s t) (h' : Took b t u) : Took (a ++ b) s u := by
  refine ⟨?_⟩
  rw [h'.same, h.same]
  rcases s with ⟨medium, _, _, _, _, _, _, _, _, _⟩
  cases medium <;> simp only [write, List.append_assoc]

theorem Took.medium (h : Took octets s t) : t.medium = s.medium := by
  rw [h.same]
  rcases s with ⟨medium, _, _, _, _, _, _, _, _, _⟩
  cases medium <;> rfl

theorem Took.handshake (h : Took octets s t) : t.handshake = s.handshake := by
  rw [h.same]
  rcases s with ⟨medium, _, _, _, _, _, _, _, _, _⟩
  cases medium <;> rfl

/-- Without TLS everything goes out in the clear. -/
theorem Took.plain (h : Took octets s t) (hmedium : s.medium ≠ .tls) :
    t.clear = s.clear ++ octets ∧ t.encrypted = s.encrypted := by
  rw [h.same]
  rcases s with ⟨medium, _, _, _, _, _, _, _, _, _⟩
  cases medium with
  | tls => exact absurd rfl hmedium
  | tcp | localSocket => exact ⟨rfl, rfl⟩

/-- Within TLS nothing goes out in the clear. -/
theorem Took.tls (h : Took octets s t) (hmedium : s.medium = .tls) :
    t.clear = s.clear ∧ t.encrypted = s.encrypted ++ octets := by
  rw [h.same]
  rcases s with ⟨medium, _, _, _, _, _, _, _, _, _⟩
  cases hmedium
  exact ⟨rfl, rfl⟩

end Socket

namespace Channel

/-- The second channel is the first one after something was said over it, or nothing. -/
structure Serves (c c' : Channel) : Prop where
  host : c'.host = c.host
  took : ∃ octets, c.socket.Took octets c'.socket

/-- The second channel is the first one after some talking over it. -/
structure Remains (c c' : Channel) : Prop extends Serves c c' where
  same : c' = { c with
    buffer := c'.buffer
    outgoing := c'.outgoing
    journal := c'.journal
    socket := { c.socket with
      inbound := c'.socket.inbound
      faults := { c'.socket.faults with read := c.socket.faults.read }
      laterFaults := c'.socket.laterFaults
      clear := c'.socket.clear
      encrypted := c'.socket.encrypted
      isShut := c'.socket.isShut } }

variable {c c' d : Channel}

theorem Serves.refl (c : Channel) : Serves c c :=
  ⟨rfl, [], Socket.took_nil rfl⟩

theorem Serves.trans (h : Serves c c') (h' : Serves c' d) : Serves c d := by
  obtain ⟨a, ha⟩ := h.took
  obtain ⟨b, hb⟩ := h'.took
  exact ⟨h'.host.trans h.host, a ++ b, ha.trans hb⟩

theorem Remains.charset (h : Remains c c') : c'.charset = c.charset := by
  rw [h.same]

/-- Talking, as a law of exchanges. -/
def Talks (c : Channel) (_ : Option Halt) (c' : Channel) : Prop :=
  Remains c c'

theorem talks_composes : Composes Talks where
  refl c := ⟨Serves.refl c, rfl⟩
  trans := by
    intro c d e h hcd hde
    refine ⟨hcd.toServes.trans hde.toServes, ?_⟩
    rw [hde.same, hcd.same]

/-- Something that says nothing. -/
theorem remains_of_socket (h : c' = { c with
    buffer := c'.buffer
    outgoing := c'.outgoing
    journal := c'.journal
    socket := { c.socket with inbound := c'.socket.inbound, isShut := c'.socket.isShut } }) :
    Remains c c' := by
  refine ⟨⟨?_, [], Socket.took_nil ?_⟩, ?_⟩ <;> rw [h]

theorem ReadsOff.remains {octets : Bytes} (h : ReadsOff octets c c') : Remains c c' :=
  remains_of_socket (by rw [h.same])

theorem reading_talks {α : Type} {x : Exchange Channel α} (hx : Obeys Reading x) :
    Obeys Talks x := by
  intro c
  obtain ⟨octets, hoff⟩ := (hx c).reads
  exact hoff.remains

theorem fail_talks {α : Type} (e : Error) : Obeys Talks (fail e : Exchange Channel α) :=
  talks_composes.refl

theorem record_talks (event : Event) : Obeys Talks (record event) :=
  fun _ => remains_of_socket rfl

theorem send_talks (octets : Bytes) : Obeys Talks (send octets) :=
  fun _ => remains_of_socket rfl

theorem remains_write (c : Channel) (octets : Bytes) :
    Remains c { c with outgoing := [], socket := c.socket.write octets } := by
  refine ⟨⟨rfl, octets, Socket.took_write _ _⟩, ?_⟩
  rcases c with ⟨⟨medium, _, _, _, _, _, _, _, _, _⟩, _, _, _, _, _, _⟩
  cases medium <;> rfl

theorem flush_talks : Obeys Talks flush := by
  intro c
  rw [flush_apply]
  split
  · exact talks_composes.refl c
  · split
    · exact remains_of_socket rfl
    · simp only []
      split <;> exact remains_write c c.outgoing

theorem close_talks : Obeys Talks close := by
  intro c
  rw [close_apply]
  split <;> exact remains_of_socket rfl

theorem receiveAfter_talks (phase : Phase) (octet : UInt8) (detail : Bool) :
    Obeys Talks (receiveAfter phase octet detail) :=
  receiveAfter_obeys talks_composes reading_talks record_talks phase octet detail

theorem receive_talks (phase : Phase) (detail : Bool) : Obeys Talks (receive phase detail) :=
  receive_obeys talks_composes reading_talks record_talks phase detail

end Channel

namespace Session

/-- Talking over the channel of a session. -/
def Talks (s : Session) (_ : Option Halt) (s' : Session) : Prop :=
  Channel.Remains s.channel s'.channel

theorem talks_composes : Composes Talks where
  refl s := Channel.talks_composes.refl s.channel
  trans {_ _ _ h} hst htu := Channel.talks_composes.trans (h := h) hst htu

theorem onChannel_talks {α : Type} {x : Exchange Channel α} (hx : Obeys Channel.Talks x) :
    Obeys Talks (onChannel x) :=
  hx.zoom fun _ _ _ h => h

theorem receive_talks (phase : Phase) : Obeys Talks (receive phase) :=
  talks_composes.bind talks_composes.get fun _ =>
    onChannel_talks (Channel.receive_talks phase _)

theorem attempt_talks {α : Type} {x : Exchange Session α} (hx : Obeys Talks x) :
    Obeys Talks x.attempt := by
  intro s
  rw [final_attempt]
  exact hx s

theorem talks_endures : Endures (Obeys Talks) where
  toAssembles := assembles_of_composes talks_composes
  told event _ := onChannel_talks (Channel.record_talks event)
  shuts := attempt_talks (onChannel_talks Channel.close_talks)
  marks how s := Channel.record_talks (.disconnected how s.party) s.channel
  sends octets := onChannel_talks (Channel.send_talks octets)
  flushes := attempt_talks (onChannel_talks Channel.flush_talks)

end Session

end PgClient
