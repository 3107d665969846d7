import PgClient.Proofs.Answering
import PgClient.Proofs.Details.Attempts

/-!
# Handing a socket over

Octets are read from a socket in blocks, so there may be more of them read than were asked for.
Whoever takes the socket over never sees those that were read and not consumed, and where TLS is put
over the socket they would be taken for something that came through it. So a socket is only handed
over if there are none.

What was consumed is told here from the stream alone, without a look at the buffer (`consumed`), and
so is what was read, by what is left in the socket. Each operation keeps both accounts (`Tallied`),
and at the end of any sequence of them the socket is released if and only if they agree. The request
for TLS is the one case where a client does hand its socket over.
-/

namespace PgClient

open Exchange

namespace Channel

variable {c c' : Channel} {octets : Bytes}

/-! ## What an operation takes -/

/-- The operations that take octets off a channel. -/
inductive Intake where
  | octet
  | int16
  | int32
  | bytes (n : Nat)
  | skip (n : Nat)
  | string (n : Nat)
  | reportText (n : Nat)
  | zeroTerminated
  | ending
  | awaited (wait : Nat)

/-- The octets up to the first zero octet and that one, or all of them if there is none. -/
def upToZero (octets : Bytes) : Bytes :=
  (octets.findIdx? (· == 0)).elim octets fun i => octets.take (i + 1)

namespace Intake

/-- The operation, whatever it returns. -/
def run : Intake → Exchange Channel Unit
  | octet => discard receiveOctet
  | int16 => discard receiveInt16
  | int32 => discard receiveInt32
  | bytes n => discard (receiveBytes n)
  | skip n => Channel.skip n
  | string n => discard (receiveString n)
  | reportText n => discard (receiveReportText n)
  | zeroTerminated => discard receiveZeroTerminated
  | ending => receiveEnd
  | awaited wait => discard (awaitOctet wait)

/-- What an operation consumes of the octets that can be read. One that needs more than there are
consumes them all, and one that asks for too many does not begin. -/
def part (unread : Bytes) : Intake → Bytes
  | octet | ending | awaited _ => unread.take 1
  | int16 => unread.take 2
  | int32 => unread.take 4
  | bytes n | skip n | string n | reportText n =>
    if maxMessageSize < n then [] else unread.take n
  | zeroTerminated => upToZero unread

end Intake

/-- These octets were consumed, and nothing went back to the socket. -/
structure Draws (octets : Bytes) (c c' : Channel) : Prop extends ReadsOff octets c c' where
  suffix : c'.socket.inbound <:+ c.socket.inbound

theorem Draws.refl (c : Channel) : Draws [] c c :=
  ⟨.refl c, List.suffix_rfl⟩

theorem exhausted_draws (c : Channel) : Draws c.unread c c.exhausted :=
  ⟨exhausted_readsOff c, List.nil_suffix⟩

/-- What leaves every channel alone can follow. -/
theorem Draws.still {α β : Type} {x : Exchange Channel α} {f : α → Exchange Channel β}
    (h : Draws octets c (final (x c))) (hf : ∀ a t, final (f a t) = t) :
    Draws octets c (final ((x >>= f) c)) := by
  rw [bind_apply]
  cases hx : x c with
  | ok a t =>
      rw [hx] at h
      rwa [show final (f a t) = t from hf a t]
  | error e t =>
      rw [hx] at h
      exact h

theorem takeExactly_draws (n : Nat) (c : Channel) :
    Draws (c.unread.take n) c (takeExactly n c).2 := by
  rcases Nat.lt_or_ge c.unread.length n with hshort | hlong
  · rw [takeExactly_short hshort, List.take_of_length_le (Nat.le_of_lt hshort)]
    exact exhausted_draws c
  · obtain ⟨c', htake, hoff⟩ := takeExactly_append (List.take_append_drop n c.unread).symm
    rw [List.length_take_of_le hlong] at htake
    rw [htake]
    refine ⟨hoff, ?_⟩
    rw [← congrArg Prod.snd htake]
    unfold takeExactly
    simp only []
    split
    · exact List.suffix_rfl
    · split
      · exact List.nil_suffix
      · exact List.drop_suffix _ _

theorem takeUntilZero_draws (c : Channel) :
    Draws (upToZero c.unread) c (takeUntilZero c).2 := by
  unfold upToZero
  by_cases hzero : 0 ∈ c.unread
  · obtain ⟨text, rest, hsplit, htext⟩ := List.eq_append_cons_of_mem hzero
    obtain ⟨c', htake, hoff, -⟩ := takeUntilZero_append htext hsplit
    have hpart : (text ++ 0 :: rest).take (text.length + 1) = text ++ [0] := by
      rw [List.append_cons]
      exact List.take_left' List.length_append
    rw [htake, hsplit, findZero_append htext, Option.elim_some, hpart]
    refine ⟨hoff, ?_⟩
    rw [← congrArg Prod.snd htake]
    unfold takeUntilZero
    split
    · exact List.suffix_rfl
    · split
      · exact List.nil_suffix
      · exact List.drop_suffix _ _
  · rw [takeUntilZero_none hzero, findZero_none hzero]
    exact exhausted_draws c

theorem final_runDry {α : Type} (c : Channel) :
    final ((runDry : Exchange Channel α) c) = c := by
  rw [runDry_apply]
  rfl

/-- Where nothing is left to be read, an operation may return all the same. -/
theorem final_dry {α : Type} (returns : Prop) [Decidable returns] (a : α) (c : Channel) :
    final ((if returns then pure a else runDry : Exchange Channel α) c) = c := by
  split
  · rfl
  · exact final_runDry c

/-- An operation that takes octets takes nothing more when it looks at them. -/
theorem Draws.looked {α β : Type} {take : Channel → α × Channel} {f : α → Exchange Channel β}
    (h : Draws octets c (take c).2) (hf : ∀ a t, final (f a t) = t) :
    Draws octets c (final ((modifyGet take >>= f) c)) :=
  Draws.still (x := (modifyGet take : Exchange Channel α)) h hf

theorem receiveExactly_draws (n : Nat) (c : Channel) :
    Draws (c.unread.take n) c (final (receiveExactly n c)) := by
  refine (takeExactly_draws n c).looked fun octets t => ?_
  cases octets with
  | some octets => rfl
  | none => exact final_runDry t

theorem receiveBytes_draws (n : Nat) (c : Channel) :
    Draws (if maxMessageSize < n then [] else c.unread.take n) c (final (receiveBytes n c)) := by
  unfold receiveBytes
  split
  · exact .refl c
  · exact receiveExactly_draws n c

theorem receiveZeroTerminated_draws (c : Channel) :
    Draws (upToZero c.unread) c (final (receiveZeroTerminated c)) := by
  refine (takeUntilZero_draws c).looked fun text t => ?_
  cases text with
  | some text => rfl
  | none => exact final_runDry t

theorem receiveEnd_draws (c : Channel) : Draws (c.unread.take 1) c (final (receiveEnd c)) := by
  refine (takeExactly_draws 1 c).looked fun octets t => ?_
  cases octets with
  | some octets => rfl
  | none => exact final_dry _ _ t

theorem awaitOctet_draws (wait : Nat) (c : Channel) :
    Draws (c.unread.take 1) c (final (awaitOctet wait c)) := by
  refine (takeExactly_draws 1 c).looked fun octets t => ?_
  cases octets with
  | some octets => rfl
  | none => exact final_dry _ _ t

/-- Every operation consumes its part. -/
theorem Intake.draws (op : Intake) (c : Channel) :
    Draws (op.part c.unread) c (final (op.run c)) := by
  have hword := fun n => receiveExactly_draws n c
  have hbody := fun n => receiveBytes_draws n c
  cases op with
  | octet => exact ((hword 1).still fun _ _ => rfl).still fun _ _ => rfl
  | int16 => exact ((hword 2).still fun _ _ => rfl).still fun _ _ => rfl
  | int32 => exact ((hword 4).still fun _ _ => rfl).still fun _ _ => rfl
  | bytes n | skip n => exact (hbody n).still fun _ _ => rfl
  | string n | reportText n => exact ((hbody n).still fun _ _ => rfl).still fun _ _ => rfl
  | zeroTerminated => exact (receiveZeroTerminated_draws c).still fun _ _ => rfl
  | ending => exact receiveEnd_draws c
  | awaited wait => exact (awaitOctet_draws wait c).still fun _ _ => rfl

/-! ## What happens to a stream -/

/-- What happens on a channel before its socket is handed over. -/
inductive Traffic where
  /-- More octets arrive at the socket. -/
  | arrives (octets : Bytes)
  | takes (op : Intake)

namespace Traffic

def act (c : Channel) : Traffic → Channel
  | arrives octets => { c with socket := { c.socket with inbound := c.socket.inbound ++ octets } }
  | takes op => final (op.run c)

def arrived : Traffic → Bytes
  | arrives octets => octets
  | takes _ => []

end Traffic

/-- The channel after all that happened; an operation that fails does not keep others from being
tried. -/
def after (c : Channel) (ts : List Traffic) : Channel :=
  ts.foldl Traffic.act c

/-- What the operations consume of a stream, wherever its octets are. -/
def consumed : List Traffic → Bytes → Bytes
  | [], _ => []
  | .arrives octets :: ts, unread => consumed ts (unread ++ octets)
  | .takes op :: ts, unread =>
    op.part unread ++ consumed ts (unread.drop (op.part unread).length)

/-- Of all octets that ever arrived, `read` are gone from the socket, and `used` of them were
consumed. -/
structure Tallied (queue read used : Bytes) (c : Channel) : Prop where
  queue : queue = read ++ c.socket.inbound
  read : read = used ++ c.buffer

theorem Draws.tallied {queue read used : Bytes} (h : Draws octets c c')
    (hc : Tallied queue read used c) :
    ∃ drawn, Tallied queue (read ++ drawn) (used ++ octets) c' := by
  -- What has gone from the socket was consumed or is in the buffer, as was what was there before.
  obtain ⟨drawn, hdrawn⟩ := h.suffix
  have hunread : c.buffer ++ (drawn ++ c'.socket.inbound) =
      octets ++ (c'.buffer ++ c'.socket.inbound) := by
    rw [hdrawn]
    exact h.unread
  rw [← List.append_assoc, ← List.append_assoc, List.append_cancel_right_eq] at hunread
  refine ⟨drawn, ?_, ?_⟩
  · rw [hc.queue, List.append_assoc, hdrawn]
  · rw [hc.read, List.append_assoc, hunread, List.append_assoc]

/-- A run keeps the account of what was read and of what was consumed. -/
theorem after_tallied (ts : List Traffic) {queue read used : Bytes}
    (hc : Tallied queue read used c) :
    ∃ drawn, Tallied (queue ++ ts.flatMap Traffic.arrived) (read ++ drawn)
      (used ++ consumed ts c.unread) (c.after ts) := by
  induction ts generalizing c queue read used with
  | nil => exact ⟨[], by simpa [consumed, after] using hc⟩
  | cons t ts ih =>
      cases t with
      | arrives octets =>
          -- What arrives was not read yet.
          have hstep : Tallied (queue ++ octets) read used ((Traffic.arrives octets).act c) :=
            ⟨by rw [hc.queue, List.append_assoc]; rfl, hc.read⟩
          have hunread : ((Traffic.arrives octets).act c).unread = c.unread ++ octets :=
            (List.append_assoc _ _ _).symm
          obtain ⟨drawn, hrest⟩ := ih hstep
          rw [hunread, List.append_assoc] at hrest
          exact ⟨drawn, hrest⟩
      | takes op =>
          have hdraws := op.draws c
          obtain ⟨front, hstep⟩ := hdraws.tallied hc
          have hunread : (final (op.run c)).unread = c.unread.drop (op.part c.unread).length :=
            ((congrArg (List.drop _) hdraws.unread).trans (List.drop_left' rfl)).symm
          obtain ⟨drawn, hrest⟩ := ih hstep
          rw [hunread, List.append_assoc, List.append_assoc] at hrest
          exact ⟨front ++ drawn, hrest⟩

theorem hasBuffered_eq_false : c.hasBuffered = false ↔ c.buffer = [] := by
  unfold hasBuffered
  cases c.buffer <;> simp

/-- A socket is released if nothing is left in the buffer. -/
theorem release?_eq (c : Channel) : c.release? =
    if c.buffer = [] then .ok c.socket else .error (.protocolViolation .unencryptedData) := by
  unfold release?
  split
  · next h => rw [if_neg fun hempty => by simp [hasBuffered, hempty] at h]; rfl
  · next h => rw [if_pos (hasBuffered_eq_false.1 (Bool.not_eq_true _ ▸ h))]; rfl

/-! ## Asking for TLS -/

/-- The first octet leaves the buffer empty if it was the only one there, or came alone. -/
theorem receiveOctet_takes {octet : UInt8} {rest : Bytes} (hc : c.unread = octet :: rest) :
    ∃ t, receiveOctet c = .ok octet t ∧ ReadsOff [octet] c t ∧
      (t.buffer = [] ↔ c.buffer = [octet] ∨ c.buffer = [] ∧ rest = []) := by
  cases hbuffer : c.buffer with
  | nil =>
      obtain ⟨t, hrun, hoff, hempty⟩ :=
        receiveOctet_first hbuffer ((unread_of_buffer hbuffer).symm.trans hc)
      refine ⟨t, hrun, hoff, ?_⟩
      rw [← hasBuffered_eq_false, hempty]
      simp
  | cons b bs =>
      have hsplit : b :: (bs ++ c.socket.inbound) = octet :: rest := by
        rw [← hc, unread, hbuffer]
        rfl
      obtain ⟨rfl, rfl⟩ := List.cons.inj hsplit
      have htake : takeExactly 1 c = (some [b], { c with buffer := bs }) := by
        simp [takeExactly, hbuffer]
      refine ⟨{ c with buffer := bs }, ?_, ⟨hc, rfl⟩, ?_⟩
      · unfold receiveOctet receiveExactly
        rw [bind_assoc, bind_of_ok (modifyGet_apply _ c), htake]
        rfl
      · simp

theorem sslVerdict_true {octet : UInt8} (h : sslVerdict octet c = .ok true c') :
    octet = 0x53 ∧ c.buffer = [] ∧ c' = c.told .sslAccepted := by
  have hletter : ∀ letter : UInt8, Char.ofNat octet.toNat = Char.ofNat letter.toNat →
      octet = letter := fun _ => charOfNat_toNat_inj
  by_cases haccepted : octet = 0x53
  · subst haccepted
    rw [sslVerdict_accepted] at h
    split at h
    · cases h
    · next hbuffered =>
        cases h
        exact ⟨rfl, hasBuffered_eq_false.1 (Bool.not_eq_true _ ▸ hbuffered), rfl⟩
  · have hreturns : Returns (· = false) (sslVerdict octet) := by
      unfold sslVerdict
      split
      · next hS => exact absurd (hletter 0x53 hS) haccepted
      · exact .bind fun _ => .pure rfl
      · exact .bind fun _ _ _ _ hfail => by cases hfail
      · exact fun _ _ _ hfail => by cases hfail
    cases hreturns c true c' h

theorem encode_sslRequest : FrontendMessage.sslRequest.encode .utf8 = .ok sslRequest :=
  rfl

/-- The request is sent whole, and what is made of the answer sends nothing more. -/
theorem negotiateSsl_took (hc : c.IsWritable) :
    c.socket.Took sslRequest (final (negotiateSsl c)).socket := by
  unfold negotiateSsl
  rw [bind_of_ok (record_apply _ c),
    bind_of_ok (utter_said (hc.told _) encode_sslRequest (List.cons_ne_nil _ _))]
  have hsaid : c.socket.Took sslRequest (c.socket.write sslRequest) :=
    Socket.took_write _ _
  have hquiet := sslAnswer_quiet
    { c.told (.sending .sslRequest) with socket := c.socket.write sslRequest }
  have hall := hsaid.trans hquiet.took
  rw [List.append_nil] at hall
  exact hall

/-- The answer of a server that is ready is taken for that if nothing came along with it. -/
theorem sslAnswer_accepted {rest : Bytes} (hc : c.unread = 0x53 :: rest) :
    ∃ t, ReadsOff [0x53] c t ∧ (t.buffer = [] ↔ c.buffer = [0x53] ∨ c.buffer = [] ∧ rest = []) ∧
      sslAnswer c =
        if t.buffer = [] then .ok true (t.told .sslAccepted)
        else .error (.failed (.protocolViolation .unencryptedData)) (t.told .sslAccepted) := by
  obtain ⟨t, hrun, hoff, hempty⟩ := receiveOctet_takes hc
  refine ⟨t, hoff, hempty, ?_⟩
  unfold sslAnswer
  rw [bind_of_ok hrun, sslVerdict_accepted]
  by_cases hbuffer : t.buffer = []
  · rw [if_pos hbuffer, hasBuffered_eq_false.2 hbuffer]
    rfl
  · rw [if_neg hbuffer, if_pos ((Bool.not_eq_false _).mp (mt hasBuffered_eq_false.1 hbuffer))]

theorem sslAnswer_true (h : sslAnswer c = .ok true c') :
    c'.buffer = [] ∧ c.unread = 0x53 :: c'.socket.inbound := by
  obtain ⟨octet, t, hoctet, hverdict⟩ := bind_ok h
  obtain ⟨rfl, hbuffer, rfl⟩ := sslVerdict_true hverdict
  refine ⟨hbuffer, ?_⟩
  rw [(receiveOctet_ok hoctet).unread, unread_of_buffer hbuffer]
  rfl

/-- The client goes on to TLS only if it has read nothing but the octet that lets it. -/
theorem negotiateSsl_true (h : negotiateSsl c = .ok true c') :
    c'.buffer = [] ∧ c.unread = 0x53 :: c'.socket.inbound := by
  unfold negotiateSsl at h
  rw [bind_of_ok (record_apply _ c)] at h
  obtain ⟨_, t, hutter, hanswer⟩ := bind_ok h
  have hunread := (utter_unread .sslRequest).ok hutter
  obtain ⟨hbuffer, hleft⟩ := sslAnswer_true hanswer
  refine ⟨hbuffer, ?_⟩
  rw [← hleft, unread, unread, hunread.buffer, hunread.inbound]
  rfl

/-- Once the request was sent, it is the answer that counts. -/
theorem negotiateSsl_answer (hc : c.IsWritable) : ∃ t : Channel, t.buffer = c.buffer ∧
    t.unread = c.unread ∧ negotiateSsl c = sslAnswer t := by
  refine ⟨{ c.told (.sending .sslRequest) with socket := c.socket.write sslRequest }, rfl,
    unread_wrote _ _, ?_⟩
  unfold negotiateSsl
  rw [bind_of_ok (record_apply _ c),
    bind_of_ok (utter_said (hc.told _) encode_sslRequest (List.cons_ne_nil _ _))]
  rfl

/-- The client goes on to TLS if the answer is the octet that lets it, and came alone. -/
theorem negotiateSsl_ready (hc : c.IsWritable) (hbuffer : c.buffer = [])
    (hin : c.socket.inbound = [0x53]) : ∃ c', negotiateSsl c = .ok true c' := by
  obtain ⟨t, ht, hunread, hrun⟩ := negotiateSsl_answer hc
  have hanswers : t.unread = [0x53] := (hunread.trans (unread_of_buffer hbuffer)).trans hin
  obtain ⟨u, -, hempty, hanswer⟩ := sslAnswer_accepted hanswers
  rw [hrun, hanswer, if_pos (hempty.2 (.inr ⟨ht.trans hbuffer, rfl⟩))]
  exact ⟨_, rfl⟩

/-- An answer that did not come alone is refused. -/
theorem negotiateSsl_refuses {more : Bytes} (hc : c.IsWritable) (hbuffer : c.buffer = [])
    (hin : c.socket.inbound = 0x53 :: more) (hmore : more ≠ []) :
    ∃ c', negotiateSsl c = .error (.failed (.protocolViolation .unencryptedData)) c' := by
  obtain ⟨t, ht, hunread, hrun⟩ := negotiateSsl_answer hc
  obtain ⟨u, -, hempty, hanswer⟩ := sslAnswer_accepted
    ((hunread.trans (unread_of_buffer hbuffer)).trans hin)
  have hleft : u.buffer ≠ [] := fun h => by
    rcases hempty.1 h with hone | ⟨-, hnone⟩
    · rw [ht, hbuffer] at hone
      cases hone
    · exact hmore hnone
  rw [hrun, hanswer, if_neg hleft]
  exact ⟨_, rfl⟩

/-! ## Putting TLS over the socket -/

variable {connector : Connector} {tls : TlsOptions}

theorem startTls_refuses (connector : Connector) (tls : TlsOptions) (h : c.buffer ≠ []) :
    startTls connector tls c =
      .error (.failed (.protocolViolation .unencryptedData)) (c.told .sslStarting) := by
  rw [startTls_apply, if_pos ((Bool.not_eq_false _).mp (mt hasBuffered_eq_false.1 h))]

/-- What is read within TLS came through it. -/
theorem startTls_buffer (h : startTls connector tls c = .ok () c') :
    c.buffer = [] ∧ c'.buffer = [] ∧
      ∃ inbound shows, c.socket.handshake = .succeeds inbound shows ∧ c'.unread = inbound := by
  refine ⟨Decidable.of_not_not fun hbuffer => ?_, ?_⟩
  · rw [startTls_refuses connector tls hbuffer] at h
    cases h
  · obtain ⟨t, inbound, shows, -, rfl, hhandshake, -⟩ := startTls_ok h
    exact ⟨rfl, inbound, shows, hhandshake, rfl⟩

/-- An upgrade fails where the server's answer did not come alone. -/
theorem enableSsl_refuses {more : Bytes} (hc : c.IsWritable) (hbuffer : c.buffer = [])
    (hin : c.socket.inbound = 0x53 :: more) (hmore : more ≠ []) (hhost : c.host.isLocal = false)
    (connector : Connector) (tls : TlsOptions) (isRequired : Bool) :
    ∃ c', enableSsl connector tls isRequired c =
      .error (.failed (.protocolViolation .unencryptedData)) c' := by
  obtain ⟨c', hrun⟩ := negotiateSsl_refuses hc hbuffer hin hmore
  unfold enableSsl
  rw [bind_of_ok (get_apply c), if_neg (by rw [hhost]; decide), bind_of_error hrun]
  exact ⟨c', rfl⟩

/-- Over any traffic, the socket is released if and only if all that was read of it was consumed;
then all that was not is still in the socket. -/
theorem after_release (hbuffer : c.buffer = []) (ts : List Traffic) :
    let queue := c.socket.inbound ++ ts.flatMap Traffic.arrived
    let used := consumed ts c.socket.inbound
    ∃ read, queue = read ++ (c.after ts).socket.inbound ∧ queue = used ++ (c.after ts).unread ∧
      used <+: read ∧
      ((∃ socket, (c.after ts).release? = .ok socket) ↔ used = read) ∧
      (∀ socket, (c.after ts).release? = .ok socket →
        socket = (c.after ts).socket ∧ queue = used ++ socket.inbound) ∧
      (used ≠ read → (c.after ts).release? = .error (.protocolViolation .unencryptedData)) := by
  intro queue used
  have hstart : Tallied c.socket.inbound [] [] c := ⟨rfl, hbuffer.symm⟩
  obtain ⟨read, hqueue, hread⟩ := after_tallied ts hstart
  rw [unread_of_buffer hbuffer, List.nil_append, List.nil_append] at hread
  rw [List.nil_append] at hqueue
  have hall : used = read ↔ (c.after ts).buffer = [] := by
    rw [hread]
    exact List.self_eq_append_right
  refine ⟨read, hqueue, ?_, ⟨_, hread.symm⟩, ?_, ?_, ?_⟩
  · rw [show queue = _ from hqueue, hread, List.append_assoc]
    rfl
  · rw [release?_eq, hall]
    by_cases hempty : (c.after ts).buffer = []
    · simp [hempty]
    · simp [hempty]
  · intro socket hsocket
    rw [release?_eq] at hsocket
    split at hsocket
    · next hempty =>
        cases hsocket
        refine ⟨rfl, ?_⟩
        rw [show queue = _ from hqueue, hall.2 hempty]
    · cases hsocket
  · intro hsome
    rw [release?_eq, if_neg (mt hall.2 hsome)]

/-- No octet that was read in the clear is taken for one that came through TLS. A client asks for
TLS with one message and goes on only after the one octet that lets it, with nothing else read. A
socket is released if and only if all that was read of it was consumed, and what it is put under
begins with an empty buffer. -/
theorem handover_loses_nothing :
    (∀ c : Channel, c.IsWritable → c.socket.Took sslRequest (final (negotiateSsl c)).socket) ∧
    (∀ c c' : Channel, negotiateSsl c = .ok true c' →
      c'.buffer = [] ∧ c.unread = 0x53 :: c'.socket.inbound) ∧
    (∀ c : Channel, c.IsWritable → c.buffer = [] →
      ((∃ c', negotiateSsl c = .ok true c') ↔ c.socket.inbound = [0x53]) ∧
      ∀ more, c.socket.inbound = 0x53 :: more → more ≠ [] →
        (∃ c', negotiateSsl c = .error (.failed (.protocolViolation .unencryptedData)) c') ∧
        (c.host.isLocal = false → ∀ connector tls isRequired,
          ∃ c', enableSsl connector tls isRequired c =
            .error (.failed (.protocolViolation .unencryptedData)) c')) ∧
    (∀ (c : Channel) (ts : List Traffic), c.buffer = [] →
      let queue := c.socket.inbound ++ ts.flatMap Traffic.arrived
      let used := consumed ts c.socket.inbound
      ∃ read, queue = read ++ (c.after ts).socket.inbound ∧ queue = used ++ (c.after ts).unread ∧
        used <+: read ∧
        ((∃ socket, (c.after ts).release? = .ok socket) ↔ used = read) ∧
        (∀ socket, (c.after ts).release? = .ok socket →
          socket = (c.after ts).socket ∧ queue = used ++ socket.inbound) ∧
        (used ≠ read → (c.after ts).release? = .error (.protocolViolation .unencryptedData))) ∧
    ∀ (connector : Connector) (tls : TlsOptions) (c : Channel),
      (c.buffer ≠ [] → startTls connector tls c =
        .error (.failed (.protocolViolation .unencryptedData)) (c.told .sslStarting)) ∧
      ∀ c', startTls connector tls c = .ok () c' → c.buffer = [] ∧ c'.buffer = [] ∧
        ∃ inbound shows, c.socket.handshake = .succeeds inbound shows ∧ c'.unread = inbound := by
  refine ⟨fun c => negotiateSsl_took, fun c c' => negotiateSsl_true, fun c hc hbuffer => ⟨⟨?_, ?_⟩,
    fun more hin hmore => ⟨?_, fun hhost => ?_⟩⟩, fun c ts hbuffer => after_release hbuffer ts,
    fun connector tls c => ⟨startTls_refuses connector tls, fun c' => startTls_buffer⟩⟩
  · rintro ⟨c', hrun⟩
    obtain ⟨-, hleft⟩ := negotiateSsl_true hrun
    rw [unread_of_buffer hbuffer] at hleft
    -- Anything behind the answer would have been read with it, and refused.
    cases hmore : c'.socket.inbound with
    | nil => rw [hleft, hmore]
    | cons b bs =>
        obtain ⟨d, hfails⟩ := negotiateSsl_refuses hc hbuffer hleft (by simp [hmore])
        cases hrun.symm.trans hfails
  · exact negotiateSsl_ready hc hbuffer
  · exact negotiateSsl_refuses hc hbuffer hin hmore
  · exact enableSsl_refuses hc hbuffer hin hmore hhost

/-- An octet that follows the answer at once is in the way until it is consumed. -/
theorem handover_stray_octet :
    let c : Channel := { socket := { inbound := [0x53, 0x41] }, host := default }
    c.IsWritable ∧ c.buffer = [] ∧
      (∃ c', enableSsl (.custom {}) {} true c =
        .error (.failed (.protocolViolation .unencryptedData)) c') ∧
      (c.after [.takes .octet]).release? = .error (.protocolViolation .unencryptedData) ∧
      ∃ socket, (c.after [.takes .octet, .takes .octet]).release? = .ok socket := by
  intro c
  have hc : c.IsWritable := ⟨rfl, rfl, rfl⟩
  obtain ⟨-, hrefuses⟩ := handover_loses_nothing.2.2.1 c hc rfl
  obtain ⟨-, hupgrade⟩ := hrefuses [0x41] rfl (List.cons_ne_nil _ _)
  obtain ⟨read, hread, -, -, -, -, hkept⟩ :=
    handover_loses_nothing.2.2.2.1 c [.takes .octet] rfl
  obtain ⟨read', hread', -, -, hreleased, -⟩ :=
    handover_loses_nothing.2.2.2.1 c [.takes .octet, .takes .octet] rfl
  refine ⟨hc, rfl, hupgrade (by decide) _ _ _, hkept ?_, hreleased.2 ?_⟩
  · rintro rfl
    exact absurd hread (by decide)
  · rw [show (c.after [.takes .octet, .takes .octet]).socket.inbound = [] from rfl,
      List.append_nil] at hread'
    exact hread'

end Channel

end PgClient
