import PgClient.Channel
import PgClient.Proofs.Bytes
import PgClient.Proofs.Exchange

/-!
# Reading from a channel

Where an octet happens to be, in the buffer or still in the socket, is the
channel's own business: what a reader of messages sees is `Channel.unread`, all
the octets still to be consumed. `ReadsOff octets c c'` says that `c'` is `c`
with `octets` consumed from the front of that run and nothing else changed.
Every receive operation is described in these terms twice: which octets it
consumed if it succeeded, and that it succeeds when they are there.

An operation that needs octets which do not come consumes what there is. It
fails with an error that the connection cannot survive, or it waits, and it
only waits on a channel that will stay silent forever.
-/

namespace PgClient.Channel

open Exchange

/-- The second channel is the first one with these octets consumed. -/
structure ReadsOff (octets : Bytes) (c c' : Channel) : Prop where
  unread : c.unread = octets ++ c'.unread
  same : c' = { c with
    buffer := c'.buffer
    socket := { c.socket with inbound := c'.socket.inbound } }

/-- The channel with other octets to read. -/
def refill (c : Channel) (buffer inbound : Bytes) : Channel :=
  { c with buffer, socket := { c.socket with inbound } }

theorem ReadsOff.refl (c : Channel) : ReadsOff [] c c := ⟨rfl, rfl⟩

theorem ReadsOff.trans {a b : Bytes} {c d e : Channel} (h : ReadsOff a c d)
    (h' : ReadsOff b d e) : ReadsOff (a ++ b) c e := by
  refine ⟨by rw [h.unread, h'.unread, List.append_assoc], ?_⟩
  rw [h'.same, h.same]

theorem ReadsOff.charset {octets : Bytes} {c c' : Channel} (h : ReadsOff octets c c') :
    c'.charset = c.charset := by
  rw [h.same]

theorem ReadsOff.journal {octets : Bytes} {c c' : Channel} (h : ReadsOff octets c c') :
    c'.journal = c.journal := by
  rw [h.same]

/-! ## Taking octets -/

theorem unread_drawn (c : Channel) {used drawn : Nat} (h : used ≤ drawn) :
    (c.drawn used drawn).unread = c.socket.inbound.drop used := by
  show (c.socket.inbound.take drawn).drop used ++ c.socket.inbound.drop drawn = _
  rw [List.drop_take]
  conv_rhs => rw [← List.take_append_drop (drawn - used) (c.socket.inbound.drop used)]
  rw [List.drop_drop, Nat.add_sub_cancel' h]

theorem unread_exhausted (c : Channel) : c.exhausted.unread = [] := rfl

theorem exhausted_readsOff (c : Channel) : ReadsOff c.unread c c.exhausted :=
  ⟨by rw [unread_exhausted, List.append_nil], rfl⟩

/-- Octets that have arrived are taken from the front. -/
theorem takeExactly_append {c : Channel} {octets rest : Bytes} (h : c.unread = octets ++ rest) :
    ∃ c', takeExactly octets.length c = (some octets, c') ∧ ReadsOff octets c c' := by
  unfold takeExactly
  simp only []
  split
  · next hfew =>
      have hlen : octets.length ≤ c.buffer.length := by omega
      have hsplit : octets = c.buffer.take octets.length := by
        have := congrArg (List.take octets.length) h
        rw [unread, List.take_append_of_le_length hlen, List.take_left'] at this
        · exact this.symm
        · rfl
      refine ⟨{ c with buffer := c.buffer.drop octets.length }, by rw [← hsplit], ?_, rfl⟩
      show c.buffer ++ c.socket.inbound = octets ++ (c.buffer.drop octets.length ++ _)
      rw [← List.append_assoc]
      conv_rhs => rw [hsplit]
      rw [List.length_take, Nat.min_eq_left hlen, List.take_append_drop]
  · next hmany =>
      have hlen : c.unread.length = c.buffer.length + c.socket.inbound.length :=
        List.length_append
      have hlong := congrArg List.length h
      rw [hlen, List.length_append] at hlong
      rw [if_neg (by omega)]
      have hoctets : c.buffer ++ c.socket.inbound.take (octets.length - c.buffer.length)
          = octets := by
        have := congrArg (List.take octets.length) h
        rw [unread, List.take_append, List.take_of_length_le (by omega), List.take_left'] at this
        · exact this
        · rfl
      refine ⟨_, by rw [hoctets], ?_, rfl⟩
      rw [unread_drawn _ (Nat.le_max_left _ _)]
      calc c.unread = c.buffer ++ c.socket.inbound := rfl
        _ = c.buffer ++ (c.socket.inbound.take (octets.length - c.buffer.length)
              ++ c.socket.inbound.drop (octets.length - c.buffer.length)) := by
            rw [List.take_append_drop]
        _ = _ := by rw [← List.append_assoc, hoctets]

/-- If too few octets arrive, all of them are lost. -/
theorem takeExactly_short {c : Channel} {n : Nat} (h : c.unread.length < n) :
    takeExactly n c = (none, c.exhausted) := by
  have hlen : c.unread.length = c.buffer.length + c.socket.inbound.length := List.length_append
  unfold takeExactly
  simp only []
  rw [if_neg (by omega), if_pos (by omega)]

/-- What was taken is what stood in front. -/
theorem takeExactly_some {c c' : Channel} {n : Nat} {octets : Bytes}
    (h : takeExactly n c = (some octets, c')) : octets.length = n ∧ ReadsOff octets c c' := by
  rcases Nat.lt_or_ge c.unread.length n with hlt | hge
  · rw [takeExactly_short hlt] at h
    cases h
  · have hlen : (c.unread.take n).length = n := List.length_take_of_le hge
    obtain ⟨c₁, h₁, hr⟩ := takeExactly_append (List.take_append_drop n c.unread).symm
    rw [hlen, h] at h₁
    obtain ⟨hoctets, rfl⟩ := Prod.mk.inj h₁
    obtain rfl := Option.some.inj hoctets
    exact ⟨hlen, hr⟩

theorem findZero_none {bs : Bytes} (h : 0 ∉ bs) : bs.findIdx? (· == 0) = none := by
  refine List.findIdx?_eq_none_iff.2 fun b hb => ?_
  have : b ≠ 0 := fun h0 => h (h0 ▸ hb)
  simpa using this

theorem findZero_append {text : Bytes} (h : 0 ∉ text) (tail : Bytes) :
    (text ++ 0 :: tail).findIdx? (· == 0) = some text.length := by
  rw [List.findIdx?_append, findZero_none h, List.findIdx?_cons]
  simp

/-- The first zero octet divides octets in one way only. -/
theorem split_zero_inj {text text' rest rest' : Bytes} (h : 0 ∉ text) (h' : 0 ∉ text')
    (heq : text ++ 0 :: rest = text' ++ 0 :: rest') : text = text' ∧ rest = rest' := by
  have hlen : text.length = text'.length := by
    have := findZero_append h rest
    rw [heq, findZero_append h' rest'] at this
    exact (Option.some.inj this).symm
  obtain ⟨htext, hrest⟩ := List.append_inj heq hlen
  exact ⟨htext, (List.cons.inj hrest).2⟩

/-- A text closed by a zero octet is taken whole, and the zero octet with it. -/
theorem takeUntilZero_append {c : Channel} {text rest : Bytes} (hzero : 0 ∉ text)
    (h : c.unread = text ++ 0 :: rest) :
    ∃ c', takeUntilZero c = (some text, c') ∧ ReadsOff (text ++ [0]) c c' ∧ c'.unread = rest := by
  unfold takeUntilZero
  by_cases hbuf : 0 ∈ c.buffer
  · -- The buffer holds the whole text.
    obtain ⟨front, back, hsplit, hfront⟩ := List.eq_append_cons_of_mem hbuf
    have hunread : c.unread = front ++ 0 :: (back ++ c.socket.inbound) := by
      rw [unread, hsplit, List.append_assoc]
      rfl
    obtain ⟨rfl, rfl⟩ := split_zero_inj hzero hfront (h.symm.trans hunread)
    rw [hsplit, findZero_append hzero]
    simp only []
    have hrest : (text ++ 0 :: back).drop (text.length + 1) = back := by simp
    refine ⟨_, by rw [List.take_left' rfl], ⟨?_, rfl⟩, ?_⟩
    · show c.unread = _ ++ ((text ++ 0 :: back).drop (text.length + 1) ++ c.socket.inbound)
      rw [hrest, hunread]
      simp
    · show (text ++ 0 :: back).drop (text.length + 1) ++ c.socket.inbound = _
      rw [hrest]
  · -- The buffer is taken whole, and the rest of the text from the socket.
    have hin : 0 ∈ c.socket.inbound := by
      have : 0 ∈ c.buffer ++ c.socket.inbound := by
        rw [show c.buffer ++ c.socket.inbound = _ from h]
        simp
      exact (List.mem_append.1 this).resolve_left hbuf
    obtain ⟨front, back, hsplit, hfront⟩ := List.eq_append_cons_of_mem hin
    have hunread : c.unread = (c.buffer ++ front) ++ 0 :: back := by
      rw [unread, hsplit, List.append_assoc]
    have hnot : 0 ∉ c.buffer ++ front := fun hm => (List.mem_append.1 hm).elim hbuf hfront
    obtain ⟨rfl, rfl⟩ := split_zero_inj hzero hnot (h.symm.trans hunread)
    rw [findZero_none hbuf]
    simp only [hsplit, findZero_append hfront]
    have hdraw : front.length + 1 ≤ (front.length / bufferSize + 1) * bufferSize := by
      have := Nat.lt_div_mul_add (a := front.length) (show 0 < bufferSize by decide)
      rw [Nat.add_mul, Nat.one_mul]
      omega
    have hrest : (c.drawn (front.length + 1)
        ((front.length / bufferSize + 1) * bufferSize)).unread = rest := by
      rw [unread_drawn _ hdraw, hsplit]
      simp
    refine ⟨_, by rw [List.take_left' rfl], ⟨?_, rfl⟩, hrest⟩
    rw [hrest, h]
    simp

theorem takeUntilZero_none {c : Channel} (h : 0 ∉ c.unread) :
    takeUntilZero c = (none, c.exhausted) := by
  have hbuf : 0 ∉ c.buffer := fun hm => h (List.mem_append_left _ hm)
  have hin : 0 ∉ c.socket.inbound := fun hm => h (List.mem_append_right _ hm)
  unfold takeUntilZero
  rw [findZero_none hbuf]
  simp only [findZero_none hin]

/-- What was taken is a text without a zero octet, and one stood behind it. -/
theorem takeUntilZero_some {c c' : Channel} {text : Bytes}
    (h : takeUntilZero c = (some text, c')) : 0 ∉ text ∧ ReadsOff (text ++ [0]) c c' := by
  by_cases hmem : 0 ∈ c.unread
  · obtain ⟨front, rest, hsplit, hfront⟩ := List.eq_append_cons_of_mem hmem
    obtain ⟨c₁, h₁, hr, -⟩ := takeUntilZero_append hfront hsplit
    rw [h] at h₁
    obtain ⟨htext, rfl⟩ := Prod.mk.inj h₁
    obtain rfl := Option.some.inj htext
    exact ⟨hfront, hr⟩
  · rw [takeUntilZero_none hmem] at h
    cases h

/-! ## How receiving ends -/

/-- Nothing is left to read, and nothing will ever end the wait for more. -/
structure Silent (c : Channel) : Prop where
  unread : c.unread = []
  healthy : c.socket.faults.read = false
  goesOn : c.socket.ended = false
  unlimited : c.readTimeout = none

/-- The endings of an operation that only reads. -/
structure Reading (c : Channel) (h : Option Halt) (c' : Channel) : Prop where
  reads : ∃ octets, ReadsOff octets c c'
  fatal : ∀ e, h = some (.failed e) → e.isFatal = true
  silent : h = some .waiting → c'.Silent

theorem ReadsOff.reading {octets : Bytes} {c c' : Channel} (h : ReadsOff octets c c') :
    Reading c none c' :=
  ⟨⟨octets, h⟩, nofun, nofun⟩

theorem Reading.failed {c : Channel} {e : Error} (h : e.isFatal = true) :
    Reading c (some (.failed e)) c :=
  ⟨⟨[], .refl c⟩, by rintro _ ⟨⟩; exact h, nofun⟩

theorem reading_composes : Composes Reading where
  refl c := (ReadsOff.refl c).reading
  trans := by
    rintro c d e h ⟨⟨a, ha⟩, -, -⟩ ⟨⟨b, hb⟩, hf, hs⟩
    exact ⟨⟨a ++ b, ha.trans hb⟩, hf, hs⟩

theorem fail_reading {α : Type} {e : Error} (h : e.isFatal = true) :
    Obeys Reading (fail e : Exchange Channel α) :=
  fun _ => Reading.failed h

/-- Why an operation ends that needs octets when none are left. -/
def dryHalt (c : Channel) : Halt :=
  if c.socket.faults.read then .failed (.socket (.reading .connectionReset))
  else if c.socket.ended then .failed (.connectionFailure .closedByServer)
  else c.readTimeout.elim .waiting fun millis => .failed (.connectionFailure (.readTimeout millis))

theorem runDry_apply {α : Type} (c : Channel) :
    (runDry : Exchange Channel α) c = .error c.dryHalt c := by
  unfold runDry dryHalt
  rw [bind_of_ok (get_apply c)]
  by_cases hfault : c.socket.faults.read = true
  · simp only [hfault, if_true]
    rfl
  · by_cases hended : c.socket.ended = true
    · simp only [hfault, hended, if_true, if_false, Bool.false_eq_true]
      rfl
    · simp only [hfault, hended, if_false, Bool.false_eq_true]
      cases c.readTimeout <;> rfl

theorem runDry_reading {α : Type} {c : Channel} (hc : c.unread = []) :
    Reading c (halt? ((runDry : Exchange Channel α) c))
      (final ((runDry : Exchange Channel α) c)) := by
  rw [runDry_apply, halt?_error, final_error]
  unfold dryHalt
  split
  · exact Reading.failed rfl
  · next hfault =>
      split
      · exact Reading.failed rfl
      · next hended =>
          cases htime : c.readTimeout with
          | some millis => exact Reading.failed rfl
          | none =>
              refine ⟨⟨[], .refl c⟩, nofun, fun _ => ?_⟩
              exact ⟨hc, by simpa using hfault, by simpa using hended, htime⟩

/-- An operation that cannot go on without more octets has read all there were. -/
theorem exhausted_runDry_reading {α : Type} (c : Channel) :
    Reading c (halt? ((runDry : Exchange Channel α) c.exhausted))
      (final ((runDry : Exchange Channel α) c.exhausted)) :=
  reading_composes.trans (exhausted_readsOff c).reading (runDry_reading rfl)

theorem receiveExactly_reading (n : Nat) : Obeys Reading (receiveExactly n) := by
  intro c
  unfold receiveExactly
  rw [bind_of_ok (modifyGet_apply _ c)]
  rcases h : takeExactly n c with ⟨_ | octets, c'⟩
  · rcases Nat.lt_or_ge c.unread.length n with hlt | hge
    · rw [takeExactly_short hlt] at h
      obtain rfl := (Prod.mk.inj h).2
      exact exhausted_runDry_reading c
    · obtain ⟨c₁, h₁, -⟩ := takeExactly_append (List.take_append_drop n c.unread).symm
      rw [List.length_take_of_le hge, h] at h₁
      cases (Prod.mk.inj h₁).1
  · exact (takeExactly_some h).2.reading

theorem receiveZeroTerminated_reading : Obeys Reading receiveZeroTerminated := by
  intro c
  unfold receiveZeroTerminated
  rw [bind_of_ok (modifyGet_apply _ c)]
  rcases h : takeUntilZero c with ⟨_ | text, c'⟩
  · by_cases hmem : 0 ∈ c.unread
    · obtain ⟨front, rest, hsplit, hfront⟩ := List.eq_append_cons_of_mem hmem
      obtain ⟨c₁, h₁, -⟩ := takeUntilZero_append hfront hsplit
      rw [h] at h₁
      cases (Prod.mk.inj h₁).1
    · rw [takeUntilZero_none hmem] at h
      obtain rfl := (Prod.mk.inj h).2
      exact exhausted_runDry_reading c
  · exact (takeUntilZero_some h).2.reading

theorem receiveOctet_reading : Obeys Reading receiveOctet :=
  reading_composes.bind (receiveExactly_reading 1) fun _ => reading_composes.pure _

theorem receiveInt32_reading : Obeys Reading receiveInt32 :=
  reading_composes.bind (receiveExactly_reading 4) fun _ => reading_composes.pure _

theorem receiveBytes_reading (n : Nat) : Obeys Reading (receiveBytes n) :=
  reading_composes.guard (fail_reading rfl) (receiveExactly_reading n)

theorem skip_reading (n : Nat) : Obeys Reading (skip n) :=
  reading_composes.bind (receiveBytes_reading n) fun _ => reading_composes.pure _

theorem receiveString_reading (n : Nat) : Obeys Reading (receiveString n) :=
  reading_composes.bind (receiveBytes_reading n) fun _ =>
    reading_composes.bind reading_composes.get fun _ => reading_composes.pure _

theorem receiveReportText_reading (n : Nat) : Obeys Reading (receiveReportText n) :=
  reading_composes.bind (receiveBytes_reading n) fun _ =>
    reading_composes.bind reading_composes.get fun _ => reading_composes.pure _

/-! ## What a success consumed -/

theorem receiveExactly_ok {n : Nat} {c c' : Channel} {octets : Bytes}
    (h : receiveExactly n c = .ok octets c') : octets.length = n ∧ ReadsOff octets c c' := by
  unfold receiveExactly at h
  rw [bind_of_ok (modifyGet_apply _ c)] at h
  rcases ht : takeExactly n c with ⟨_ | taken, c₁⟩
  · rw [ht] at h
    exact absurd ((runDry_apply c₁).symm.trans h) (by simp)
  · rw [ht] at h
    cases h
    exact takeExactly_some ht

theorem receiveOctet_ok {c c' : Channel} {b : UInt8} (h : receiveOctet c = .ok b c') :
    ReadsOff [b] c c' := by
  obtain ⟨octets, c₁, h₁, h₂⟩ := bind_ok h
  cases h₂
  obtain ⟨hlen, hr⟩ := receiveExactly_ok h₁
  obtain ⟨b, rfl⟩ := List.length_eq_one_iff.1 hlen
  exact hr

theorem receiveInt32_ok {c c' : Channel} {i : Int} (h : receiveInt32 c = .ok i c') :
    ReadsOff (Bytes.int32 i) c c' := by
  obtain ⟨octets, c₁, h₁, h₂⟩ := bind_ok h
  cases h₂
  obtain ⟨hlen, hr⟩ := receiveExactly_ok h₁
  rw [Bytes.int32_toInt hlen]
  exact hr

/-! ## What the octets in front yield -/

/-- Under a character set, an operation turns these octets into this value as
soon as they stand in front, whatever follows them. -/
def Yields {α : Type} (charset : Charset) (x : Exchange Channel α) (octets : Bytes) (a : α) :
    Prop :=
  ∀ c rest, c.charset = charset → c.unread = octets ++ rest →
    ∃ c', x c = .ok a c' ∧ ReadsOff octets c c'

section Yields

variable {α β : Type} {charset : Charset}

theorem ReadsOff.unread_eq {octets rest : Bytes} {c c' : Channel} (h : ReadsOff octets c c')
    (hc : c.unread = octets ++ rest) : c'.unread = rest :=
  List.append_cancel_left (h.unread.symm.trans hc)

theorem Yields.pure (a : α) : Yields charset (pure a) [] a :=
  fun c _ _ _ => ⟨c, rfl, .refl c⟩

theorem Yields.bind {x : Exchange Channel α} {f : α → Exchange Channel β} {front back : Bytes}
    {a : α} {b : β} (hx : Yields charset x front a) (hf : Yields charset (f a) back b) :
    Yields charset (x >>= f) (front ++ back) b := by
  intro c rest hcs hc
  rw [List.append_assoc] at hc
  obtain ⟨c₁, h₁, hr₁⟩ := hx c _ hcs hc
  obtain ⟨c₂, h₂, hr₂⟩ := hf c₁ rest (hr₁.charset.trans hcs) (hr₁.unread_eq hc)
  exact ⟨c₂, (bind_of_ok h₁).trans h₂, hr₁.trans hr₂⟩

/-- The last operation of a sequence may consume nothing. -/
theorem Yields.map {x : Exchange Channel α} {f : α → Exchange Channel β} {octets : Bytes}
    {a : α} {b : β} (hx : Yields charset x octets a) (hf : Yields charset (f a) [] b) :
    Yields charset (x >>= f) octets b := by
  have := hx.bind hf
  rw [List.append_nil] at this
  exact this

theorem Yields.bind_get {f : Channel → Exchange Channel β} {octets : Bytes} {b : β}
    (hf : ∀ c, c.charset = charset → Yields charset (f c) octets b) :
    Yields charset (MonadState.get >>= f) octets b := by
  intro c rest hcs hc
  rw [bind_of_ok (get_apply c)]
  exact hf c hcs c rest hcs hc

theorem yields_exactly (octets : Bytes) :
    Yields charset (receiveExactly octets.length) octets octets := by
  intro c rest _ hc
  obtain ⟨c', h, hr⟩ := takeExactly_append hc
  refine ⟨c', ?_, hr⟩
  unfold receiveExactly
  rw [bind_of_ok (modifyGet_apply _ c), h]
  rfl

theorem yields_octet (b : UInt8) : Yields charset receiveOctet [b] b :=
  (yields_exactly [b]).map (.pure _)

theorem yields_int32 {i : Int} (hlo : -2 ^ 31 ≤ i) (hhi : i < 2 ^ 31) :
    Yields charset receiveInt32 (Bytes.int32 i) i := by
  have h : Yields charset _ _ _ := yields_exactly (Bytes.int32 i)
  rw [Bytes.length_int32] at h
  refine h.map ?_
  rw [Bytes.toInt_int32 hlo hhi]
  exact .pure i

theorem yields_bytes {octets : Bytes} (h : octets.length ≤ maxMessageSize) :
    Yields charset (receiveBytes octets.length) octets octets := by
  unfold receiveBytes
  rw [if_neg (by omega)]
  exact yields_exactly octets

theorem yields_skip {octets : Bytes} (h : octets.length ≤ maxMessageSize) :
    Yields charset (skip octets.length) octets () :=
  (yields_bytes h).map (.pure _)

theorem yields_string {octets : Bytes} (h : octets.length ≤ maxMessageSize) :
    Yields charset (receiveString octets.length) octets (charset.decode octets) :=
  (yields_bytes h).map (.bind_get fun c hc => by rw [hc]; exact .pure _)

theorem yields_reportText {octets : Bytes} (h : octets.length ≤ maxMessageSize) :
    Yields charset (receiveReportText octets.length) octets (charset.decodeReport octets) :=
  (yields_bytes h).map (.bind_get fun c hc => by rw [hc]; exact .pure _)

theorem yields_zeroTerminated {text : Bytes} (h : 0 ∉ text) :
    Yields charset receiveZeroTerminated (text ++ [0]) (charset.decode text) := by
  intro c rest hcs hc
  obtain ⟨c', ht, hr, -⟩ := takeUntilZero_append h (by rw [hc]; simp : c.unread = text ++ 0 :: rest)
  refine ⟨c', ?_, hr⟩
  unfold receiveZeroTerminated
  rw [bind_of_ok (modifyGet_apply _ c), ht]
  simp only []
  rw [bind_of_ok (get_apply c'), hr.charset, hcs]
  rfl

end Yields

end PgClient.Channel
