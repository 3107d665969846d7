import PgClient.Proofs.Frames

/-!
# When it is decided what a message is

What is read as a message is decided by its own octets: what follows them has no say in it, and
while some of them are missing it is either too early to tell, or certain that the protocol is
broken. `Decides` says this of an operation and the octets it is for. It is put together like
the operations are, from what each field needs, and comes to hold of every message whose end can
be told from its octets: of one that is held to its length by the length (`decided_measured`),
and of the two others that a session meets by the strings they end with.
-/

namespace PgClient.Channel

open Exchange

/-- Octets are missing. Those there are are gone. -/
def Dry {α : Type} (x : Exchange Channel α) (c : Channel) : Prop :=
  x c = .error c.exhausted.dryHalt c.exhausted

/-- An operation comes to a value and has consumed the octets, or finds the protocol broken. -/
def Comes {α : Type} (octets : Bytes) (outcome : Except Violation α) (x : Exchange Channel α)
    (c : Channel) : Prop :=
  match outcome with
  | .ok a => ∃ c', x c = .ok a c' ∧ ReadsOff octets c c'
  | .error cause =>
    ∃ front c', x c = .error (.failed (.protocolViolation cause)) c' ∧ ReadsOff front c c'

/-- Under a character set, these octets are what an operation is for, and this is what comes of
it. -/
structure Decides {α : Type} (charset : Charset) (x : Exchange Channel α) (octets : Bytes)
    (outcome : Except Violation α) : Prop where
  whole : ∀ c rest, c.charset = charset → c.unread = octets ++ rest → Comes octets outcome x c
  part : ∀ front back, octets = front ++ back → back ≠ [] →
    (∀ c, c.charset = charset → c.unread = front → Dry x c) ∨
      (∃ cause, outcome = .error cause) ∧
        ∀ c, c.charset = charset → c.unread = front → Comes octets outcome x c

/-- These octets are what an operation is for, whatever comes of it. -/
def Decided {α : Type} (charset : Charset) (x : Exchange Channel α) (octets : Bytes) : Prop :=
  ∃ outcome, Decides charset x octets outcome

section

variable {α β : Type} {charset : Charset} {octets front back : Bytes} {a : α}
  {cause : Violation}

theorem ReadsOff.exhausted {c c' : Channel} (h : ReadsOff octets c c') :
    c'.exhausted = c.exhausted := by
  rw [h.same]
  rfl

theorem Dry.bind {x : Exchange Channel α} {f : α → Exchange Channel β} {c : Channel}
    (h : Dry x c) : Dry (x >>= f) c :=
  bind_of_error h

theorem Comes.broken {x : Exchange Channel α} {f : α → Exchange Channel β} {c : Channel}
    (h : Comes front (.error cause) x c) : Comes octets (.error cause) (x >>= f) c := by
  obtain ⟨front, c', hrun, hoff⟩ := h
  exact ⟨front, c', bind_of_error hrun, hoff⟩

theorem Comes.after {x : Exchange Channel α} {f : α → Exchange Channel β} {c c' : Channel}
    {outcome : Except Violation β} (hrun : x c = .ok a c') (hoff : ReadsOff front c c')
    (h : Comes back outcome (f a) c') : Comes (front ++ back) outcome (x >>= f) c := by
  cases outcome with
  | ok b =>
      obtain ⟨c₂, hrest, hoff'⟩ := h
      exact ⟨c₂, (bind_of_ok hrun).trans hrest, hoff.trans hoff'⟩
  | error cause =>
      obtain ⟨more, c₂, hrest, hoff'⟩ := h
      exact ⟨front ++ more, c₂, (bind_of_ok hrun).trans hrest, hoff.trans hoff'⟩

/-- Octets are cut within the first part of them, or behind it. -/
theorem cut_cases {first last : Bytes} (h : front ++ back = first ++ last) :
    (∃ more, more ≠ [] ∧ front = first ++ more) ∨
      ∃ more, first = front ++ more ∧ back = more ++ last := by
  rcases List.append_eq_append_iff.1 h with ⟨more, rfl, hback⟩ | ⟨more, rfl, rfl⟩
  · exact .inr ⟨more, rfl, hback⟩
  · cases more with
    | nil => exact .inr ⟨[], by simp, rfl⟩
    | cons b more => exact .inl ⟨_, List.cons_ne_nil b more, rfl⟩

namespace Decides

theorem pure (a : α) : Decides charset (pure a) [] (.ok a) where
  whole c _ _ _ := ⟨c, rfl, .refl c⟩
  part _ _ h hback := absurd (List.append_eq_nil_iff.1 h.symm).2 hback

theorem fail (cause : Violation) (octets : Bytes) :
    Decides charset (Exchange.fail (.protocolViolation cause) : Exchange Channel α) octets
      (.error cause) := by
  have hcomes : ∀ c : Channel, Comes octets (.error cause)
      (Exchange.fail (.protocolViolation cause) : Exchange Channel α) c :=
    fun c => ⟨[], c, rfl, .refl c⟩
  exact ⟨fun c _ _ _ => hcomes c, fun _ _ _ _ => .inr ⟨⟨cause, rfl⟩, fun c _ _ => hcomes c⟩⟩

/-- What is broken stays so, whatever else there was to be read. -/
theorem broken {x : Exchange Channel α} {f : α → Exchange Channel β}
    (hx : Decides charset x front (.error cause)) (back : Bytes) :
    Decides charset (x >>= f) (front ++ back) (.error cause) := by
  refine ⟨fun c rest hcs hc => ?_, fun first last hsplit hlast => ?_⟩
  · rw [List.append_assoc] at hc
    exact (hx.whole c _ hcs hc).broken
  · rcases cut_cases hsplit with ⟨more, hmore, rfl⟩ | ⟨more, rfl, -⟩
    · rcases hx.part first more rfl hmore with hdry | ⟨-, hcomes⟩
      · exact .inl fun c hcs hc => (hdry c hcs hc).bind
      · exact .inr ⟨⟨cause, rfl⟩, fun c hcs hc => (hcomes c hcs hc).broken⟩
    · exact .inr ⟨⟨cause, rfl⟩, fun c hcs hc => (hx.whole c more hcs hc).broken⟩

theorem bind {x : Exchange Channel α} {f : α → Exchange Channel β} {outcome : Except Violation β}
    (hx : Decides charset x front (.ok a)) (hf : Decides charset (f a) back outcome) :
    Decides charset (x >>= f) (front ++ back) outcome := by
  refine ⟨fun c rest hcs hc => ?_, fun first last hsplit hlast => ?_⟩
  · rw [List.append_assoc] at hc
    obtain ⟨c', hrun, hoff⟩ := hx.whole c _ hcs hc
    exact .after hrun hoff (hf.whole c' rest (hoff.charset.trans hcs) (hoff.unread_eq hc))
  · rcases cut_cases hsplit with ⟨more, hmore, rfl⟩ | ⟨more, rfl, hback⟩
    · rcases hx.part first more rfl hmore with hdry | ⟨⟨cause, hok⟩, -⟩
      · exact .inl fun c hcs hc => (hdry c hcs hc).bind
      · cases hok
    · rcases hf.part more last hback hlast with hdry | ⟨hbroken, hcomes⟩
      · refine .inl fun c hcs hc => ?_
        obtain ⟨c', hrun, hoff⟩ := hx.whole c more hcs hc
        have hrest := hdry c' (hoff.charset.trans hcs) (hoff.unread_eq hc)
        rw [Dry, hoff.exhausted] at hrest
        exact (bind_of_ok hrun).trans hrest
      · refine .inr ⟨hbroken, fun c hcs hc => ?_⟩
        obtain ⟨c', hrun, hoff⟩ := hx.whole c more hcs hc
        exact .after hrun hoff (hcomes c' (hoff.charset.trans hcs) (hoff.unread_eq hc))

/-- Nothing else comes of them. -/
theorem eq_of_yields {x : Exchange Channel α} {outcome : Except Violation α}
    (h : Decides charset x octets outcome) (hx : Yields charset x octets a) :
    outcome = .ok a := by
  let c : Channel := { socket := { inbound := octets }, host := default, charset }
  have hc : c.unread = octets ++ [] := (List.append_nil _).symm
  obtain ⟨c', hrun, -⟩ := hx c [] rfl hc
  have hcomes := h.whole c [] rfl hc
  cases outcome with
  | ok b =>
      obtain ⟨_, hrun', -⟩ := hcomes
      cases hrun.symm.trans hrun'
      rfl
  | error cause =>
      obtain ⟨_, _, hrun', -⟩ := hcomes
      cases hrun.symm.trans hrun'

end Decides

namespace Decided

theorem pure (a : α) : Decided charset (pure a) [] :=
  ⟨_, .pure a⟩

theorem bind {x : Exchange Channel α} {f : α → Exchange Channel β} (hx : Decided charset x front)
    (hf : ∀ a, Decided charset (f a) back) : Decided charset (x >>= f) (front ++ back) := by
  obtain ⟨outcome, hx⟩ := hx
  cases outcome with
  | error cause => exact ⟨_, hx.broken back⟩
  | ok a =>
      obtain ⟨outcome, hfa⟩ := hf a
      exact ⟨outcome, hx.bind hfa⟩

/-- The last operation of a sequence may consume nothing. -/
theorem map {x : Exchange Channel α} {f : α → Exchange Channel β} (hx : Decided charset x octets)
    (hf : ∀ a, Decided charset (f a) []) : Decided charset (x >>= f) octets := by
  have hall := hx.bind hf
  rwa [List.append_nil] at hall

/-- Nothing but the character set of a channel matters. -/
theorem ask {f : Channel → Exchange Channel β} {y : Exchange Channel β}
    (hy : Decided charset y octets) (hf : ∀ c, c.charset = charset → f c = y) :
    Decided charset (get >>= f) octets := by
  obtain ⟨outcome, hy⟩ := hy
  have hsame : ∀ c, c.charset = charset → (get >>= f) c = y c := fun c hcs => by
    rw [bind_of_ok (get_apply c), hf c hcs]
  have hcomes : ∀ {octets : Bytes} {c : Channel}, c.charset = charset →
      Comes octets outcome y c → Comes octets outcome (get >>= f) c := fun hcs h => by
    unfold Comes at *
    rwa [hsame _ hcs]
  refine ⟨outcome, fun c rest hcs hc => hcomes hcs (hy.whole c rest hcs hc),
    fun first last hsplit hlast => ?_⟩
  rcases hy.part first last hsplit hlast with hdry | ⟨hbroken, hrest⟩
  · exact .inl fun c hcs hc => (hsame c hcs).trans (hdry c hcs hc)
  · exact .inr ⟨hbroken, fun c hcs hc => hcomes hcs (hrest c hcs hc)⟩

theorem guard {p : Prop} [Decidable p] {cause : Violation} {x : Exchange Channel α}
    (hx : ¬ p → Decided charset x octets) :
    Decided charset (if p then
      (Exchange.fail (.protocolViolation cause) : Exchange Channel PUnit) >>= fun _ => x else x)
      octets := by
  split
  · have hfail : Decides charset (Exchange.fail (.protocolViolation cause)) octets _ :=
      Decides.fail (α := PUnit) cause octets
    have hall := hfail.broken (f := fun _ => x) []
    rw [List.append_nil] at hall
    exact ⟨_, hall⟩
  · next hnot => exact hx hnot

end Decided

/-! ## Fields -/

theorem decides_exactly (octets : Bytes) :
    Decides charset (receiveExactly octets.length) octets (.ok octets) := by
  refine ⟨fun c rest hcs hc => yields_exactly octets c rest hcs hc, fun front back h hback => ?_⟩
  refine .inl fun c _ hc => ?_
  have hlength : c.unread.length < octets.length := by
    have := List.length_pos_iff.2 hback
    rw [h, hc, List.length_append]
    omega
  unfold receiveExactly
  rw [Dry, bind_of_ok (modifyGet_apply _ c), takeExactly_short hlength]
  exact runDry_apply _

theorem decided_exactly {n : Nat} (h : octets.length = n) :
    Decided charset (receiveExactly n) octets :=
  h ▸ ⟨_, decides_exactly octets⟩

theorem decided_word {word : Bytes} (h : word.length = 4) : Decided charset receiveInt32 word :=
  (decided_exactly h).map fun _ => .pure _

theorem decided_bytes {n : Nat} (h : octets.length = n) :
    Decided charset (receiveBytes n) octets := by
  unfold receiveBytes
  exact .guard fun _ => decided_exactly h

theorem decided_string {n : Nat} (h : octets.length = n) :
    Decided charset (receiveString n) octets :=
  (decided_bytes h).map fun bytes =>
    .ask (.pure (charset.decode bytes)) fun _ hcs => by rw [hcs]

theorem decided_reportText {n : Nat} (h : octets.length = n) :
    Decided charset (receiveReportText n) octets :=
  (decided_bytes h).map fun bytes =>
    .ask (.pure (charset.decodeReport bytes)) fun _ hcs => by rw [hcs]

theorem decided_zeroTerminated {text : Bytes} (h : 0 ∉ text) :
    Decided charset receiveZeroTerminated (text ++ [0]) := by
  refine ⟨.ok (charset.decode text), fun c rest hcs hc => yields_zeroTerminated h c rest hcs hc,
    fun front back hsplit hback => .inl fun c _ hc => ?_⟩
  -- The zero octet is the last one, so it is not among the first ones.
  have hzero : 0 ∉ c.unread := by
    rw [hc]
    intro hmem
    obtain ⟨last, b, rfl⟩ : ∃ last b, back = last ++ [b] :=
      ⟨_, _, (List.dropLast_concat_getLast hback).symm⟩
    rw [← List.append_assoc] at hsplit
    obtain ⟨rfl, -⟩ := List.append_inj' hsplit rfl
    exact h (List.mem_append_left _ hmem)
  unfold receiveZeroTerminated
  rw [Dry, bind_of_ok (modifyGet_apply _ c), takeUntilZero_none hzero]
  exact runDry_apply _

theorem decided_accept (body : Except Violation α) : Decided charset (accept body) [] := by
  cases body with
  | ok a => exact .pure a
  | error cause => exact ⟨_, .fail cause []⟩

/-! ## Lengths -/

theorem decides_int32 {i : Int} (h : FitsInt32 i) :
    Decides charset receiveInt32 (Bytes.int32 i) (.ok i) := by
  obtain ⟨outcome, hword⟩ : Decided charset _ _ := decided_word (Bytes.length_int32 i)
  exact hword.eq_of_yields (yields_int32 h.1 h.2) ▸ hword

theorem Decided.length {f : Int → Exchange Channel β} {declared : Int} (hfits : FitsInt32 declared)
    (hf : Decided charset (f declared) octets) :
    Decided charset (receiveInt32 >>= f) (Bytes.int32 declared ++ octets) := by
  obtain ⟨outcome, hf⟩ := hf
  exact ⟨outcome, (decides_int32 hfits).bind hf⟩

theorem Decided.checkedLength {p : Int → Prop} [DecidablePred p] (cause : Int → Violation)
    {f : Nat → Exchange Channel β} {declared : Int} (hfits : FitsInt32 declared)
    (hf : Decided charset (f (declared - 4).toNat) octets) :
    Decided charset ((do
      let length ← receiveInt32
      if p length then Exchange.fail (.protocolViolation (cause length))
      return (length - 4).toNat : Exchange Channel Nat) >>= f)
      (Bytes.int32 declared ++ octets) := by
  rw [bind_assoc]
  refine .length hfits ?_
  split
  · exact ⟨_, by
      have hfail : Decides charset
          (Exchange.fail (.protocolViolation (cause declared)) : Exchange Channel PUnit) octets _ :=
        .fail _ octets
      have hsized := hfail.broken (f := fun _ => Pure.pure (declared - 4).toNat) []
      have hall := hsized.broken (f := f) []
      simpa only [List.append_nil] using hall⟩
  · exact hf

theorem Decided.bodyLength {f : Nat → Exchange Channel β} {declared : Int}
    (hfits : FitsInt32 declared) (hf : Decided charset (f (declared - 4).toNat) octets) :
    Decided charset (receiveBodyLength >>= f) (Bytes.int32 declared ++ octets) :=
  .checkedLength .bodyLength hfits hf

theorem Decided.reportLength {f : Nat → Exchange Channel β} {declared : Int} {kind : String}
    (hfits : FitsInt32 declared) (hf : Decided charset (f (declared - 4).toNat) octets) :
    Decided charset (receiveReportLength kind >>= f) (Bytes.int32 declared ++ octets) :=
  .checkedLength (.reportLength kind) hfits hf

end

/-! ## Messages -/

variable {charset : Charset}

theorem decided_empty {declared : Int} {fields : Bytes} (hfits : FitsInt32 declared)
    (hlen : fields.length = (declared - 4).toNat) (kind : String) (m : BackendMessage) :
    Decided charset (receiveEmpty kind m) (Bytes.int32 declared ++ fields) := by
  refine .length hfits (.guard fun hnot => ?_)
  rw [Decidable.of_not_not hnot] at hlen
  rw [List.length_eq_zero_iff.1 hlen]
  exact .pure m

/-- A message that is held to its length is decided by as many octets as the length says. -/
theorem decided_measured {tag : Tag} (htag : tag.isMeasured = true) {declared : Int}
    (hfits : FitsInt32 declared) {fields : Bytes}
    (hlen : fields.length = (declared - 4).toNat) :
    Decided charset (receiveMessage tag) (Bytes.int32 declared ++ fields) := by
  cases tag with
  | authentication | parameterStatus | notificationResponse => cases htag
  | parseComplete | bindComplete | closeComplete | noData | portalSuspended | emptyQuery =>
      exact decided_empty hfits hlen _ _
  | backendKeyData =>
      refine .length hfits (.guard fun hnot => ?_)
      rw [Decidable.of_not_not hnot] at hlen
      have hword : (fields.take 4).length = 4 := List.length_take_of_le (by omega)
      have hrest : (fields.drop 4).length = 4 := by rw [List.length_drop]; omega
      rw [← List.take_append_drop 4 fields]
      exact (decided_word hword).bind fun _ => (decided_word hrest).map fun _ => .pure _
  | readyForQuery =>
      refine .length hfits (.guard fun hnot => ?_)
      rw [Decidable.of_not_not hnot] at hlen
      exact ((decided_exactly hlen).map fun _ => .pure _).map fun _ => .pure _
  | parameterDescription =>
      exact .bodyLength hfits (((decided_bytes hlen).map fun _ => .pure _).map fun _ => .pure _)
  | rowDescription =>
      exact .bodyLength hfits ((decided_bytes hlen).map fun body =>
        .ask ((decided_accept (Column.decodeAll charset body)).map fun _ => .pure _)
          fun _ hcs => by rw [hcs])
  | dataRow =>
      exact .bodyLength hfits ((decided_bytes hlen).map fun _ =>
        (decided_accept _).map fun _ => .pure _)
  | commandComplete =>
      refine .length hfits (.guard fun hnot => ?_)
      have htext : (fields.take (declared - 5).toNat).length = (declared - 5).toNat :=
        List.length_take_of_le (by omega)
      have hclose : (fields.drop (declared - 5).toNat).length = 1 := by
        rw [List.length_drop]
        omega
      rw [← List.take_append_drop (declared - 5).toNat fields]
      refine (decided_string htext).bind fun _ => ?_
      exact (((decided_exactly hclose).map fun _ => .pure _).map fun _ => .pure _).map fun _ =>
        .pure _
  | errorResponse => exact .reportLength hfits ((decided_reportText hlen).map fun _ => .pure _)
  | noticeResponse => exact .reportLength hfits ((decided_string hlen).map fun _ => .pure _)

theorem decided_parameterStatus {word name value : Bytes} (hword : word.length = 4)
    (hname : 0 ∉ name) (hvalue : 0 ∉ value) :
    Decided charset (receiveMessage .parameterStatus)
      (word ++ ((name ++ [0]) ++ (value ++ [0]))) := by
  have hignored : Decided charset (discard receiveInt32) word :=
    (decided_word hword).map fun _ => .pure ()
  exact hignored.bind fun _ => (decided_zeroTerminated hname).bind fun _ =>
    (decided_zeroTerminated hvalue).map fun _ => .pure _

theorem decided_notificationResponse {word pid channel payload : Bytes} (hword : word.length = 4)
    (hpid : pid.length = 4) (hchannel : 0 ∉ channel) (hpayload : 0 ∉ payload) :
    Decided charset (receiveMessage .notificationResponse)
      (word ++ (pid ++ ((channel ++ [0]) ++ (payload ++ [0])))) := by
  have hignored : Decided charset (discard receiveInt32) word :=
    (decided_word hword).map fun _ => .pure ()
  exact hignored.bind fun _ => (decided_word hpid).bind fun _ =>
    (decided_zeroTerminated hchannel).bind fun _ =>
      (decided_zeroTerminated hpayload).map fun _ => .pure _

/-- A message that is held to its length, and whose octets are there, consumes just those or
breaks the protocol. -/
theorem receive_judges {phase : Phase} {tag : Tag} (haccepts : phase.accepts tag = true)
    (htag : tag.isMeasured = true) {declared : Int} (hfits : FitsInt32 declared) {fields : Bytes}
    (hlen : fields.length = (declared - 4).toNat) (detail : Bool) {c : Channel} {rest : Bytes}
    (hc : c.unread = tag.octet :: (Bytes.int32 declared ++ fields) ++ rest) :
    (∃ m c', receive phase detail c = .ok m c' ∧ c'.unread = rest) ∨
      ∃ cause c', receive phase detail c = .error (.failed (.protocolViolation cause)) c' := by
  have hoctet : Yields c.charset receiveOctet [tag.octet] tag.octet := yields_octet tag.octet
  obtain ⟨c₁, hfirst, hoff⟩ := hoctet c (Bytes.int32 declared ++ fields ++ rest) rfl hc
  unfold receive
  rw [bind_of_ok hfirst, receiveAfter_due haccepts]
  obtain ⟨outcome, hdecides⟩ : Decided c₁.charset _ _ := decided_measured htag hfits hlen
  have hcomes := hdecides.whole c₁ rest rfl (hoff.unread_eq hc)
  cases outcome with
  | ok m =>
      obtain ⟨c₂, hread, hoff'⟩ := hcomes
      have hrest : c₂.unread = rest := hoff'.unread_eq (hoff.unread_eq hc)
      refine .inl ⟨m, _, receiveJournaled_of_ok hread detail, ?_⟩
      split <;> exact hrest
  | error cause =>
      obtain ⟨_, c', hbroken, -⟩ := hcomes
      rw [receiveJournaled_of_error hbroken]
      exact .inr ⟨cause, c', rfl⟩

end PgClient.Channel
