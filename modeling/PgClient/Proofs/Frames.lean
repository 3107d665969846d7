import PgClient.Proofs.Wire

/-!
# Where a message ends

A message declares its length, and it has fields. Of most kinds the reader checks
one against the other, or goes by the length alone. Three kinds are read field by
field without a look at the length: a setting the server reports, a notification,
and a request to prove who the client is. `Frame.Spelt` says for each kind which
octets a message that was accepted has consumed.

`Consumes` starts from a message that was accepted and says which octets are gone.
-/

namespace PgClient

open Exchange

theorem Bytes.toInt_fits {word : Bytes} (h : word.length = 4) : FitsInt32 (toInt word) := by
  unfold toInt FitsInt32
  rw [h]
  have hlo := Int.le_bmod (x := toNat word) (m := span 4) (by decide)
  have hhi := Int.bmod_lt (x := toNat word) (m := span 4) (by decide)
  rw [show span 4 = 4294967296 from rfl] at *
  omega

/-- Whether the reader of a message holds it to its declared length. -/
def Tag.isMeasured : Tag → Bool
  | .authentication | .parameterStatus | .notificationResponse => false
  | _ => true

/-- A message that was read, with the length it declared and the octets of its fields. -/
structure Frame where
  message : BackendMessage
  declared : Int
  fields : Bytes

namespace Frame

def octets (f : Frame) : Bytes :=
  f.message.tag.octet :: Bytes.int32 f.declared ++ f.fields

/-- Where the fields of a message end, whatever they hold. -/
def Spelt (f : Frame) : Prop :=
  match f.message with
  | .authentication .ok => f.fields = Bytes.int32 0
  | .authentication .cleartextPassword => f.fields = Bytes.int32 3
  | .authentication (.md5Password salt) => f.fields = Bytes.int32 5 ++ salt ∧ salt.length = 4
  | .authentication .sasl =>
    ∃ skipped : Bytes, f.fields = Bytes.int32 10 ++ skipped ∧
      skipped.length = (f.declared - 8).toNat
  | .authentication (.other method) => f.fields = Bytes.int32 method
  | .parameterStatus _ _ =>
    ∃ name value : Bytes, 0 ∉ name ∧ 0 ∉ value ∧ f.fields = name ++ [0] ++ (value ++ [0])
  | .notificationResponse notification =>
    ∃ channel payload : Bytes, 0 ∉ channel ∧ 0 ∉ payload ∧
      f.fields = Bytes.int32 notification.pid ++ (channel ++ [0]) ++ (payload ++ [0])
  | .backendKeyData key =>
    f.declared = 12 ∧ f.fields = Bytes.int32 key.pid ++ Bytes.int32 key.secret
  | .readyForQuery status => f.declared = 5 ∧ f.fields = [status]
  | .parseComplete | .bindComplete | .closeComplete | .noData | .portalSuspended | .emptyQuery =>
    f.declared = 4 ∧ f.fields = []
  | .parameterDescription | .rowDescription _ | .dataRow _ _ | .commandComplete _
  | .errorResponse _ | .noticeResponse _ => f.fields.length + 4 = f.declared

/-- A message as the client accepts it. -/
structure Accepted (f : Frame) : Prop where
  fits : FitsInt32 f.declared
  spelt : f.Spelt

/-- A message that is held to its length consumes one octet more than that, for its tag. -/
theorem Spelt.length {f : Frame} (h : f.Spelt) (htag : f.message.tag.isMeasured = true) :
    (f.octets.length : Int) = 1 + f.declared := by
  obtain ⟨message, declared, fields⟩ := f
  have hlength : (fields.length : Int) + 4 = declared := by
    cases message with
    | authentication | parameterStatus | notificationResponse => cases htag
    | backendKeyData =>
        obtain ⟨rfl, rfl⟩ := h
        rw [List.length_append, Bytes.length_int32, Bytes.length_int32]
        rfl
    | readyForQuery | parseComplete | bindComplete | closeComplete | noData | portalSuspended
    | emptyQuery =>
        obtain ⟨rfl, rfl⟩ := h
        rfl
    | parameterDescription | rowDescription | dataRow | commandComplete | errorResponse
    | noticeResponse => exact h
  unfold octets
  rw [List.cons_append, List.length_cons, List.length_append, Bytes.length_int32]
  push_cast
  omega

end Frame

/-! ## What one message consumes -/

namespace Channel

/-- The octets an operation consumed, if it ended with a value, go with the value. -/
def Consumes {α : Type} (P : Bytes → α → Prop) (x : Exchange Channel α) : Prop :=
  ∀ c a c', x c = .ok a c' → ∃ octets, ReadsOff octets c c' ∧ P octets a

section Consumes

variable {α β : Type} {P : Bytes → α → Prop} {Q : Bytes → β → Prop}

theorem Consumes.pure {a : α} (h : P [] a) : Consumes P (pure a) := by
  intro c a' c' hrun
  cases hrun
  exact ⟨[], .refl c, h⟩

theorem Consumes.fail (e : Error) : Consumes P (fail e) := by
  intro c a c' hrun
  cases hrun

theorem Consumes.bind {x : Exchange Channel α} {f : α → Exchange Channel β} (hx : Consumes P x)
    (hf : ∀ front a, P front a → Consumes (fun back b => Q (front ++ back) b) (f a)) :
    Consumes Q (x >>= f) := by
  intro c b c' hrun
  obtain ⟨a, c₁, hfirst, hrest⟩ := bind_ok hrun
  obtain ⟨front, hoff, hfront⟩ := hx c a c₁ hfirst
  obtain ⟨back, hoff', hback⟩ := hf front a hfront c₁ b c' hrest
  exact ⟨front ++ back, hoff.trans hoff', hback⟩

theorem Consumes.bind_get {f : Channel → Exchange Channel β} (hf : ∀ c, Consumes Q (f c)) :
    Consumes Q (MonadState.get >>= f) := by
  intro c b c' hrun
  rw [bind_of_ok (get_apply c)] at hrun
  exact hf c c b c' hrun

/-- The last operation of a sequence may consume nothing. -/
theorem Consumes.map {x : Exchange Channel α} {f : α → Exchange Channel β} (hx : Consumes P x)
    (hf : ∀ octets a, P octets a → Consumes (fun back b => back = [] ∧ Q octets b) (f a)) :
    Consumes Q (x >>= f) := by
  refine hx.bind fun octets a ha => ?_
  intro c b c' hrun
  obtain ⟨back, hoff, rfl, hb⟩ := hf octets a ha c b c' hrun
  refine ⟨[], hoff, ?_⟩
  simp only [List.append_nil]
  exact hb

theorem consumes_exactly (n : Nat) :
    Consumes (fun octets a => octets = a ∧ a.length = n) (receiveExactly n) := by
  intro c a c' hrun
  obtain ⟨hlen, hoff⟩ := receiveExactly_ok hrun
  exact ⟨a, hoff, rfl, hlen⟩

theorem consumes_octet : Consumes (fun octets b => octets = [b]) receiveOctet :=
  fun _ b _ hrun => ⟨[b], receiveOctet_ok hrun, rfl⟩

theorem consumes_int32 :
    Consumes (fun octets i => octets = Bytes.int32 i ∧ FitsInt32 i) receiveInt32 :=
  (consumes_exactly 4).map fun octets word h => .pure ⟨rfl, by
    rw [h.1, Bytes.int32_toInt h.2]
    exact ⟨rfl, Bytes.toInt_fits h.2⟩⟩

theorem consumes_bytes (n : Nat) :
    Consumes (fun octets a => octets = a ∧ a.length = n) (receiveBytes n) := by
  unfold receiveBytes
  split
  · intro c a c' hrun
    obtain ⟨_, _, hfail, -⟩ := bind_ok hrun
    cases hfail
  · exact consumes_exactly n

theorem consumes_skip (n : Nat) : Consumes (fun octets _ => octets.length = n) (skip n) :=
  (consumes_bytes n).map fun _ _ h => .pure ⟨rfl, by rw [h.1]; exact h.2⟩

theorem consumes_string (n : Nat) :
    Consumes (fun octets _ => octets.length = n) (receiveString n) :=
  (consumes_bytes n).map fun _ _ h => .bind_get fun _ => .pure ⟨rfl, by rw [h.1]; exact h.2⟩

theorem consumes_reportText (n : Nat) :
    Consumes (fun octets _ => octets.length = n) (receiveReportText n) :=
  (consumes_bytes n).map fun _ _ h => .bind_get fun _ => .pure ⟨rfl, by rw [h.1]; exact h.2⟩

theorem consumes_zeroTerminated :
    Consumes (fun octets _ => ∃ text, 0 ∉ text ∧ octets = text ++ [0]) receiveZeroTerminated := by
  intro c a c' hrun
  unfold receiveZeroTerminated at hrun
  rw [bind_of_ok (modifyGet_apply _ c)] at hrun
  rcases htake : takeUntilZero c with ⟨_ | text, c₁⟩
  · rw [htake] at hrun
    exact absurd ((runDry_apply c₁).symm.trans hrun) (by simp)
  · rw [htake] at hrun
    cases hrun
    obtain ⟨hzero, hoff⟩ := takeUntilZero_some htake
    exact ⟨_, hoff, text, hzero, rfl⟩

theorem Consumes.guard {p : Prop} [Decidable p] {e : Error} {x : Exchange Channel α}
    (hx : ¬ p → Consumes P x) :
    Consumes P (if p then (Exchange.fail e : Exchange Channel PUnit) >>= fun _ => x else x) := by
  split
  · intro c a c' hrun
    obtain ⟨_, _, hfail, -⟩ := bind_ok hrun
    cases hfail
  · next hnot => exact hx hnot

theorem consumes_accept (body : Except Violation α) :
    Consumes (fun octets _ => octets = []) (accept body) := by
  cases body with
  | ok a => exact .pure rfl
  | error cause => exact .fail _

end Consumes

/-- A length that is checked to cover itself is given as that of the body. -/
theorem consumes_checkedLength {p : Int → Prop} [DecidablePred p] (cause : Int → Violation)
    (hp : ∀ length, ¬ p length → 4 ≤ length) :
    Consumes (fun octets n => octets = Bytes.int32 ((n : Nat) + 4) ∧ FitsInt32 (n + 4)) (do
      let length ← receiveInt32
      if p length then Exchange.fail (.protocolViolation (cause length))
      return (length - 4).toNat) := by
  refine consumes_int32.map fun octets length h => .guard fun hnot => .pure ⟨rfl, ?_⟩
  have hcovers := hp length hnot
  rw [show (((length - 4).toNat : Nat) : Int) + 4 = length by omega]
  exact h

theorem consumes_bodyLength :
    Consumes (fun octets n => octets = Bytes.int32 ((n : Nat) + 4) ∧ FitsInt32 (n + 4))
      receiveBodyLength :=
  consumes_checkedLength .bodyLength fun _ hnot => by omega

theorem consumes_reportLength (kind : String) :
    Consumes (fun octets n => octets = Bytes.int32 ((n : Nat) + 4) ∧ FitsInt32 (n + 4))
      (receiveReportLength kind) :=
  consumes_checkedLength (.reportLength kind) fun _ hnot => by omega

theorem consumes_empty (kind : String) (m : BackendMessage) :
    Consumes (fun octets a => octets = Bytes.int32 4 ∧ a = m) (receiveEmpty kind m) := by
  refine consumes_int32.map fun octets length h => .guard fun hnot => .pure ⟨rfl, ?_, rfl⟩
  rw [h.1, Decidable.of_not_not hnot]

/-- What a message consumes behind its tag. -/
def IsBody (octets : Bytes) (m : BackendMessage) : Prop :=
  ∃ declared fields, octets = Bytes.int32 declared ++ fields ∧
    (Frame.mk m declared fields).Accepted

/-- The fields of a request to prove who the client is end where its method lets them. -/
theorem consumes_authentication : Consumes IsBody (receiveMessage .authentication) := by
  refine Consumes.bind (P := fun octets request => IsBody octets (.authentication request)) ?_
    fun octets request h => .pure (by rw [List.append_nil]; exact h)
  refine consumes_int32.bind fun length declared hlength => ?_
  refine consumes_int32.bind fun word method hmethod => ?_
  obtain ⟨rfl, hfits⟩ := hlength
  obtain ⟨rfl, -⟩ := hmethod
  unfold receiveMethod
  split
  · exact .pure ⟨declared, Bytes.int32 0, by rw [List.append_nil], hfits, rfl⟩
  · exact .pure ⟨declared, Bytes.int32 3, by rw [List.append_nil], hfits, rfl⟩
  · refine (consumes_bytes 4).map fun octets salt h => .pure ⟨rfl, ?_⟩
    obtain ⟨rfl, hlen⟩ := h
    exact ⟨declared, _, rfl, hfits, rfl, hlen⟩
  · split
    · refine (consumes_skip _).map fun octets _ h => .pure ⟨rfl, ?_⟩
      exact ⟨declared, _, rfl, hfits, octets, rfl, h⟩
    · next hshort =>
        refine .pure ⟨declared, _, rfl, hfits, [], rfl, ?_⟩
        show 0 = (declared - 8).toNat
        omega
  · exact .pure ⟨declared, _, rfl, hfits, by rw [List.append_nil]; rfl⟩

theorem consumes_ignoredLength :
    Consumes (fun octets _ => ∃ declared, octets = Bytes.int32 declared ∧ FitsInt32 declared)
      (discard receiveInt32) :=
  consumes_int32.map fun _ declared h => .pure ⟨rfl, declared, h⟩

/-- A message that was read consumed its length and its fields, and these end as `Frame.Spelt`
says. -/
theorem consumes_message (tag : Tag) : Consumes IsBody (receiveMessage tag) := by
  cases tag with
  | authentication => exact consumes_authentication
  | parseComplete | bindComplete | closeComplete | noData | portalSuspended | emptyQuery =>
      intro c m c' hrun
      obtain ⟨octets, hoff, rfl, rfl⟩ := consumes_empty _ _ c m c' hrun
      exact ⟨_, hoff, 4, [], (List.append_nil _).symm, by decide, rfl, rfl⟩
  | backendKeyData =>
      refine consumes_int32.bind fun _ length hlength => .guard fun hnot => ?_
      refine consumes_int32.bind fun _ pid hpid => consumes_int32.map fun _ secret hsecret => ?_
      obtain rfl : length = 12 := Decidable.of_not_not hnot
      rw [hlength.1, hpid.1, hsecret.1]
      exact .pure ⟨rfl, 12, _, rfl, hlength.2, rfl, rfl⟩
  | readyForQuery =>
      refine consumes_int32.bind fun _ length hlength => .guard fun hnot => ?_
      refine consumes_octet.map fun _ status hstatus => ?_
      obtain rfl : length = 5 := Decidable.of_not_not hnot
      rw [hlength.1, hstatus]
      exact .pure ⟨rfl, 5, _, rfl, hlength.2, rfl, rfl⟩
  | parameterStatus =>
      refine consumes_ignoredLength.bind fun _ _ hdeclared => ?_
      refine consumes_zeroTerminated.bind fun _ _ hname => ?_
      refine consumes_zeroTerminated.map fun _ _ hvalue => ?_
      obtain ⟨declared, rfl, hfits⟩ := hdeclared
      obtain ⟨name, hname, rfl⟩ := hname
      obtain ⟨value, hvalue, rfl⟩ := hvalue
      exact .pure ⟨rfl, declared, _, rfl, hfits, name, value, hname, hvalue, rfl⟩
  | notificationResponse =>
      refine consumes_ignoredLength.bind fun _ _ hdeclared => ?_
      refine consumes_int32.bind fun _ pid hpid => ?_
      refine consumes_zeroTerminated.bind fun _ _ hchannel => ?_
      refine consumes_zeroTerminated.map fun _ _ hpayload => ?_
      obtain ⟨declared, rfl, hfits⟩ := hdeclared
      obtain ⟨channel, hchannel, rfl⟩ := hchannel
      obtain ⟨payload, hpayload, rfl⟩ := hpayload
      rw [hpid.1]
      exact .pure ⟨rfl, declared, _, rfl, hfits, channel, payload, hchannel, hpayload,
        (List.append_assoc ..).symm⟩
  | parameterDescription =>
      refine consumes_bodyLength.bind fun _ n hn => (consumes_skip n).map fun fields _ hlen => ?_
      obtain ⟨rfl, hfits⟩ := hn
      exact .pure ⟨rfl, _, fields, rfl, hfits, congrArg (fun n : Nat => (n : Int) + 4) hlen⟩
  | rowDescription =>
      refine consumes_bodyLength.bind fun _ n hn => (consumes_bytes n).bind fun fields body h => ?_
      obtain ⟨rfl, rfl⟩ := h
      obtain ⟨rfl, hfits⟩ := hn
      refine .bind_get fun _ => (consumes_accept _).map fun _ columns hnone => .pure ⟨rfl, ?_⟩
      rw [hnone, List.append_nil]
      exact ⟨_, fields, rfl, hfits, rfl⟩
  | dataRow =>
      refine consumes_bodyLength.bind fun _ n hn => (consumes_bytes n).bind fun fields body h => ?_
      obtain ⟨rfl, rfl⟩ := h
      obtain ⟨rfl, hfits⟩ := hn
      refine (consumes_accept _).map fun _ row hnone => .pure ⟨rfl, ?_⟩
      rw [hnone, List.append_nil]
      exact ⟨_, fields, rfl, hfits, rfl⟩
  | commandComplete =>
      refine consumes_int32.bind fun _ length hlength => .guard fun hnot => ?_
      refine (consumes_string _).bind fun text _ htext => ?_
      refine (consumes_octet.map (f := fun _ => Pure.pure ())
        (Q := fun octets _ => octets.length = 1) fun _ _ h => .pure ⟨rfl, by rw [h]; rfl⟩).map
        fun close _ hclose => .pure ⟨rfl, ?_⟩
      obtain ⟨rfl, hfits⟩ := hlength
      refine ⟨length, text ++ close, rfl, hfits, ?_⟩
      show ((text ++ close).length : Int) + 4 = length
      rw [List.length_append, htext, hclose]
      omega
  | errorResponse =>
      refine (consumes_reportLength _).bind fun _ n hn => ?_
      refine (consumes_reportText n).map fun fields _ hlen => ?_
      obtain ⟨rfl, hfits⟩ := hn
      exact .pure ⟨rfl, _, fields, rfl, hfits, congrArg (fun n : Nat => (n : Int) + 4) hlen⟩
  | noticeResponse =>
      refine (consumes_reportLength _).bind fun _ n hn => ?_
      refine (consumes_string n).map fun fields _ hlen => ?_
      obtain ⟨rfl, hfits⟩ := hn
      exact .pure ⟨rfl, _, fields, rfl, hfits, congrArg (fun n : Nat => (n : Int) + 4) hlen⟩

end Channel

end PgClient
