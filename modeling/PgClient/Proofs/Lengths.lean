import PgClient.Proofs.Framing

/-!
# Lengths that cannot be right

The length of a message is a word that the server chooses. Where a message is held to it, it is
looked at before anything else: it has to lie in the range of its kind, and what is left of it for
the body has to be within `Channel.maxMessageSize`. `Tag.Allows` is both. A length that is not
allowed breaks the protocol while no octet of the body has been touched, and one that is allowed
tells how many octets the body has, whatever they are. `Sized` says this of an operation, and is
put together like the operations are.

The size of a body is computed in a word of 64 bits, to which the length is widened with its sign.
A negative length would come out as a huge number there, and one that does not cover itself would
go below zero; the range of each kind is checked first, and rules out both (`wideSub?_of_le`).

`Spends` is the account of a run: which messages were taken in, each of an allowed length, and what
was lost to a failure at its end.
-/

namespace PgClient

open Exchange

/-! ## Sizes in words of 64 bits -/

/-- A length, widened with its sign to a word of 64 bits, less what is not counted; nothing if that
is more than there is. -/
def wideSub? (length : Int) (less : UInt64) : Option UInt64 :=
  if less ≤ UInt64.ofInt length then some (UInt64.ofInt length - less) else none

theorem toNat_ofInt {length : Int} (hlo : 0 ≤ length) (hfits : FitsInt32 length) :
    (UInt64.ofInt length).toNat = length.toNat := by
  have hhi := hfits.2
  unfold UInt64.ofInt
  rw [UInt64.toNat_ofNat']
  omega

/-- What covers itself can be subtracted from, and the difference is the exact one. -/
theorem wideSub?_of_le {length : Int} {less : UInt64} (hfits : FitsInt32 length)
    (hle : (less.toNat : Int) ≤ length) :
    ∃ size, wideSub? length less = some size ∧ (size.toNat : Int) + less.toNat = length := by
  have hword := toNat_ofInt (by omega) hfits
  have hcovers : less ≤ UInt64.ofInt length := by
    rw [UInt64.le_iff_toNat_le, hword]
    omega
  refine ⟨UInt64.ofInt length - less, if_pos hcovers, ?_⟩
  rw [UInt64.toNat_sub_of_le _ _ hcovers, hword]
  omega

-- Without a look at the range first, the subtraction goes below zero, or comes to a huge size.
example : wideSub? 3 4 = none ∧ wideSub? (-1) 4 = some 0xfffffffffffffffb := by decide

namespace Tag

/-- The lengths that make sense for a kind of message. -/
def Covers : Tag → Int → Prop
  | .backendKeyData, length => length = 12
  | .readyForQuery, length => length = 5
  | .parseComplete, length | .bindComplete, length | .closeComplete, length | .noData, length
  | .portalSuspended, length | .emptyQuery, length => length = 4
  | .errorResponse, length | .noticeResponse, length => 4 < length
  | .commandComplete, length => 5 ≤ length
  | .parameterDescription, length | .rowDescription, length | .dataRow, length => 4 ≤ length
  | .authentication, _ | .parameterStatus, _ | .notificationResponse, _ => True

/-- What of a length is not asked for in one piece: the length itself, and the zero octet that
closes the text of a completed command. -/
def uncounted : Tag → UInt64
  | .commandComplete => 5
  | _ => 4

/-- The length makes sense, and the body is no longer than a message may be. -/
def Allows (tag : Tag) (length : Int) : Prop :=
  tag.Covers length ∧ length - tag.uncounted.toNat ≤ Channel.maxMessageSize

theorem Covers.four_le {tag : Tag} (htag : tag.isMeasured = true) {length : Int}
    (h : tag.Covers length) : 4 ≤ length := by
  cases tag <;> simp_all [Covers, isMeasured] <;> omega

theorem Covers.counted {tag : Tag} (htag : tag.isMeasured = true) {length : Int}
    (h : tag.Covers length) : (tag.uncounted.toNat : Int) ≤ length := by
  cases tag <;> simp_all [Covers, uncounted, isMeasured] <;> omega

end Tag

namespace Channel

variable {α β : Type} {n m : Nat}

/-! ## Octets that are taken whatever they are -/

/-- Just so many octets are what an operation is for, whatever they are. -/
def Takes (n : Nat) (x : Exchange Channel α) : Prop :=
  ∀ (charset : Charset) (octets : Bytes), octets.length = n →
    ∃ a, Decides charset x octets (.ok a)

theorem Takes.pure (a : α) : Takes 0 (pure a) := by
  intro charset octets hlen
  rw [List.length_eq_zero_iff.1 hlen]
  exact ⟨a, .pure a⟩

theorem Takes.bind {x : Exchange Channel α} {f : α → Exchange Channel β} (hx : Takes n x)
    (hf : ∀ a, Takes m (f a)) : Takes (n + m) (x >>= f) := by
  intro charset octets hlen
  obtain ⟨a, hfront⟩ := hx charset (octets.take n) (List.length_take_of_le (by omega))
  obtain ⟨b, hback⟩ := hf a charset (octets.drop n) (by rw [List.length_drop]; omega)
  have hall := hfront.bind hback
  rw [List.take_append_drop] at hall
  exact ⟨b, hall⟩

theorem Takes.map {x : Exchange Channel α} (hx : Takes n x) (g : α → β) :
    Takes n (x >>= fun a => Pure.pure (g a)) :=
  hx.bind fun a => .pure (g a)

theorem takes_exactly (n : Nat) : Takes n (receiveExactly n) := by
  intro charset octets hlen
  subst hlen
  exact ⟨octets, decides_exactly octets⟩

theorem takes_of_decided {x : Exchange Channel α}
    (hdecided : ∀ charset octets, octets.length = n → Decided charset x octets)
    (hyields : ∀ charset (octets : Bytes), octets.length = n → ∃ a, Yields charset x octets a) :
    Takes n x := by
  intro charset octets hlen
  obtain ⟨outcome, hdecides⟩ := hdecided charset octets hlen
  obtain ⟨a, hvalue⟩ := hyields charset octets hlen
  rw [hdecides.eq_of_yields hvalue] at hdecides
  exact ⟨a, hdecides⟩

theorem takes_octet : Takes 1 receiveOctet := (takes_exactly 1).map _

theorem takes_int32 : Takes 4 receiveInt32 := (takes_exactly 4).map _

theorem Takes.runsDry {x : Exchange Channel α} (hx : Takes n x) {c : Channel}
    (hc : c.unread.length < n) : Dry x c := by
  -- with any octets behind those there are, they would be enough
  have hlen : (c.unread ++ List.replicate (n - c.unread.length) 0).length = n := by
    rw [List.length_append, List.length_replicate]
    omega
  obtain ⟨a, hdecides⟩ := hx c.charset _ hlen
  have hmore : List.replicate (n - c.unread.length) (0 : UInt8) ≠ [] := by
    rw [Ne, List.replicate_eq_nil_iff]
    omega
  rcases hdecides.part _ _ rfl hmore with hdry | ⟨⟨cause, hok⟩, -⟩
  · exact hdry c rfl rfl
  · cases hok

/-- So many octets are asked for in one piece: they are taken, or are too many for a message. -/
structure Asks (n : Nat) (x : Exchange Channel α) : Prop where
  takes : n ≤ maxMessageSize → Takes n x
  refuses : maxMessageSize < n →
    ∀ c, x c = .error (.failed (.protocolViolation (.oversized n))) c

theorem asks_bytes (n : Nat) : Asks n (receiveBytes n) where
  takes h := by
    unfold receiveBytes
    rw [if_neg (by omega)]
    exact takes_exactly n
  refuses h c := by
    unfold receiveBytes
    rw [if_pos h]
    rfl

theorem asks_skip (n : Nat) : Asks n (skip n) where
  takes h := ((asks_bytes n).takes h).map _
  refuses h c := bind_of_error ((asks_bytes n).refuses h c)

theorem asks_string (n : Nat) : Asks n (receiveString n) where
  takes h := by
    refine takes_of_decided (fun _ _ => decided_string) ?_
    rintro charset octets rfl
    exact ⟨_, yields_string h⟩
  refuses h c := bind_of_error ((asks_bytes n).refuses h c)

theorem asks_reportText (n : Nat) : Asks n (receiveReportText n) where
  takes h := by
    refine takes_of_decided (fun _ _ => decided_reportText) ?_
    rintro charset octets rfl
    exact ⟨_, yields_reportText h⟩
  refuses h c := bind_of_error ((asks_bytes n).refuses h c)

/-! ## Lengths that are heeded -/

/-- An operation ends with a value, or finds the protocol broken, and leaves these octets. -/
def Leaves (x : Exchange Channel α) (c : Channel) (rest : Bytes) : Prop :=
  ∃ c', c'.unread = rest ∧
    ((∃ a, x c = .ok a c') ∨ ∃ cause, x c = .error (.failed (.protocolViolation cause)) c')

/-- Behind a head, an operation is for `size` more octets, whatever they are, if it is allowed to go
on, and breaks off if it is not. -/
structure Sized (head : Bytes) (allowed : Prop) (size : Nat) (x : Exchange Channel α) : Prop where
  refuses : ¬ allowed → ∀ c rest, c.unread = head ++ rest →
    ∃ cause c', x c = .error (.failed (.protocolViolation cause)) c' ∧ c'.unread = rest
  takes : allowed → ∀ c body rest, body.length = size → c.unread = head ++ (body ++ rest) →
    Leaves x c rest
  runsDry : allowed → ∀ c rest, rest.length < size → c.unread = head ++ rest → Dry x c

variable {head front : Bytes} {allowed : Prop} {size : Nat}

theorem Sized.of_takes {x : Exchange Channel α} {f : α → Exchange Channel β} (hx : Takes size x)
    (hallowed : allowed) (hf : ∀ a c, Leaves (f a) c c.unread) :
    Sized [] allowed size (x >>= f) where
  refuses hnot := absurd hallowed hnot
  takes := by
    intro _ c body rest hlen hc
    obtain ⟨a, hdecides⟩ := hx c.charset body hlen
    obtain ⟨c₁, hrun, hoff⟩ := hdecides.whole c rest rfl hc
    obtain ⟨c₂, hsame, hends⟩ := hf a c₁
    unfold Leaves
    rw [bind_of_ok hrun]
    exact ⟨c₂, hsame.trans (hoff.unread_eq hc), hends⟩
  runsDry := by
    intro _ c rest hlen hc
    exact Dry.bind (hx.runsDry (by rw [hc]; exact hlen))

theorem leaves_pure (a : α) (c : Channel) : Leaves (pure a) c c.unread :=
  ⟨c, rfl, .inl ⟨a, rfl⟩⟩

theorem Sized.of_value {x : Exchange Channel α} (hx : Takes size x) (hallowed : allowed) :
    Sized [] allowed size x := by
  have h := of_takes hx hallowed leaves_pure
  rwa [bind_pure] at h

theorem Sized.refused {cause : Violation} {x : Exchange Channel α}
    (hx : ∀ c, x c = .error (.failed (.protocolViolation cause)) c) (hnot : ¬ allowed) :
    Sized [] allowed size x where
  refuses _ c _ hc := ⟨cause, c, hx c, hc⟩
  takes hallowed := absurd hallowed hnot
  runsDry hallowed := absurd hallowed hnot

theorem Sized.guard {p : Prop} [Decidable p] {cause : Violation} {x : Exchange Channel α}
    (hp : p → ¬ allowed) (hx : ¬ p → Sized [] allowed size x) :
    Sized [] allowed size (if p then
      (Exchange.fail (.protocolViolation cause) : Exchange Channel PUnit) >>= fun _ => x
      else x) := by
  by_cases h : p
  · rw [if_pos h]
    exact .refused (fun _ => rfl) (hp h)
  · rw [if_neg h]
    exact hx h

theorem Sized.of_asks {x : Exchange Channel α} {f : α → Exchange Channel β} (hx : Asks size x)
    (hallowed : allowed ↔ size ≤ maxMessageSize) (hf : ∀ a c, Leaves (f a) c c.unread) :
    Sized [] allowed size (x >>= f) := by
  by_cases h : maxMessageSize < size
  · have hnot : ¬ allowed := by
      rw [hallowed]
      omega
    exact .refused (fun c => bind_of_error (hx.refuses h c)) hnot
  · exact .of_takes (hx.takes (by omega)) (hallowed.2 (by omega)) hf

/-- What is read ahead belongs to the head. -/
theorem Sized.after {x : Exchange Channel α} {f : α → Exchange Channel β} {a : α}
    (hx : ∀ charset, Yields charset x front a) (hf : Sized head allowed size (f a)) :
    Sized (front ++ head) allowed size (x >>= f) where
  refuses := by
    intro hnot c rest hc
    rw [List.append_assoc] at hc
    obtain ⟨c₁, hrun, hoff⟩ := hx _ c _ rfl hc
    rw [bind_of_ok hrun]
    exact hf.refuses hnot c₁ rest (hoff.unread_eq hc)
  takes := by
    intro hallowed c body rest hlen hc
    rw [List.append_assoc] at hc
    obtain ⟨c₁, hrun, hoff⟩ := hx _ c _ rfl hc
    unfold Leaves
    rw [bind_of_ok hrun]
    exact hf.takes hallowed c₁ body rest hlen (hoff.unread_eq hc)
  runsDry := by
    intro hallowed c rest hlen hc
    rw [List.append_assoc] at hc
    obtain ⟨c₁, hrun, hoff⟩ := hx _ c _ rfl hc
    have hdry := hf.runsDry hallowed c₁ rest hlen (hoff.unread_eq hc)
    unfold Dry at hdry ⊢
    rw [bind_of_ok hrun, hdry, hoff.exhausted]

theorem Sized.word {f : Int → Exchange Channel β} {i : Int} (hfits : FitsInt32 i)
    (hf : Sized [] allowed size (f i)) :
    Sized (Bytes.int32 i) allowed size (receiveInt32 >>= f) := by
  have h := after (fun _ => yields_int32 hfits.1 hfits.2) hf
  rwa [List.append_nil] at h

theorem Sized.bind {x : Exchange Channel α} {f : α → Exchange Channel β}
    (hx : Sized head allowed size x) (hf : ∀ a c, ∃ b c', f a c = .ok b c' ∧ c'.unread = c.unread) :
    Sized head allowed size (x >>= f) where
  refuses := by
    intro hnot c rest hc
    obtain ⟨cause, c₁, hrun, hrest⟩ := hx.refuses hnot c rest hc
    exact ⟨cause, c₁, bind_of_error hrun, hrest⟩
  takes := by
    intro hallowed c body rest hlen hc
    obtain ⟨c₁, hrest, ⟨a, hrun⟩ | ⟨cause, hrun⟩⟩ := hx.takes hallowed c body rest hlen hc
    · obtain ⟨b, c₂, hlast, hsame⟩ := hf a c₁
      exact ⟨c₂, hsame.trans hrest, .inl ⟨b, (bind_of_ok hrun).trans hlast⟩⟩
    · exact ⟨c₁, hrest, .inr ⟨cause, bind_of_error hrun⟩⟩
  runsDry := by
    intro hallowed c rest hlen hc
    exact (hx.runsDry hallowed c rest hlen hc).bind

/-! ## Messages that are held to their length -/

theorem leaves_accept (body : Except Violation α) (g : α → β) (c : Channel) :
    Leaves (accept body >>= fun a => Pure.pure (g a)) c c.unread := by
  cases body with
  | ok a => exact leaves_pure (g a) c
  | error cause => exact ⟨c, rfl, .inr ⟨cause, rfl⟩⟩

/-- A length that has to cover itself is looked at, and then a body of what is left of it is asked
for. -/
theorem sized_body {p : Int → Prop} [DecidablePred p] {cause : Int → Violation}
    {x : Nat → Exchange Channel α} {f : Nat → α → Exchange Channel β} {length : Int}
    (hfits : FitsInt32 length) (hcovers : ¬ p length → 4 ≤ length)
    (hallowed : allowed ↔ ¬ p length ∧ length - 4 ≤ maxMessageSize) (hx : ∀ n, Asks n (x n))
    (hf : ∀ n a c, Leaves (f n a) c c.unread) :
    Sized (Bytes.int32 length) allowed (length - 4).toNat ((do
      let length ← receiveInt32
      if p length then Exchange.fail (.protocolViolation (cause length))
      return (length - 4).toNat : Exchange Channel Nat) >>= fun n => x n >>= f n) := by
  rw [bind_assoc]
  refine .word hfits ?_
  by_cases h : p length
  · rw [if_pos h]
    exact .refused (fun _ => rfl) fun hallows => (hallowed.1 hallows).1 h
  · rw [if_neg h]
    have hleast := hcovers h
    have hsize : allowed ↔ (length - 4).toNat ≤ maxMessageSize := by
      rw [hallowed, and_iff_right h]
      omega
    show Sized [] allowed _ (x (length - 4).toNat >>= f (length - 4).toNat)
    exact .of_asks (hx _) hsize (hf _)

theorem sized_empty {length : Int} (hfits : FitsInt32 length) (hsize : size = (length - 4).toNat)
    (hallowed : allowed ↔ length = 4) (kind : String) (message : BackendMessage) :
    Sized (Bytes.int32 length) allowed size (receiveEmpty kind message) := by
  refine .word hfits (.guard (fun h => by rw [hallowed]; exact h) fun h => ?_)
  obtain rfl : length = 4 := Decidable.of_not_not h
  rw [hsize]
  exact .of_value (.pure message) (hallowed.2 rfl)

/-- The rest of a message that is held to its length: behind a length that is allowed, the body is
as long as the length says. -/
theorem sized_message {tag : Tag} (htag : tag.isMeasured = true) {length : Int}
    (hfits : FitsInt32 length) :
    Sized (Bytes.int32 length) (tag.Allows length) (length - 4).toNat (receiveMessage tag) := by
  have hempty : (length = 4 ∧ length - 4 ≤ maxMessageSize) ↔ length = 4 := by omega
  have hbody : (4 ≤ length ∧ length - 4 ≤ maxMessageSize) ↔
      ¬ length < 4 ∧ length - 4 ≤ maxMessageSize := by omega
  have hreport : (4 < length ∧ length - 4 ≤ maxMessageSize) ↔
      ¬ length ≤ 4 ∧ length - 4 ≤ maxMessageSize := by omega
  cases tag with
  | authentication | parameterStatus | notificationResponse => cases htag
  | parseComplete | bindComplete | closeComplete | noData | portalSuspended | emptyQuery =>
      exact sized_empty hfits rfl hempty _ _
  | backendKeyData =>
      refine .word hfits (.guard (fun h hallows => h hallows.1) fun h => ?_)
      obtain rfl : length = 12 := Decidable.of_not_not h
      exact .of_value (takes_int32.bind fun _ => takes_int32.map _) ⟨rfl, by decide⟩
  | readyForQuery =>
      refine .word hfits (.guard (fun h hallows => h hallows.1) fun h => ?_)
      obtain rfl : length = 5 := Decidable.of_not_not h
      exact .of_value (takes_octet.map _) ⟨rfl, by decide⟩
  | parameterDescription =>
      exact sized_body hfits (fun h => by omega) hbody asks_skip fun _ _ => leaves_pure _
  | rowDescription =>
      refine sized_body hfits (fun h => by omega) hbody asks_bytes fun _ body c => ?_
      unfold Leaves
      rw [bind_of_ok (get_apply c)]
      exact leaves_accept (Column.decodeAll c.charset body) _ c
  | dataRow =>
      exact sized_body hfits (fun h => by omega) hbody asks_bytes fun _ body => leaves_accept _ _
  | commandComplete =>
      refine .word hfits (.guard (fun h hallows => ?_) fun h => ?_)
      · have hcovers : 5 ≤ length := hallows.1
        omega
      -- the text is asked for in one piece, and the octet that closes it after that
      by_cases hover : maxMessageSize < (length - 5).toNat
      · refine .refused (fun c => bind_of_error ((asks_string _).refuses hover c)) fun hallows => ?_
        have hsize : length - 5 ≤ maxMessageSize := hallows.2
        omega
      · have htakes := ((asks_string (length - 5).toNat).takes (by omega)).bind fun tag =>
          (takes_octet.map fun _ => ()).map fun _ => BackendMessage.commandComplete tag
        have hsize : (length - 5).toNat + 1 = (length - 4).toNat := by omega
        have hallows : 5 ≤ length ∧ length - 5 ≤ maxMessageSize := by omega
        rw [hsize] at htakes
        exact .of_value htakes hallows
  | errorResponse =>
      exact sized_body hfits (fun h => by omega) hreport asks_reportText fun _ _ => leaves_pure _
  | noticeResponse =>
      exact sized_body hfits (fun h => by omega) hreport asks_string fun _ _ => leaves_pure _

/-- What is skipped of a request for SASL is what its length leaves, which may be nothing. -/
theorem sized_sasl {length : Int} (hfits : FitsInt32 length) :
    Sized (Bytes.int32 length ++ Bytes.int32 10) (length - 8 ≤ maxMessageSize) (length - 8).toNat
      (receiveMessage .authentication) := by
  have hskip : Sized [] (length - 8 ≤ maxMessageSize) (length - 8).toNat
      (if 8 < length then skip (length - 8).toNat >>= fun _ => pure AuthenticationRequest.sasl
        else pure .sasl) := by
    by_cases h : 8 < length
    · rw [if_pos h]
      have hsize : length - 8 ≤ maxMessageSize ↔ (length - 8).toNat ≤ maxMessageSize := by omega
      exact .of_asks (asks_skip _) hsize fun _ => leaves_pure _
    · rw [if_neg h, show (length - 8).toNat = 0 by omega]
      exact .of_value (.pure _) (by omega)
  have hrequest : Sized (Bytes.int32 length ++ Bytes.int32 10) (length - 8 ≤ maxMessageSize)
      (length - 8).toNat receiveAuthentication := by
    refine .after (fun _ => yields_int32 hfits.1 hfits.2) ?_
    exact .word (by decide) hskip
  exact hrequest.bind fun request c => ⟨.authentication request, c, rfl, rfl⟩

/-! ## Whole messages -/

theorem sized_receiveAfter {phase : Phase} {tag : Tag} (haccepts : phase.accepts tag = true)
    (hm : Sized head allowed size (receiveMessage tag)) (detail : Bool) :
    Sized head allowed size (receiveAfter phase tag.octet detail) := by
  rw [receiveAfter_due haccepts]
  refine hm.bind fun message c => ?_
  by_cases h : keeps message = true
  · rw [if_pos h]
    exact ⟨message, _, rfl, rfl⟩
  · rw [if_neg h]
    exact ⟨message, c, rfl, rfl⟩

theorem sized_receive {phase : Phase} {tag : Tag} (haccepts : phase.accepts tag = true)
    (hm : Sized head allowed size (receiveMessage tag)) (detail : Bool) :
    Sized (tag.octet :: head) allowed size (receive phase detail) :=
  .after (fun _ => yields_octet tag.octet) (sized_receiveAfter haccepts hm detail)

theorem dry_of_short {tag : Tag} (htag : tag.isMeasured = true) {c : Channel}
    (hc : c.unread.length < 4) : Dry (receiveMessage tag) c := by
  have hword : Dry receiveInt32 c := takes_int32.runsDry hc
  cases tag with
  | authentication | parameterStatus | notificationResponse => cases htag
  | parameterDescription | rowDescription | dataRow | errorResponse | noticeResponse =>
      exact hword.bind.bind
  | _ => exact hword.bind

/-! ## What a run spends -/

/-- What is lost of a last message when a run halts, and what is left then. -/
inductive Loss : Bytes → Option Halt → Bytes → Prop where
  | nothing {h : Option Halt} {left : Bytes} : Loss [] h left
  /-- The tag makes no sense. -/
  | rejected {octet : UInt8} {cause : Violation} {left : Bytes} :
    Loss [octet] (some (.failed (.protocolViolation cause))) left
  /-- The length is not allowed, and the body is untouched. -/
  | refused {tag : Tag} {length : Int} {cause : Violation} {left : Bytes}
    (measured : tag.isMeasured = true) (fits : FitsInt32 length) (bad : ¬ tag.Allows length) :
    Loss (tag.octet :: Bytes.int32 length) (some (.failed (.protocolViolation cause))) left
  /-- The body cannot be taken apart, and is as long as its length says. -/
  | malformed {tag : Tag} {length : Int} {body : Bytes} {cause : Violation} {left : Bytes}
    (measured : tag.isMeasured = true) (fits : FitsInt32 length) (good : tag.Allows length)
    (size : (body.length : Int) + 4 = length) :
    Loss (tag.octet :: Bytes.int32 length ++ body) (some (.failed (.protocolViolation cause))) left
  /-- The octets run out within the body. -/
  | cut {tag : Tag} {length : Int} {part : Bytes} {c : Channel} (measured : tag.isMeasured = true)
    (fits : FitsInt32 length) (good : tag.Allows length)
    (size : (part.length : Int) + 4 < length) :
    Loss (tag.octet :: Bytes.int32 length ++ part) (some c.dryHalt) []
  /-- The octets run out before the length is there. -/
  | headless {octets : Bytes} {c : Channel} (few : octets.length < 5) :
    Loss octets (some c.dryHalt) []
  /-- The message is not held to its length. -/
  | unmeasured {tag : Tag} {octets : Bytes} {halt : Halt} {left : Bytes}
    (ends : tag.isMeasured = false) : Loss (tag.octet :: octets) (some halt) left

theorem Loss.eq_nil {lost left : Bytes} (h : Loss lost none left) : lost = [] := by
  cases h
  rfl

end Channel

/-- A message as the client accepts it, of a length that its kind allows. -/
structure Frame.Allowed (f : Frame) : Prop extends f.Accepted where
  allows : f.message.tag.isMeasured = true → f.message.tag.Allows f.declared

namespace Channel

/-- What was read and is not left went into messages of allowed lengths, or was lost. -/
def Spends (front : Bytes) (h : Option Halt) (back : Bytes) : Prop :=
  ∃ (frames : List Frame) (lost : Bytes), (∀ f ∈ frames, f.Allowed) ∧
    front = frames.flatMap Frame.octets ++ (lost ++ back) ∧ Loss lost h back

theorem Spends.nothing (octets : Bytes) (h : Option Halt) : Spends octets h octets :=
  ⟨[], [], List.forall_mem_nil _, rfl, .nothing⟩

theorem Spends.of_loss {front lost back : Bytes} {h : Option Halt} (hlost : Loss lost h back)
    (hfront : front = lost ++ back) : Spends front h back :=
  ⟨[], lost, List.forall_mem_nil _, hfront, hlost⟩

theorem Spends.trans {front middle back : Bytes} {h : Option Halt}
    (hfirst : Spends front none middle) (hlast : Spends middle h back) : Spends front h back := by
  obtain ⟨fs, lost, hfs, rfl, hlost⟩ := hfirst
  obtain ⟨gs, lost', hgs, rfl, hlost'⟩ := hlast
  refine ⟨fs ++ gs, lost', ?_, ?_, hlost'⟩
  · intro f hf
    exact (List.mem_append.1 hf).elim (hfs f) (hgs f)
  · rw [hlost.eq_nil, List.nil_append, List.flatMap_append, List.append_assoc]

/-- Once the length is there, it tells how the reading of a message has failed. -/
theorem loss_behind_length {tag : Tag} (htag : tag.isMeasured = true) {length : Int}
    (hfits : FitsInt32 length) {c c' : Channel} {rest : Bytes} {halt : Halt}
    (hc : c.unread = Bytes.int32 length ++ rest) (hrun : receiveMessage tag c = .error halt c') :
    Spends (tag.octet :: c.unread) (some halt) c'.unread := by
  have hsized := sized_message htag hfits
  by_cases hallows : tag.Allows length
  · have hleast := hallows.1.four_le htag
    by_cases hfew : rest.length < (length - 4).toNat
    · -- the body is cut off
      have hdry := (hsized.runsDry hallows c rest hfew hc).symm.trans hrun
      obtain ⟨rfl, rfl⟩ : c.exhausted.dryHalt = halt ∧ c.exhausted = c' := by simpa using hdry
      have hloss : Loss (tag.octet :: Bytes.int32 length ++ rest) (some c.exhausted.dryHalt) [] :=
        .cut htag hfits hallows (by omega)
      exact .of_loss hloss (by simp [hc, unread_exhausted])
    · obtain ⟨body, left, hlen, rfl⟩ : ∃ body left : Bytes,
          body.length = (length - 4).toNat ∧ rest = body ++ left :=
        ⟨rest.take _, rest.drop _, List.length_take_of_le (by omega),
          (List.take_append_drop _ _).symm⟩
      obtain ⟨c₁, rfl, ⟨a, hok⟩ | ⟨cause, herror⟩⟩ := hsized.takes hallows c body left hlen hc
      · cases hok.symm.trans hrun
      · cases herror.symm.trans hrun
        have hloss : Loss (tag.octet :: Bytes.int32 length ++ body)
            (some (.failed (.protocolViolation cause))) c'.unread :=
          .malformed htag hfits hallows (by omega)
        exact .of_loss hloss (by simp [hc])
  · obtain ⟨cause, c₁, herror, rfl⟩ := hsized.refuses hallows c rest hc
    cases herror.symm.trans hrun
    have hloss : Loss (tag.octet :: Bytes.int32 length)
        (some (.failed (.protocolViolation cause))) c'.unread := .refused htag hfits hallows
    exact .of_loss hloss (by simp [hc])

theorem measured_loss {tag : Tag} (htag : tag.isMeasured = true) {c c' : Channel} {halt : Halt}
    (hrun : receiveMessage tag c = .error halt c') :
    Spends (tag.octet :: c.unread) (some halt) c'.unread := by
  by_cases hshort : c.unread.length < 4
  · have hdry := (dry_of_short htag hshort).symm.trans hrun
    obtain ⟨rfl, rfl⟩ : c.exhausted.dryHalt = halt ∧ c.exhausted = c' := by simpa using hdry
    have hloss : Loss (tag.octet :: c.unread) (some c.exhausted.dryHalt) [] :=
      .headless (by rw [List.length_cons]; omega)
    exact .of_loss hloss (List.append_nil _).symm
  · have hword : (c.unread.take 4).length = 4 := List.length_take_of_le (by omega)
    have hc : c.unread = Bytes.int32 (Bytes.toInt (c.unread.take 4)) ++ c.unread.drop 4 := by
      rw [Bytes.int32_toInt hword, List.take_append_drop]
    exact loss_behind_length htag (Bytes.toInt_fits hword) hc hrun

theorem allows_of_ok {tag : Tag} (htag : tag.isMeasured = true) {length : Int}
    (hfits : FitsInt32 length) {c c' : Channel} {rest : Bytes} {message : BackendMessage}
    (hc : c.unread = Bytes.int32 length ++ rest) (hrun : receiveMessage tag c = .ok message c') :
    tag.Allows length := by
  by_contra hnot
  obtain ⟨cause, c₁, herror, -⟩ := (sized_message htag hfits).refuses hnot c rest hc
  cases herror.symm.trans hrun

theorem receiveAfter_spends (phase : Phase) (octet : UInt8) (detail : Bool) (c : Channel) :
    Spends (octet :: c.unread) (halt? (receiveAfter phase octet detail c))
      (final (receiveAfter phase octet detail c)).unread := by
  generalize hrun : receiveAfter phase octet detail c = r
  cases arrival_of_run hrun with
  | undue =>
      have hloss : Loss [octet] (some (.failed (.protocolViolation (phase.rejection octet))))
          c.unread := .rejected
      split <;> exact .of_loss hloss rfl
  | @broken tag halt c' htag _ hread =>
      subst htag
      cases hmeasured : tag.isMeasured with
      | true => exact measured_loss hmeasured hread
      | false =>
          obtain ⟨octets, hoff⟩ := ((receiveMessage_reading tag).error hread).reads
          have hloss : Loss (tag.octet :: octets) (some halt) c'.unread := .unmeasured hmeasured
          exact .of_loss hloss (by simp [hoff.unread])
  | @whole message c₁ htag _ hread =>
      subst htag
      obtain ⟨body, hoff, length, fields, rfl, haccepted⟩ :=
        consumes_message message.tag c message c₁ hread
      have hc := hoff.unread
      rw [List.append_assoc] at hc
      have hallowed : (Frame.mk message length fields).Allowed :=
        ⟨haccepted, fun hmeasured => allows_of_ok hmeasured haccepted.fits hc hread⟩
      have hspends : Spends (message.tag.octet :: c.unread) none c₁.unread := by
        refine ⟨[Frame.mk message length fields], [], List.forall_mem_singleton.2 hallowed, ?_,
          .nothing⟩
        simp [Frame.octets, hc]
      split <;> exact hspends

theorem receive_spends (phase : Phase) (detail : Bool) :
    Obeys (fun c h c' => Spends c.unread h c'.unread) (receive phase detail) := by
  intro c
  unfold receive
  rw [bind_apply]
  by_cases hshort : c.unread.length < 1
  · have hdry : receiveOctet c = _ := takes_octet.runsDry hshort
    have hloss : Loss [] (some c.exhausted.dryHalt) [] := .nothing
    rw [hdry]
    exact .of_loss hloss (List.length_eq_zero_iff.1 (by omega))
  · obtain ⟨octet, rest, hc⟩ : ∃ octet rest, c.unread = octet :: rest :=
      List.exists_cons_of_length_pos (by omega)
    obtain ⟨c₁, hread, hoff⟩ := yields_octet octet c rest rfl hc
    rw [hread, hoff.unread]
    exact receiveAfter_spends phase octet detail c₁

theorem awaitOctet_error {wait : Nat} {c c' : Channel} {halt : Halt}
    (h : awaitOctet wait c = .error halt c') : c.unread = [] ∧ c'.unread = [] := by
  unfold awaitOctet at h
  rw [bind_of_ok (modifyGet_apply _ c)] at h
  by_cases hshort : c.unread.length < 1
  · rw [takeExactly_short hshort] at h
    simp only [] at h
    rw [bind_of_ok (get_apply _)] at h
    split at h
    · cases h
    · rw [runDry_apply] at h
      cases h
      exact ⟨List.length_eq_zero_iff.1 (by omega), rfl⟩
  · obtain ⟨octet, rest, hc⟩ : ∃ octet rest, c.unread = octet :: rest :=
      List.exists_cons_of_length_pos (by omega)
    have hsplit : c.unread = [octet] ++ rest := hc
    obtain ⟨c₁, htake, -⟩ := takeExactly_append hsplit
    rw [show takeExactly 1 c = _ from htake] at h
    cases h

/-! ## Logging in -/

theorem spends_composes : Composes fun c h (c' : Channel) => Spends c.unread h c'.unread where
  refl c := .nothing c.unread none
  trans := Spends.trans

theorem keeps_spends {x : Exchange Channel α} (hx : Obeys (fun c _ c' => Keeps c c') x) :
    Obeys (fun c h c' => Spends c.unread h c'.unread) x := by
  intro c
  rw [(hx c).unread]
  exact .nothing c.unread _

theorem authenticate_spends (settings : ConnectionSettings) (detail : Bool) :
    Obeys (fun c h c' => Spends c.unread h c'.unread) (authenticate settings detail) := by
  have hstops : ∀ (c : Channel) (halt : Halt), Spends c.unread (some halt) c.unread :=
    fun c halt => .nothing c.unread _
  exact authenticate_obeys spends_composes hstops (receive_spends .login detail)
    (answer_obeys spends_composes hstops (fun _ => keeps_spends (record_keeps rfl))
      (fun _ h => keeps_spends (sendPassword_keeps h)) settings)

end Channel

/-! ## A session -/

namespace Session

open Channel (Spends Sized Leaves)

def Spent (s : Session) (h : Option Halt) (s' : Session) : Prop :=
  Spends s.channel.unread h s'.channel.unread

theorem spent_composes : Composes Spent where
  refl s := .nothing s.channel.unread none
  trans := Spends.trans

theorem Spent.of_unread {s s' : Session} (h : s'.channel.unread = s.channel.unread)
    (halt : Option Halt) : Spent s halt s' := by
  unfold Spent
  rw [h]
  exact .nothing _ halt

theorem Spent.then_unread {s t u : Session} {h : Option Halt} (hst : Spent s h t)
    (htu : u.channel.unread = t.channel.unread) : Spent s h u := by
  unfold Spent
  rw [htu]
  exact hst

theorem Aside.spent {s s' : Session} {h : Option Halt} (ha : Aside s h s') : Spent s h s' :=
  .of_unread ha.keeps.channel.unread h

theorem onChannel_spent {α : Type} {x : Exchange Channel α}
    (hx : Obeys (fun c h c' => Spends c.unread h c'.unread) x) : Obeys Spent (onChannel x) :=
  hx.zoom fun _ _ _ h => h

theorem receive_spent (phase : Phase) : Obeys Spent (receive phase) :=
  spent_composes.bind spent_composes.get fun _ =>
    onChannel_spent (Channel.receive_spends phase _)

theorem readAnnouncement_spent (limit : Nat) : Obeys Spent (readAnnouncement limit) := by
  have hstops : ∀ (s : Session) (halt : Halt), Spent s (some halt) s :=
    fun _ _ => .of_unread rfl _
  exact spent_composes.loop readAnnouncement_succ (fun s => hstops s _)
    (spent_composes.bind (receive_spent .startup)
      (announce_of_aside spent_composes Aside.spent (fun _ _ => .of_unread rfl _) hstops)) limit

theorem begin_spent : Obeys Spent begin := by
  refine begin_obeys spent_composes (readAnnouncement_spent _)
    (fun _ _ => onChannel_spent (Channel.keeps_spends fun c => c.told_keeps rfl)) ?_
  intro s t u e hr habort
  exact hr.then_unread (abort_keeps.ok habort).channel.unread

theorem takeIdle_spent (m : BackendMessage) : Obeys Spent (takeIdle m) :=
  takeIdle_of_aside spent_composes Aside.spent (fun _ _ => .of_unread rfl _) m

theorem noticeNext_spent (wait : Nat) : Obeys Spent (noticeNext wait) := by
  refine noticeNext_of_message spent_composes wait (fun s c hkeeps => .of_unread hkeeps.unread _) ?_
    ?_ takeIdle_spent
  · intro s c halt hawait
    obtain ⟨hs, hc⟩ := Channel.awaitOctet_error hawait
    exact .of_unread (hc.trans hs.symm) _
  · intro s c octet detail hoff
    have hafter := Channel.receiveAfter_spends .idle octet detail c
    have hunread : s.channel.unread = octet :: c.unread := hoff.unread
    rwa [← hunread] at hafter

theorem spent_callLaw : CallLaw Spent where
  toComposes := spent_composes
  stops _ halt := .of_unread rfl _
  drafts s _ octets := .of_unread (drafts_prepares s _ octets (.refl _)).unread none
  flushes := onChannel_spent (Channel.keeps_spends Channel.flush_keeps)
  sends st parameters s := .of_unread (sendStatement_sends st parameters s).prepares.unread _
  replies := (Conversation.composes_session spent_composes).bind
    (Conversation.onSession_obeys (receive_spent .reply)) fun m c =>
      .of_unread (Conversation.take_handles m c).channel.unread _
  notices := noticeNext_spent
  checks := by
    intro s t e hr
    obtain ⟨t', ht', hends⟩ := checkFatal_ends (α := Unit) e t
    rw [ht']
    exact hr.then_unread hends.keeps.channel.unread

/-- Of a message that is held to its length, the length decides, whichever of the words of 32 bits
it is. The size of the body is what the subtraction in a word of 64 bits comes to, and the same goes
for what is skipped of a request for SASL. A length that is not allowed breaks the protocol with
the body untouched, and one that is allowed takes just the body it declares. Nothing else is ever
read of these messages, whether a client logs in, a session begins, a request is answered or
notices are taken in. -/
theorem lengths_heeded (s : Session) :
    (∀ (tag : Tag) (length : Int), tag.isMeasured = true → FitsInt32 length → tag.Covers length →
      ∃ size, wideSub? length tag.uncounted = some size ∧
        (size.toNat : Int) + tag.uncounted.toNat = length ∧
        (tag.Allows length ↔ size.toNat ≤ Channel.maxMessageSize)) ∧
    (∀ length : Int, FitsInt32 length → 8 < length →
      ∃ size, wideSub? length 8 = some size ∧ (size.toNat : Int) + 8 = length) ∧
    (∀ (phase : Phase) (tag : Tag) (word : Bytes) (detail : Bool), phase.accepts tag = true →
      tag.isMeasured = true → word.length = 4 →
        Sized (tag.octet :: word) (tag.Allows (Bytes.toInt word)) (Bytes.toInt word - 4).toNat
          (Channel.receive phase detail)) ∧
    (∀ (word : Bytes) (detail : Bool), word.length = 4 →
      Sized (Tag.authentication.octet :: (word ++ Bytes.int32 10))
        (Bytes.toInt word - 8 ≤ Channel.maxMessageSize) (Bytes.toInt word - 8).toNat
        (Channel.receive .login detail)) ∧
    (∀ settings detail (c : Channel), Spends c.unread
      (halt? (Channel.authenticate settings detail c))
      (final (Channel.authenticate settings detail c)).unread) ∧
    Spent s (halt? (begin s)) (final (begin s)) ∧
    (∀ sql, Spent s (replyHalt (query sql s)) (final (query sql s))) ∧
    (∀ st parameters, Spent s (replyHalt (execute st parameters s))
      (final (execute st parameters s))) ∧
    ∀ wait, Spent s (halt? (takeNotices wait s)) (final (takeNotices wait s)) := by
  refine ⟨?_, ?_, ?_, ?_, ?_, begin_spent s, fun sql => spent_callLaw.query sql s,
    fun st parameters => spent_callLaw.execute st parameters s,
    fun wait => spent_callLaw.takeNotices wait s⟩
  · intro tag length htag hfits hcovers
    obtain ⟨size, hsize, hexact⟩ := wideSub?_of_le hfits (hcovers.counted htag)
    refine ⟨size, hsize, hexact, fun hallows => ?_, fun hsmall => ⟨hcovers, by omega⟩⟩
    have hlimit := hallows.2
    omega
  · intro length hfits hcovers
    have hle : ((8 : UInt64).toNat : Int) ≤ length := by
      show (8 : Int) ≤ length
      omega
    exact wideSub?_of_le hfits hle
  · intro phase tag word detail haccepts htag hword
    have hsized := Channel.sized_message htag (Bytes.toInt_fits hword)
    rw [Bytes.int32_toInt hword] at hsized
    exact Channel.sized_receive haccepts hsized detail
  · intro word detail hword
    have hsized := Channel.sized_sasl (Bytes.toInt_fits hword)
    rw [Bytes.int32_toInt hword] at hsized
    exact Channel.sized_receive (by decide) hsized detail
  · intro settings detail c
    exact Channel.authenticate_spends settings detail c

end Session

end PgClient
