import PgClient.Proofs.Deciding
import PgClient.Proofs.Details.Runs

/-!
# Streams that differ in details

A server may say the same with other details: `SameUpToDetails` relates two streams that are the
same message by message, up to the private fields of reports. A stream is taken apart as its
reader takes it apart, and any octets at all can be (`covers_tail`): a message ends where its
length says, or with its last string, and the last one may be cut off. Where a message ends can be
told from its own octets (`IsTail.unique`), so two streams that go on alike after any number of
messages did so all along (`SameUpToDetails.rest`).

What the two readers of such streams come to is the same: they read the same messages up to
details, or they find the protocol broken in the same way, or both have nothing left to read.
-/

namespace PgClient

open Exchange

theorem Tag.octet_inj {tag tag' : Tag} (h : tag.octet = tag'.octet) : tag = tag' := by
  have hoctet := Tag.ofOctet?_octet tag
  rw [h, Tag.ofOctet?_octet] at hoctet
  exact (Option.some.inj hoctet).symm

/-! ## Messages -/

/-- The octets of a message behind its tag. -/
inductive IsTail (octet : UInt8) : Bytes → Prop where
  /-- As many as the length says, or the length alone if it says less than that. -/
  | measured {declared : Int} {fields : Bytes} (hstatus : octet ≠ Tag.parameterStatus.octet)
      (hnotification : octet ≠ Tag.notificationResponse.octet) (hfits : FitsInt32 declared)
      (hlength : fields.length = (declared - 4).toNat) :
      IsTail octet (Bytes.int32 declared ++ fields)
  | parameterStatus {word name value : Bytes} (hoctet : octet = Tag.parameterStatus.octet)
      (hword : word.length = 4) (hname : 0 ∉ name) (hvalue : 0 ∉ value) :
      IsTail octet (word ++ ((name ++ [0]) ++ (value ++ [0])))
  | notificationResponse {word pid channel payload : Bytes}
      (hoctet : octet = Tag.notificationResponse.octet) (hword : word.length = 4)
      (hpid : pid.length = 4) (hchannel : 0 ∉ channel) (hpayload : 0 ∉ payload) :
      IsTail octet (word ++ (pid ++ ((channel ++ [0]) ++ (payload ++ [0]))))

/-- Where a message ends can be told from its own octets. -/
theorem IsTail.unique {octet : UInt8} {body body' rest rest' : Bytes} (h : IsTail octet body)
    (h' : IsTail octet body') (heq : body ++ rest = body' ++ rest') :
    body = body' ∧ rest = rest' := by
  cases h with
  | measured hstatus hnotification hfits hlength =>
      cases h' with
      | parameterStatus hoctet => exact absurd hoctet hstatus
      | notificationResponse hoctet => exact absurd hoctet hnotification
      | measured _ _ hfits' hlength' =>
          rw [List.append_assoc, List.append_assoc] at heq
          obtain ⟨hword, hfields⟩ := List.append_inj heq (by simp only [Bytes.length_int32])
          have hdeclared := congrArg Bytes.toInt hword
          rw [Bytes.toInt_int32 hfits.1 hfits.2, Bytes.toInt_int32 hfits'.1 hfits'.2] at hdeclared
          subst hdeclared
          obtain ⟨rfl, rfl⟩ := List.append_inj hfields (hlength.trans hlength'.symm)
          exact ⟨rfl, rfl⟩
  | parameterStatus hoctet hword hname hvalue =>
      cases h' with
      | measured hstatus => exact absurd hoctet hstatus
      | notificationResponse hoctet' => rw [hoctet] at hoctet'; exact absurd hoctet' (by decide)
      | parameterStatus _ hword' hname' hvalue' =>
          simp only [List.append_assoc] at heq
          obtain ⟨rfl, hstrings⟩ := List.append_inj heq (hword.trans hword'.symm)
          obtain ⟨rfl, hlast⟩ := Channel.split_zero_inj hname hname' hstrings
          obtain ⟨rfl, rfl⟩ := Channel.split_zero_inj hvalue hvalue' hlast
          exact ⟨rfl, rfl⟩
  | notificationResponse hoctet hword hpid hchannel hpayload =>
      cases h' with
      | measured _ hnotification => exact absurd hoctet hnotification
      | parameterStatus hoctet' => rw [hoctet] at hoctet'; exact absurd hoctet' (by decide)
      | notificationResponse _ hword' hpid' hchannel' hpayload' =>
          simp only [List.append_assoc] at heq
          obtain ⟨rfl, hrest⟩ := List.append_inj heq (hword.trans hword'.symm)
          obtain ⟨rfl, hstrings⟩ := List.append_inj hrest (hpid.trans hpid'.symm)
          obtain ⟨rfl, hlast⟩ := Channel.split_zero_inj hchannel hchannel' hstrings
          obtain ⟨rfl, rfl⟩ := Channel.split_zero_inj hpayload hpayload' hlast
          exact ⟨rfl, rfl⟩

/-- Any octets begin with something of this kind, or something of this kind begins with them. -/
def Covers (P : Bytes → Prop) : Prop :=
  ∀ u, (∃ x rest, P x ∧ u = x ++ rest) ∨ ∃ back, back ≠ [] ∧ P (u ++ back)

theorem Covers.mono {P Q : Bytes → Prop} (h : Covers P) (hle : ∀ x, P x → Q x) : Covers Q :=
  fun u => (h u).imp (fun ⟨x, rest, hx, hu⟩ => ⟨x, rest, hle x hx, hu⟩)
    fun ⟨back, hback, hx⟩ => ⟨back, hback, hle _ hx⟩

theorem Covers.nonempty {P : Bytes → Prop} (h : Covers P) : ∃ x, P x := by
  rcases h [] with ⟨x, -, hx, -⟩ | ⟨back, -, hx⟩
  · exact ⟨x, hx⟩
  · exact ⟨_, hx⟩

/-- What comes second may depend on what came first. -/
theorem Covers.append {P : Bytes → Prop} {Q : Bytes → Bytes → Prop} (hP : Covers P)
    (hQ : ∀ x, P x → Covers (Q x)) : Covers fun z => ∃ x y, P x ∧ Q x y ∧ z = x ++ y := by
  intro u
  rcases hP u with ⟨x, rest, hx, rfl⟩ | ⟨back, hback, hx⟩
  · rcases hQ x hx rest with ⟨y, rest', hy, rfl⟩ | ⟨back, hback, hy⟩
    · exact .inl ⟨x ++ y, rest', ⟨x, y, hx, hy, rfl⟩, (List.append_assoc x y rest').symm⟩
    · exact .inr ⟨back, hback, x, rest ++ back, hx, hy, List.append_assoc x rest back⟩
  · obtain ⟨y, hy⟩ := (hQ _ hx).nonempty
    exact .inr ⟨back ++ y, List.append_ne_nil_of_left_ne_nil hback y, u ++ back, y, hx, hy,
      (List.append_assoc u back y).symm⟩

theorem covers_length (n : Nat) : Covers fun x => x.length = n := by
  intro u
  rcases Nat.lt_or_ge u.length n with hlt | hge
  · refine .inr ⟨List.replicate (n - u.length) 0, ?_, ?_⟩
    · exact List.ne_nil_of_length_pos (by rw [List.length_replicate]; omega)
    · show (u ++ _).length = n
      rw [List.length_append, List.length_replicate]
      omega
  · exact .inl ⟨u.take n, u.drop n, List.length_take_of_le hge, (List.take_append_drop n u).symm⟩

theorem covers_string : Covers fun x => ∃ text : Bytes, 0 ∉ text ∧ x = text ++ [0] := by
  intro u
  by_cases h : 0 ∈ u
  · obtain ⟨text, rest, rfl, htext⟩ := List.eq_append_cons_of_mem h
    exact .inl ⟨text ++ [0], rest, ⟨text, htext, rfl⟩, List.append_cons text 0 rest⟩
  · exact .inr ⟨[0], List.cons_ne_nil _ _, u, h, rfl⟩

/-- Whatever comes behind a tag is a message, or a part of one. -/
theorem covers_tail (octet : UInt8) : Covers (IsTail octet) := by
  have hstrings := covers_string.append fun _ _ => covers_string
  by_cases hstatus : octet = Tag.parameterStatus.octet
  · refine ((covers_length 4).append fun _ _ => hstrings).mono ?_
    rintro _ ⟨word, _, hword, ⟨_, _, ⟨name, hname, rfl⟩, ⟨value, hvalue, rfl⟩, rfl⟩, rfl⟩
    exact .parameterStatus hstatus hword hname hvalue
  · by_cases hnotification : octet = Tag.notificationResponse.octet
    · refine ((covers_length 4).append fun _ _ =>
        (covers_length 4).append fun _ _ => hstrings).mono ?_
      rintro _ ⟨word, _, hword, ⟨pid, _, hpid,
        ⟨_, _, ⟨name, hname, rfl⟩, ⟨value, hvalue, rfl⟩, rfl⟩, rfl⟩, rfl⟩
      exact .notificationResponse hnotification hword hpid hname hvalue
    · refine ((covers_length 4).append fun word _ =>
        covers_length (Bytes.toInt word - 4).toNat).mono ?_
      rintro _ ⟨word, fields, hword, hfields, rfl⟩
      rw [← Bytes.int32_toInt hword]
      exact .measured hstatus hnotification (Bytes.toInt_fits hword) hfields

/-- Two messages of one tag that say the same, but for the details of a report. -/
inductive Akin : UInt8 → Bytes → Bytes → Prop where
  | same {octet : UInt8} {body : Bytes} (h : IsTail octet body) : Akin octet body body
  | error {text text' : String} (hshown : Report.shown text = Report.shown text')
      (h : (WireMessage.errorResponse (Utf8.encode text)).WellFormed)
      (h' : (WireMessage.errorResponse (Utf8.encode text')).WellFormed) :
      Akin Tag.errorResponse.octet (FrontendMessage.withLength (Utf8.encode text))
        (FrontendMessage.withLength (Utf8.encode text'))
  | notice {text text' : String} (hshown : Report.shown text = Report.shown text')
      (h : (WireMessage.noticeResponse (Utf8.encode text)).WellFormed)
      (h' : (WireMessage.noticeResponse (Utf8.encode text')).WellFormed) :
      Akin Tag.noticeResponse.octet (FrontendMessage.withLength (Utf8.encode text))
        (FrontendMessage.withLength (Utf8.encode text'))

theorem isTail_withLength {tag : Tag} (htag : tag.isMeasured = true) {octets : Bytes}
    (hsize : octets.length ≤ Channel.maxMessageSize) :
    IsTail tag.octet (FrontendMessage.withLength octets) := by
  have hmax : Channel.maxMessageSize = 268435456 := rfl
  refine .measured ?_ ?_ ⟨by omega, by omega⟩ (by omega)
  · cases tag with
    | parameterStatus => cases htag
    | _ => decide
  · cases tag with
    | notificationResponse => cases htag
    | _ => decide

theorem Akin.tails {octet : UInt8} {body body' : Bytes} (h : Akin octet body body') :
    IsTail octet body ∧ IsTail octet body' := by
  cases h with
  | same h => exact ⟨h, h⟩
  | error _ h h' => exact ⟨isTail_withLength rfl h.size, isTail_withLength rfl h'.size⟩
  | notice _ h h' => exact ⟨isTail_withLength rfl h.size, isTail_withLength rfl h'.size⟩

/-! ## Streams -/

/-- The streams are the same message by message, but for the details of reports. -/
inductive SameUpToDetails : Bytes → Bytes → Prop where
  | done : SameUpToDetails [] []
  | message {octet : UInt8} {body body' rest rest' : Bytes} (h : Akin octet body body')
      (hrest : SameUpToDetails rest rest') :
      SameUpToDetails (octet :: (body ++ rest)) (octet :: (body' ++ rest'))
  /-- The last message is cut off. Where the two messages are the same they are so at one place. -/
  | part {octet : UInt8} {front front' back back' : Bytes}
      (h : Akin octet (front ++ back) (front' ++ back')) (hback : back ≠ []) (hback' : back' ≠ [])
      (hsame : front ++ back = front' ++ back' → front = front') :
      SameUpToDetails (octet :: front) (octet :: front')

/-- Any octets at all are the same as themselves. -/
theorem SameUpToDetails.refl (u : Bytes) : SameUpToDetails u u := by
  induction hlength : u.length using Nat.strongRecOn generalizing u with
  | ind n ih =>
      cases u with
      | nil => exact .done
      | cons octet v =>
          rcases covers_tail octet v with ⟨body, rest, hbody, rfl⟩ | ⟨back, hback, hbody⟩
          · refine .message (.same hbody) (ih rest.length ?_ rest rfl)
            rw [← hlength, List.length_cons, List.length_append]
            omega
          · exact .part (.same hbody) hback hback fun _ => rfl

/-- They are also the same after a message. -/
theorem SameUpToDetails.rest {octet : UInt8} {body body' rest rest' : Bytes}
    (h : SameUpToDetails (octet :: (body ++ rest)) (octet :: (body' ++ rest')))
    (hbody : IsTail octet body) (hbody' : IsTail octet body') : SameUpToDetails rest rest' := by
  generalize hu : octet :: (body ++ rest) = u at h
  generalize hu' : octet :: (body' ++ rest') = u' at h
  cases h with
  | done => cases hu
  | message hakin hrest =>
      obtain ⟨rfl, hsplit⟩ := List.cons.inj hu
      obtain ⟨-, hsplit'⟩ := List.cons.inj hu'
      obtain ⟨-, rfl⟩ := hbody.unique hakin.tails.1 hsplit
      obtain ⟨-, rfl⟩ := hbody'.unique hakin.tails.2 hsplit'
      exact hrest
  | part hakin hback _ _ =>
      -- No message is only a part of another one.
      obtain ⟨rfl, rfl⟩ := List.cons.inj hu
      obtain ⟨-, hnil⟩ := hbody.unique hakin.tails.1
        ((List.append_assoc _ _ _).symm.trans (List.append_nil _).symm)
      exact absurd (List.append_eq_nil_iff.1 hnil).2 hback

/-- The streams are the same up to details, and so they are with whatever may arrive. -/
def Ahead (F : Bytes → Bytes → Prop) (u u' : Bytes) : Prop :=
  ∀ v v', F v v' → SameUpToDetails (u ++ v) (u' ++ v')

/-- What is left of such streams once the tag of a message was read. -/
inductive Behind (F : Bytes → Bytes → Prop) (octet : UInt8) : Bytes → Bytes → Prop where
  | whole {body body' rest rest' : Bytes} (h : Akin octet body body')
      (hrest : Ahead F rest rest') : Behind F octet (body ++ rest) (body' ++ rest')
  | part {front front' back back' : Bytes} (h : Akin octet (front ++ back) (front' ++ back'))
      (hback : back ≠ []) (hback' : back' ≠ [])
      (hsame : front ++ back = front' ++ back' → front = front') : Behind F octet front front'

variable {F : Bytes → Bytes → Prop}

/-- Nothing is left of either, or the same tag comes next. -/
theorem Ahead.cases {u u' : Bytes} (h : Ahead F u u') (hF : F [] []) :
    (u = [] ∧ u' = []) ∨
      ∃ octet v v', u = octet :: v ∧ u' = octet :: v' ∧ Behind F octet v v' := by
  have hnow := h [] [] hF
  rw [List.append_nil, List.append_nil] at hnow
  cases hnow with
  | done => exact .inl ⟨rfl, rfl⟩
  | part hakin hback hback' hsame =>
      exact .inr ⟨_, _, _, rfl, rfl, .part hakin hback hback' hsame⟩
  | message hakin _ =>
      refine .inr ⟨_, _, _, rfl, rfl, .whole hakin fun v v' hv => ?_⟩
      have hlater := h v v' hv
      rw [List.cons_append, List.cons_append, List.append_assoc, List.append_assoc] at hlater
      exact hlater.rest hakin.tails.1 hakin.tails.2

/-! ## Reading -/

namespace Channel

variable {α : Type} {L : Bytes → Bytes → Prop} {V : α → α → Prop} {c c' : Channel}
  {x x' : Exchange Channel α} {octets octets' : Bytes}

theorem ReadsOff.veil (h : ReadsOff octets c c') : c'.veil = c.veil := by
  rw [h.same]
  rfl

theorem dryHalt_fatal {e : Error} (h : c.dryHalt = .failed e) : e.isFatal = true := by
  unfold dryHalt at h
  split at h
  · cases h
    rfl
  · split at h
    · cases h
      rfl
    · cases htimeout : c.readTimeout with
      | none => rw [htimeout] at h; cases h
      | some millis => rw [htimeout] at h; cases h; rfl

theorem Dry.lost (h : Dry x c) (h' : Dry x' c') (hveil : c'.veil = c.veil) :
    Twin (Alike L) (Alike fun _ _ => True) V (x c) (x' c') := by
  have hhalt : c'.exhausted.dryHalt = c.exhausted.dryHalt := by
    show c'.veil.dryHalt = c.veil.dryHalt
    rw [hveil]
  rw [h, h', hhalt]
  exact .lost (fun _ => dryHalt_fatal) ⟨hveil, trivial⟩

theorem Comes.lost {cause : Violation} (h : Comes octets (.error cause) x c)
    (h' : Comes octets' (.error cause) x' c') (hveil : c'.veil = c.veil) :
    Twin (Alike L) (Alike fun _ _ => True) V (x c) (x' c') := by
  obtain ⟨_, t, hrun, hoff⟩ := h
  obtain ⟨_, t', hrun', hoff'⟩ := h'
  rw [hrun, hrun']
  refine .lost (fun e he => ?_) ⟨by rw [hoff.veil, hoff'.veil, hveil], trivial⟩
  cases he
  rfl

theorem Comes.value {a a' : α} {rest rest' : Bytes} (h : Comes octets (.ok a) x c)
    (h' : Comes octets' (.ok a') x' c') (hveil : c'.veil = c.veil) (hv : V a a')
    (hc : c.unread = octets ++ rest) (hc' : c'.unread = octets' ++ rest') (hrest : L rest rest') :
    Twin (Alike L) (Alike fun _ _ => True) V (x c) (x' c') := by
  obtain ⟨t, hrun, hoff⟩ := h
  obtain ⟨t', hrun', hoff'⟩ := h'
  rw [hrun, hrun']
  refine .value hv ⟨by rw [hoff.veil, hoff'.veil, hveil], ?_⟩
  rw [hoff.unread_eq hc, hoff'.unread_eq hc']
  exact hrest

/-- What becomes of a message is decided by its octets. -/
theorem decided_tail {charset : Charset} {tag : Tag} (htag : tag ≠ .authentication) {body : Bytes}
    (h : IsTail tag.octet body) : Decided charset (receiveMessage tag) body := by
  generalize hoctet : tag.octet = octet at h
  cases h with
  | measured hstatus hnotification hfits hlength =>
      refine decided_measured ?_ hfits hlength
      cases tag with
      | authentication => exact absurd rfl htag
      | parameterStatus => exact absurd hoctet.symm hstatus
      | notificationResponse => exact absurd hoctet.symm hnotification
      | _ => rfl
  | parameterStatus hstatus hword hname hvalue =>
      rw [Tag.octet_inj (hoctet.trans hstatus)]
      exact decided_parameterStatus hword hname hvalue
  | notificationResponse hnotification hword hpid hchannel hpayload =>
      rw [Tag.octet_inj (hoctet.trans hnotification)]
      exact decided_notificationResponse hword hpid hchannel hpayload

/-- A message that yields something is decided to be just that. -/
theorem decides_of_yields {charset : Charset} {tag : Tag} (htag : tag ≠ .authentication)
    {body : Bytes} {m : BackendMessage} (htail : IsTail tag.octet body)
    (hyields : Yields charset (receiveMessage tag) body m) :
    Decides charset (receiveMessage tag) body (.ok m) := by
  obtain ⟨outcome, hdecides⟩ : Decided charset _ _ := decided_tail htag htail
  exact hdecides.eq_of_yields hyields ▸ hdecides

/-- Two messages that are akin are one message, or come to the same but for details. -/
theorem akin_outcomes (charset : Charset) {tag : Tag} (htag : tag ≠ .authentication)
    {body body' : Bytes} (h : Akin tag.octet body body') :
    body = body' ∨ ∃ m m', m.Similar m' ∧ Decides charset (receiveMessage tag) body (.ok m) ∧
      Decides charset (receiveMessage tag) body' (.ok m') := by
  obtain ⟨htail, htail'⟩ := h.tails
  generalize hoctet : tag.octet = octet at h
  cases h with
  | same => exact .inl rfl
  | error hshown h h' =>
      obtain rfl := Tag.octet_inj hoctet
      have hread : Yields charset _ _ _ := yields_message h
      have hread' : Yields charset _ _ _ := yields_message h'
      exact .inr ⟨_, _, .error (Report.ofText_decodeReport charset hshown).symm,
        decides_of_yields htag htail hread, decides_of_yields htag htail' hread'⟩
  | notice hshown h h' =>
      obtain rfl := Tag.octet_inj hoctet
      have hread : Yields charset _ _ _ := yields_message h
      have hread' : Yields charset _ _ _ := yields_message h'
      exact .inr ⟨_, _, .notice (Report.ofText_decode charset hshown).symm,
        decides_of_yields htag htail hread, decides_of_yields htag htail' hread'⟩

/-- Behind the same tag the same is read, but for details. -/
theorem receiveMessage_twin {tag : Tag} (htag : tag ≠ .authentication) (hveil : c'.veil = c.veil)
    (h : Behind F tag.octet c.unread c'.unread) :
    Twin (Alike (Ahead F)) (Alike fun _ _ => True) BackendMessage.Similar (receiveMessage tag c)
      (receiveMessage tag c') := by
  have hcharset : c'.charset = c.charset := by
    show c'.veil.charset = c.veil.charset
    rw [hveil]
  generalize hu : c.unread = u at h
  generalize hu' : c'.unread = u' at h
  cases h with
  | whole hakin hrest =>
      rcases akin_outcomes c.charset htag hakin with rfl | ⟨m, m', hsimilar, hm, hm'⟩
      · obtain ⟨outcome, hdecides⟩ : Decided c.charset _ _ := decided_tail htag hakin.tails.1
        have hcomes := hdecides.whole c _ rfl hu
        have hcomes' := hdecides.whole c' _ hcharset hu'
        cases outcome with
        | ok m => exact hcomes.value hcomes' hveil (.same m) hu hu' hrest
        | error cause => exact hcomes.lost hcomes' hveil
      · exact (hm.whole c _ rfl hu).value (hm'.whole c' _ hcharset hu') hveil hsimilar hu hu' hrest
  | @part _ _ back back' hakin hback hback' hsame =>
      rcases akin_outcomes c.charset htag hakin with heq | ⟨m, m', -, hm, hm'⟩
      · obtain rfl := hsame heq
        obtain rfl := List.append_cancel_left heq
        obtain ⟨outcome, hdecides⟩ : Decided c.charset _ _ := decided_tail htag hakin.tails.1
        rcases hdecides.part u back rfl hback with hdry | ⟨⟨cause, rfl⟩, hcomes⟩
        · exact (hdry c rfl hu).lost (hdry c' hcharset hu') hveil
        · exact (hcomes c rfl hu).lost (hcomes c' hcharset hu') hveil
      · -- Where the details differ, no part of the message tells that it is broken.
        have hdry := (hm.part u back rfl hback).resolve_right nofun
        have hdry' := (hm'.part u' back' rfl hback').resolve_right nofun
        exact (hdry c rfl hu).lost (hdry' c' hcharset hu') hveil

theorem receiveAfter_twin {phase : Phase} {octet : UInt8}
    (hoctet : phase = .login → octet ≠ Tag.authentication.octet) (hveil : c'.veil = c.veil)
    (h : Behind F octet c.unread c'.unread) :
    Twin (Alike (Ahead F)) (Alike fun _ _ => True) BackendMessage.Similar
      (receiveAfter phase octet false c) (receiveAfter phase octet false c') := by
  have hrejected : ∀ {cause : Violation} {t t' : Channel}, t'.veil = t.veil →
      Twin (Alike (Ahead F)) (Alike fun _ _ => True) BackendMessage.Similar
        ((fail (.protocolViolation cause) : Exchange Channel BackendMessage) t)
        ((fail (.protocolViolation cause) : Exchange Channel BackendMessage) t') :=
    fun h => .lost (fun e he => by cases he; rfl) ⟨h, trivial⟩
  unfold receiveAfter
  cases htag : (Tag.ofOctet? octet).filter phase.accepts with
  | none =>
      simp only []
      split
      · refine hrejected ?_
        show (c'.told _).veil = (c.told _).veil
        rw [veil_told, veil_told, hveil]
      · exact hrejected hveil
  | some tag =>
      obtain ⟨htag, haccepts⟩ := Option.filter_eq_some_iff.1 htag
      obtain rfl := Tag.octet_of_ofOctet? htag
      have htag : tag ≠ .authentication := by
        rintro rfl
        exact ne_authentication_of_accepts (fun hlogin => hoctet hlogin rfl) haccepts rfl
      refine (receiveMessage_twin htag hveil h).bind fun {m m' t t'} hrun hrun' hsimilar ht => ?_
      have hkept : ∀ {m : BackendMessage} {c t : Channel}, receiveMessage tag c = .ok m t →
          keeps m = true := fun {m c t} hrun =>
        keeps_of_tag ((receiveMessage_returns tag c m t hrun).trans_ne htag)
      simp only [hkept hrun, hkept hrun', if_true]
      have hevent : (Event.received m' false).redacted = (Event.received m false).redacted :=
        congrArg (Event.received · false) hsimilar.redacted
      exact ((record_mirrors hevent).bind fun _ _ _ => .pure hsimilar).twin ht

theorem dry_octet (h : c.unread = []) : Dry receiveOctet c := by
  have hdecides : Decides c.charset _ _ _ := decides_exactly [0]
  have hdry := (hdecides.part [] [0] rfl (List.cons_ne_nil _ _)).resolve_right nofun
  exact (hdry c rfl h).bind

theorem receive_mirrors {phase : Phase} (hphase : phase ≠ .login) (hF : F [] []) :
    Mirrors (Alike (Ahead F)) (Alike fun _ _ => True) BackendMessage.Similar
      (receive phase false) (receive phase false) := by
  refine ⟨fun {c c'} h => ?_⟩
  rcases h.left.cases hF with ⟨hnil, hnil'⟩ | ⟨octet, v, v', hv, hv', hbehind⟩
  · exact (dry_octet hnil).bind.lost (dry_octet hnil').bind h.veil
  · have hoctet : ∀ charset, Yields charset receiveOctet [octet] octet :=
      fun _ => yields_octet octet
    obtain ⟨t, hrun, hoff⟩ := hoctet _ c v rfl hv
    obtain ⟨t', hrun', hoff'⟩ := hoctet _ c' v' rfl hv'
    unfold receive
    rw [bind_of_ok hrun, bind_of_ok hrun']
    refine receiveAfter_twin (fun h => absurd h hphase) (by rw [hoff.veil, hoff'.veil, h.veil]) ?_
    rwa [hoff.unread_eq hv, hoff'.unread_eq hv']

/-- Nothing is there to be read: it depends on the socket alone whether that is a failure. -/
theorem awaitOctet_of_nil (wait : Nat) (h : c.unread = []) :
    awaitOctet wait c =
      if (!c.veil.socket.faults.read && !c.veil.socket.ended) &&
        c.veil.readTimeout.all (wait < ·) then .ok none c.exhausted
      else .error c.veil.dryHalt c.exhausted := by
  unfold awaitOctet
  rw [bind_of_ok (modifyGet_apply _ c), takeExactly_short (by rw [h]; decide)]
  simp only []
  rw [bind_of_ok (get_apply _)]
  split
  · next hsilent => exact (if_pos hsilent).symm
  · next hsilent => exact (runDry_apply _).trans (if_neg hsilent).symm

theorem awaitOctet_of_cons (wait : Nat) {octet : UInt8} {v : Bytes} (h : c.unread = octet :: v) :
    ∃ t, awaitOctet wait c = .ok (some octet) t ∧ ReadsOff [octet] c t := by
  obtain ⟨t, htake, hoff⟩ := takeExactly_append (show c.unread = [octet] ++ v from h)
  refine ⟨t, ?_, hoff⟩
  unfold awaitOctet
  rw [bind_of_ok (modifyGet_apply _ c), show takeExactly 1 c = _ from htake]
  rfl

end Channel

/-! ## What a session reads -/

namespace Session

theorem receive_mirrors {phase : Phase} (hphase : phase ≠ .login) (hF : F [] []) :
    Mirrors (Alike (Ahead F)) (Alike fun _ _ => True) BackendMessage.Similar (receive phase)
      (receive phase) := by
  refine ⟨fun {s s'} h => ?_⟩
  unfold receive
  rw [bind_of_ok (get_apply s), bind_of_ok (get_apply s'), h.quiet, h.quiet']
  exact (onChannel_mirrors (Channel.receive_mirrors hphase hF)).twin h

theorem announceNext_mirrors (hF : F [] []) :
    Mirrors (Alike (Ahead F)) (Alike fun _ _ => True) Eq announceNext announceNext :=
  (receive_mirrors (show Phase.startup ≠ .login by decide) hF).bind fun _ _ h => announce_mirrors h

theorem noticeNext_mirrors (hF : F [] []) (wait : Nat) :
    Mirrors (Alike (Ahead F)) (Alike fun _ _ => True) Eq (noticeNext wait) (noticeNext wait) := by
  refine ⟨fun {s s'} h => ?_⟩
  have hchannel : s'.channel.veil = s.channel.veil := congrArg channel h.veil
  unfold noticeNext
  rcases h.left.cases hF with ⟨hnil, hnil'⟩ | ⟨octet, v, v', hv, hv', hbehind⟩
  · have hleft : Ahead F s.channel.exhausted.unread s'.channel.exhausted.unread := by
      have hnone := h.left
      rwa [hnil, hnil'] at hnone
    have hawait : Twin (Channel.Alike (Ahead F)) (Channel.Alike fun _ _ => True)
        (fun a a' => a = none ∧ a' = none) (Channel.awaitOctet wait s.channel)
        (Channel.awaitOctet wait s'.channel) := by
      rw [Channel.awaitOctet_of_nil wait hnil, Channel.awaitOctet_of_nil wait hnil', hchannel]
      split
      · exact .value ⟨rfl, rfl⟩ ⟨hchannel, hleft⟩
      · exact .lost (fun _ => Channel.dryHalt_fatal) ⟨hchannel, trivial⟩
    refine (onChannel_twin h.veil h.quiet hawait).bind fun _ _ hnone ht => ?_
    obtain ⟨rfl, rfl⟩ := hnone
    exact .value rfl ht
  · obtain ⟨t, hrun, hoff⟩ := Channel.awaitOctet_of_cons wait hv
    obtain ⟨t', hrun', hoff'⟩ := Channel.awaitOctet_of_cons wait hv'
    have hawait : ∀ {s : Session} {t : Channel},
        Channel.awaitOctet wait s.channel = .ok (some octet) t →
        onChannel (Channel.awaitOctet wait) s = .ok (some octet) { s with channel := t } :=
      fun hrun => onChannel_of_ok hrun
    have hveil : ({ s' with channel := t' } : Session).veil =
        ({ s with channel := t } : Session).veil := by
      show { s'.veil with channel := t'.veil } = { s.veil with channel := t.veil }
      rw [hoff.veil, hoff'.veil, h.veil, hchannel]
    rw [bind_of_ok (hawait hrun), bind_of_ok (hawait hrun')]
    simp only []
    rw [bind_of_ok (get_apply _), bind_of_ok (get_apply _)]
    simp only [h.quiet, h.quiet']
    have hbehind : Behind F octet t.unread t'.unread := by
      rwa [hoff.unread_eq hv, hoff'.unread_eq hv']
    have hidle : Phase.idle ≠ .login := by decide
    have hread := Channel.receiveAfter_twin (fun h => absurd h hidle) (congrArg channel hveil)
      hbehind
    exact (onChannel_twin hveil h.quiet hread).bind fun _ _ hsimilar ht =>
      ((takeIdle_mirrors hsimilar).andThen fun _ => .pure rfl).twin ht

end Session

end PgClient
