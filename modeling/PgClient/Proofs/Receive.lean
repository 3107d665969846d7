import PgClient.Channel.Receive
import PgClient.Proofs.Channel

/-!
# Reading messages

Reading a message consumes its tag and then what its kind calls for, and tells
the journal. A tag out of place, a length that cannot be right and a body that
cannot be taken apart all end in a violation of the protocol, which no
connection survives; so every failure to read a message is fatal.

The message that ends a reply is singled out: whoever has read a ReadyForQuery
has consumed exactly the six octets of a well-formed one.
-/

namespace PgClient

/-- The tag of a message. -/
def BackendMessage.tag : BackendMessage → Tag
  | .authentication _ => .authentication
  | .backendKeyData _ => .backendKeyData
  | .parameterStatus _ _ => .parameterStatus
  | .readyForQuery _ => .readyForQuery
  | .parseComplete => .parseComplete
  | .bindComplete => .bindComplete
  | .closeComplete => .closeComplete
  | .noData => .noData
  | .portalSuspended => .portalSuspended
  | .emptyQuery => .emptyQuery
  | .parameterDescription => .parameterDescription
  | .rowDescription _ => .rowDescription
  | .dataRow _ _ => .dataRow
  | .commandComplete _ => .commandComplete
  | .errorResponse _ => .errorResponse
  | .noticeResponse _ => .noticeResponse
  | .notificationResponse _ => .notificationResponse

theorem Tag.octet_of_ofOctet? {octet : UInt8} {tag : Tag} (h : Tag.ofOctet? octet = some tag) :
    tag.octet = octet := by
  have := List.find?_some h
  simpa using this

theorem Tag.ofOctet?_octet (tag : Tag) : Tag.ofOctet? tag.octet = some tag := by
  cases tag <;> decide

namespace Channel

open Exchange

/-! ## Every failure is fatal -/

theorem receiveBodyLength_reading : Obeys Reading receiveBodyLength :=
  reading_composes.bind receiveInt32_reading fun _ =>
    reading_composes.guard (fail_reading rfl) (reading_composes.pure _)

theorem receiveReportLength_reading (kind : String) : Obeys Reading (receiveReportLength kind) :=
  reading_composes.bind receiveInt32_reading fun _ =>
    reading_composes.guard (fail_reading rfl) (reading_composes.pure _)

theorem receiveEmpty_reading (kind : String) (message : BackendMessage) :
    Obeys Reading (receiveEmpty kind message) :=
  reading_composes.bind receiveInt32_reading fun _ =>
    reading_composes.guard (fail_reading rfl) (reading_composes.pure _)

theorem accept_reading {α : Type} (body : Except Violation α) : Obeys Reading (accept body) := by
  cases body with
  | ok a => exact reading_composes.pure a
  | error cause => exact fail_reading rfl

theorem receiveMethod_reading (length method : Int) :
    Obeys Reading (receiveMethod length method) := by
  unfold receiveMethod
  split
  · exact reading_composes.pure _
  · exact reading_composes.pure _
  · exact reading_composes.bind (receiveBytes_reading 4) fun _ => reading_composes.pure _
  · split
    · exact reading_composes.bind (skip_reading _) fun _ => reading_composes.pure _
    · exact reading_composes.pure _
  · exact reading_composes.pure _

theorem receiveAuthentication_reading : Obeys Reading receiveAuthentication :=
  reading_composes.bind receiveInt32_reading fun length =>
    reading_composes.bind receiveInt32_reading (receiveMethod_reading length)

theorem receiveMessage_reading (tag : Tag) : Obeys Reading (receiveMessage tag) := by
  cases tag with
  | authentication =>
      exact reading_composes.bind receiveAuthentication_reading fun _ => reading_composes.pure _
  | backendKeyData =>
      exact reading_composes.bind receiveInt32_reading fun _ =>
        reading_composes.guard (fail_reading rfl)
          (reading_composes.bind receiveInt32_reading fun _ =>
            reading_composes.bind receiveInt32_reading fun _ => reading_composes.pure _)
  | parameterStatus =>
      exact reading_composes.bind
        (reading_composes.bind receiveInt32_reading fun _ => reading_composes.pure _) fun _ =>
          reading_composes.bind receiveZeroTerminated_reading fun _ =>
            reading_composes.bind receiveZeroTerminated_reading fun _ => reading_composes.pure _
  | readyForQuery =>
      exact reading_composes.bind receiveInt32_reading fun _ =>
        reading_composes.guard (fail_reading rfl)
          (reading_composes.bind receiveOctet_reading fun _ => reading_composes.pure _)
  | parseComplete | bindComplete | closeComplete | noData | portalSuspended | emptyQuery =>
      exact receiveEmpty_reading _ _
  | parameterDescription =>
      exact reading_composes.bind receiveBodyLength_reading fun _ =>
        reading_composes.bind (skip_reading _) fun _ => reading_composes.pure _
  | rowDescription =>
      exact reading_composes.bind receiveBodyLength_reading fun _ =>
        reading_composes.bind (receiveBytes_reading _) fun _ =>
          reading_composes.bind reading_composes.get fun _ =>
            reading_composes.bind (accept_reading _) fun _ => reading_composes.pure _
  | dataRow =>
      exact reading_composes.bind receiveBodyLength_reading fun _ =>
        reading_composes.bind (receiveBytes_reading _) fun _ =>
          reading_composes.bind (accept_reading _) fun _ => reading_composes.pure _
  | commandComplete =>
      exact reading_composes.bind receiveInt32_reading fun _ =>
        reading_composes.guard (fail_reading rfl)
          (reading_composes.bind (receiveString_reading _) fun _ =>
            reading_composes.bind
              (reading_composes.bind receiveOctet_reading fun _ => reading_composes.pure _)
              fun _ => reading_composes.pure _)
  | errorResponse =>
      exact reading_composes.bind (receiveReportLength_reading _) fun _ =>
        reading_composes.bind (receiveReportText_reading _) fun _ => reading_composes.pure _
  | noticeResponse =>
      exact reading_composes.bind (receiveReportLength_reading _) fun _ =>
        reading_composes.bind (receiveString_reading _) fun _ => reading_composes.pure _
  | notificationResponse =>
      exact reading_composes.bind
        (reading_composes.bind receiveInt32_reading fun _ => reading_composes.pure _) fun _ =>
          reading_composes.bind receiveInt32_reading fun _ =>
            reading_composes.bind receiveZeroTerminated_reading fun _ =>
              reading_composes.bind receiveZeroTerminated_reading fun _ => reading_composes.pure _

/-! ## What was read -/

theorem receiveEmpty_returns (kind : String) (message : BackendMessage) :
    Returns (· = message) (receiveEmpty kind message) := by
  refine .bind fun length => ?_
  split
  · exact .bind fun _ => .pure rfl
  · exact .pure rfl

theorem receiveMessage_returns (tag : Tag) : Returns (·.tag = tag) (receiveMessage tag) := by
  cases tag with
  | authentication | parameterDescription | rowDescription | dataRow | errorResponse
  | noticeResponse | parameterStatus | notificationResponse =>
      repeat (first | exact .pure rfl | refine .bind fun _ => ?_)
  | backendKeyData | readyForQuery | commandComplete =>
      refine .bind fun length => ?_
      split <;> repeat (first | exact .pure rfl | refine .bind fun _ => ?_)
  | parseComplete | bindComplete | closeComplete | noData | portalSuspended | emptyQuery =>
      intro c m c' h
      rw [receiveEmpty_returns _ _ c m c' h]
      rfl

/-- Whoever has read a ReadyForQuery has consumed its length, five, and the one
octet of its body. -/
theorem receiveMessage_ready {tag : Tag} {c c' : Channel} {status : UInt8}
    (h : receiveMessage tag c = .ok (.readyForQuery status) c') :
    ReadsOff (Bytes.int32 5 ++ [status]) c c' := by
  have htag : Tag.readyForQuery = tag := receiveMessage_returns tag _ _ _ h
  subst htag
  obtain ⟨length, c₁, hlength, h⟩ := bind_ok h
  by_cases hfive : length = 5
  · subst hfive
    rw [if_neg (by decide)] at h
    obtain ⟨octet, c₂, hoctet, h⟩ := bind_ok h
    cases h
    exact (receiveInt32_ok hlength).trans (receiveOctet_ok hoctet)
  · rw [if_pos hfive] at h
    obtain ⟨_, _, hfail, -⟩ := bind_ok h
    cases hfail

/-! ## The journal -/

/-- A channel that told its journal of one more event. -/
def told (c : Channel) (event : Event) : Channel :=
  { c with journal := c.journal.push event }

theorem record_apply (event : Event) (c : Channel) : record event c = .ok () (c.told event) := rfl

theorem keeps_of_tag {message : BackendMessage} (h : message.tag ≠ .authentication) :
    keeps message = true := by
  cases message with
  | authentication request => exact absurd rfl h
  | _ => rfl

/-- The tags of a phase after the login are those of messages the journal keeps. -/
theorem ne_authentication_of_accepts {phase : Phase} {tag : Tag} (hphase : phase ≠ .login)
    (h : phase.accepts tag = true) : tag ≠ .authentication := by
  rintro rfl
  cases phase with
  | login => exact hphase rfl
  | _ => exact absurd h (by decide)

/-! ## A message behind its tag -/

theorem receiveJournaled_of_ok {tag : Tag} {c c₁ : Channel} {m : BackendMessage}
    (h : receiveMessage tag c = .ok m c₁) (detail : Bool) :
    receiveJournaled tag detail c =
      .ok m (if keeps m then c₁.told (.received m detail) else c₁) := by
  unfold receiveJournaled
  rw [bind_of_ok h]
  split <;> rfl

theorem receiveJournaled_of_error {tag : Tag} {c c' : Channel} {halt : Halt}
    (h : receiveMessage tag c = .error halt c') (detail : Bool) :
    receiveJournaled tag detail c = .error halt c' :=
  bind_of_error h

theorem receiveAfter_due {phase : Phase} {tag : Tag} (haccepts : phase.accepts tag = true)
    (detail : Bool) : receiveAfter phase tag.octet detail = receiveJournaled tag detail := by
  unfold receiveAfter
  rw [Tag.ofOctet?_octet, Option.filter_some, if_pos haccepts]

/-- Every way in which the rest of a message comes in. -/
inductive Arrival (phase : Phase) (octet : UInt8) (detail : Bool) (c : Channel) :
    EStateM.Result Halt Channel BackendMessage → Prop where
  /-- Its tag is not due. -/
  | undue :
    Arrival phase octet detail c (.error (.failed (.protocolViolation (phase.rejection octet)))
      (if phase = .startup then c.told (.unexpectedAtStartup octet) else c))
  /-- It cannot be read. -/
  | broken {tag : Tag} {halt : Halt} {c' : Channel} (htag : tag.octet = octet)
      (haccepts : phase.accepts tag = true) (hread : receiveMessage tag c = .error halt c') :
    Arrival phase octet detail c (.error halt c')
  /-- It was read, and the journal was told of it if it keeps it. -/
  | whole {m : BackendMessage} {c₁ : Channel} (htag : m.tag.octet = octet)
      (haccepts : phase.accepts m.tag = true) (hread : receiveMessage m.tag c = .ok m c₁) :
    Arrival phase octet detail c (.ok m (if keeps m then c₁.told (.received m detail) else c₁))

theorem receiveAfter_arrival (phase : Phase) (octet : UInt8) (detail : Bool) (c : Channel) :
    Arrival phase octet detail c (receiveAfter phase octet detail c) := by
  cases htag : (Tag.ofOctet? octet).filter phase.accepts with
  | none =>
      have hrun : receiveAfter phase octet detail c =
          .error (.failed (.protocolViolation (phase.rejection octet)))
            (if phase = .startup then c.told (.unexpectedAtStartup octet) else c) := by
        unfold receiveAfter
        rw [htag]
        simp only []
        split <;> rfl
      rw [hrun]
      exact .undue
  | some tag =>
      obtain ⟨hoctet, haccepts⟩ := Option.filter_eq_some_iff.1 htag
      obtain rfl := Tag.octet_of_ofOctet? hoctet
      rw [receiveAfter_due haccepts]
      cases hread : receiveMessage tag c with
      | error halt c' =>
          rw [receiveJournaled_of_error hread]
          exact .broken rfl haccepts hread
      | ok m c₁ =>
          obtain rfl : m.tag = tag := receiveMessage_returns tag _ _ _ hread
          rw [receiveJournaled_of_ok hread]
          exact .whole rfl haccepts hread

theorem arrival_of_run {phase : Phase} {octet : UInt8} {detail : Bool} {c : Channel}
    {r : EStateM.Result Halt Channel BackendMessage} (h : receiveAfter phase octet detail c = r) :
    Arrival phase octet detail c r :=
  h ▸ receiveAfter_arrival phase octet detail c

/-- What goes for reading octets and for a word to the journal goes for reading a message. -/
theorem receiveAfter_obeys {R : Channel → Option Halt → Channel → Prop} (hR : Composes R)
    (hreading : ∀ {α : Type} {x : Exchange Channel α}, Obeys Reading x → Obeys R x)
    (hrecord : ∀ event, Obeys R (record event)) (phase : Phase) (octet : UInt8) (detail : Bool) :
    Obeys R (receiveAfter phase octet detail) := by
  unfold receiveAfter
  split
  · next tag _ =>
      refine hR.bind (hreading (receiveMessage_reading tag)) fun m => ?_
      split
      · exact hR.bind (hrecord _) fun _ => hR.pure m
      · exact hR.pure m
  · split
    · exact hR.bind (hrecord _) fun _ => hreading (fail_reading rfl)
    · exact hreading (fail_reading rfl)

theorem receive_obeys {R : Channel → Option Halt → Channel → Prop} (hR : Composes R)
    (hreading : ∀ {α : Type} {x : Exchange Channel α}, Obeys Reading x → Obeys R x)
    (hrecord : ∀ event, Obeys R (record event)) (phase : Phase) (detail : Bool) :
    Obeys R (receive phase detail) :=
  hR.bind (hreading receiveOctet_reading) fun octet =>
    receiveAfter_obeys hR hreading hrecord phase octet detail

/-- A message of a phase after the login was read off the channel, and the
journal knows of it. -/
theorem receiveAfter_ok {phase : Phase} (hphase : phase ≠ .login) {octet : UInt8} {detail : Bool}
    {c c' : Channel} {message : BackendMessage}
    (h : receiveAfter phase octet detail c = .ok message c') :
    message.tag.octet = octet ∧ phase.accepts message.tag = true ∧
      ∃ c₁, receiveMessage message.tag c = .ok message c₁ ∧
        c' = c₁.told (.received message detail) := by
  cases arrival_of_run h with
  | whole htag haccepts hread =>
      rw [if_pos (keeps_of_tag (ne_authentication_of_accepts hphase haccepts))]
      exact ⟨htag, haccepts, _, hread, rfl⟩

theorem receiveAfter_error {phase : Phase} (hstartup : phase ≠ .startup) {octet : UInt8}
    {detail : Bool} {c c' : Channel} {halt : Halt}
    (h : receiveAfter phase octet detail c = .error halt c') : Reading c (some halt) c' := by
  cases arrival_of_run h with
  | undue =>
      rw [if_neg hstartup]
      exact .failed rfl
  | broken _ _ hread => exact (receiveMessage_reading _).error hread

/-- A message after the login takes its tag, which is at least one octet, and
then what its kind calls for. -/
theorem receive_ok {phase : Phase} (hphase : phase ≠ .login) {detail : Bool} {c c' : Channel}
    {message : BackendMessage} (h : receive phase detail c = .ok message c') :
    phase.accepts message.tag = true ∧
      ∃ c₁ c₂, ReadsOff [message.tag.octet] c c₁ ∧ receiveMessage message.tag c₁ = .ok message c₂ ∧
        c' = c₂.told (.received message detail) := by
  obtain ⟨octet, c₁, hoctet, h⟩ := bind_ok h
  obtain ⟨rfl, haccepts, c₂, hread, rfl⟩ := receiveAfter_ok hphase h
  exact ⟨haccepts, c₁, c₂, receiveOctet_ok hoctet, hread, rfl⟩

theorem receive_error {phase : Phase} (hstartup : phase ≠ .startup) {detail : Bool}
    {c c' : Channel} {halt : Halt}
    (h : receive phase detail c = .error halt c') : Reading c (some halt) c' := by
  rcases bind_error h with h | ⟨octet, c₁, hoctet, h⟩
  · exact receiveOctet_reading.error h
  · exact reading_composes.trans (receiveOctet_reading.ok hoctet)
      (receiveAfter_error hstartup h)

/-- What cannot be read is told to the journal if it does not belong to an announcement at all. -/
theorem receive_failed {phase : Phase} {detail : Bool} {c c' : Channel} {halt : Halt}
    (h : receive phase detail c = .error halt c') :
    ∃ c₁, Reading c (some halt) c₁ ∧
      (c' = c₁ ∨ ∃ octet, halt ≠ .waiting ∧ c' = c₁.told (.unexpectedAtStartup octet)) := by
  rcases bind_error h with h | ⟨octet, c₁, hoctet, h⟩
  · exact ⟨c', receiveOctet_reading.error h, .inl rfl⟩
  · have hread := receiveOctet_reading.ok hoctet
    cases arrival_of_run h with
    | undue =>
        refine ⟨c₁, reading_composes.trans hread (.failed rfl), ?_⟩
        split
        · exact .inr ⟨octet, nofun, rfl⟩
        · exact .inl rfl
    | broken _ _ hmessage =>
        have hbroken := (receiveMessage_reading _).error hmessage
        exact ⟨c', reading_composes.trans hread hbroken, .inl rfl⟩

end Channel

end PgClient
