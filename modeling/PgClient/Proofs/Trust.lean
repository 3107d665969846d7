import PgClient.Proofs.Ending
import PgClient.Proofs.StrayErrors
import PgClient.Proofs.Talk

/-!
# Settings a client can live with

A server may report a setting at any time, and some settings change what its octets
mean: the character set, the form of dates, whether a backslash in a literal stands for
itself. A client that took such a report for granted and went on would misread what
follows. So a report is either one the client can live with, and then it reads what
follows accordingly, or it is the last thing the client takes in.

`Manner` is the way a client reads, and `Manner.on` what a message does to it. Whatever
a call comes to, the manner is that of all messages heard, and a message that could not
be lived with ends the call there and then (`Vetted`, `Verdict`).
-/

namespace PgClient

open Exchange

/-! ## The manner of reading -/

/-- The number of a version, as the server writes it. -/
def versionNumber? (value : String) : Option Int :=
  Decimal.int? Decimal.int32Max value

/-- Whether a character set is UTF-8 to every client. -/
def namesUtf8 (value : String) : Bool :=
  Ascii.eqIgnoringCase value "UTF8" || Ascii.eqIgnoringCase value "UTF-8"

/-- The value a message reports for the setting of exactly this name. -/
def BackendMessage.reported? (name : String) : BackendMessage → Option String
  | .parameterStatus n value => if n = name then some value else none
  | _ => none

/-- The value that was reported last. -/
def lastReported (name : String) (ms : List BackendMessage) : Option String :=
  (ms.filterMap (BackendMessage.reported? name)).getLast?

/-- How a client reads what the server sends. -/
structure Manner where
  charset : Charset := .utf8
  conformingStrings : Bool := false
  integerDatetimes : Bool := true
  versionNumber : Int := 0

/-- The manner after a message. A value that stands for nothing changes nothing. -/
def Manner.on (allowsEncodings : Bool) (o : Manner) (m : BackendMessage) : Manner where
  charset :=
    if allowsEncodings then ((m.reported? "client_encoding").map Charset.ofName).getD o.charset
    else o.charset
  conformingStrings :=
    ((m.reported? "standard_conforming_strings").bind Session.switch?).getD o.conformingStrings
  integerDatetimes :=
    ((m.reported? "integer_datetimes").bind Session.switch?).getD o.integerDatetimes
  versionNumber := ((m.reported? "server_version_num").bind versionNumber?).getD o.versionNumber

section

variable (allows : Bool) (o : Manner) (value : String)

theorem Manner.on_unreported {m : BackendMessage} (h : ∀ name, m.reported? name = none) :
    o.on allows m = o := by
  unfold Manner.on
  simp only [h]
  cases allows <;> rfl

theorem reported?_self (name : String) :
    (BackendMessage.parameterStatus name value).reported? name = some value :=
  if_pos rfl

theorem reported?_other {name other : String} (h : name ≠ other) :
    (BackendMessage.parameterStatus name value).reported? other = none :=
  if_neg h

theorem Manner.on_encoding : o.on allows (.parameterStatus "client_encoding" value) =
    { o with charset := if allows then Charset.ofName value else o.charset } := by
  simp (disch := decide) only [Manner.on, reported?_self, reported?_other]
  rfl

theorem Manner.on_strings : o.on allows (.parameterStatus "standard_conforming_strings" value) =
    { o with conformingStrings := (Session.switch? value).getD o.conformingStrings } := by
  simp (disch := decide) only [Manner.on, reported?_self, reported?_other, Option.map_none,
    Option.getD_none, ite_self]
  rfl

theorem Manner.on_datetimes : o.on allows (.parameterStatus "integer_datetimes" value) =
    { o with integerDatetimes := (Session.switch? value).getD o.integerDatetimes } := by
  simp (disch := decide) only [Manner.on, reported?_self, reported?_other, Option.map_none,
    Option.getD_none, ite_self]
  rfl

theorem Manner.on_version : o.on allows (.parameterStatus "server_version_num" value) =
    { o with versionNumber := (versionNumber? value).getD o.versionNumber } := by
  simp (disch := decide) only [Manner.on, reported?_self, reported?_other, Option.map_none,
    Option.getD_none, ite_self]
  rfl

/-- No other setting has to do with the manner of reading. -/
theorem Manner.on_other {name : String} (h : name ∉ ["client_encoding",
    "standard_conforming_strings", "integer_datetimes", "server_version_num"]) :
    o.on allows (.parameterStatus name value) = o := by
  simp only [List.mem_cons, not_or] at h
  simp [Manner.on, BackendMessage.reported?, h]

end

theorem lastReported_append (name : String) (ms : List BackendMessage) (m : BackendMessage) :
    lastReported name (ms ++ [m]) = (m.reported? name).or (lastReported name ms) := by
  unfold lastReported
  rw [List.filterMap_append]
  cases hm : m.reported? name with
  | none => rw [List.filterMap_cons_none hm, List.filterMap_nil, List.append_nil, Option.none_or]
  | some value =>
      rw [List.filterMap_cons_some hm, List.filterMap_nil, List.getLast?_concat, Option.some_or]

theorem switch?_isSome {value : String} (h : (Session.switch? value).isSome = true) :
    value = "on" ∨ value = "off" := by
  unfold Session.switch? at h
  split at h
  · exact .inl rfl
  · exact .inr rfl
  · cases h

/-- A message that reports a setting is one of its name. -/
theorem accepts_of_reported {allows : Bool} {m : BackendMessage}
    (hm : m.isAcceptable allows = true) {name value : String} (h : m.reported? name = some value) :
    BackendMessage.acceptsSetting allows name value = true := by
  cases m with
  | parameterStatus n v =>
      simp only [BackendMessage.reported?, Option.ite_none_right_eq_some] at h
      obtain ⟨rfl, ⟨⟩⟩ := h
      exact hm
  | _ => cases h

/-- A client reads in this manner after it heard messages, and each setting it was told of last is
one it can live with. -/
structure Trustworthy (allowsEncodings : Bool) (ms : List BackendMessage) (o : Manner) : Prop where
  fixed : allowsEncodings = false → o.charset = .utf8 ∧
    ∀ value, lastReported "client_encoding" ms = some value → namesUtf8 value = true
  chosen : allowsEncodings = true →
    o.charset = ((lastReported "client_encoding" ms).map Charset.ofName).getD .utf8
  dates : ∀ value, lastReported "DateStyle" ms = some value →
    (Ascii.upper value).startsWith "ISO" = true
  strings : (o.conformingStrings = true ↔
      lastReported "standard_conforming_strings" ms = some "on") ∧
    ∀ value, lastReported "standard_conforming_strings" ms = some value →
      value = "on" ∨ value = "off"
  datetimes : (o.integerDatetimes = false ↔ lastReported "integer_datetimes" ms = some "off") ∧
    ∀ value, lastReported "integer_datetimes" ms = some value → value = "on" ∨ value = "off"
  version : lastReported "server_version_num" ms = none ∧ o.versionNumber = 0 ∨
    ∃ value, lastReported "server_version_num" ms = some value ∧
      versionNumber? value = some o.versionNumber

theorem Trustworthy.on {allows : Bool} {ms : List BackendMessage} {o : Manner}
    (h : Trustworthy allows ms o) {m : BackendMessage} (hm : m.isAcceptable allows = true) :
    Trustworthy allows (ms ++ [m]) (o.on allows m) := by
  have hreported : ∀ {name value}, m.reported? name = some value →
      BackendMessage.acceptsSetting allows name value = true := accepts_of_reported hm
  refine ⟨?_, ?_, ?_, ?_, ?_, ?_⟩ <;> rw [lastReported_append]
  · rintro rfl
    cases hvalue : m.reported? "client_encoding" with
    | none => exact h.fixed rfl
    | some value =>
        refine ⟨(h.fixed rfl).1, ?_⟩
        rintro _ ⟨⟩
        exact hreported hvalue
  · rintro rfl
    cases hvalue : m.reported? "client_encoding" with
    | none => simpa [Manner.on, hvalue] using h.chosen rfl
    | some value => simp [Manner.on, hvalue]
  · cases hvalue : m.reported? "DateStyle" with
    | none => exact h.dates
    | some value =>
        rintro _ ⟨⟩
        exact hreported hvalue
  · cases hvalue : m.reported? "standard_conforming_strings" with
    | none => simpa [Manner.on, hvalue] using h.strings
    | some value =>
        have hswitch := switch?_isSome (hreported hvalue)
        refine ⟨?_, by rintro _ ⟨⟩; exact hswitch⟩
        rcases hswitch with rfl | rfl <;> simp [Manner.on, hvalue, Session.switch?]
  · cases hvalue : m.reported? "integer_datetimes" with
    | none => simpa [Manner.on, hvalue] using h.datetimes
    | some value =>
        have hswitch := switch?_isSome (hreported hvalue)
        refine ⟨?_, by rintro _ ⟨⟩; exact hswitch⟩
        rcases hswitch with rfl | rfl <;> simp [Manner.on, hvalue, Session.switch?]
  · cases hvalue : m.reported? "server_version_num" with
    | none => simpa [Manner.on, hvalue] using h.version
    | some value =>
        obtain ⟨number, hnumber⟩ := Option.isSome_iff_exists.1 (hreported hvalue)
        refine .inr ⟨value, rfl, ?_⟩
        have hversion : versionNumber? value = some number := hnumber
        rw [Manner.on, hvalue, Option.bind_some, hversion]
        rfl

/-- Messages that could all be lived with leave a client that reads as they say. -/
theorem trustworthy_foldl {allows : Bool} {ms : List BackendMessage}
    (h : ∀ m ∈ ms, m.isAcceptable allows = true) :
    Trustworthy allows ms (ms.foldl (Manner.on allows) {}) := by
  induction ms using List.reverseRecOn with
  | nil =>
      exact ⟨fun _ => ⟨rfl, nofun⟩, fun _ => rfl, nofun, ⟨⟨nofun, nofun⟩, nofun⟩,
        ⟨⟨nofun, nofun⟩, nofun⟩, .inl ⟨rfl, rfl⟩⟩
  | append_singleton ms m ih =>
      rw [List.foldl_append]
      exact (ih fun m hm => h m (List.mem_append_left _ hm)).on (h m (by simp))

/-- No client can live with a setting of this value: whatever was reported before, nobody would be
right to trust it. -/
def Unbearable (allowsEncodings : Bool) (name value : String) : Prop :=
  ∀ ms o, ¬ Trustworthy allowsEncodings (ms ++ [.parameterStatus name value]) o

theorem unbearable_iff {allows : Bool} {name value : String} :
    Unbearable allows name value ↔
      BackendMessage.acceptsSetting allows name value = false := by
  constructor
  · intro h
    by_contra haccepts
    have hnew : Trustworthy allows [] {} := trustworthy_foldl (List.forall_mem_nil _)
    exact h [] _ (hnew.on (Bool.of_not_eq_false haccepts))
  · intro h ms o htrust
    have hlast : lastReported name (ms ++ [.parameterStatus name value]) = some value := by
      rw [lastReported_append, BackendMessage.reported?, if_pos rfl, Option.some_or]
    have hswitch : (value = "on" ∨ value = "off") → (Session.switch? value).isSome = true := by
      rintro (rfl | rfl) <;> rfl
    suffices haccepts : BackendMessage.acceptsSetting allows name value = true by
      rw [haccepts] at h
      cases h
    unfold BackendMessage.acceptsSetting
    split
    · cases allows with
      | true => rfl
      | false => exact (htrust.fixed rfl).2 value hlast
    · exact htrust.dates value hlast
    · exact hswitch (htrust.strings.2 value hlast)
    · exact hswitch (htrust.datetimes.2 value hlast)
    · rcases htrust.version with ⟨hnone, -⟩ | ⟨value', hvalue, hnumber⟩
      · rw [hlast] at hnone
        cases hnone
      · obtain rfl := Option.some.inj (hlast.symm.trans hvalue)
        exact Option.isSome_iff_exists.2 ⟨_, hnumber⟩
    · rfl

namespace Session

def manner (s : Session) : Manner where
  charset := s.channel.charset
  conformingStrings := s.status.conformingStrings
  integerDatetimes := s.integerDatetimes
  versionNumber := s.serverVersionNumber

/-- The error that a report ends with if the client cannot live with it. -/
def refusal (name value : String) : Error :=
  match name with
  | "client_encoding" => .connectionFailure (.encodingChanged value)
  | "DateStyle" => .connectionFailure (.dateStyleChanged value)
  | "standard_conforming_strings" => .connectionFailure (.conformingStrings value)
  | "server_version_num" => .protocolViolation (.serverVersionNumber value)
  | _ => .protocolViolation .sessionSetup

/-- The settings that the client takes its leave over. -/
def partsOver (name : String) : Bool :=
  ["client_encoding", "DateStyle", "standard_conforming_strings"].contains name

theorem refusal_fatal (name value : String) : (refusal name value).isFatal = true := by
  unfold refusal
  split <;> rfl

/-! ## What is done without a word -/

/-- The manner stays the same. -/
def Mannered (s : Session) (_ : Option Halt) (s' : Session) : Prop :=
  s'.manner = s.manner

theorem mannered_composes : Composes Mannered where
  refl _ := rfl
  trans h h' := Eq.trans h' h

theorem onChannel_mannered {α : Type} {x : Exchange Channel α} (hx : Obeys Channel.Talks x) :
    Obeys Mannered (onChannel x) :=
  hx.zoom fun s _ c h => by
    show Manner.mk c.charset _ _ _ = _
    rw [h.charset]
    rfl

theorem attempt_mannered {α : Type} {x : Exchange Session α} (hx : Obeys Mannered x) :
    Obeys Mannered x.attempt := by
  intro s
  rw [final_attempt]
  exact hx s

theorem mannered_endures : Endures (Obeys Mannered) where
  toAssembles := assembles_of_composes mannered_composes
  told event _ := onChannel_mannered (Channel.record_talks event)
  shuts := attempt_mannered (onChannel_mannered Channel.close_talks)
  marks _ _ := rfl
  sends octets := onChannel_mannered (Channel.send_talks octets)
  flushes := attempt_mannered (onChannel_mannered Channel.flush_talks)

/-- What was heard, how it is read and what was said are as they were. -/
structure Hushed (s s' : Session) : Prop where
  keeps : Keeps s s'
  manner : s'.manner = s.manner
  faults : s'.channel.socket.faults = s.channel.socket.faults
  sent : s'.channel.socket.sent = s.channel.socket.sent
  closed : s.isClosed = true → s'.isClosed = true

theorem abort_hushed {s s' : Session} (h : abort s = .ok () s') : Hushed s s' := by
  obtain ⟨hsent, hfaults⟩ := unheeded_lapses.abort.ok h
  refine ⟨abort_keeps.ok h, mannered_endures.abort.ok h, hfaults, hsent, fun _ => ?_⟩
  have hclosed := abort_reaches.final s
  rwa [h] at hclosed

theorem checkFatal_hushed {α : Type} {result : Except Error α} {s s' : Session}
    (h : checkFatal result s = .ok () s') : Hushed s s' := by
  obtain ⟨hsent, hfaults⟩ := (checkFatal_unheeded result).ok h
  refine ⟨?_, ?_, hfaults, hsent, fun hclosed => ?_⟩
  · exact (keeps_endures.toAssembles.checkFatal (fun _ h => record_keeps h) abort_keeps result).ok h
  · exact (mannered_endures.toAssembles.checkFatal
      (fun event _ => onChannel_mannered (Channel.record_talks event)) mannered_endures.abort
      result).ok h
  · cases result with
    | ok _ =>
        cases h
        exact hclosed
    | error e =>
        obtain ⟨s'', hs'', hends⟩ := checkFatal_ends (α := α) e s
        cases hs''.symm.trans h
        unfold Ends at hends
        split at hends
        · exact hends.2
        · rw [hends]
          exact hclosed

/-! ## Taking leave -/

/-- A session has taken its leave: it told the journal of a Terminate, and has sent it unless
nothing could be sent. -/
structure Departs (asides : List Event) (s' : Session) : Prop where
  closed : s'.isClosed = true
  tried : Event.sending .terminate ∈ asides
  sent : farewell <:+ s'.channel.socket.sent ∨ s'.channel.socket.faults.write = true

theorem Departs.hushed {asides more : List Event} {s s' : Session} (h : Departs asides s)
    (hs : Hushed s s') : Departs (asides ++ more) s' := by
  refine ⟨hs.closed h.closed, List.mem_append_left _ h.tried, ?_⟩
  rw [hs.sent, hs.faults]
  exact h.sent

theorem close_departs (s : Session) :
    ∃ asides, (final (close s)).history = s.history ++ asides ∧ (∀ e ∈ asides, e.isAside = true) ∧
      (s.isClosed = false → Departs asides (final (close s))) := by
  cases hopen : s.isClosed with
  | true =>
      obtain ⟨asides, hasides, haside⟩ := (close_keeps s).channel.history
      exact ⟨asides, hasides, haside, nofun⟩
  | false =>
      have hkeeps : Keeps s.leaving (final (hangUp s.leaving)) := keeps_endures.hangUp s.leaving
      obtain ⟨events, hevents, haside⟩ := hkeeps.channel.history
      have hclosed := close_reaches.final s
      have hunheeded := hangUp_unheeded s.leaving
      rw [close_of_open hopen] at hclosed ⊢
      refine ⟨.sending .terminate :: events, ?_, List.forall_mem_cons.2 ⟨rfl, haside⟩, fun _ =>
        ⟨hclosed, List.mem_cons_self, ?_⟩⟩
      · rw [show (final (hangUp s.leaving)).history = s.leaving.history ++ events from hevents,
          show s.leaving.history = s.history ++ [.sending .terminate] from
            s.channel.history_told (.sending .terminate), List.append_assoc]
        rfl
      · rw [hunheeded.sent, hunheeded.faults]
        cases hwrite : s.channel.socket.faults.write with
        | true =>
            refine .inr ?_
            rw [show (final (Channel.flush s.leaving.channel)).socket = s.leaving.channel.socket
              from Channel.flush_unwritten hwrite]
            exact hwrite
        | false =>
            refine .inl ⟨s.channel.socket.sent ++ s.channel.outgoing, ?_⟩
            rw [Channel.flush_writes (c := s.leaving.channel) hwrite, List.append_assoc]
            rfl

/-! ## What a reported setting comes to -/

theorem leave_apply {α : Type} (cause : LinkFault) (s : Session) :
    leave (α := α) cause s = .error (.failed (.connectionFailure cause)) (final (close s)) := by
  obtain ⟨_, s', hs', -⟩ := close_reaches s
  unfold leave
  rw [bind_of_ok hs', hs']
  rfl

theorem onSetting_refused {name value : String} {s : Session}
    (h : BackendMessage.acceptsSetting s.options.allowEncodingChanges name value = false) :
    onSetting name value s = .error (.failed (refusal name value))
      (if partsOver name then final (close s) else s) := by
  have hswitch : ∀ {value : String}, (switch? value).isSome = false → switch? value = none :=
    fun h => Option.not_isSome_iff_eq_none.1 (ne_true_of_eq_false h)
  unfold onSetting
  split
  · have hvalue : (s.options.allowEncodingChanges || namesUtf8 value) = false := h
    obtain ⟨hfixed, hforeign⟩ := Bool.or_eq_false_iff.1 hvalue
    unfold onEncoding
    rw [bind_of_ok (get_apply s), hfixed,
      show (Ascii.eqIgnoringCase value "UTF8" || Ascii.eqIgnoringCase value "UTF-8") = false from
        hforeign]
    exact leave_apply _ s
  · rw [if_neg (ne_true_of_eq_false (show (Ascii.upper value).startsWith "ISO" = false from h))]
    exact leave_apply _ s
  · rw [hswitch h]
    exact leave_apply _ s
  · cases h
  · cases h
  · rw [Option.not_isSome_iff_eq_none.1 (ne_true_of_eq_false
      (show (Decimal.int? Decimal.int32Max value).isSome = false from h))]
    rfl
  · cases h
  · rw [hswitch h]
    rfl
  · next hencoding hdates hstrings _ _ hversion _ hdatetimes =>
      unfold BackendMessage.acceptsSetting at h
      split at h
      · exact absurd rfl hencoding
      · exact absurd rfl hdates
      · exact absurd rfl hstrings
      · exact absurd rfl hdatetimes
      · exact absurd rfl hversion
      · cases h

theorem onSetting_manner (name value : String) :
    Obeys (fun s _ s' => s'.manner = s.manner.on s.options.allowEncodingChanges
      (.parameterStatus name value)) (onSetting name value) := by
  intro s
  have hleave : ∀ cause, (final (leave (α := Unit) cause s)).manner = s.manner := by
    intro cause
    rw [leave_apply]
    exact mannered_endures.close s
  -- one case for each setting the session makes something of, and one for all others
  unfold onSetting
  split
  · unfold onEncoding
    rw [bind_of_ok (get_apply s), Manner.on_encoding]
    split
    · split <;> rfl
    · split
      · rfl
      · exact hleave _
  · rw [Manner.on_other _ _ _ (by decide)]
    split
    · rfl
    · exact hleave _
  · rw [Manner.on_strings]
    cases switch? value with
    | some isOn => rfl
    | none => exact hleave _
  · rw [Manner.on_other _ _ _ (by decide)]
    rfl
  · rw [Manner.on_other _ _ _ (by decide)]
    rfl
  · rw [Manner.on_version]
    unfold PgClient.versionNumber?
    cases Decimal.int? Decimal.int32Max value with
    | some number => rfl
    | none => rfl
  · rw [Manner.on_other _ _ _ (by decide)]
    rfl
  · rw [Manner.on_datetimes]
    cases switch? value with
    | some isOn => rfl
    | none => rfl
  · next hencoding _ hstrings _ _ hversion _ hdatetimes =>
      rw [Manner.on_other]
      · rfl
      · simp only [List.mem_cons, not_or]
        exact ⟨hencoding, hstrings, hdatetimes, hversion, List.not_mem_nil⟩

/-! ## Messages -/

/-- A message was taken in as what it is: what follows is read as it says, or it is refused. -/
structure Weighed (m : BackendMessage) (asides : List Event) (s : Session) (h : Option Halt)
    (s' : Session) : Prop where
  history : s'.history = s.history ++ asides
  aside : ∀ e ∈ asides, e.isAside = true
  options : s'.options = s.options
  manner : s'.manner = s.manner.on s.options.allowEncodingChanges m
  calm : h = none → s'.isClosed = s.isClosed
  refused : ∀ name value, m = .parameterStatus name value →
    BackendMessage.acceptsSetting s.options.allowEncodingChanges name value = false →
    h = some (.failed (refusal name value)) ∧
      (partsOver name = true → s.isClosed = false → Departs asides s')

/-- Taking a message in, as a law of exchanges. -/
def Weighs (m : BackendMessage) (s : Session) (h : Option Halt) (s' : Session) : Prop :=
  ∃ asides, Weighed m asides s h s'

theorem weighs_of_keeps {m : BackendMessage} {s s' : Session} {h : Option Halt}
    (hm : m.tag ≠ .parameterStatus) (hkeeps : s.channel.Keeps s'.channel)
    (hoptions : s'.options = s.options) (hmanner : s'.manner = s.manner)
    (hcalm : h = none → s'.isClosed = s.isClosed) : Weighs m s h s' := by
  obtain ⟨asides, hhistory, hasides⟩ := hkeeps.history
  refine ⟨asides, hhistory, hasides, hoptions, ?_, hcalm, ?_⟩
  · rw [hmanner, Manner.on_unreported]
    intro name
    cases m with
    | parameterStatus => exact absurd rfl hm
    | _ => rfl
  · rintro name value rfl
    exact absurd rfl hm

theorem weighs_of_aside {m : BackendMessage} {s s' : Session} {h : Option Halt}
    (hm : m.tag ≠ .parameterStatus) (haside : Aside s h s') (hmanner : s'.manner = s.manner) :
    Weighs m s h s' :=
  weighs_of_keeps hm haside.keeps.channel haside.keeps.options hmanner haside.calm

theorem onParameter_weighs (name value : String) :
    Obeys (Weighs (.parameterStatus name value)) (onParameter name value) := by
  intro s
  have haside := onParameter_aside name value s
  obtain ⟨parameters, hparameter⟩ := onParameter_apply name value s
  have hmanner := onSetting_manner name value { s with parameters }
  rw [← hparameter] at hmanner
  cases hvalue : BackendMessage.acceptsSetting s.options.allowEncodingChanges name value with
  | true =>
      obtain ⟨asides, hhistory, hasides⟩ := haside.keeps.channel.history
      refine ⟨asides, hhistory, hasides, haside.keeps.options, hmanner, haside.calm, ?_⟩
      rintro _ _ ⟨⟩ hrefused
      rw [hvalue] at hrefused
      cases hrefused
  | false =>
      have hrun := hparameter.trans (onSetting_refused (s := { s with parameters }) hvalue)
      rw [hrun] at haside hmanner ⊢
      cases hparts : partsOver name with
      | false =>
          refine ⟨[], (List.append_nil _).symm, List.forall_mem_nil _, rfl, ?_, nofun, ?_⟩
          · rw [hparts] at hmanner
            exact hmanner
          · rintro _ _ ⟨⟩ -
            refine ⟨rfl, fun h => ?_⟩
            rw [hparts] at h
            cases h
      | true =>
          rw [hparts] at hmanner haside
          obtain ⟨asides, hhistory, hasides, hdeparts⟩ := close_departs { s with parameters }
          refine ⟨asides, hhistory, hasides, haside.keeps.options, hmanner, nofun, ?_⟩
          rintro _ _ ⟨⟩ -
          exact ⟨rfl, fun _ => hdeparts⟩

/-- What is done with the value of an operation, if that leaves the session as it is. -/
theorem weighs_bind {α β : Type} {m : BackendMessage} {x : Exchange Session α}
    {f : α → Exchange Session β} (hx : Obeys (Weighs m) x) (hf : ∀ a s, final (f a s) = s) :
    Obeys (Weighs m) (x >>= f) := by
  intro s
  have hrun := hx s
  rw [bind_apply]
  cases h : x s with
  | error halt t =>
      rw [h] at hrun
      exact hrun
  | ok a t =>
      rw [h] at hrun
      obtain ⟨asides, hw⟩ := hrun
      simp only [hf]
      refine ⟨asides, hw.history, hw.aside, hw.options, hw.manner, fun _ => hw.calm rfl, ?_⟩
      intro name value hm hrefused
      cases (hw.refused name value hm hrefused).1

theorem onError_weighs {α : Type} (report : Report) :
    Obeys (Weighs (.errorResponse report))
      (onError report >>= fun e => (fail (.server e) : Exchange Session α)) := by
  refine weighs_bind (fun s => ?_) fun _ _ => rfl
  rw [Conversation.onError_apply]
  exact weighs_of_keeps nofun (.refl _) rfl rfl fun _ => rfl

theorem announce_weighs (m : BackendMessage) : Obeys (Weighs m) (announce m) := by
  have hviolation : m.tag ≠ .parameterStatus →
      Obeys (Weighs m) (violation .sessionSetup : Exchange Session Bool) :=
    fun hm s => weighs_of_aside hm (fail_aside (α := Bool) rfl s) rfl
  cases m with
  | readyForQuery status =>
      refine weighs_bind (fun s => ?_) fun _ _ => rfl
      refine weighs_of_aside nofun (onReady_aside status s) ?_
      rw [onReady_plain status s]
      rfl
  | errorResponse report => exact onError_weighs report
  | backendKeyData key => exact fun s => weighs_of_keeps nofun (.refl _) rfl rfl fun _ => rfl
  | noticeResponse report =>
      exact fun s => weighs_of_keeps nofun (.refl _) rfl rfl fun _ => rfl
  | parameterStatus name value =>
      exact weighs_bind (onParameter_weighs name value) fun _ _ => rfl
  | _ => exact hviolation nofun

theorem takeIdle_weighs (m : BackendMessage) : Obeys (Weighs m) (takeIdle m) := by
  cases m with
  | parameterStatus name value => exact onParameter_weighs name value
  | errorResponse report => exact onError_weighs report
  | _ => exact fun s => weighs_of_keeps nofun (.refl _) rfl rfl fun _ => rfl

theorem take_weighs (m : BackendMessage) :
    Obeys (fun c h c' => Weighs m c.session h c'.session) (Conversation.take m) := by
  intro c
  have hhandles := Conversation.take_handles m c
  by_cases hm : m.tag = .parameterStatus
  · cases m with
    | parameterStatus name value =>
        exact (Conversation.onSession_obeys (onParameter_weighs name value)).followed false c
    | _ => cases hm
  · refine weighs_of_keeps hm hhandles.channel hhandles.options ?_ hhandles.calm
    rw [Conversation.take_plain hm c]
    rfl

/-! ## Calls -/

/-- What a call made of the messages among its events: they could all be lived with, or the last
one could not, and the call came to the error that says so. -/
inductive Verdict (s : Session) (h : Option Halt) (s' : Session) : List Event → Prop where
  | lived {events : List Event} (hlived : ∀ m ∈ events.filterMap Event.message?,
      m.isAcceptable s.options.allowEncodingChanges = true) : Verdict s h s' events
  | refused {before asides : List Event} {name value : String} {detail : Bool}
      (hlived : ∀ m ∈ before.filterMap Event.message?,
        m.isAcceptable s.options.allowEncodingChanges = true)
      (haside : ∀ e ∈ asides, e.isAside = true)
      (hrefused : BackendMessage.acceptsSetting s.options.allowEncodingChanges name value = false)
      (hhalt : h = some (.failed (refusal name value)))
      (hdeparts : partsOver name = true → s.isClosed = false → Departs asides s') :
      Verdict s h s' (before ++ .received (.parameterStatus name value) detail :: asides)

/-- What a call heard is how it reads from then on. -/
structure Vetted (events : List Event) (s : Session) (h : Option Halt) (s' : Session) : Prop where
  history : s'.history = s.history ++ events
  options : s'.options = s.options
  manner : s'.manner = (events.filterMap Event.message?).foldl
    (Manner.on s.options.allowEncodingChanges) s.manner
  calm : h = none → s'.isClosed = s.isClosed
  verdict : Verdict s h s' events

/-- Hearing messages, as a law of exchanges. -/
def Vets (s : Session) (h : Option Halt) (s' : Session) : Prop :=
  ∃ events, Vetted events s h s'

/-- Nothing was heard. -/
theorem vets_of_mannered {s s' : Session} {h : Option Halt} {events : List Event}
    (hhistory : s'.history = s.history ++ events) (hnone : events.filterMap Event.message? = [])
    (hoptions : s'.options = s.options) (hmanner : s'.manner = s.manner)
    (hcalm : h = none → s'.isClosed = s.isClosed) : Vets s h s' := by
  refine ⟨events, hhistory, hoptions, ?_, hcalm, .lived ?_⟩
  · rw [hnone]
    exact hmanner
  · rw [hnone]
    exact List.forall_mem_nil _

theorem vets_composes : Composes Vets where
  refl s := vets_of_mannered (List.append_nil _).symm rfl rfl rfl fun _ => rfl
  trans := by
    rintro s t u h ⟨es, hes⟩ ⟨fs, hfs⟩
    have hlived : ∀ m ∈ es.filterMap Event.message?,
        m.isAcceptable s.options.allowEncodingChanges = true := by
      cases hes.verdict with
      | lived hlived => exact hlived
      | refused _ _ _ hhalt => cases hhalt
    refine ⟨es ++ fs, ?_, hfs.options.trans hes.options, ?_,
      fun hnone => (hfs.calm hnone).trans (hes.calm rfl), ?_⟩
    · rw [hfs.history, hes.history, List.append_assoc]
    · rw [hfs.manner, hes.manner, hes.options, List.filterMap_append, List.foldl_append]
    · have hverdict := hfs.verdict
      cases hverdict with
      | lived hlived' =>
          rw [hes.options] at hlived'
          refine .lived ?_
          rw [List.filterMap_append]
          exact List.forall_mem_append.2 ⟨hlived, hlived'⟩
      | refused hlived' haside hrefused hhalt hdeparts =>
          rw [hes.options] at hlived' hrefused
          rw [← List.append_assoc]
          refine .refused ?_ haside hrefused hhalt fun hparts hopen =>
            hdeparts hparts ((hes.calm rfl).trans hopen)
          rw [List.filterMap_append]
          exact List.forall_mem_append.2 ⟨hlived, hlived'⟩

/-- An error is looked into without a word. -/
theorem Vetted.hushed {events : List Event} {s t u : Session} {halt : Halt}
    (hv : Vetted events s (some halt) t) (hu : Hushed t u) : Vets s (some halt) u := by
  obtain ⟨more, hmore, haside⟩ := hu.keeps.channel.history
  have hnone := filterMap_message?_of_isAside haside
  refine ⟨events ++ more, ?_, hu.keeps.options.trans hv.options, ?_, nofun, ?_⟩
  · rw [show u.history = t.history ++ more from hmore, hv.history, List.append_assoc]
  · rw [hu.manner, hv.manner, List.filterMap_append, hnone, List.append_nil]
  · have hverdict := hv.verdict
    cases hverdict with
    | lived hlived =>
        refine .lived ?_
        rw [List.filterMap_append, hnone, List.append_nil]
        exact hlived
    | refused hlived hasides hrefused hhalt hdeparts =>
        rw [List.append_assoc, List.cons_append]
        exact .refused hlived (List.forall_mem_append.2 ⟨hasides, haside⟩) hrefused hhalt
          fun hparts hopen => (hdeparts hparts hopen).hushed hu

theorem vets_of_weighs {m : BackendMessage} {s s₁ s' : Session} {h : Option Halt}
    (hm : Receives s m s₁) (hmanner : s₁.manner = s.manner) (hw : Weighs m s₁ h s') :
    Vets s h s' := by
  obtain ⟨asides, hw⟩ := hw
  have hsame : s₁.options = s.options ∧ s₁.isClosed = s.isClosed := by
    rw [← hm.others]
    exact ⟨rfl, rfl⟩
  have hmessages : (Event.received m s.options.showErrorDetail :: asides).filterMap
      Event.message? = [m] := by
    rw [List.filterMap_cons, filterMap_message?_of_isAside hw.aside]
    rfl
  refine ⟨.received m s.options.showErrorDetail :: asides, ?_, hw.options.trans hsame.1, ?_,
    fun hnone => (hw.calm hnone).trans hsame.2, ?_⟩
  · rw [hw.history, hm.history, List.append_assoc]
    rfl
  · rw [hmessages, hw.manner, hmanner, hsame.1]
    rfl
  · cases hacceptable : m.isAcceptable s.options.allowEncodingChanges with
    | true =>
        refine .lived ?_
        rw [hmessages]
        exact List.forall_mem_singleton.2 hacceptable
    | false =>
        cases m with
        | parameterStatus name value =>
            obtain ⟨hhalt, hdeparts⟩ :=
              hw.refused name value rfl (by rw [hsame.1]; exact hacceptable)
            have hnothing : ∀ m' ∈ ([] : List Event).filterMap Event.message?,
                m'.isAcceptable s.options.allowEncodingChanges = true := List.forall_mem_nil _
            exact .refused hnothing hw.aside hacceptable hhalt
              fun hparts hopen => hdeparts hparts (hsame.2.trans hopen)
        | _ => cases hacceptable

theorem receive_mannered (phase : Phase) : Obeys Mannered (receive phase) :=
  mannered_composes.bind mannered_composes.get fun _ =>
    onChannel_mannered (Channel.receive_talks phase _)

theorem vets_of_unheard {phase : Phase} {s s' : Session} {halt : Halt}
    (h : receive phase s = .error halt s') : Vets s (some halt) s' := by
  obtain ⟨⟨⟨events, hhistory, hnone⟩, hoptions, -⟩, -⟩ := receive_unheard h
  exact vets_of_mannered hhistory hnone hoptions ((receive_mannered phase).error h) nofun

theorem announceNext_vets : Obeys Vets announceNext := by
  intro s
  unfold announceNext
  rw [bind_apply]
  cases hread : receive .startup s with
  | error halt t => exact vets_of_unheard hread
  | ok m t =>
      exact vets_of_weighs (receive_reads (by decide) hread).receives
        ((receive_mannered .startup).ok hread) (announce_weighs m t)

theorem takeNext_vets :
    Obeys (fun c h c' => Vets c.session h c'.session) Conversation.takeNext := by
  intro c
  unfold Conversation.takeNext
  rw [bind_apply, Conversation.onSession_apply]
  cases hread : receive .reply c.session with
  | error halt t => exact vets_of_unheard hread
  | ok m t =>
      exact vets_of_weighs (receive_reads (by decide) hread).receives
        ((receive_mannered .reply).ok hread) (take_weighs m { c with session := t })

/-- Octets are read, and there is no message among them. -/
theorem vets_of_reading {s : Session} {h : Option Halt} {c : Channel}
    (hr : Channel.Reading s.channel h c) : Vets s h { s with channel := c } := by
  obtain ⟨octets, hoff⟩ := hr.reads
  have hhistory : ({ s with channel := c } : Session).history = s.history ++ [] := by
    rw [List.append_nil]
    exact congrArg Array.toList hoff.journal
  refine vets_of_mannered hhistory rfl rfl ?_ fun _ => rfl
  show Manner.mk c.charset _ _ _ = _
  rw [hoff.remains.charset]
  rfl

theorem noticeNext_vets (wait : Nat) : Obeys Vets (noticeNext wait) := by
  refine noticeNext_of_receives vets_composes vets_of_reading (fun {s s₁ octet m} hrun _ hm => ?_)
    wait
  have hmanner : s₁.manner = s.manner := (onChannel_mannered
    (Channel.receiveAfter_talks .idle octet s.options.showErrorDetail)).ok hrun
  exact vets_of_weighs hm hmanner (takeIdle_weighs m s₁)

theorem sends_mannered {st : Statement} {parameters : List (Option Bytes)} {s : Session}
    {r : EStateM.Result Halt Session (Option String)} (h : Sends st parameters s r) :
    (final r).manner = s.manner := by
  have hcharset : ∀ c : Channel, c.charset = s.channel.charset →
      Manner.mk c.charset s.status.conformingStrings s.integerDatetimes s.serverVersionNumber =
        s.manner := by
    rintro c hc
    rw [hc]
    rfl
  cases h with
  | unclosed => rfl
  | refused => rfl
  | unwritten _ _ _ _ _ hflush => exact hcharset _ (Channel.flush_talks.error hflush).charset
  | written _ _ _ _ hsame => exact hcharset _ hsame

theorem vets_callLaw : CallLaw Vets where
  toComposes := vets_composes
  stops s halt := vets_of_mannered (List.append_nil _).symm rfl rfl rfl nofun
  drafts s sql octets := by
    obtain ⟨-, hclosed, events, hhistory, hnone⟩ := drafts_prepares s [.query sql] octets (.refl _)
    exact vets_of_mannered hhistory hnone rfl rfl fun _ => hclosed
  flushes s := by
    have hkeeps := onChannel_keeps Channel.flush_keeps s
    obtain ⟨events, hhistory, haside⟩ := hkeeps.channel.history
    refine vets_of_mannered hhistory (filterMap_message?_of_isAside haside) hkeeps.options
      (onChannel_mannered Channel.flush_talks s) fun _ => ?_
    rw [final_onChannel]
  sends st parameters s := by
    have hsends := sendStatement_sends st parameters s
    obtain ⟨-, hclosed, events, hhistory, hnone⟩ := hsends.prepares
    exact vets_of_mannered hhistory hnone hsends.learns.options (sends_mannered hsends)
      fun _ => hclosed
  replies := takeNext_vets
  notices := noticeNext_vets
  checks := by
    rintro s t e ⟨events, hv⟩
    obtain ⟨t', ht', -⟩ := checkFatal_ends (α := Unit) e t
    rw [ht']
    exact hv.hushed (checkFatal_hushed ht')

theorem begin_vets : Obeys Vets begin := by
  have hstart : Obeys Vets start := vets_composes.loop readAnnouncement_succ
    (fun s => vets_callLaw.stops s _) announceNext_vets maxStartupMessages
  refine begin_obeys vets_composes hstart (fun party pid s => ?_) ?_
  · exact vets_of_mannered (s.channel.history_told _) rfl rfl rfl fun _ => rfl
  · rintro s t u e ⟨events, hv⟩ habort
    exact hv.hushed (abort_hushed habort)

/-! ## What a report comes to that nobody can live with -/

/-- A report ended a call: it is the last message that was heard, the call came to the error that
says so, and the session has ended, with a Terminate if the report was about how to read. -/
structure Refuses (s : Session) (name value : String) (h : Option Halt) (s' : Session) : Prop where
  last : (s.heard s').getLast? = some (.parameterStatus name value)
  error : h = some (.failed (refusal name value))
  fatal : (refusal name value).isFatal = true
  kind : if partsOver name then ∃ fault, refusal name value = .connectionFailure fault
    else ∃ violation, refusal name value = .protocolViolation violation
  closed : s'.isClosed = true
  departs : partsOver name = true → Departs (s'.history.drop s.history.length) s'

/-- Whatever report nobody can live with, a call that heard it was ended by it. -/
def Rejects (s : Session) (h : Option Halt) (s' : Session) : Prop :=
  ∀ name value, Unbearable s.options.allowEncodingChanges name value →
    .parameterStatus name value ∈ s.heard s' → Refuses s name value h s'

theorem Vetted.heard {events : List Event} {s s' : Session} {h : Option Halt}
    (hv : Vetted events s h s') : s.heard s' = events.filterMap Event.message? := by
  unfold Session.heard
  rw [hv.history, List.drop_left]

theorem refusal_kind {name value : String} {allows : Bool}
    (h : BackendMessage.acceptsSetting allows name value = false) :
    if partsOver name then ∃ fault, refusal name value = .connectionFailure fault
      else ∃ violation, refusal name value = .protocolViolation violation := by
  unfold BackendMessage.acceptsSetting at h
  split at h
  · exact ⟨_, rfl⟩
  · exact ⟨_, rfl⟩
  · exact ⟨_, rfl⟩
  · exact ⟨_, rfl⟩
  · exact ⟨_, rfl⟩
  · cases h

theorem Vets.rejects {s s' : Session} {h : Option Halt} (hv : Vets s h s') (hcloses : Closes h s')
    (hopen : s.isClosed = false) : Rejects s h s' := by
  obtain ⟨events, hv⟩ := hv
  intro name value hunbearable hmem
  have hrefused := unbearable_iff.1 hunbearable
  rw [hv.heard] at hmem
  have hverdict := hv.verdict
  cases hverdict with
  | lived hlived =>
      have haccepts := hlived _ hmem
      rw [show BackendMessage.isAcceptable _ (.parameterStatus name value) = _ from hrefused]
        at haccepts
      cases haccepts
  | @refused before asides name' value' detail hlived haside hrefused' hhalt hdeparts =>
      have hmessages : (before ++ Event.received (.parameterStatus name' value') detail ::
          asides).filterMap Event.message? =
          before.filterMap Event.message? ++ [.parameterStatus name' value'] := by
        rw [List.filterMap_append, List.filterMap_cons, filterMap_message?_of_isAside haside]
        rfl
      have hsame : name' = name ∧ value' = value := by
        rw [hmessages] at hmem
        rcases List.mem_append.1 hmem with hbefore | hthis
        · have haccepts := hlived _ hbefore
          rw [show BackendMessage.isAcceptable _ (.parameterStatus name value) = _ from hrefused]
            at haccepts
          cases haccepts
        · obtain ⟨rfl, rfl⟩ := BackendMessage.parameterStatus.inj (List.mem_singleton.1 hthis)
          exact ⟨rfl, rfl⟩
      obtain ⟨rfl, rfl⟩ := hsame
      refine ⟨?_, hhalt, refusal_fatal _ _, refusal_kind hrefused,
        hcloses _ hhalt (refusal_fatal _ _), fun hparts => ?_⟩
      · rw [hv.heard, hmessages, List.getLast?_concat]
      · have hdeparted := hdeparts hparts hopen
        refine ⟨hdeparted.closed, ?_, hdeparted.sent⟩
        rw [hv.history, List.drop_left]
        exact List.mem_append_right _ (List.mem_cons_of_mem _ hdeparted.tried)

theorem Vets.survives {s s' : Session} {h : Option Halt} (hv : Vets s h s')
    (hcloses : Closes h s') (hwas : s.isClosed = false) (hopen : s'.isClosed = false) :
    Vets s none s' := by
  obtain ⟨events, hv⟩ := hv
  refine ⟨events, hv.history, hv.options, hv.manner, fun _ => hopen.trans hwas.symm, ?_⟩
  have hverdict := hv.verdict
  cases hverdict with
  | lived hlived => exact .lived hlived
  | refused _ _ _ hhalt =>
      rw [hcloses _ hhalt (refusal_fatal _ _)] at hopen
      cases hopen

end Session

namespace World

open Session

variable {w : World}

/-! ## Runs -/

theorem act_vets {operation : Operation} (hopen : (w.act operation).session.isClosed = false) :
    Vets w.session none (w.act operation).session := by
  have hwas := act_open hopen
  have hlocal : ∀ {operation : Operation}, operation.isLocal = true →
      Vets w.session none (w.act operation).session := by
    intro operation h
    obtain ⟨journal, asides, statements, pendingClose, hact, hhistory, haside⟩ := w.act_local h
    rw [hact]
    exact vets_of_mannered hhistory (filterMap_message?_of_isAside haside) rfl rfl fun _ => rfl
  cases operation with
  | borrow | create | setFetchSize | release => exact hlocal rfl
  | query sql =>
      exact (vets_callLaw.query sql w.session).survives
        (closes_of_settled (query_settled sql w.session)) hwas hopen
  | execute id parameters =>
      rcases w.act_execute id parameters with hact | ⟨handle, -, hact⟩
      · rw [hact]
        exact vets_composes.refl _
      · rw [hact] at hopen ⊢
        exact (vets_callLaw.execute handle.statement parameters w.session).survives
          (closes_of_settled (execute_settled handle.statement parameters w.session)) hwas hopen
  | takeNotices wait =>
      exact (vets_callLaw.takeNotices wait w.session).survives
        (takeNotices_closes wait w.session) hwas hopen
  | close => exact absurd (Session.close_reaches.final w.session) (ne_true_of_eq_false hopen)
  | abort => exact absurd (Session.abort_reaches.final w.session) (ne_true_of_eq_false hopen)
  | arrive octets ended faults =>
      exact vets_of_mannered (List.append_nil _).symm rfl rfl rfl fun _ => rfl

theorem run_vets (operations : List Operation)
    (hopen : (w.run operations).session.isClosed = false) :
    Vets w.session none (w.run operations).session := by
  -- from the end, since a session that is open after a call was open before it
  induction operations using List.reverseRecOn with
  | nil => exact vets_composes.refl _
  | append_singleton operations operation ih =>
      rw [run_append] at hopen ⊢
      have hstep : (w.run operations).run [operation] = (w.run operations).step operation := rfl
      rw [hstep] at hopen ⊢
      cases hrunning : (w.run operations).isStuck with
      | true =>
          rw [step_of_stuck hrunning] at hopen ⊢
          exact ih hopen
      | false =>
          rw [step_of_running hrunning] at hopen ⊢
          exact vets_composes.trans (ih (act_open hopen)) (act_vets hopen)

/-- What goes for the settings a server reports in the course of a session. -/
structure Vigilant (s₀ : Session) : Prop where
  /-- While the session is open, between any two calls, each setting is one to be trusted, and
  the session reads what the server sends accordingly. -/
  trusts : ∀ s operations, begin s₀ = .ok () s →
    ((start s).run operations).session.isClosed = false →
    Trustworthy s₀.options.allowEncodingChanges (s₀.heard ((start s).run operations).session)
      ((start s).run operations).session.manner
  begins : Rejects s₀ (halt? (begin s₀)) (final (begin s₀))
  queries : ∀ s sql, s.isClosed = false →
    Rejects s (replyHalt (Session.query sql s)) (final (Session.query sql s))
  executes : ∀ s st parameters, s.isClosed = false →
    Rejects s (replyHalt (Session.execute st parameters s)) (final (Session.execute st parameters s))
  notices : ∀ s wait, s.isClosed = false →
    Rejects s (halt? (Session.takeNotices wait s)) (final (Session.takeNotices wait s))

/-- Whenever a server reports settings, and whatever they are, an open session is one that can
trust them: a report that it could not live with was the last message it heard. -/
theorem settings_trusted {channel : Channel} (hcharset : channel.charset = .utf8)
    (user database : String) (options : SessionOptions) :
    Vigilant (new channel user database options) := by
  refine ⟨fun s operations hbegin hopen => ?_, (begin_vets _).rejects (begin_closes _) rfl,
    fun s sql => (vets_callLaw.query sql s).rejects (closes_of_settled (query_settled sql s)),
    fun s st parameters => (vets_callLaw.execute st parameters s).rejects
      (closes_of_settled (execute_settled st parameters s)),
    fun s wait => (vets_callLaw.takeNotices wait s).rejects (takeNotices_closes wait s)⟩
  obtain ⟨events, hvetted⟩ := vets_composes.trans (begin_vets.ok hbegin)
    (run_vets (w := start s) operations hopen)
  have hnew : (new channel user database options).manner = {} := by
    show Manner.mk channel.charset _ _ _ = _
    rw [hcharset]
    rfl
  rw [hvetted.heard, hvetted.manner, hnew]
  cases hvetted.verdict with
  | lived hlived => exact trustworthy_foldl hlived
  | refused _ _ _ hhalt => cases hhalt

/-- A server that reports settings as it lets the client in. -/
def fickleChannel : Channel where
  socket :=
    { inbound :=
        (WireMessage.parameterStatus (Utf8.encode "client_encoding") (Utf8.encode "utf-8")).encode ++
          (WireMessage.parameterStatus (Utf8.encode "standard_conforming_strings")
            (Utf8.encode "on")).encode ++
          (WireMessage.parameterStatus (Utf8.encode "server_version_num")
            (Utf8.encode "160003")).encode ++
          Conversation.readyFrame 0x49 }
  host := { name := "localhost", port := 5432 }

/-- Another date style, out of the blue. -/
def fickleReport : Bytes :=
  (WireMessage.parameterStatus (Utf8.encode "DateStyle") (Utf8.encode "SQL, DMY")).encode

/-- The session with that server, once it has begun. -/
def fickleSession : Session :=
  final (begin (new fickleChannel "postgres" "postgres" {}))

/-- The settings are taken over, and the date style ends the session. -/
theorem settings_trusted_fickle :
    (fickleChannel.charset = .utf8 ∧
      halt? (begin (new fickleChannel "postgres" "postgres" {})) = none ∧
      fickleSession.isClosed = false ∧ fickleSession.manner.conformingStrings = true ∧
      fickleSession.manner.versionNumber = 160003 ∧
      ((start fickleSession).run [.arrive fickleReport false {}, .takeNotices none]).session.isClosed
        = true) ∧
    Vigilant (new fickleChannel "postgres" "postgres" {}) :=
  ⟨⟨rfl, by decide +kernel, by decide +kernel, by decide +kernel, by decide +kernel,
    by decide +kernel⟩, settings_trusted rfl "postgres" "postgres" {}⟩

end World

end PgClient
