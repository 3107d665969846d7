import PgClient.Proofs.Text
import PgClient.Proofs.Utf8
import PgClient.Session.Request

/-!
# What is left of a report without its details

Four fields of a report may hold data of the user's rows: the detail, the hint, and the query the
server itself ran with the place in it. `Report.redacted` leaves them out, and nothing that is
shown without details tells the two apart. What the redacted report says is read from the other
fields of the text alone (`Report.ofText_redacted`), and under every character set those can be
told from the octets of the text (`Report.ofText_decode`): what divides the fields is a zero
octet whatever the set, and so is what the letter of a private field is.
-/

namespace PgClient

/-! ## Reports and errors -/

namespace Report

/-- The report without what may hold data of the user's rows. -/
def redacted (r : Report) : Report :=
  { r with detail := none, hint := none, internalPosition := none, internalQuery := none }

end Report

namespace ServerError

/-- The error without what a reader is not shown. -/
def redacted : ServerError → ServerError
  | first report showDetail => first (if showDetail then report else report.redacted) showDetail
  | after report showDetail cause =>
    after (if showDetail then report else report.redacted) showDetail cause.redacted

theorem render_redacted (e : ServerError) : e.redacted.render = e.render := by
  cases e with
  | first report showDetail | after report showDetail => cases showDetail <;> rfl

theorem sqlState_redacted (e : ServerError) : e.redacted.sqlState = e.sqlState := by
  cases e with
  | first report showDetail | after report showDetail => cases showDetail <;> rfl

theorem isStalePlan_redacted (e : ServerError) : e.redacted.isStalePlan = e.isStalePlan := by
  cases e with
  | first report showDetail | after report showDetail => cases showDetail <;> rfl

end ServerError

namespace Error

def redacted : Error → Error
  | server error => server error.redacted
  | e => e

theorem message_redacted (e : Error) : e.redacted.message = e.message := by
  cases e with
  | server error => exact error.render_redacted
  | _ => rfl

theorem sqlState_redacted (e : Error) : e.redacted.sqlState = e.sqlState := by
  cases e with
  | server error => exact congrArg some error.sqlState_redacted
  | _ => rfl

theorem isFatal_redacted (e : Error) : e.redacted.isFatal = e.isFatal := by
  cases e <;> rfl

theorem message_congr {e e' : Error} (h : e'.redacted = e.redacted) : e'.message = e.message := by
  rw [← e'.message_redacted, h, e.message_redacted]

theorem sqlState_congr {e e' : Error} (h : e'.redacted = e.redacted) :
    e'.sqlState = e.sqlState := by
  rw [← e'.sqlState_redacted, h, e.sqlState_redacted]

theorem isStalePlan_redacted (e : Error) : e.redacted.isStalePlan = e.isStalePlan := by
  cases e with
  | server error => exact error.isStalePlan_redacted
  | _ => rfl

/-- Only what the server reported has details. -/
theorem redacted_of_isFatal {e : Error} (h : e.isFatal = true) : e.redacted = e := by
  cases e with
  | server error => cases h
  | _ => rfl

/-- No other error looks like one without details. -/
theorem eq_of_redacted {e e' : Error} (h : e'.redacted = e.redacted) (hfatal : e.isFatal = true) :
    e' = e := by
  have hfatal' : e'.isFatal = true := by
    rw [← isFatal_redacted, h, isFatal_redacted]
    exact hfatal
  rw [← redacted_of_isFatal hfatal', h, redacted_of_isFatal hfatal]

end Error

namespace BackendMessage

def redacted : BackendMessage → BackendMessage
  | errorResponse report => errorResponse report.redacted
  | noticeResponse report => noticeResponse report.redacted
  | m => m

/-- The messages differ in nothing but the details of a report. -/
inductive Similar : BackendMessage → BackendMessage → Prop where
  | same (m : BackendMessage) : Similar m m
  | error {report report' : Report} (h : report'.redacted = report.redacted) :
      Similar (errorResponse report) (errorResponse report')
  | notice {report report' : Report} (h : report'.redacted = report.redacted) :
      Similar (noticeResponse report) (noticeResponse report')

theorem Similar.redacted {m m' : BackendMessage} (h : Similar m m') :
    m'.redacted = m.redacted := by
  cases h with
  | same => rfl
  | error h => exact congrArg errorResponse h
  | notice h => exact congrArg noticeResponse h

end BackendMessage

namespace Delivery

/-- The delivery without what a reader is not shown. -/
def redacted : Delivery → Delivery
  | error e => error e.redacted
  | d => d

end Delivery

namespace Reply

/-- The reply without what a reader is not shown. -/
def redacted (r : Reply) : Reply where
  result := r.result.mapError Error.redacted
  deliveries := r.deliveries.map Delivery.redacted
  statement := r.statement

end Reply

namespace Event

/-- The event without what the log does not say. -/
def redacted : Event → Event
  | received message false => received message.redacted false
  | sslFailed host error => sslFailed host error.redacted
  | e => e

theorem text_redacted (e : Event) : e.redacted.text = e.text := by
  cases e with
  | received message showDetail =>
      cases showDetail with
      | true => rfl
      | false => cases message <;> rfl
  | sslFailed host error =>
      show _ ++ error.redacted.message ++ _ = _
      rw [error.message_redacted]
      rfl
  | _ => rfl

theorem level_redacted (e : Event) : e.redacted.level = e.level := by
  cases e with
  | received message showDetail => cases showDetail <;> rfl
  | _ => rfl

end Event

/-! ## The text of a report -/

namespace Report

/-- The letters of the fields that may hold data of the user's rows. -/
def privateLetters : List Char :=
  ['D', 'H', 'p', 'q']

/-- Whether a field of a report is one that a reader is shown in any case. -/
def isShown : List Char → Bool
  | [] => false
  | letter :: _ => !privateLetters.contains letter

/-- The fields of a report's text that a reader is shown in any case, in order. -/
def shown (text : String) : List (List Char) :=
  (splitAt '\x00' text.toList).filter isShown

theorem set_redacted (r : Report) (letter : Char) (value : String) :
    (r.set letter value).redacted =
      if isShown (letter :: value.toList) then r.redacted.set letter value else r.redacted := by
  unfold set
  split
  all_goals first | rfl | (split <;> rfl)

theorem add_redacted (r : Report) (field : List Char) :
    (r.add field).redacted = if isShown field then r.redacted.add field else r.redacted := by
  cases field with
  | nil => rfl
  | cons letter value =>
      have hset := set_redacted r letter (String.ofList value)
      rw [String.toList_ofList] at hset
      exact hset

theorem foldl_redacted (fields : List (List Char)) (r : Report) :
    (fields.foldl add r).redacted = (fields.filter isShown).foldl add r.redacted := by
  induction fields generalizing r with
  | nil => rfl
  | cons field fields ih =>
      rw [List.foldl_cons, ih, add_redacted, List.filter_cons]
      cases isShown field <;> rfl

theorem withSeverity_redacted (r : Report) : r.withSeverity.redacted = r.redacted.withSeverity := by
  unfold withSeverity
  by_cases h : r.severity.isEmpty = true
  · rw [if_pos h, if_pos (show r.redacted.severity.isEmpty = true from h)]
    rfl
  · rw [if_neg h, if_neg (show ¬ r.redacted.severity.isEmpty = true from h)]

/-- The redacted report is what the fields say that are shown in any case. -/
theorem ofText_redacted (text : String) :
    (ofText text).redacted = ((shown text).foldl add {}).withSeverity := by
  unfold ofText shown
  rw [withSeverity_redacted, foldl_redacted]
  rfl

end Report

/-! ## The octets of a report -/

/-- A way of spelling characters in which a report can still be taken apart. -/
structure Spelling (spell : Char → List Char) : Prop where
  zero : spell '\x00' = ['\x00']
  zero_free : ∀ c ≠ '\x00', '\x00' ∉ spell c
  /-- The letter of a private field is spelled as itself, and nothing else begins with it. -/
  shown : ∀ c, ∃ letter more, spell c = letter :: more ∧
    Report.privateLetters.contains letter = Report.privateLetters.contains c

namespace Spelling

variable {spell : Char → List Char}

theorem splitAt (h : Spelling spell) (cs : List Char) :
    splitAt '\x00' (cs.flatMap spell) = (PgClient.splitAt '\x00' cs).map (·.flatMap spell) := by
  induction cs with
  | nil => rfl
  | cons c cs ih =>
      have hstep : PgClient.splitAt '\x00' (c :: cs) =
          Split.cons '\x00' c (PgClient.splitAt '\x00' cs) := rfl
      rw [List.flatMap_cons, hstep]
      by_cases hc : c = '\x00'
      · subst hc
        rw [h.zero]
        show Split.cons '\x00' '\x00' (PgClient.splitAt '\x00' (cs.flatMap spell)) = _
        rw [ih]
        rfl
      · obtain ⟨part, parts, hsplit, hfront⟩ :=
          splitAt_append (h.zero_free c hc) (cs.flatMap spell)
        have hcons : ∀ first others, Split.cons '\x00' c (first :: others) =
            (c :: first) :: others := fun first others => by
          rw [Split.cons, if_neg hc]
        rw [hfront]
        cases hparts : PgClient.splitAt '\x00' cs with
        | nil => exact absurd hparts (splitAt_ne_nil _ cs)
        | cons first others =>
            rw [ih, hparts, List.map_cons] at hsplit
            cases hsplit
            rw [hcons, List.map_cons, List.flatMap_cons]

theorem isShown (h : Spelling spell) (field : List Char) :
    Report.isShown (field.flatMap spell) = Report.isShown field := by
  cases field with
  | nil => rfl
  | cons c cs =>
      obtain ⟨letter, more, hspell, hletter⟩ := h.shown c
      rw [List.flatMap_cons, hspell]
      show (!Report.privateLetters.contains letter) = !Report.privateLetters.contains c
      rw [hletter]

theorem report (h : Spelling spell) {text text' : String} {read read' : String}
    (hread : read.toList = text.toList.flatMap spell)
    (hread' : read'.toList = text'.toList.flatMap spell)
    (hshown : Report.shown text = Report.shown text') :
    (Report.ofText read).redacted = (Report.ofText read').redacted := by
  have hfields : ∀ {text read : String}, read.toList = text.toList.flatMap spell →
      Report.shown read = (Report.shown text).map (·.flatMap spell) := by
    intro text read hread
    unfold Report.shown
    rw [hread, h.splitAt, List.filter_map]
    exact congrArg _ (List.filter_congr fun field _ => h.isShown field)
  rw [Report.ofText_redacted, Report.ofText_redacted, hfields hread, hfields hread', hshown]

end Spelling

/-! ## Character sets -/

/-- A character is one octet below 128, or begins with one that is not. -/
theorem utf8EncodeChar_cases (c : Char) :
    (c.toNat < 0x80 ∧ String.utf8EncodeChar c = [UInt8.ofNat c.toNat]) ∨
      (0x80 ≤ c.toNat ∧ ∃ b more, String.utf8EncodeChar c = b :: more ∧ 0x80 ≤ b.toNat) := by
  have hbig : ∀ n, 0xC0 ≤ n ∧ n < 0x100 → 0x80 ≤ (UInt8.ofNat n).toNat := fun n h => by
    rw [UInt8.toNat_ofNat_of_lt' (show n < 256 by omega)]
    omega
  have hvalid : c.val.toNat < 0xD800 ∨ 0xDFFF < c.val.toNat ∧ c.val.toNat < 0x110000 := c.valid
  have hnat : c.toNat = c.val.toNat := rfl
  unfold String.utf8EncodeChar
  simp only []
  split
  · next h => exact .inl ⟨by omega, rfl⟩
  · refine .inr ⟨by omega, ?_⟩
    split
    · exact ⟨_, _, rfl, hbig _ (by omega)⟩
    · split <;> exact ⟨_, _, rfl, hbig _ (by omega)⟩

/-- Beyond the first 128 characters no letter of a private field is found. -/
theorem isPrivate_of_le {c : Char} (h : 0x80 ≤ c.toNat) :
    Report.privateLetters.contains c = false := by
  have hne : ∀ letter : Char, letter.toNat < 0x80 → c ≠ letter := by
    rintro letter hletter rfl
    omega
  simp [Report.privateLetters, hne 'D' (by decide), hne 'H' (by decide), hne 'p' (by decide),
    hne 'q' (by decide)]

/-- Octets that are shown one by one spell characters if those below 128 are shown as
themselves, and only those. -/
theorem Spelling.octets {glyph : UInt8 → Char}
    (hascii : ∀ b : UInt8, b.toNat < 0x80 → glyph b = Char.ofNat b.toNat)
    (hother : ∀ b : UInt8, 0x80 ≤ b.toNat → 0x80 ≤ (glyph b).toNat) :
    Spelling fun c => (String.utf8EncodeChar c).map glyph where
  zero := congrArg (fun c => [c]) (hascii 0 (by decide))
  zero_free c hc hmem := by
    obtain ⟨b, hb, hzero⟩ := List.mem_map.1 hmem
    rcases Nat.lt_or_ge b.toNat 0x80 with hlt | hge
    · have hchar : Char.ofNat b.toNat = Char.ofNat (0 : UInt8).toNat :=
        (hascii b hlt).symm.trans hzero
      exact utf8EncodeChar_zero_free hc (charOfNat_toNat_inj hchar ▸ hb)
    · have hle := hother b hge
      rw [hzero] at hle
      cases hle
  shown c := by
    rcases utf8EncodeChar_cases c with ⟨hlt, hencode⟩ | ⟨hge, b, more, hencode, hb⟩
    · have hnat : (UInt8.ofNat c.toNat).toNat = c.toNat :=
        UInt8.toNat_ofNat_of_lt' (show c.toNat < 256 by omega)
      refine ⟨c, [], ?_, rfl⟩
      rw [hencode, List.map_singleton, hascii _ (by omega), hnat, Char.ofNat_toNat]
    · refine ⟨glyph b, more.map glyph, by rw [hencode, List.map_cons], ?_⟩
      rw [isPrivate_of_le hge, isPrivate_of_le (hother b hb)]

namespace Charset

/-- What a character that was written as UTF-8 is read as. -/
def spell : Charset → Char → List Char
  | latin1, c => (String.utf8EncodeChar c).map fun b => Char.ofNat b.toNat
  | ascii, c =>
    (String.utf8EncodeChar c).map fun b => if b < 0x80 then Char.ofNat b.toNat else '\uFFFD'
  | utf8, c | other _, c => [c]

theorem spell_spelling (charset : Charset) : Spelling charset.spell := by
  have hself : Spelling fun c => [c] :=
    ⟨rfl, fun c hc hmem => hc (List.mem_singleton.1 hmem).symm, fun c => ⟨c, [], rfl, rfl⟩⟩
  cases charset with
  | utf8 | other => exact hself
  | latin1 =>
      refine Spelling.octets (fun _ _ => rfl) fun b hb => ?_
      rw [toNat_charOfNat (by have := b.toNat_lt; omega)]
      exact hb
  | ascii =>
      refine Spelling.octets (fun b hb => ?_) fun b hb => ?_
      · exact if_pos (UInt8.lt_iff_toNat_lt.2 hb)
      · have hge : (0x80 : UInt8).toNat ≤ b.toNat := hb
        rw [if_neg fun hlt => absurd (UInt8.lt_iff_toNat_lt.1 hlt) (Nat.not_lt.2 hge)]
        decide

theorem decode_encode (charset : Charset) (text : String) :
    (charset.decode (Utf8.encode text)).toList = text.toList.flatMap charset.spell := by
  cases charset with
  | utf8 | other =>
      refine (congrArg String.toList (Utf8.decodeLossy_encode text)).trans ?_
      exact (List.flatMap_singleton' _).symm
  | latin1 | ascii => exact String.toList_ofList.trans List.map_flatMap

theorem decodeReport_encode (charset : Charset) (text : String) :
    (charset.decodeReport (Utf8.encode text)).toList = text.toList.flatMap charset.spell := by
  cases charset with
  | utf8 =>
      have hread : decodeReport utf8 (Utf8.encode text) = text := by
        unfold decodeReport
        simp only []
        rw [Utf8.decode?_encode]
        rfl
      rw [hread]
      exact (List.flatMap_singleton' _).symm
  | latin1 | ascii | other => exact decode_encode _ text

end Charset

namespace Report

variable {text text' : String}

/-- Under every character set, reports whose fields agree as far as a reader is shown them in any
case are the same without their details. -/
theorem ofText_decode (charset : Charset) (h : shown text = shown text') :
    (ofText (charset.decode (Utf8.encode text))).redacted =
      (ofText (charset.decode (Utf8.encode text'))).redacted :=
  charset.spell_spelling.report (charset.decode_encode text) (charset.decode_encode text') h

theorem ofText_decodeReport (charset : Charset) (h : shown text = shown text') :
    (ofText (charset.decodeReport (Utf8.encode text))).redacted =
      (ofText (charset.decodeReport (Utf8.encode text'))).redacted :=
  charset.spell_spelling.report (charset.decodeReport_encode text)
    (charset.decodeReport_encode text') h

end Report

end PgClient
