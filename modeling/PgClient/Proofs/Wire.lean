import PgClient.Proofs.Receive

/-!
# Messages of the server on the wire

The messages a server may send within a reply, as it lays them out: texts are
octets here, since what they say depends on the character set of the moment.
`WireMessage.encode` is the frame that travels, and `WireMessage.decode` what
the message means under a character set. The two meet in `yields_message`: the
octets of a well-formed message are read back as its meaning, and exactly they
are consumed. Every field has its own small fact of this kind, and a message is
put together from the facts about its fields in the order it is laid out.
-/

namespace PgClient

/-- A column as the server describes it; the name is not decoded yet. -/
structure WireColumn where
  name : Bytes
  tableOid : Int
  attributeNumber : Int
  typeOid : Int
  typeSize : Int
  typeModifier : Int
  format : Int
  deriving DecidableEq, Repr

/-- A signed number of 16 bits. -/
def FitsInt16 (i : Int) : Prop :=
  -2 ^ 15 ≤ i ∧ i < 2 ^ 15

/-- A signed number of 32 bits. -/
def FitsInt32 (i : Int) : Prop :=
  -2 ^ 31 ≤ i ∧ i < 2 ^ 31

instance (i : Int) : Decidable (FitsInt16 i) :=
  inferInstanceAs (Decidable (_ ∧ _))

instance (i : Int) : Decidable (FitsInt32 i) :=
  inferInstanceAs (Decidable (_ ∧ _))

namespace WireColumn

def encode (c : WireColumn) : Bytes :=
  c.name ++ 0 :: (Bytes.int32 c.tableOid ++ Bytes.int16 c.attributeNumber ++ Bytes.int32 c.typeOid
    ++ Bytes.int16 c.typeSize ++ Bytes.int32 c.typeModifier ++ Bytes.int16 c.format)

def decode (charset : Charset) (c : WireColumn) : Column :=
  { name := charset.decode c.name, tableOid := c.tableOid, attributeNumber := c.attributeNumber,
    typeOid := c.typeOid, typeSize := c.typeSize, typeModifier := c.typeModifier,
    format := c.format }

/-- The numbers fit their words, and the name does not end early. -/
structure WellFormed (c : WireColumn) : Prop where
  name : 0 ∉ c.name
  tableOid : FitsInt32 c.tableOid
  attributeNumber : FitsInt16 c.attributeNumber
  typeOid : FitsInt32 c.typeOid
  typeSize : FitsInt16 c.typeSize
  typeModifier : FitsInt32 c.typeModifier
  format : FitsInt16 c.format

instance (c : WireColumn) : Decidable c.WellFormed :=
  decidable_of_iff (0 ∉ c.name ∧ FitsInt32 c.tableOid ∧ FitsInt16 c.attributeNumber ∧
      FitsInt32 c.typeOid ∧ FitsInt16 c.typeSize ∧ FitsInt32 c.typeModifier ∧ FitsInt16 c.format)
    ⟨fun ⟨h₁, h₂, h₃, h₄, h₅, h₆, h₇⟩ => ⟨h₁, h₂, h₃, h₄, h₅, h₆, h₇⟩,
      fun ⟨h₁, h₂, h₃, h₄, h₅, h₆, h₇⟩ => ⟨h₁, h₂, h₃, h₄, h₅, h₆, h₇⟩⟩

end WireColumn

/-- A message a server may send within a reply, except the one that ends it. -/
inductive WireMessage where
  | parseComplete
  | bindComplete
  | closeComplete
  | noData
  | portalSuspended
  | emptyQuery
  | parameterDescription (body : Bytes)
  | rowDescription (columns : List WireColumn)
  | dataRow (row : Row)
  | commandComplete (tag : Bytes)
  | errorResponse (body : Bytes)
  | noticeResponse (body : Bytes)
  | notificationResponse (pid : Int) (channel payload : Bytes)
  | parameterStatus (name value : Bytes)
  deriving DecidableEq, Repr

namespace WireMessage

def tag : WireMessage → Tag
  | parseComplete => .parseComplete
  | bindComplete => .bindComplete
  | closeComplete => .closeComplete
  | noData => .noData
  | portalSuspended => .portalSuspended
  | emptyQuery => .emptyQuery
  | parameterDescription _ => .parameterDescription
  | rowDescription _ => .rowDescription
  | dataRow _ => .dataRow
  | commandComplete _ => .commandComplete
  | errorResponse _ => .errorResponse
  | noticeResponse _ => .noticeResponse
  | notificationResponse .. => .notificationResponse
  | parameterStatus .. => .parameterStatus

/-- The fields in the order they travel. -/
def body : WireMessage → Bytes
  | parseComplete | bindComplete | closeComplete | noData | portalSuspended | emptyQuery => []
  | parameterDescription body | errorResponse body | noticeResponse body => body
  | rowDescription columns => Bytes.int16 columns.length ++ columns.flatMap WireColumn.encode
  | dataRow row => Bytes.int16 row.length ++ row.flatMap FrontendMessage.parameter
  | commandComplete tag => tag ++ [0]
  | notificationResponse pid channel payload =>
    Bytes.int32 pid ++ ((channel ++ [0]) ++ (payload ++ [0]))
  | parameterStatus name value => (name ++ [0]) ++ (value ++ [0])

/-- The message on the wire. -/
def encode (w : WireMessage) : Bytes :=
  w.tag.octet :: FrontendMessage.withLength w.body

/-- What the message says under a character set. -/
def decode (charset : Charset) : WireMessage → BackendMessage
  | parseComplete => .parseComplete
  | bindComplete => .bindComplete
  | closeComplete => .closeComplete
  | noData => .noData
  | portalSuspended => .portalSuspended
  | emptyQuery => .emptyQuery
  | parameterDescription _ => .parameterDescription
  | rowDescription columns => .rowDescription (columns.map (WireColumn.decode charset))
  | dataRow row => .dataRow ((dataRow row).body.length + 4) row
  | commandComplete tag => .commandComplete (charset.decode tag)
  | errorResponse body => .errorResponse (Report.ofText (charset.decodeReport body))
  | noticeResponse body => .noticeResponse (Report.ofText (charset.decode body))
  | notificationResponse pid channel payload =>
    .notificationResponse
      { channel := charset.decode channel, payload := charset.decode payload, pid }
  | parameterStatus name value => .parameterStatus (charset.decode name) (charset.decode value)

/-- What the fields of a message have to satisfy besides the limit of its size. -/
def FieldsWellFormed : WireMessage → Prop
  | rowDescription columns => columns.length < 2 ^ 15 ∧ ∀ c ∈ columns, c.WellFormed
  | dataRow row => row.length < 2 ^ 15
  | errorResponse body | noticeResponse body => body ≠ []
  | notificationResponse pid channel payload => FitsInt32 pid ∧ 0 ∉ channel ∧ 0 ∉ payload
  | parameterStatus name value => 0 ∉ name ∧ 0 ∉ value
  | _ => True

/-- A message as the protocol describes it, whose body is not too large. -/
structure WellFormed (w : WireMessage) : Prop where
  fields : w.FieldsWellFormed
  size : w.body.length ≤ Channel.maxMessageSize

instance : (w : WireMessage) → Decidable w.FieldsWellFormed
  | rowDescription columns =>
    inferInstanceAs (Decidable (columns.length < 2 ^ 15 ∧ ∀ c ∈ columns, c.WellFormed))
  | dataRow row => inferInstanceAs (Decidable (row.length < 2 ^ 15))
  | errorResponse body => inferInstanceAs (Decidable (body ≠ []))
  | noticeResponse body => inferInstanceAs (Decidable (body ≠ []))
  | notificationResponse pid channel payload =>
    inferInstanceAs (Decidable (FitsInt32 pid ∧ 0 ∉ channel ∧ 0 ∉ payload))
  | parameterStatus name value => inferInstanceAs (Decidable (0 ∉ name ∧ 0 ∉ value))
  | parseComplete | bindComplete | closeComplete | noData | portalSuspended | emptyQuery
  | parameterDescription _ | commandComplete _ => inferInstanceAs (Decidable True)

instance (w : WireMessage) : Decidable w.WellFormed :=
  decidable_of_iff (w.FieldsWellFormed ∧ w.body.length ≤ Channel.maxMessageSize)
    ⟨fun ⟨hfields, hsize⟩ => ⟨hfields, hsize⟩, fun ⟨hfields, hsize⟩ => ⟨hfields, hsize⟩⟩

end WireMessage

/-! ## Fields of a body -/

namespace FieldReader

theorem string_append {charset : Charset} {text : Bytes} (h : 0 ∉ text) (rest : Bytes) :
    string charset (text ++ 0 :: rest) = .ok (charset.decode text, rest) := by
  have hall : ∀ b ∈ text, (b != 0) = true := by
    intro b hb
    have : b ≠ 0 := fun h0 => h (h0 ▸ hb)
    simpa using this
  unfold string
  rw [List.dropWhile_append_of_pos hall, List.takeWhile_append_of_pos hall]
  simp

theorem int_append (word rest : Bytes) :
    int word.length (word ++ rest) = .ok (Bytes.toInt word, rest) := by
  unfold int
  rw [List.length_append, if_neg (by omega), List.take_left' rfl, List.drop_left' rfl]

theorem int32_append {i : Int} (h : FitsInt32 i) (rest : Bytes) :
    int32 (Bytes.int32 i ++ rest) = .ok (i, rest) := by
  have := int_append (Bytes.int32 i) rest
  rw [Bytes.length_int32, Bytes.toInt_int32 h.1 h.2] at this
  exact this

theorem int16_append {i : Int} (h : FitsInt16 i) (rest : Bytes) :
    int16 (Bytes.int16 i ++ rest) = .ok (i, rest) := by
  have := int_append (Bytes.int16 i) rest
  rw [Bytes.length_int16, Bytes.toInt_int16 h.1 h.2] at this
  exact this

end FieldReader

theorem reader_bind {α β ε : Type} {x : StateT Bytes (Except ε) α}
    {f : α → StateT Bytes (Except ε) β} {bs rest : Bytes} {a : α} (h : x bs = .ok (a, rest)) :
    (x >>= f) bs = f a rest := by
  show (x bs >>= fun p => f p.1 p.2) = _
  rw [h]
  rfl

/-- A reader of one thing reads as many as stand in front. -/
theorem mapM_reader {α β ε : Type} {encode : β → Bytes} {read : StateT Bytes (Except ε) α}
    {value : β → α} {xs : List β} (rest : Bytes)
    (h : ∀ x ∈ xs, ∀ rest, read (encode x ++ rest) = .ok (value x, rest)) :
    ((List.replicate xs.length ()).mapM fun _ => read) (xs.flatMap encode ++ rest) =
      .ok (xs.map value, rest) := by
  induction xs with
  | nil => rfl
  | cons x xs ih =>
      have hxs := ih fun y hy => h y (List.mem_cons_of_mem _ hy)
      rw [List.length_cons, List.replicate_succ, List.mapM_cons, List.flatMap_cons,
        List.append_assoc, reader_bind (h x List.mem_cons_self _), reader_bind hxs]
      rfl

theorem Column.reader_append {charset : Charset} {c : WireColumn} (h : c.WellFormed)
    (rest : Bytes) :
    Column.reader charset (c.encode ++ rest) = .ok (c.decode charset, rest) := by
  unfold Column.reader WireColumn.encode
  simp only [List.append_assoc, List.cons_append]
  rw [reader_bind (FieldReader.string_append h.name _),
    reader_bind (FieldReader.int32_append h.tableOid _),
    reader_bind (FieldReader.int16_append h.attributeNumber _),
    reader_bind (FieldReader.int32_append h.typeOid _),
    reader_bind (FieldReader.int16_append h.typeSize _),
    reader_bind (FieldReader.int32_append h.typeModifier _),
    reader_bind (FieldReader.int16_append h.format _)]
  rfl

theorem FieldReader.within_append {α : Type} (kind : String) {reader : FieldReader α}
    {bs rest : Bytes} {a : α} (h : reader bs = .ok (a, rest)) :
    reader.within kind bs = .ok (a, rest) := by
  unfold FieldReader.within
  rw [h]
  rfl

/-- A count fits its word, and reads back as a count. -/
theorem fitsInt16_length {α : Type} {xs : List α} (h : xs.length < 2 ^ 15) :
    FitsInt16 xs.length := by
  unfold FitsInt16
  omega

theorem Column.decodeAll_eq (charset : Charset) (body : Bytes) :
    Column.decodeAll charset body =
      ((Column.allReader charset).within "RowDescription" body).map Prod.fst := rfl

theorem Column.allReader_append (charset : Charset) {columns : List WireColumn}
    (hcount : columns.length < 2 ^ 15) (h : ∀ c ∈ columns, c.WellFormed) (rest : Bytes) :
    Column.allReader charset ((WireMessage.rowDescription columns).body ++ rest) =
      .ok (columns.map (WireColumn.decode charset), rest) := by
  unfold Column.allReader WireMessage.body
  rw [List.append_assoc,
    reader_bind (FieldReader.int16_append (fitsInt16_length hcount) _), Int.toNat_natCast]
  exact mapM_reader rest fun c hc rest => Column.reader_append (h c hc) rest

/-- What follows the last column is not looked at. -/
theorem Column.decodeAll_append (charset : Charset) {columns : List WireColumn}
    (hcount : columns.length < 2 ^ 15) (h : ∀ c ∈ columns, c.WellFormed) (rest : Bytes) :
    Column.decodeAll charset ((WireMessage.rowDescription columns).body ++ rest) =
      .ok (columns.map (WireColumn.decode charset)) := by
  rw [Column.decodeAll_eq,
    FieldReader.within_append "RowDescription" (Column.allReader_append charset hcount h rest)]
  rfl

theorem Row.value_append {value : Option Bytes} (h : ∀ octets ∈ value, octets.length < 2 ^ 31)
    (rest : Bytes) : Row.value (FrontendMessage.parameter value ++ rest) = .ok (value, rest) := by
  unfold Row.value
  cases value with
  | none =>
      have hsize := FieldReader.within_append "DataRow"
        (FieldReader.int32_append (i := -1) (by decide) rest)
      rw [reader_bind (show FieldReader.within "DataRow" FieldReader.int32
        (FrontendMessage.parameter none ++ rest) = _ from hsize)]
      rfl
  | some octets =>
      have hlen := h octets rfl
      have hfits : FitsInt32 octets.length := by
        unfold FitsInt32
        omega
      have hsize := FieldReader.within_append "DataRow"
        (FieldReader.int32_append hfits (octets ++ rest))
      rw [← List.append_assoc] at hsize
      rw [reader_bind (show FieldReader.within "DataRow" FieldReader.int32
        (FrontendMessage.parameter (some octets) ++ rest) = _ from hsize)]
      have hget : (get : StateT Bytes (Except Violation) Bytes) (octets ++ rest) =
          .ok (octets ++ rest, octets ++ rest) := rfl
      have henough : ¬ (octets ++ rest).length < octets.length := by
        rw [List.length_append]
        omega
      simp only [Int.toNat_natCast]
      rw [if_neg (by omega), reader_bind hget, if_neg henough]
      show Except.ok (some ((octets ++ rest).take octets.length), (octets ++ rest).drop _) = _
      rw [List.take_left' rfl, List.drop_left' rfl]

theorem Row.decode_eq (body : Bytes) : Row.decode body = (Row.reader body).map Prod.fst := rfl

theorem Row.reader_append {row : Row} (hcount : row.length < 2 ^ 15)
    (h : ∀ value ∈ row, ∀ octets ∈ value, octets.length < 2 ^ 31) (rest : Bytes) :
    Row.reader ((WireMessage.dataRow row).body ++ rest) = .ok (row, rest) := by
  have hvalues : ((List.replicate row.length ()).mapM fun _ => Row.value)
      (row.flatMap FrontendMessage.parameter ++ rest) = .ok (row.map id, rest) :=
    mapM_reader rest fun value hv rest => Row.value_append (h value hv) rest
  rw [List.map_id] at hvalues
  have hcounted := FieldReader.within_append "DataRow"
    (FieldReader.int16_append (fitsInt16_length hcount)
      (row.flatMap FrontendMessage.parameter ++ rest))
  unfold Row.reader WireMessage.body
  rw [List.append_assoc, reader_bind hcounted, Int.toNat_natCast]
  exact hvalues

/-- What follows the last value is not looked at. -/
theorem Row.decode_append {row : Row} (hcount : row.length < 2 ^ 15)
    (h : ∀ value ∈ row, ∀ octets ∈ value, octets.length < 2 ^ 31) (rest : Bytes) :
    Row.decode ((WireMessage.dataRow row).body ++ rest) = .ok row := by
  rw [Row.decode_eq, Row.reader_append hcount h rest]
  rfl

/-- A value of a row is no longer than the row's body. -/
theorem length_le_flatMap_parameter {row : Row} {octets : Bytes} (h : some octets ∈ row) :
    octets.length ≤ (row.flatMap FrontendMessage.parameter).length := by
  induction row with
  | nil => cases h
  | cons value row ih =>
      rw [List.flatMap_cons, List.length_append]
      rcases List.mem_cons.1 h with rfl | h
      · have : octets.length ≤ (FrontendMessage.parameter (some octets)).length := by
          unfold FrontendMessage.parameter
          rw [List.length_append]
          omega
        omega
      · have := ih h
        omega

namespace Channel

variable {charset : Charset}

/-- A length that counts itself can be read if the body is not too large. -/
theorem yields_length {n : Nat} (h : n ≤ maxMessageSize) :
    Yields charset receiveInt32 (Bytes.int32 (n + 4)) (n + 4) := by
  unfold maxMessageSize at h
  exact yields_int32 (by omega) (by omega)

theorem yields_empty (kind : String) (m : BackendMessage) :
    Yields charset (receiveEmpty kind m) (FrontendMessage.withLength []) m := by
  refine (yields_length (n := 0) (by decide)).bind ?_
  rw [if_neg (by decide)]
  exact .pure m

theorem yields_bodyLength {n : Nat} (h : n ≤ maxMessageSize) :
    Yields charset receiveBodyLength (Bytes.int32 (n + 4)) n := by
  refine (yields_length h).map ?_
  rw [if_neg (by omega), show ((n : Int) + 4 - 4).toNat = n by omega]
  exact .pure n

theorem yields_reportLength {n : Nat} (h : n ≤ maxMessageSize) (hpos : n ≠ 0) (kind : String) :
    Yields charset (receiveReportLength kind) (Bytes.int32 (n + 4)) n := by
  refine (yields_length h).map ?_
  rw [if_neg (by omega), show ((n : Int) + 4 - 4).toNat = n by omega]
  exact .pure n

theorem yields_commandComplete {tag : Bytes} (h : (tag ++ [0]).length ≤ maxMessageSize) :
    Yields charset (receiveMessage .commandComplete) (FrontendMessage.withLength (tag ++ [0]))
      (.commandComplete (charset.decode tag)) := by
  rw [List.length_append, List.length_singleton] at h
  have hlength : Yields charset receiveInt32 (Bytes.int32 ((tag ++ [0]).length + 4))
      ((tag.length : Int) + 5) := by
    have hread : Yields charset receiveInt32 _ _ := yields_length h
    rw [List.length_append, List.length_singleton]
    have heq : ((tag.length + 1 : Nat) : Int) + 4 = (tag.length : Int) + 5 := by omega
    rw [heq] at hread ⊢
    exact hread
  refine hlength.bind ?_
  rw [if_neg (by omega), show ((tag.length : Int) + 5 - 5).toNat = tag.length by omega]
  refine (yields_string (by omega)).bind ?_
  exact ((yields_octet 0).map (.pure ())).map (.pure _)

theorem yields_rowDescription {columns : List WireColumn}
    (h : (WireMessage.rowDescription columns).WellFormed) :
    Yields charset (receiveMessage .rowDescription)
      (FrontendMessage.withLength (WireMessage.rowDescription columns).body)
      (.rowDescription (columns.map (WireColumn.decode charset))) := by
  refine (yields_bodyLength h.size).bind ((yields_bytes h.size).map ?_)
  refine .bind_get fun c hc => ?_
  have hdecode := Column.decodeAll_append charset h.fields.1 h.fields.2 []
  rw [List.append_nil] at hdecode
  rw [hc, hdecode]
  exact (Yields.pure _).map (.pure _)

theorem yields_dataRow {row : Row} (h : (WireMessage.dataRow row).WellFormed) :
    Yields charset (receiveMessage .dataRow)
      (FrontendMessage.withLength (WireMessage.dataRow row).body)
      (.dataRow ((WireMessage.dataRow row).body.length + 4) row) := by
  have hvalues : ∀ value ∈ row, ∀ octets ∈ value, octets.length < 2 ^ 31 := by
    rintro _ hmem octets ⟨⟩
    have hle := length_le_flatMap_parameter hmem
    have hsize := h.size
    unfold WireMessage.body maxMessageSize at hsize
    rw [List.length_append] at hsize
    omega
  refine (yields_bodyLength h.size).bind ((yields_bytes h.size).map ?_)
  have hdecode := Row.decode_append h.fields hvalues []
  rw [List.append_nil] at hdecode
  rw [hdecode]
  exact (Yields.pure _).map (.pure _)

/-- A well-formed message is read as what it says, and consumed exactly. -/
theorem yields_message {w : WireMessage} (h : w.WellFormed) :
    Yields charset (receiveMessage w.tag) (FrontendMessage.withLength w.body)
      (w.decode charset) := by
  cases w with
  | parseComplete | bindComplete | closeComplete | noData | portalSuspended | emptyQuery =>
      exact yields_empty _ _
  | parameterDescription body =>
      exact (yields_bodyLength h.size).bind ((yields_skip h.size).map (.pure _))
  | rowDescription columns => exact yields_rowDescription h
  | dataRow row => exact yields_dataRow h
  | commandComplete tag => exact yields_commandComplete h.size
  | errorResponse body =>
      have hpos : body.length ≠ 0 := fun h0 => h.fields (List.length_eq_zero_iff.1 h0)
      exact (yields_reportLength h.size hpos _).bind ((yields_reportText h.size).map (.pure _))
  | noticeResponse body =>
      have hpos : body.length ≠ 0 := fun h0 => h.fields (List.length_eq_zero_iff.1 h0)
      exact (yields_reportLength h.size hpos _).bind ((yields_string h.size).map (.pure _))
  | notificationResponse pid channel payload =>
      obtain ⟨hpid, hchannel, hpayload⟩ := h.fields
      refine ((yields_length h.size).map (.pure ())).bind ?_
      refine (yields_int32 hpid.1 hpid.2).bind ?_
      exact (yields_zeroTerminated hchannel).bind ((yields_zeroTerminated hpayload).map (.pure _))
  | parameterStatus name value =>
      obtain ⟨hname, hvalue⟩ := h.fields
      refine ((yields_length h.size).map (.pure ())).bind ?_
      exact (yields_zeroTerminated hname).bind ((yields_zeroTerminated hvalue).map (.pure _))

end Channel

end PgClient
