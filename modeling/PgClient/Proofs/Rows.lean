import PgClient.Proofs.Dispatch

/-!
# Rows that were cut off

A row tells in advance how many values it has and how long each of them is, and a description of
rows tells how many columns, so neither needs an end: what stands behind it is not looked at, and
what it takes is taken or it fails. The fields it is read by are `Stable`: they read the same
whatever comes behind them. A stable reader that takes all of a body can read no part of it that
was cut off, for it would have read the same from the whole and left something over
(`Stable.fails`). So every row and every description is read back exactly, and every proper prefix
of one is refused.

A prefix that is sent behind its own length is a message like others up to that point. It ends the
reply as a violation of the protocol, after the messages ahead of it have been handed on.
-/

namespace PgClient

open Exchange

/-! ## Readers that look no further than they read -/

/-- What is read does not depend on the octets that follow. -/
def Stable {α ε : Type} (x : StateT Bytes (Except ε) α) : Prop :=
  ∀ bs a rest more, x bs = .ok (a, rest) → x (bs ++ more) = .ok (a, rest ++ more)

namespace Stable

variable {α β ε : Type}

theorem pure (a : α) : Stable (pure a : StateT Bytes (Except ε) α) := by
  rintro bs _ _ more ⟨⟩
  rfl

theorem bind {x : StateT Bytes (Except ε) α} {f : α → StateT Bytes (Except ε) β} (hx : Stable x)
    (hf : ∀ a, Stable (f a)) : Stable (x >>= f) := by
  intro bs b rest more h
  have h : (x bs >>= fun p => f p.1 p.2) = .ok (b, rest) := h
  cases hread : x bs with
  | error e =>
      rw [hread] at h
      cases h
  | ok p =>
      rw [hread] at h
      rw [reader_bind (hx bs p.1 p.2 more hread)]
      exact hf p.1 p.2 b rest more h

theorem mapM {x : StateT Bytes (Except ε) α} (hx : Stable x) (turns : List Unit) :
    Stable (turns.mapM fun _ => x) := by
  induction turns with
  | nil => exact .pure []
  | cons turn turns ih =>
      rw [List.mapM_cons]
      exact hx.bind fun _ => ih.bind fun _ => .pure _

/-- What takes all octets there are fails on every proper part of them. -/
theorem fails {x : StateT Bytes (Except ε) α} (hx : Stable x) {bs front : Bytes} {a : α}
    (hall : x bs = .ok (a, [])) (hfront : front <+: bs) (hcut : front ≠ bs) :
    ∃ e, x front = .error e := by
  obtain ⟨more, rfl⟩ := hfront
  cases hread : x front with
  | error e => exact ⟨e, rfl⟩
  | ok p =>
      rw [hx front p.1 p.2 more hread] at hall
      have hrest : p.2 ++ more = [] := congrArg Prod.snd (Except.ok.inj hall)
      rw [(List.append_eq_nil_iff.1 hrest).2, List.append_nil] at hcut
      exact absurd rfl hcut

end Stable

/-! ## Fields, columns and values -/

namespace FieldReader

/-- A string was read up to the first zero octet. -/
theorem string_ok {charset : Charset} {bs rest : Bytes} {text : String}
    (h : string charset bs = .ok (text, rest)) :
    ∃ octets, 0 ∉ octets ∧ bs = octets ++ 0 :: rest ∧ text = charset.decode octets := by
  have hsplit : bs.takeWhile (· != 0) ++ bs.dropWhile (· != 0) = bs :=
    List.takeWhile_append_dropWhile
  have hstop := List.head?_dropWhile_not (· != 0) bs
  unfold string at h
  cases hbehind : bs.dropWhile (· != 0) with
  | nil =>
      rw [hbehind] at h
      cases h
  | cons zero behind =>
      rw [hbehind] at h hsplit hstop
      cases h
      obtain rfl : zero = 0 := by simpa using hstop
      refine ⟨_, fun hzero => ?_, hsplit.symm, rfl⟩
      have hnot := List.all_eq_true.1 (List.all_takeWhile (p := (· != 0)) (l := bs)) 0 hzero
      cases hnot

theorem string_stable (charset : Charset) : Stable (string charset) := by
  intro bs text rest more h
  obtain ⟨octets, hfree, rfl, rfl⟩ := string_ok h
  rw [List.append_assoc]
  exact string_append hfree (rest ++ more)

theorem int_stable (width : Nat) : Stable (int width) := by
  intro bs a rest more h
  unfold int at h ⊢
  split at h
  · cases h
  · next henough =>
      cases h
      have henough : width ≤ bs.length := Nat.le_of_not_lt henough
      rw [List.length_append, if_neg (by omega), List.take_append_of_le_length henough,
        List.drop_append_of_le_length henough]

theorem within_stable {α : Type} {reader : FieldReader α} (h : Stable reader) (kind : String) :
    Stable (reader.within kind) := by
  intro bs a rest more hread
  have hread : (reader bs).mapError (Violation.malformed kind) = .ok (a, rest) := hread
  cases hbs : reader bs with
  | error e =>
      rw [hbs] at hread
      cases hread
  | ok p =>
      rw [hbs] at hread
      cases hread
      exact within_append kind (h bs _ _ more hbs)

end FieldReader

theorem Column.allReader_stable (charset : Charset) : Stable (Column.allReader charset) := by
  have hint16 : Stable FieldReader.int16 := FieldReader.int_stable 2
  have hint32 : Stable FieldReader.int32 := FieldReader.int_stable 4
  refine hint16.bind fun count => Stable.mapM ?_ _
  exact (FieldReader.string_stable charset).bind fun _ => hint32.bind fun _ => hint16.bind fun _ =>
    hint32.bind fun _ => hint16.bind fun _ => hint32.bind fun _ => hint16.bind fun _ => .pure _

/-- The octets of a value are taken if there are so many. -/
theorem Row.octets_apply (size : Nat) (bs : Bytes) :
    (do
      let rest ← get
      if rest.length < size then throw (.columnOverrun size)
      set (rest.drop size)
      return some (rest.take size) : StateT Bytes (Except Violation) (Option Bytes)) bs =
      if bs.length < size then .error (.columnOverrun size)
      else .ok (some (bs.take size), bs.drop size) := by
  have hget : (get : StateT Bytes (Except Violation) Bytes) bs = .ok (bs, bs) := rfl
  rw [reader_bind hget]
  split <;> rfl

theorem Row.value_stable : Stable Row.value := by
  refine (FieldReader.within_stable (FieldReader.int_stable 4) "DataRow").bind fun size => ?_
  split
  · exact .pure none
  · intro bs a rest more h
    rw [Row.octets_apply] at h ⊢
    split at h
    · cases h
    · next henough =>
        cases h
        have henough : size.toNat ≤ bs.length := Nat.le_of_not_lt henough
        rw [List.length_append, if_neg (by omega), List.take_append_of_le_length henough,
          List.drop_append_of_le_length henough]

theorem Row.reader_stable : Stable Row.reader :=
  (FieldReader.within_stable (FieldReader.int_stable 2) "DataRow").bind fun _ =>
    Row.value_stable.mapM _

/-- A row that was cut off is no row. -/
theorem Row.decode_truncated {row : Row} (hcount : row.length < 2 ^ 15)
    (hvalues : ∀ value ∈ row, ∀ octets ∈ value, octets.length < 2 ^ 31) {body : Bytes}
    (hbody : body <+: (WireMessage.dataRow row).body)
    (hcut : body ≠ (WireMessage.dataRow row).body) : ∃ v, Row.decode body = .error v := by
  have hall := Row.reader_append hcount hvalues []
  rw [List.append_nil] at hall
  obtain ⟨v, hv⟩ := Row.reader_stable.fails hall hbody hcut
  exact ⟨v, by rw [Row.decode_eq, hv]; rfl⟩

theorem Column.decodeAll_truncated (charset : Charset) {columns : List WireColumn}
    (hcount : columns.length < 2 ^ 15) (hcolumns : ∀ c ∈ columns, c.WellFormed) {body : Bytes}
    (hbody : body <+: (WireMessage.rowDescription columns).body)
    (hcut : body ≠ (WireMessage.rowDescription columns).body) :
    ∃ v, Column.decodeAll charset body = .error v := by
  have hall := FieldReader.within_append "RowDescription"
    (Column.allReader_append charset hcount hcolumns [])
  rw [List.append_nil] at hall
  have hstable := FieldReader.within_stable (Column.allReader_stable charset) "RowDescription"
  obtain ⟨v, hv⟩ := hstable.fails hall hbody hcut
  exact ⟨v, by rw [Column.decodeAll_eq, hv]; rfl⟩

/-! ## Messages that were cut off -/

namespace WireMessage

/-- A row or a description of rows as the protocol describes it, of whatever size. -/
inductive IsTabular : WireMessage → Prop where
  | dataRow {row : Row} (hcount : row.length < 2 ^ 15)
      (hvalues : ∀ value ∈ row, ∀ octets ∈ value, octets.length < 2 ^ 31) :
      IsTabular (.dataRow row)
  | rowDescription {columns : List WireColumn} (hcount : columns.length < 2 ^ 15)
      (hcolumns : ∀ c ∈ columns, c.WellFormed) : IsTabular (.rowDescription columns)

/-- A message of this kind with a part of its fields, and the length that this part has. -/
def cutOff (w : WireMessage) (body : Bytes) : Bytes :=
  w.tag.octet :: FrontendMessage.withLength body

/-- A message that was cut off has a length, and lacks some of its octets. -/
structure Truncates (w : WireMessage) (body : Bytes) : Prop where
  front : body <+: w.body
  cut : body ≠ w.body
  size : body.length + 4 < 2 ^ 31

end WireMessage

namespace Channel

open WireMessage

/-- A body behind its length that is refused once it was read is refused in any case: if no message
may be that long, it is not read at all. -/
theorem receiveBody_refused {α : Type} {k : Nat → Bytes → Exchange Channel α} {body rest : Bytes}
    (hsize : body.length + 4 < 2 ^ 31) {c : Channel}
    (hc : c.unread = FrontendMessage.withLength body ++ rest)
    (hk : ∀ c, ∃ v, k body.length body c = .error (.failed (.protocolViolation v)) c) :
    ∃ v c', (do
      let size ← receiveBodyLength
      let octets ← receiveBytes size
      k size octets : Exchange Channel α) c = .error (.failed (.protocolViolation v)) c' := by
  have hlength : Yields c.charset receiveBodyLength (Bytes.int32 (body.length + 4))
      body.length := by
    refine (yields_int32 (by omega) (by omega)).map ?_
    rw [if_neg (by omega), show ((body.length : Int) + 4 - 4).toNat = body.length by omega]
    exact .pure body.length
  unfold FrontendMessage.withLength at hc
  rw [List.append_assoc] at hc
  obtain ⟨c₁, h₁, hoff₁⟩ := hlength c _ rfl hc
  rw [bind_of_ok h₁]
  by_cases hlarge : maxMessageSize < body.length
  · have hrefused : receiveBytes body.length c₁ =
        .error (.failed (.protocolViolation (.oversized body.length))) c₁ := by
      unfold receiveBytes
      rw [if_pos hlarge]
      rfl
    exact ⟨_, _, bind_of_error hrefused⟩
  · have hbytes : Yields c₁.charset (receiveBytes body.length) body body :=
      yields_bytes (Nat.le_of_not_lt hlarge)
    obtain ⟨c₂, h₂, -⟩ := hbytes c₁ rest rfl (hoff₁.unread_eq hc)
    obtain ⟨v, hv⟩ := hk c₂
    rw [bind_of_ok h₂]
    exact ⟨v, c₂, hv⟩

theorem receiveMessage_truncated {w : WireMessage} (hw : w.IsTabular) {body rest : Bytes}
    (hbody : w.Truncates body) {c : Channel}
    (hc : c.unread = FrontendMessage.withLength body ++ rest) :
    ∃ v c', receiveMessage w.tag c = .error (.failed (.protocolViolation v)) c' := by
  cases hw with
  | dataRow hcount hvalues =>
      refine receiveBody_refused hbody.size hc fun c => ?_
      obtain ⟨v, hv⟩ := Row.decode_truncated hcount hvalues hbody.front hbody.cut
      rw [hv]
      exact ⟨v, rfl⟩
  | rowDescription hcount hcolumns =>
      refine receiveBody_refused hbody.size hc fun c => ?_
      obtain ⟨v, hv⟩ := Column.decodeAll_truncated c.charset hcount hcolumns hbody.front hbody.cut
      rw [bind_of_ok (get_apply c), hv]
      exact ⟨v, rfl⟩

theorem receive_truncated {w : WireMessage} (hw : w.IsTabular) {body rest : Bytes}
    (hbody : w.Truncates body) (detail : Bool) {c : Channel}
    (hc : c.unread = w.cutOff body ++ rest) :
    ∃ v c', receive .reply detail c = .error (.failed (.protocolViolation v)) c' := by
  have hoctet : Yields c.charset receiveOctet [w.tag.octet] w.tag.octet := yields_octet w.tag.octet
  obtain ⟨c₁, h₁, hoff₁⟩ := hoctet c (FrontendMessage.withLength body ++ rest) rfl hc
  obtain ⟨v, c₂, h₂⟩ := receiveMessage_truncated hw hbody (hoff₁.unread_eq hc)
  refine ⟨v, c₂, ?_⟩
  unfold receive
  rw [bind_of_ok h₁, receiveAfter_due (accepts_tag w), receiveJournaled_of_error h₂]

end Channel

namespace Session

open BackendMessage Conversation FrontendMessage WireMessage

/-- A reply broke off behind these messages: the session has ended, and the caller has been handed
what they say and nothing else. -/
structure BrokenOff (s : Session) (ms : List BackendMessage) (reply : Reply) (s' : Session) :
    Prop where
  result : ∃ v, reply.result = .error (.protocolViolation v)
  closed : s'.isClosed = true
  deliveries : reply.deliveries =
    allDelivered s.options.showErrorDetail s.failCause ms

namespace Conversation

/-- What cannot be read ends the reply, and the caller is told of nothing more. -/
theorem takeAll_truncated {w : WireMessage} (hw : w.IsTabular) {body rest : Bytes}
    (hbody : w.Truncates body) (rounds : Nat) {c : Conversation}
    (hunread : c.session.channel.unread = w.cutOff body ++ rest) :
    ∃ v s', takeAll (rounds + 1) c =
      .error (.failed (.protocolViolation v)) { c with session := s' } := by
  obtain ⟨v, channel, hread⟩ :=
    Channel.receive_truncated hw hbody c.session.options.showErrorDetail hunread
  have hreceive : receive .reply c.session =
      .error (.failed (.protocolViolation v)) { c.session with channel } :=
    receive_of_error hread
  refine ⟨v, { c.session with channel }, ?_⟩
  exact takeAll_broken hreceive

end Conversation

theorem request_truncated {s₀ s s₁ : Session} {statement : Option Statement}
    {preparing : Option String} {send : Exchange Session (Option String)} {ws : List WireMessage}
    {w : WireMessage} {body rest : Bytes} (hws : ∀ w ∈ ws, w.WellFormed)
    (haccept : ∀ m ∈ WireMessage.decodeAll s.options.allowEncodingChanges s.channel.charset ws,
      m.isAcceptable s.options.allowEncodingChanges = true)
    (hw : w.IsTabular) (hbody : w.Truncates body)
    (hpasses : Passes (ws.flatMap WireMessage.encode ++ (w.cutOff body ++ rest)) s s₁)
    {s₂ : Session} (hsend : send s₂ = .ok preparing s₁) :
    ∃ reply s', converse { session := s₀, statement } (request send) s₂ = .ok reply s' ∧
      BrokenOff s (WireMessage.decodeAll s.options.allowEncodingChanges s.channel.charset ws)
        reply s' := by
  have hunread : s₁.channel.unread = ws.flatMap WireMessage.encode ++ (w.cutOff body ++ rest) :=
    hpasses.unread
  obtain ⟨rounds, hrounds⟩ : ∃ rounds, s₁.channel.unread.length + 1 = ws.length + (rounds + 1) := by
    have := length_le_flatMap_encode ws
    refine ⟨s₁.channel.unread.length - ws.length, ?_⟩
    rw [hunread, List.length_append]
    omega
  obtain ⟨c, htake, hrest, hdelivers⟩ := takeAll_advances
    (c := { session := s₁, statement, preparing }) hws (rounds + 1) hunread
    (by rw [show s₁.options = _ from hpasses.options, hpasses.charset]; exact haccept)
  simp only [hpasses.options, hpasses.charset] at hdelivers
  obtain ⟨v, s₃, hbroken⟩ := takeAll_truncated hw hbody rounds hrest
  have hrun : request send { session := s₂, statement } =
      .error (.failed (.protocolViolation v)) { c with session := s₃ } := by
    rw [request_apply, hsend]
    refine readReply_of_error ?_
    rw [hrounds, htake, hbroken]
  obtain ⟨s', hends, hconverse⟩ := converse_of_failed (c := { session := s₀, statement }) hrun
  refine ⟨_, _, hconverse, ⟨⟨v, rfl⟩, hends.2, ?_⟩⟩
  have hdeliveries := hdelivers.deliveries
  simp only [hpasses.options, hpasses.failCause, List.nil_append] at hdeliveries
  exact hdeliveries

/-! ## Requests that get an answer -/

/-- On a channel that can be written to, a query is sent, and nothing is read meanwhile. -/
theorem sendQuery_passes {s : Session} (hwrite : s.channel.socket.faults.write = false)
    (hflush : s.channel.socket.faults.flush = false) (sql : String) (octets : Bytes) :
    ∃ s₁, sendQuery (s.drafts [.query sql] octets) = .ok none s₁ ∧
      Passes s.channel.unread s s₁ := by
  rcases sendQuery_cases (s.drafts [.query sql] octets) with
    ⟨c, hc, hsend⟩ | ⟨e, c, -, -, hfaults, -⟩
  · obtain ⟨-, -, hcharset⟩ := Channel.flush_ok hc
    exact ⟨_, hsend, (Channel.flush_keeps.ok hc).unread, hcharset, rfl, rfl, rfl⟩
  · have hfaults : s.channel.socket.faults.write = true ∨ s.channel.socket.faults.flush = true :=
      hfaults
    rw [hwrite, hflush] at hfaults
    rcases hfaults with hfault | hfault <;> cases hfault

/-- The same of a statement that can be put together. -/
theorem sendStatement_passes {s : Session} (hwrite : s.channel.socket.faults.write = false)
    (hflush : s.channel.socket.faults.flush = false) {st : Statement}
    {parameters : List (Option Bytes)}
    (hencode : ∀ m ∈ s.closings ++ s.running (s.readied st) parameters,
      ∃ octets, encode s.channel.charset m = .ok octets) :
    ∃ preparing s₁, sendStatement (s.readied st) parameters s = .ok preparing s₁ ∧
      Passes s.channel.unread s s₁ := by
  obtain ⟨closing, hclosing⟩ := mapM_ok fun m hm => hencode m (List.mem_append_left _ hm)
  obtain ⟨run, hrunning⟩ := mapM_ok fun m hm => hencode m (List.mem_append_right _ hm)
  have hsends := sendStatement_sends (s.readied st) parameters s
  generalize sendStatement (s.readied st) parameters s = sent at hsends
  cases hsends with
  | unclosed _ hfails =>
      rw [hclosing] at hfails
      cases hfails
  | refused _ _ hfails =>
      rw [hrunning] at hfails
      cases hfails
  | unwritten _ _ _ hfaults =>
      rw [hwrite, hflush] at hfaults
      rcases hfaults with hfault | hfault <;> cases hfault
  | written _ _ hkeeps _ hcharset _ =>
      exact ⟨_, _, rfl, hkeeps.unread, hcharset, rfl, rfl, rfl⟩

/-- Rows and descriptions of rows are read back exactly, whatever follows them, and no proper part
of one is read at all. A request in whose reply one is cut off ends there as a violation of the
protocol, and with it the session; of the message that was cut off the caller is told nothing. -/
theorem rows_exact :
    (∀ (row : Row) (rest : Bytes), row.length < 2 ^ 15 →
      (∀ value ∈ row, ∀ octets ∈ value, octets.length < 2 ^ 31) →
      Row.decode ((dataRow row).body ++ rest) = .ok row ∧
      ∀ body, body <+: (dataRow row).body → body ≠ (dataRow row).body →
        ∃ v, Row.decode body = .error v) ∧
    (∀ (charset : Charset) (columns : List WireColumn) (rest : Bytes), columns.length < 2 ^ 15 →
      (∀ c ∈ columns, c.WellFormed) →
      Column.decodeAll charset ((rowDescription columns).body ++ rest) =
        .ok (columns.map (WireColumn.decode charset)) ∧
      ∀ body, body <+: (rowDescription columns).body → body ≠ (rowDescription columns).body →
        ∃ v, Column.decodeAll charset body = .error v) ∧
    ∀ (s : Session) (ws : List WireMessage) (w : WireMessage) (body rest : Bytes),
      s.isClosed = false → s.channel.socket.faults.write = false →
      s.channel.socket.faults.flush = false → (∀ w ∈ ws, w.WellFormed) →
      (∀ m ∈ WireMessage.decodeAll s.options.allowEncodingChanges s.channel.charset ws,
        m.isAcceptable s.options.allowEncodingChanges = true) →
      w.IsTabular → w.Truncates body →
      s.channel.unread = ws.flatMap WireMessage.encode ++ (w.cutOff body ++ rest) →
      (∀ sql octets, encode s.channel.charset (.query sql) = .ok octets →
        ∃ reply s', query sql s = .ok reply s' ∧
          BrokenOff s (WireMessage.decodeAll s.options.allowEncodingChanges s.channel.charset ws)
            reply s') ∧
      ∀ st parameters, (∀ m ∈ s.closings ++ s.running (s.readied st) parameters,
          ∃ octets, encode s.channel.charset m = .ok octets) →
        ∃ reply s', execute st parameters s = .ok reply s' ∧
          BrokenOff s (WireMessage.decodeAll s.options.allowEncodingChanges s.channel.charset ws)
            reply s' := by
  refine ⟨fun row rest hcount hvalues => ⟨Row.decode_append hcount hvalues rest,
      fun body => Row.decode_truncated hcount hvalues⟩,
    fun charset columns rest hcount hcolumns =>
      ⟨Column.decodeAll_append charset hcount hcolumns rest,
        fun body => Column.decodeAll_truncated charset hcount hcolumns⟩,
    fun s ws w body rest hopen hwrite hflush hws haccept hw hbody hunread => ⟨?_, ?_⟩⟩
  · intro sql octets hencode
    obtain ⟨s₁, hsend, hpasses⟩ := sendQuery_passes hwrite hflush sql octets
    rw [hunread] at hpasses
    obtain ⟨reply, s', hrun, hbroken⟩ := request_truncated hws haccept hw hbody hpasses hsend
    exact ⟨reply, s', (query_eq hopen hencode).trans hrun, hbroken⟩
  · intro st parameters hencode
    obtain ⟨preparing, s₁, hsend, hpasses⟩ := sendStatement_passes hwrite hflush hencode
    rw [hunread] at hpasses
    obtain ⟨reply, s', hrun, hbroken⟩ := request_truncated hws haccept hw hbody hpasses hsend
    exact ⟨reply, s', (execute_eq hopen st parameters).trans hrun, hbroken⟩

/-- A row of a value, an empty one and null. -/
def sampleRow : Row :=
  [some (Utf8.encode "1"), some [], none]

/-- A description of one column, and then a row that lacks its last octet. -/
def cutSocket : Socket :=
  { inbound := [WireMessage.rowDescription [sampleColumn]].flatMap WireMessage.encode ++
      ((dataRow sampleRow).cutOff (dataRow sampleRow).body.dropLast ++ []) }

/-- A session about to hear of them. -/
def cutSession : Session :=
  new { socket := cutSocket, host := { name := "localhost", port := 5432 } } "postgres"
    "postgres" {}

theorem rows_exact_sample :
    Row.decode ((dataRow sampleRow).body ++ [0x21]) = .ok sampleRow ∧
      (∃ v, Row.decode (dataRow sampleRow).body.dropLast = .error v) ∧
      Column.decodeAll .latin1 ((rowDescription [sampleColumn]).body ++ [0x21]) =
        .ok [sampleColumn.decode .latin1] ∧
      ∃ reply s', query "SELECT 1" cutSession = .ok reply s' ∧
        (∃ v, reply.result = .error (.protocolViolation v)) ∧ s'.isClosed = true ∧
        reply.deliveries = [.columns [sampleColumn.decode .utf8]] := by
  have hvalues : ∀ value ∈ sampleRow, ∀ octets ∈ value, octets.length < 2 ^ 31 := by
    decide +kernel
  have hcut : (dataRow sampleRow).body.dropLast ≠ (dataRow sampleRow).body := by decide +kernel
  obtain ⟨hrow, hpart⟩ := rows_exact.1 sampleRow [0x21] (by decide) hvalues
  obtain ⟨hcolumns, -⟩ := rows_exact.2.1 .latin1 [sampleColumn] [0x21] (by decide)
    (by decide +kernel)
  obtain ⟨hquery, -⟩ := rows_exact.2.2 cutSession [.rowDescription [sampleColumn]]
    (.dataRow sampleRow) _ [] rfl rfl rfl (by decide +kernel) (by decide +kernel)
    (.dataRow (by decide) hvalues) ⟨List.dropLast_prefix _, hcut, by decide +kernel⟩ rfl
  obtain ⟨reply, s', hrun, hresult, hclosed, hdeliveries⟩ :=
    hquery "SELECT 1" (frame 'Q' (Utf8.encode "SELECT 1" ++ [0])) (by decide +kernel)
  exact ⟨hrow, hpart _ (List.dropLast_prefix _) hcut, hcolumns, reply, s', hrun, hresult, hclosed,
    hdeliveries⟩

end Session

end PgClient
