import PgClient.Proofs.Grammar
import PgClient.Proofs.Readback

/-!
# What counts and lengths are worth

A message that carries a list says how many items follow, in a word of two octets, and
how long it is, in a word of four. A list may be longer than such a word can say, and
nothing looks at that: the word holds the low-order part of the number (`Tallies`). So
the count is right for fewer than 65536 items and the length for less than 4 GiB, and past
these bounds the message goes out all the same. What keeps a message from going out is
a zero octet within a text of it, and nothing else (`Counts`).

The same is said of a statement that runs: its Bind message either does not go out at
all or goes out so laid out (`Submits`).
-/

namespace PgClient

open Exchange FrontendMessage

/-! ## Words that are too short -/

/-- A tag, a length, fields of which none can be told here, a count, and what is counted; the
length and the count are read without a sign. -/
def Tallies (tag : UInt8) (front items : Bytes) (length count : Nat) (octets : Bytes) : Prop :=
  ∃ lengthWord countWord : Bytes,
    octets = tag :: (lengthWord ++ (front ++ (countWord ++ items))) ∧
      lengthWord.length = 4 ∧ Bytes.toNat lengthWord = length ∧
      countWord.length = 2 ∧ Bytes.toNat countWord = count

/-- A message has one length and one count, each at its place. -/
theorem Tallies.unique {tag tag' : UInt8} {front items items' octets : Bytes}
    {length length' count count' : Nat} (h : Tallies tag front items length count octets)
    (h' : Tallies tag' front items' length' count' octets) :
    length = length' ∧ count = count' := by
  obtain ⟨lengthWord, countWord, rfl, hlength, rfl, hwidth, rfl⟩ := h
  obtain ⟨lengthWord', countWord', hoctets, hlength', rfl, hwidth', rfl⟩ := h'
  obtain ⟨hword, hrest⟩ := List.append_inj (List.cons.inj hoctets).2 (hlength.trans hlength'.symm)
  have hcounted := List.append_cancel_left hrest
  obtain ⟨hword', -⟩ := List.append_inj hcounted (hwidth.trans hwidth'.symm)
  exact ⟨congrArg Bytes.toNat hword, congrArg Bytes.toNat hword'⟩

/-- In both words there is as much of the number as there is room for. -/
theorem frame_tallies (tag : Char) (front items : Bytes) (count : Nat) :
    Tallies (UInt8.ofNat tag.toNat) front items
      (((frame tag (front ++ Bytes.int16 count ++ items)).length - 1) % 2 ^ 32) (count % 2 ^ 16)
      (frame tag (front ++ Bytes.int16 count ++ items)) := by
  refine ⟨Bytes.int32 ((front ++ Bytes.int16 count ++ items).length + 4), Bytes.int16 count, ?_,
    Bytes.length_int32 _, ?_, Bytes.length_int16 _, Bytes.toNat_ofInt 2 count⟩
  · rw [frame, withLength, List.append_assoc front]
  · have hword := Bytes.toNat_ofInt 4 ((front ++ Bytes.int16 count ++ items).length + 4)
    have hlength : (frame tag (front ++ Bytes.int16 count ++ items)).length - 1 =
        (front ++ Bytes.int16 count ++ items).length + 4 := by
      simp only [frame, withLength, List.length_cons, List.length_append, Bytes.length_int32]
      omega
    rw [hlength]
    exact_mod_cast hword

/-- A value behind its size, of which there is as much as there is room for; null has no size, and
its word says so. -/
def IsSized (octets : Bytes) : Option Bytes → Prop
  | some value => ∃ word, octets = word ++ value ∧ word.length = 4 ∧
      Bytes.toNat word = value.length % 2 ^ 32
  | none => octets = [0xFF, 0xFF, 0xFF, 0xFF]

theorem parameter_isSized (v : Option Bytes) : IsSized (parameter v) v := by
  cases v with
  | none => exact (by decide : parameter none = [0xFF, 0xFF, 0xFF, 0xFF])
  | some value =>
      exact ⟨Bytes.int32 value.length, rfl, Bytes.length_int32 _, Bytes.toNat_ofInt 4 value.length⟩

/-! ## Messages that carry a list -/

/-- What comes of putting a message together that begins with texts and carries a list. -/
inductive Counts (tag : UInt8) (texts : List Bytes) (front items : Bytes) (count : Nat) :
    Except Error Bytes → Prop where
  /-- It is refused because a text would end early. -/
  | refused {text : Bytes} {fault : StatementFault} (hmem : text ∈ texts) (hzero : 0 ∈ text) :
      Counts tag texts front items count (.error (.statementCreation fault))
  /-- It is laid out, with the low-order part of its count and of its length. -/
  | laid {octets : Bytes} (hzero : ∀ text ∈ texts, 0 ∉ text)
      (htallies : Tallies tag ((texts.flatMap fun text => text ++ [0]) ++ front) items
        ((octets.length - 1) % 2 ^ 32) (count % 2 ^ 16) octets) :
      Counts tag texts front items count (.ok octets)

/-- The length and the count are right exactly as long as they fit their words. -/
theorem Counts.exact_iff {tag : UInt8} {texts : List Bytes} {front items octets : Bytes}
    {count : Nat} (h : Counts tag texts front items count (.ok octets)) :
    Tallies tag ((texts.flatMap fun text => text ++ [0]) ++ front) items (octets.length - 1) count
      octets ↔ octets.length - 1 < 2 ^ 32 ∧ count < 2 ^ 16 := by
  cases h with
  | laid hzero htallies =>
      constructor
      · intro hexact
        obtain ⟨hlength, hcount⟩ := htallies.unique hexact
        omega
      · rintro ⟨hlength, hcount⟩
        rwa [Nat.mod_eq_of_lt hlength, Nat.mod_eq_of_lt hcount] at htallies

theorem string_cases (charset : Charset) (s : String) :
    (0 ∈ charset.encode s ∧ ∃ fault, string charset s = .error (.statementCreation fault)) ∨
      (0 ∉ charset.encode s ∧ string charset s = .ok (charset.encode s ++ [0])) := by
  by_cases hzero : 0 ∈ charset.encode s
  · cases h : string charset s with
    | ok octets => exact absurd hzero (string_eq_ok h).1
    | error e =>
        obtain ⟨fault, rfl⟩ := string_blames charset s e h
        exact .inl ⟨hzero, fault, rfl⟩
  · exact .inr ⟨hzero, string_of_zero_notMem hzero⟩

/-- Two texts are put in front of a list, or one of them refuses. -/
theorem counts_of_strings (charset : Charset) (text text' : String) (tag : Char)
    (front items : Bytes) (count : Nat) :
    Counts (UInt8.ofNat tag.toNat) [charset.encode text, charset.encode text'] front items count
      (do
        let octets ← string charset text
        let octets' ← string charset text'
        return frame tag (octets ++ octets' ++ front ++ Bytes.int16 count ++ items)) := by
  rcases string_cases charset text with ⟨hzero, fault, htext⟩ | ⟨hzero, htext⟩
  · rw [htext]
    exact .refused List.mem_cons_self hzero
  · rcases string_cases charset text' with ⟨hzero', fault, htext'⟩ | ⟨hzero', htext'⟩
    · rw [htext, htext']
      exact .refused (List.mem_cons_of_mem _ List.mem_cons_self) hzero'
    · rw [htext, htext']
      have htallies := frame_tallies tag
        ((charset.encode text ++ [0]) ++ (charset.encode text' ++ [0]) ++ front) items count
      refine .laid (by simpa using ⟨hzero, hzero'⟩) ?_
      rw [List.flatMap_cons, List.flatMap_singleton]
      exact htallies

theorem parse_counts (charset : Charset) (statement sql : String) (types : List Int) :
    Counts 0x50 [charset.encode statement, charset.encode sql] [] (types.flatMap Bytes.int32)
      types.length ((parse statement sql types).encode charset) := by
  have h := counts_of_strings charset statement sql 'P' [] (types.flatMap Bytes.int32) types.length
  simp only [List.append_nil] at h
  exact h

theorem bind_counts (charset : Charset) (portal statement : String)
    (parameters : List (Option Bytes)) :
    Counts 0x42 [charset.encode portal, charset.encode statement] [0, 0]
      (parameters.flatMap parameter ++ [0, 0]) parameters.length
      ((bind portal statement parameters).encode charset) := by
  have h := counts_of_strings charset portal statement 'B' [0, 0]
    (parameters.flatMap parameter ++ [0, 0]) parameters.length
  simp only [← List.append_assoc] at h
  exact h

/-- Nothing refuses a list that is too long: it goes out with a count that is not its own. -/
theorem bind_miscounts {charset : Charset} {portal statement : String}
    {parameters : List (Option Bytes)} (hmany : 65536 ≤ parameters.length)
    (hportal : 0 ∉ charset.encode portal) (hstatement : 0 ∉ charset.encode statement) :
    ∃ octets, (bind portal statement parameters).encode charset = .ok octets ∧
      ¬ Tallies 0x42
        (([charset.encode portal, charset.encode statement].flatMap fun text => text ++ [0]) ++
          [0, 0])
        (parameters.flatMap parameter ++ [0, 0]) (octets.length - 1) parameters.length octets := by
  have hcounts := bind_counts charset portal statement parameters
  cases hencode : (bind portal statement parameters).encode charset with
  | error e =>
      rw [hencode] at hcounts
      cases hcounts with
      | refused hmem hzero =>
          simp only [List.mem_cons, List.not_mem_nil, or_false] at hmem
          rcases hmem with rfl | rfl <;> contradiction
  | ok octets =>
      rw [hencode] at hcounts
      refine ⟨octets, rfl, fun hexact => ?_⟩
      have := hcounts.exact_iff.1 hexact
      omega

/-- As many nulls as a word of two octets can tell apart: the count that is sent is none. -/
theorem nulls_miscounted :
    ∃ octets, (bind "" "S_1" (List.replicate 65536 none)).encode .utf8 = .ok octets ∧
      ¬ Tallies 0x42
        (([Charset.utf8.encode "", Charset.utf8.encode "S_1"].flatMap fun text => text ++ [0]) ++
          [0, 0])
        ((List.replicate 65536 none).flatMap parameter ++ [0, 0]) (octets.length - 1) 65536
        octets := by
  have hlength : (List.replicate 65536 (none : Option Bytes)).length = 65536 :=
    List.length_replicate
  have h := @bind_miscounts .utf8 "" "S_1" _ (Nat.le_of_eq hlength.symm) (by decide) (by decide)
  rw [hlength] at h
  exact h

/-! ## A statement that runs -/

namespace Session

/-- What the server hears of a statement that runs, whose name is `name`, if it is `offered`. -/
inductive Submits (name : String) (offered : Option String) (sql : String)
    (parameters : List (Option Bytes)) (s : Session) :
    EStateM.Result Halt Session Reply → Prop where
  /-- The call comes to an error, and nothing was sent. -/
  | kept {e : Error} {reply : Reply} {s' : Session} (hresult : reply.result = .error e)
      (hsent : s'.channel.socket.sent = s.channel.socket.sent) :
      Submits name offered sql parameters s (.ok reply s')
  /-- The statement is bound, after it was prepared if the server does not have it. -/
  | sent {r : EStateM.Result Halt Session Reply} {ahead parsed bound behind : Bytes}
      (hsent : (final r).channel.socket.sent =
        s.channel.socket.sent ++ ahead ++ parsed ++ bound ++ behind)
      (hparsed : offered.elim (parsed = []) fun name =>
        Counts 0x50 [s.channel.charset.encode name, s.channel.charset.encode sql] [] [] 0
          (.ok parsed))
      (hbound : Counts 0x42 [s.channel.charset.encode "", s.channel.charset.encode name] [0, 0]
        (parameters.flatMap parameter ++ [0, 0]) parameters.length (.ok bound)) :
      Submits name offered sql parameters s r

theorem mapM_cons_ok {charset : Charset} {m : FrontendMessage} {ms : List FrontendMessage}
    {parts : List Bytes} (h : (m :: ms).mapM (encode charset) = .ok parts) :
    ∃ part rest, m.encode charset = .ok part ∧ ms.mapM (encode charset) = .ok rest ∧
      parts = part :: rest := by
  rw [List.mapM_cons] at h
  obtain ⟨part, hpart, h⟩ := bind_eq_ok h
  obtain ⟨rest, hrest, h⟩ := bind_eq_ok h
  cases h
  exact ⟨part, rest, hpart, hrest, rfl⟩

/-- The messages of a request, put together, begin with the Parse and the Bind message. -/
theorem running_counts {st : Statement} {parameters : List (Option Bytes)} {s : Session}
    {run : List Bytes} (h : (s.running st parameters).mapM (encode s.channel.charset) = .ok run) :
    ∃ parsed bound behind, run.flatten = parsed ++ bound ++ behind ∧
      (s.offered st).elim (parsed = []) (fun name =>
        Counts 0x50 [s.channel.charset.encode name, s.channel.charset.encode st.native] [] [] 0
          (.ok parsed)) ∧
      Counts 0x42 [s.channel.charset.encode "",
          s.channel.charset.encode ((st.name.or (s.offered st)).getD "")] [0, 0]
        (parameters.flatMap parameter ++ [0, 0]) parameters.length (.ok bound) := by
  unfold running runMessages at h
  cases hoffered : s.offered st with
  | none =>
      rw [hoffered] at h
      obtain ⟨bound, rest, hbound, -, rfl⟩ := mapM_cons_ok h
      exact ⟨[], bound, rest.flatten, rfl, rfl, hbound ▸ bind_counts _ _ _ _⟩
  | some name =>
      rw [hoffered] at h
      obtain ⟨parsed, _, hparsed, hrest, rfl⟩ := mapM_cons_ok h
      obtain ⟨bound, rest, hbound, -, rfl⟩ := mapM_cons_ok hrest
      have hcounts := parse_counts s.channel.charset name st.native []
      rw [hparsed] at hcounts
      refine ⟨parsed, bound, rest.flatten, ?_, hcounts, hbound ▸ bind_counts _ _ _ _⟩
      rw [List.flatten_cons, List.flatten_cons, List.append_assoc]

/-- What went out stays out. -/
theorem Parts.sent_grows {s s' : Session} {h : Option Halt} (hparts : Parts s h s') :
    ∃ behind, s'.channel.socket.sent = s.channel.socket.sent ++ behind := by
  cases hparts with
  | stays _ hsent => exact ⟨[], hsent.trans (List.append_nil _).symm⟩
  | parts _ _ hsent =>
      rcases hsent with hsent | hsent
      · exact ⟨[], hsent.trans (List.append_nil _).symm⟩
      · exact ⟨_, hsent⟩

/-- A call that could not send its statement comes to an error. -/
theorem Submits.of_unsent {name : String} {offered : Option String} {sql : String}
    {parameters : List (Option Bytes)} {statement : Option Statement} {s s₁ : Session}
    {send : Exchange Session (Option String)} {e : Error} (h : send s = .error (.failed e) s₁)
    (hsent : s₁.channel.socket.sent = s.channel.socket.sent) :
    Submits name offered sql parameters s
      (converse { session := s, statement } (request send) s) := by
  have hrun := request_apply send statement s
  rw [h] at hrun
  have hunheeded := @converse_unheeded _ statement s _ _ _ h
  obtain ⟨s₂, -, hconverse⟩ := converse_of_failed (c := { session := s, statement }) hrun
  rw [hconverse] at hunheeded ⊢
  exact .kept rfl (hunheeded.trans hsent)

/-- A request that was written begins, behind what had to wait, with its statement. -/
theorem Submits.of_written {st : Statement} {parameters : List (Option Bytes)} {s : Session}
    {r : EStateM.Result Halt Session Reply} {run : List Bytes} (ahead behind : Bytes)
    (hrun : (s.running st parameters).mapM (encode s.channel.charset) = .ok run)
    (hsent : (final r).channel.socket.sent =
      s.channel.socket.sent ++ (ahead ++ run.flatten) ++ behind) :
    Submits ((st.name.or (s.offered st)).getD "") (s.offered st) st.native parameters s r := by
  obtain ⟨parsed, bound, rest, hflatten, hparsed, hbound⟩ := running_counts hrun
  have hgrows : (final r).channel.socket.sent =
      s.channel.socket.sent ++ ahead ++ parsed ++ bound ++ (rest ++ behind) := by
    rw [hsent, hflatten]
    simp only [List.append_assoc]
  exact .sent hgrows hparsed hbound

theorem execute_submits (st : Statement) (parameters : List (Option Bytes)) (s : Session) :
    Submits (((s.readied st).name.or (s.offered (s.readied st))).getD "")
      (s.offered (s.readied st)) (s.readied st).native parameters s
      (execute st parameters s) := by
  cases hopen : s.isClosed with
  | true =>
      rw [execute_of_closed hopen]
      exact .kept rfl rfl
  | false =>
      rw [execute_eq hopen]
      generalize s.readied st = st
      have hsends := sendStatement_sends st parameters s
      generalize hsend : sendStatement st parameters s = sent at hsends
      cases hsends with
      | unclosed => exact .of_unsent hsend rfl
      | refused => exact .of_unsent hsend rfl
      | @unwritten closing run e c hclosing hrun hfatal hfaults hkeeps hflush =>
          have hunheeded := @converse_unheeded _ (some st) s _ _ _ hsend
          have hchannel := Channel.flush_sent ((s.emptied.named st).drafts
            (s.closings ++ s.running st parameters) (closing.flatten ++ run.flatten)).channel
          rw [hflush] at hchannel
          rcases hchannel with hnothing | hall
          · exact .of_unsent hsend hnothing
          · refine .of_written (s.channel.outgoing ++ closing.flatten) [] hrun
              (hunheeded.trans (hall.trans ?_))
            show s.channel.socket.sent ++ (s.channel.outgoing ++ (_ ++ _)) = _
            rw [List.append_nil, List.append_assoc s.channel.outgoing]
      | @written closing run c hclosing hrun hkeeps hout hcharset hwritten =>
          have hparts := @converse_parts _ (some st) s _ _ _ hsend
          obtain ⟨behind, hbehind⟩ := hparts.sent_grows
          refine .of_written (s.channel.outgoing ++ closing.flatten) behind hrun
            (hbehind.trans ?_)
          show c.socket.sent ++ behind = _
          rw [hwritten]

/-- A message that carries a list is refused for a zero octet in a text of it, or it goes out with
as much of its count, its length and the sizes of its values as their words hold; the count and
the length are right exactly as long as they fit. A statement that runs sends nothing and comes to
an error, or it sends such messages. -/
theorem counts_low_order (charset : Charset) (portal statement sql : String) (types : List Int)
    (parameters : List (Option Bytes)) (st : Statement) (s : Session) :
    Counts 0x42 [charset.encode portal, charset.encode statement] [0, 0]
        (parameters.flatMap parameter ++ [0, 0]) parameters.length
        ((bind portal statement parameters).encode charset) ∧
      Counts 0x50 [charset.encode statement, charset.encode sql] [] (types.flatMap Bytes.int32)
        types.length ((parse statement sql types).encode charset) ∧
      (∀ tag texts front items count octets, Counts tag texts front items count (.ok octets) →
        (Tallies tag ((texts.flatMap fun text => text ++ [0]) ++ front) items (octets.length - 1)
          count octets ↔ octets.length - 1 < 2 ^ 32 ∧ count < 2 ^ 16)) ∧
      (∀ v ∈ parameters, IsSized (parameter v) v) ∧
      Submits (((s.readied st).name.or (s.offered (s.readied st))).getD "")
        (s.offered (s.readied st)) (s.readied st).native parameters s
        (execute st parameters s) :=
  ⟨bind_counts charset portal statement parameters, parse_counts charset statement sql types,
    fun _ _ _ _ _ _ h => h.exact_iff, fun v _ => parameter_isSized v,
    execute_submits st parameters s⟩

end Session

end PgClient
