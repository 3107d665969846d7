import PgClient.Proofs.Frontend
import PgClient.Proofs.Utf8
import PgClient.Proofs.Wire

/-!
# Messages of the client, read back

A server takes a message of the client apart by the grammar of the protocol: a tag
unless the message opens a connection, a length that counts itself, and fields,
some of which are strings that a zero octet ends, some values behind a size, and some
lists behind a count. Values may hold any octet, so nothing but the sizes tells
where one ends. `Heard` is a message as such a reader has it, with the octets of every
string in place of its text, and `Heard.reader` is the reader.

`Heard.encode` lays a message out as the grammar has it. The client writes exactly
that (`encode_eq`), and the reader gets back what was laid out (`Heard.reader_append`), one
kind of field at a time, so the messages of the client are read back. What is read is
determined by the octets, so two messages of one form say the same.
-/

namespace PgClient

open FrontendMessage

/-- A message of the client as its reader has it. -/
inductive Heard where
  | startup (parameters : List (Bytes × Bytes))
  | sslRequest
  | cancelRequest (key : BackendKey)
  | terminate
  /-- What proves who the client is: a text and its zero octet, or other octets. -/
  | password (octets : Bytes)
  | query (sql : Bytes)
  | parse (statement sql : Bytes) (types : List Int)
  /-- A list of formats that is empty stands for text. -/
  | bind (portal statement : Bytes) (formats : List Int) (parameters : List (Option Bytes))
    (resultFormats : List Int)
  | describe (kind : UInt8) (name : Bytes)
  | execute (portal : Bytes) (maxRows : Int)
  | close (kind : UInt8) (name : Bytes)
  | sync
  | flush
  deriving DecidableEq, Repr

/-! ## Readers of fields -/

namespace FieldReader

def octet : FieldReader UInt8
  | [] => .error (.short 1 0)
  | b :: rest => .ok (b, rest)

/-- So many octets, whichever they are. -/
def octets (size : Nat) : FieldReader Bytes := fun bs =>
  if bs.length < size then .error (.short size bs.length)
  else .ok (bs.take size, bs.drop size)

/-- Everything that is left. -/
def remainder : FieldReader Bytes := fun bs => .ok (bs, [])

/-- The octets ahead of a zero octet, which is taken with them. -/
def zeroTerminated : FieldReader Bytes := fun bs =>
  match bs.dropWhile (· != 0) with
  | _ :: rest => .ok (bs.takeWhile (· != 0), rest)
  | [] => .error .unterminated

/-- A count, and that many of one kind. -/
def counted {α : Type} (item : FieldReader α) : FieldReader (List α) := do
  let count ← int16
  if count < 0 then throw (.stated "A count is negative")
  (List.replicate count.toNat ()).mapM fun _ => item

/-- A value behind its size; a size of -1 stands for null. -/
def value : FieldReader (Option Bytes) := do
  let size ← int32
  if size = -1 then return none
  if size < 0 then throw (.stated "A size is negative")
  return some (← octets size.toNat)

/-- Names, each with a value, up to a name that is empty; at most `rounds` names. -/
def pairs : Nat → FieldReader (List (Bytes × Bytes))
  | 0 => throw .unterminated
  | rounds + 1 => do
    let name ← zeroTerminated
    if name = [] then return []
    let value ← zeroTerminated
    return (name, value) :: (← pairs rounds)

/-- What stands behind a length that counts itself: the fields, and nothing after them. -/
def measured {α : Type} (fields : FieldReader α) : FieldReader α := do
  let length ← int32
  if length < 4 then throw (.stated "A length does not cover itself")
  let body ← octets (length - 4).toNat
  match fields body with
  | .ok (a, []) => return a
  | .ok _ => throw (.stated "Octets are left over")
  | .error fault => throw fault

end FieldReader

namespace Heard

open FieldReader

/-- The fields of a message of a tag. -/
def fields (tag : UInt8) : FieldReader Heard :=
  match Char.ofNat tag.toNat with
  | 'X' => return terminate
  | 'p' => return password (← remainder)
  | 'Q' => return query (← zeroTerminated)
  | 'P' => return parse (← zeroTerminated) (← zeroTerminated) (← counted int32)
  | 'B' => do
    let portal ← zeroTerminated
    let statement ← zeroTerminated
    return bind portal statement (← counted int16) (← counted value) (← counted int16)
  | 'D' => return describe (← octet) (← zeroTerminated)
  | 'E' => return execute (← zeroTerminated) (← int32)
  | 'C' => return close (← octet) (← zeroTerminated)
  | 'S' => return sync
  | 'H' => return flush
  | _ => throw (.stated "No message has this tag")

/-- What opens a connection to cancel a query, read as one number. -/
def cancelCode : Int :=
  cancelRequestCode.1 * 65536 + cancelRequestCode.2

/-- The fields of a message that opens a connection; the first says which one it is. -/
def openingFields : FieldReader Heard := do
  let code ← int32
  if code = protocolVersion then
    return startup (← fun bs => pairs bs.length bs)
  else if code = sslRequestCode then
    return sslRequest
  else if code = cancelCode then
    return cancelRequest ⟨← int32, ← int32⟩
  else
    throw (.stated "No message opens a connection so")

/-- One message off the front, as a reader has it that knows whether it is to have a tag. -/
def reader (tagged : Bool) : FieldReader Heard := do
  if tagged then
    let tag ← octet
    measured (fields tag)
  else
    measured openingFields

/-! ## The layout of a message -/

/-- The tag of a message, if it has one. -/
def tag? : Heard → Option Char
  | startup _ | sslRequest | cancelRequest _ => none
  | terminate => some 'X'
  | password _ => some 'p'
  | query _ => some 'Q'
  | parse .. => some 'P'
  | bind .. => some 'B'
  | describe .. => some 'D'
  | execute .. => some 'E'
  | close .. => some 'C'
  | sync => some 'S'
  | flush => some 'H'

/-- A name and its value. -/
def pair (p : Bytes × Bytes) : Bytes :=
  (p.1 ++ [0]) ++ (p.2 ++ [0])

/-- A list behind its count. -/
def counted {α : Type} (item : α → Bytes) (xs : List α) : Bytes :=
  Bytes.int16 xs.length ++ xs.flatMap item

/-- The fields in the order they travel. -/
def body : Heard → Bytes
  | startup parameters => Bytes.int32 protocolVersion ++ parameters.flatMap pair ++ [0]
  | sslRequest => Bytes.int32 sslRequestCode
  | cancelRequest key => Bytes.int32 cancelCode ++ Bytes.int32 key.pid ++ Bytes.int32 key.secret
  | password octets => octets
  | query sql => sql ++ [0]
  | parse statement sql types => (statement ++ [0]) ++ (sql ++ [0]) ++ counted Bytes.int32 types
  | bind portal statement formats parameters resultFormats =>
    (portal ++ [0]) ++ (statement ++ [0]) ++ counted Bytes.int16 formats
      ++ counted parameter parameters ++ counted Bytes.int16 resultFormats
  | describe kind name | close kind name => kind :: (name ++ [0])
  | execute portal maxRows => (portal ++ [0]) ++ Bytes.int32 maxRows
  | terminate | sync | flush => []

/-- The message on the wire. -/
def encode (m : Heard) : Bytes :=
  (m.tag?.map fun tag => UInt8.ofNat tag.toNat).toList ++ withLength m.body

/-- Strings do not end early, and numbers, counts and sizes fit their words. -/
def FieldsWellFormed : Heard → Prop
  | startup parameters => ∀ p ∈ parameters, p.1 ≠ [] ∧ 0 ∉ p.1 ∧ 0 ∉ p.2
  | cancelRequest key => FitsInt32 key.pid ∧ FitsInt32 key.secret
  | query sql => 0 ∉ sql
  | parse statement sql types =>
    0 ∉ statement ∧ 0 ∉ sql ∧ types.length < 2 ^ 15 ∧ ∀ t ∈ types, FitsInt32 t
  | bind portal statement formats parameters resultFormats =>
    0 ∉ portal ∧ 0 ∉ statement ∧ (formats.length < 2 ^ 15 ∧ ∀ f ∈ formats, FitsInt16 f) ∧
      parameters.length < 2 ^ 15 ∧
      (resultFormats.length < 2 ^ 15 ∧ ∀ f ∈ resultFormats, FitsInt16 f)
  | describe _ name | close _ name => 0 ∉ name
  | execute portal maxRows => 0 ∉ portal ∧ FitsInt32 maxRows
  | sslRequest | terminate | password _ | sync | flush => True

/-- A message that can be read back: its length fits its word too. -/
structure WellFormed (m : Heard) : Prop where
  fields : m.FieldsWellFormed
  size : m.body.length + 4 < 2 ^ 31

end Heard

/-! ## Fields, read back -/

namespace FieldReader

theorem octet_cons (b : UInt8) (rest : Bytes) : octet (b :: rest) = .ok (b, rest) :=
  rfl

theorem octets_append (bs rest : Bytes) : octets bs.length (bs ++ rest) = .ok (bs, rest) := by
  unfold octets
  rw [List.length_append, if_neg (by omega), List.take_left' rfl, List.drop_left' rfl]

theorem zeroTerminated_append {text : Bytes} (h : 0 ∉ text) (rest : Bytes) :
    zeroTerminated (text ++ 0 :: rest) = .ok (text, rest) := by
  have hall : ∀ b ∈ text, (b != 0) = true := by
    intro b hb
    have : b ≠ 0 := fun h0 => h (h0 ▸ hb)
    simpa using this
  unfold zeroTerminated
  rw [List.dropWhile_append_of_pos hall, List.takeWhile_append_of_pos hall]
  simp

/-- A list is read back if its count fits and each of its items is. -/
theorem counted_append {α : Type} {encode : α → Bytes} {item : FieldReader α} {xs : List α}
    (hcount : xs.length < 2 ^ 15)
    (h : ∀ x ∈ xs, ∀ rest, item (encode x ++ rest) = .ok (x, rest)) (rest : Bytes) :
    counted item (Heard.counted encode xs ++ rest) = .ok (xs, rest) := by
  have hitems : ((List.replicate xs.length ()).mapM fun _ => item) (xs.flatMap encode ++ rest) =
      .ok (xs.map id, rest) := mapM_reader rest h
  rw [List.map_id] at hitems
  unfold counted Heard.counted
  rw [List.append_assoc, reader_bind (int16_append (fitsInt16_length hcount) _),
    if_neg (by omega), Int.toNat_natCast]
  exact hitems

theorem value_append {v : Option Bytes} (h : ∀ octets ∈ v, octets.length < 2 ^ 31)
    (rest : Bytes) : value (parameter v ++ rest) = .ok (v, rest) := by
  unfold value
  cases v with
  | none =>
      rw [show parameter none = Bytes.int32 (-1) from rfl,
        reader_bind (int32_append (by decide) rest)]
      rfl
  | some bs =>
      have hlen := h bs rfl
      have hfits : FitsInt32 bs.length := by
        unfold FitsInt32
        omega
      rw [show parameter (some bs) = Bytes.int32 bs.length ++ bs from rfl, List.append_assoc,
        reader_bind (int32_append hfits _), if_neg (by omega), if_neg (by omega),
        Int.toNat_natCast]
      show (octets bs.length >>= _) (bs ++ rest) = _
      rw [reader_bind (octets_append bs rest)]
      rfl

/-- The pairs of a message are read back if there is a round for each and one for the end. -/
theorem pairs_append {ps : List (Bytes × Bytes)} (h : ∀ p ∈ ps, p.1 ≠ [] ∧ 0 ∉ p.1 ∧ 0 ∉ p.2)
    {rounds : Nat} (hrounds : ps.length < rounds) :
    pairs rounds (ps.flatMap Heard.pair ++ [0]) = .ok (ps, []) := by
  induction ps generalizing rounds with
  | nil =>
      obtain ⟨rounds, rfl⟩ : ∃ n, rounds = n + 1 := ⟨rounds - 1, by omega⟩
      rfl
  | cons p ps ih =>
      obtain ⟨rounds, rfl⟩ : ∃ n, rounds = n + 1 := ⟨rounds - 1, by omega⟩
      obtain ⟨hname, hzero, hzero'⟩ := h p List.mem_cons_self
      rw [List.length_cons] at hrounds
      have hps : pairs rounds (ps.flatMap Heard.pair ++ [0]) = .ok (ps, []) :=
        ih (fun q hq => h q (List.mem_cons_of_mem _ hq)) (by omega)
      unfold pairs
      rw [List.flatMap_cons, Heard.pair]
      simp only [List.append_assoc, List.cons_append, List.nil_append]
      rw [reader_bind (zeroTerminated_append hzero _), if_neg hname,
        reader_bind (zeroTerminated_append hzero' _), reader_bind hps]
      rfl

theorem length_le_flatMap_pair (ps : List (Bytes × Bytes)) :
    ps.length ≤ (ps.flatMap Heard.pair).length := by
  induction ps with
  | nil => exact Nat.zero_le _
  | cons p ps ih =>
      rw [List.flatMap_cons, Heard.pair]
      simp only [List.length_append, List.length_cons, List.length_nil]
      omega

/-- A message is read back if its fields are, to their end. -/
theorem measured_append {α : Type} {fields : FieldReader α} {body : Bytes} {a : α}
    (h : fields body = .ok (a, [])) (hsize : body.length + 4 < 2 ^ 31) (rest : Bytes) :
    measured fields (withLength body ++ rest) = .ok (a, rest) := by
  have hfits : FitsInt32 (body.length + 4) := by
    unfold FitsInt32
    omega
  unfold measured withLength
  rw [List.append_assoc, reader_bind (int32_append hfits _), if_neg (by omega),
    show ((body.length : Int) + 4 - 4).toNat = body.length by omega]
  show (octets body.length >>= _) (body ++ rest) = _
  rw [reader_bind (octets_append body rest)]
  simp only [h]
  rfl

end FieldReader

/-! ## Messages, read back -/

namespace Heard

open FieldReader

/-- No value of a message is longer than the message. -/
theorem WellFormed.value_size {portal statement : Bytes} {formats resultFormats : List Int}
    {parameters : List (Option Bytes)}
    (h : (bind portal statement formats parameters resultFormats).WellFormed) :
    ∀ v ∈ parameters, ∀ octets ∈ v, octets.length < 2 ^ 31 := by
  rintro _ hmem octets ⟨⟩
  have hle := length_le_flatMap_parameter hmem
  have hsize := h.size
  simp only [body, counted, List.length_append] at hsize
  omega

/-- The fields of a message that has a tag are read back to their end. -/
theorem fields_body {m : Heard} {tag : Char} (htag : m.tag? = some tag) (h : m.WellFormed) :
    fields (UInt8.ofNat tag.toNat) m.body = .ok (m, []) := by
  have hfields := h.fields
  rw [← List.append_nil m.body]
  cases m <;> cases htag
  case terminate | sync | flush => rfl
  case password octets => exact congrArg (fun bs => Except.ok (password bs, [])) octets.append_nil
  case query sql =>
      rw [List.append_nil]
      exact reader_bind (zeroTerminated_append hfields [])
  case parse statement sql types =>
      obtain ⟨hstatement, hsql, hcount, htypes⟩ := hfields
      have htypes := counted_append hcount fun t ht => int32_append (htypes t ht)
      simp only [body, List.append_assoc, List.cons_append, List.nil_append]
      refine (reader_bind (zeroTerminated_append hstatement _)).trans ?_
      refine (reader_bind (zeroTerminated_append hsql _)).trans ?_
      exact reader_bind (htypes [])
  case bind portal statement formats parameters resultFormats =>
      obtain ⟨hportal, hstatement, ⟨hcount, hformats⟩, hcount', ⟨hcount'', hresults⟩⟩ := hfields
      have hformats := counted_append hcount fun f hf => int16_append (hformats f hf)
      have hparameters := counted_append hcount' fun v hv => value_append (h.value_size v hv)
      have hresults := counted_append hcount'' fun f hf => int16_append (hresults f hf)
      simp only [body, List.append_assoc, List.cons_append, List.nil_append]
      refine (reader_bind (zeroTerminated_append hportal _)).trans ?_
      refine (reader_bind (zeroTerminated_append hstatement _)).trans ?_
      refine (reader_bind (hformats _)).trans ?_
      refine (reader_bind (hparameters _)).trans ?_
      exact reader_bind (hresults [])
  case execute portal maxRows =>
      obtain ⟨hportal, hrows⟩ := hfields
      simp only [body, List.append_assoc, List.cons_append, List.nil_append]
      refine (reader_bind (zeroTerminated_append hportal _)).trans ?_
      exact reader_bind (int32_append hrows [])
  case describe kind name | close kind name =>
      rw [List.append_nil]
      exact (reader_bind (octet_cons kind _)).trans
        (reader_bind (zeroTerminated_append hfields []))

/-- So are those of a message that opens a connection. -/
theorem openingFields_body {m : Heard} (htag : m.tag? = none) (h : m.WellFormed) :
    openingFields m.body = .ok (m, []) := by
  have hfields := h.fields
  cases m <;> cases htag
  case startup parameters =>
      have hrounds : parameters.length < (parameters.flatMap pair ++ [0]).length := by
        have := length_le_flatMap_pair parameters
        rw [List.length_append, List.length_singleton]
        omega
      rw [body, List.append_assoc]
      refine (reader_bind (int32_append (by decide) _)).trans ?_
      rw [if_pos rfl]
      exact reader_bind (pairs_append hfields hrounds)
  case sslRequest =>
      rw [← List.append_nil sslRequest.body]
      refine (reader_bind (int32_append (by decide) [])).trans ?_
      rw [if_neg (by decide), if_pos rfl]
      rfl
  case cancelRequest key =>
      rw [← List.append_nil (cancelRequest key).body]
      simp only [body, List.append_assoc]
      refine (reader_bind (int32_append (by decide) _)).trans ?_
      rw [if_neg (by decide), if_neg (by decide), if_pos rfl]
      refine (reader_bind (int32_append hfields.1 _)).trans ?_
      exact reader_bind (int32_append hfields.2 [])

/-- What was laid out is read back, and nothing of what follows it. -/
theorem reader_append {m : Heard} (h : m.WellFormed) (rest : Bytes) :
    reader m.tag?.isSome (m.encode ++ rest) = .ok (m, rest) := by
  unfold encode reader
  cases htag : m.tag? with
  | none =>
      rw [Option.isSome_none, if_neg Bool.false_ne_true]
      exact measured_append (openingFields_body htag h) h.size rest
  | some tag =>
      rw [Option.isSome_some, if_pos rfl]
      exact (reader_bind (octet_cons _ _)).trans
        (measured_append (fields_body htag h) h.size rest)

theorem encode_of_tag {m : Heard} {tag : Char} (h : m.tag? = some tag) :
    m.encode = frame tag m.body := by
  rw [encode, h]
  rfl

theorem encode_of_none {m : Heard} (h : m.tag? = none) : m.encode = withLength m.body := by
  rw [encode, h, Option.map_none, Option.toList_none, List.nil_append]

/-- The length a message declares, behind its tag if it has one. -/
def declaredLength (tagged : Bool) (octets : Bytes) : Int :=
  Bytes.toInt ((octets.drop tagged.toNat).take 4)

/-- The declared length is that of everything behind the tag. -/
theorem declaredLength_encode {m : Heard} (h : m.body.length + 4 < 2 ^ 31) :
    declaredLength m.tag?.isSome m.encode = m.encode.length - m.tag?.isSome.toNat := by
  have hword : Bytes.toInt ((withLength m.body).take 4) = (m.body.length : Int) + 4 := by
    unfold withLength
    rw [List.take_left' (Bytes.length_int32 _)]
    exact Bytes.toInt_int32 (by omega) (by omega)
  have hlength : (withLength m.body).length = m.body.length + 4 := by
    rw [withLength, List.length_append, Bytes.length_int32]
    omega
  unfold declaredLength
  cases htag : m.tag? with
  | none =>
      rw [encode_of_none htag, hlength, Option.isSome_none, Bool.toNat_false, List.drop_zero, hword]
      omega
  | some tag =>
      rw [encode_of_tag htag, frame, Option.isSome_some, Bool.toNat_true, List.drop_one,
        List.tail_cons, hword, List.length_cons, hlength]
      omega

/-- Four octets, as the first and a number of three, or as a number of three and the last. -/
theorem toNat_four (a b c d : UInt8) :
    Bytes.toNat [a, b, c, d] = a.toNat * 16777216 + Bytes.toNat [b, c, d] ∧
      Bytes.toNat [a, b, c, d] = Bytes.toNat [a, b, c] * 256 + d.toNat := by
  simp only [Bytes.toNat, List.foldl_cons, List.foldl_nil]
  exact ⟨by omega, trivial⟩

theorem four_octets {bs : Bytes} (h : bs.length = 4) : ∃ a b c d, bs = [a, b, c, d] :=
  match bs, h with
  | [a, b, c, d], _ => ⟨a, b, c, d, rfl⟩

/-- A length that counts itself, read without its sign. -/
theorem toNat_length (n : Nat) (h : n + 4 < 2 ^ 32) :
    Bytes.toNat (Bytes.int32 (n + 4)) = n + 4 := by
  have hword := Bytes.toNat_ofInt 4 (n + 4)
  rw [Nat.mod_eq_of_lt (by show _ < 4294967296; omega)] at hword
  exact_mod_cast hword

theorem tag_bounds {m : Heard} {tag : Char} (h : m.tag? = some tag) :
    1 < (UInt8.ofNat tag.toNat).toNat ∧ (UInt8.ofNat tag.toNat).toNat < 255 := by
  cases m <;> cases h <;> decide

/-- A message that opens a connection is short, or its fields begin with a zero octet. -/
theorem opening_body {m : Heard} {b : UInt8} {bs : Bytes} (htag : m.tag? = none)
    (h : m.body = b :: bs) : m.body.length + 4 < 16777216 ∨ b = 0 := by
  cases m <;> cases htag
  case startup parameters =>
      right
      have hversion : Bytes.int32 protocolVersion = [0, 3, 0, 0] := by decide
      rw [body, hversion] at h
      exact (List.cons.inj h).1.symm
  case sslRequest =>
      left
      rw [body, Bytes.length_int32]
      decide
  case cancelRequest key =>
      left
      simp only [body, List.length_append, Bytes.length_int32]
      decide

/-- A message that opens a connection is not taken for one that has a tag: for the same octets to
be both, the tag would have to be the high octet of the one length, and this length one more than
the other, whose octets stand one place to the right. -/
theorem encode_ne_of_tag {m m' : Heard} {tag : Char} (htag : m.tag? = some tag)
    (htag' : m'.tag? = none) (hsize : m'.body.length + 4 < 2 ^ 31) : m.encode ≠ m'.encode := by
  intro heq
  rw [encode_of_tag htag, encode_of_none htag', frame, withLength, withLength] at heq
  have hlength := congrArg List.length heq
  simp only [List.length_cons, List.length_append, Bytes.length_int32] at hlength
  have hn := toNat_length m.body.length (by omega)
  have hn' := toNat_length m'.body.length (by omega)
  obtain ⟨a, b, c, d, hword⟩ := four_octets (Bytes.length_int32 (m.body.length + 4))
  obtain ⟨a', b', c', d', hword'⟩ := four_octets (Bytes.length_int32 (m'.body.length + 4))
  rw [hword, hword'] at heq
  simp only [List.cons_append, List.nil_append, List.cons.injEq] at heq
  obtain ⟨rfl, rfl, rfl, rfl, hbody⟩ := heq
  rw [hword, (toNat_four _ _ _ _).2] at hn
  rw [hword', (toNat_four _ _ _ _).1] at hn'
  have hbounds := tag_bounds htag
  rcases opening_body htag' hbody.symm with hshort | rfl
  · omega
  · have hzero : (0 : UInt8).toNat = 0 := rfl
    omega

theorem encode_injective {m m' : Heard} (h : m.WellFormed) (h' : m'.WellFormed)
    (heq : m.encode = m'.encode) : m = m' := by
  have htag : m.tag?.isSome = m'.tag?.isSome := by
    cases hm : m.tag? with
    | none =>
        cases hm' : m'.tag? with
        | none => rfl
        | some tag => exact absurd heq.symm (encode_ne_of_tag hm' hm h.size)
    | some tag =>
        cases hm' : m'.tag? with
        | none => exact absurd heq (encode_ne_of_tag hm hm' h'.size)
        | some tag' => rfl
  have hread := reader_append h []
  rw [heq, htag, reader_append h' []] at hread
  cases hread
  rfl

end Heard

/-! ## What the client writes -/

namespace FrontendMessage

/-- The message as its reader has it. -/
def heard (charset : Charset) : FrontendMessage → Heard
  | startup parameters =>
    .startup (parameters.map fun (name, value) => (Utf8.encode name, Utf8.encode value))
  | sslRequest => .sslRequest
  | cancelRequest key => .cancelRequest key
  | terminate => .terminate
  | password octets => .password octets
  | cleartextPassword text => .password (Utf8.encode text ++ [0])
  | query sql => .query (charset.encode sql)
  | parse statement sql types => .parse (charset.encode statement) (charset.encode sql) types
  | bind portal statement parameters =>
    .bind (charset.encode portal) (charset.encode statement) [] parameters []
  | describe kind name => .describe kind (charset.encode name)
  | execute portal maxRows => .execute (charset.encode portal) maxRows
  | close kind name => .close kind (charset.encode name)
  | sync => .sync
  | flush => .flush

/-- Numbers fit their words, and so do the counts, and no setting of a session has an empty name. -/
def Fits : FrontendMessage → Prop
  | startup parameters => ∀ p ∈ parameters, p.1 ≠ ""
  | cancelRequest key => FitsInt32 key.pid ∧ FitsInt32 key.secret
  | parse _ _ types => types.length ≤ 32767 ∧ ∀ t ∈ types, FitsInt32 t
  | bind _ _ parameters => parameters.length ≤ 32767
  | execute _ maxRows => FitsInt32 maxRows
  | _ => True

theorem bind_eq_ok {α β : Type} {x : Except Error α} {f : α → Except Error β} {b : β}
    (h : (x >>= f) = .ok b) : ∃ a, x = .ok a ∧ f a = .ok b := by
  cases x with
  | error e => cases h
  | ok a => exact ⟨a, rfl, h⟩

/-- A text is sent only if its octets do not end early. -/
theorem string_eq_ok {charset : Charset} {s : String} {octets : Bytes}
    (h : string charset s = .ok octets) :
    0 ∉ charset.encode s ∧ octets = charset.encode s ++ [0] := by
  unfold string at h
  simp only [] at h
  split at h
  · cases h
  · next hnone =>
      cases h
      refine ⟨fun hzero => ?_, rfl⟩
      have := List.findIdx?_eq_none_iff.1 hnone 0 hzero
      cases this

theorem encode_ne_nil {s : String} (h : s ≠ "") : Utf8.encode s ≠ [] := by
  intro hnil
  have hs := Utf8.decode?_encode s
  rw [hnil] at hs
  have hempty : Utf8.decode? [] = some "" := Utf8.decode?_encode ""
  rw [hempty] at hs
  exact h (Option.some.inj hs).symm

/-- The settings of a session are laid out one behind the other. -/
theorem pairs_eq_ok {parameters : List (String × String)} {pairs : List Bytes}
    (h : (parameters.mapM fun (name, value) => do
      return (← string .utf8 name) ++ (← string .utf8 value)) = .ok pairs) :
    pairs.flatten =
        (parameters.map fun (name, value) => (Utf8.encode name, Utf8.encode value)).flatMap
          Heard.pair ∧
      ∀ p ∈ parameters, 0 ∉ Utf8.encode p.1 ∧ 0 ∉ Utf8.encode p.2 := by
  induction parameters generalizing pairs with
  | nil =>
      cases h
      exact ⟨rfl, List.forall_mem_nil _⟩
  | cons p parameters ih =>
      rw [List.mapM_cons] at h
      obtain ⟨octets, hp, h⟩ := bind_eq_ok h
      obtain ⟨pairs, hrest, h⟩ := bind_eq_ok h
      cases h
      obtain ⟨name, hname, hp⟩ := bind_eq_ok hp
      obtain ⟨value, hvalue, hp⟩ := bind_eq_ok hp
      cases hp
      obtain ⟨hzero, rfl⟩ := string_eq_ok hname
      obtain ⟨hzero', rfl⟩ := string_eq_ok hvalue
      obtain ⟨hflatten, hzeros⟩ := ih hrest
      refine ⟨?_, List.forall_mem_cons.2 ⟨⟨hzero, hzero'⟩, hzeros⟩⟩
      rw [List.flatten_cons, hflatten]
      rfl

theorem cancelCode_eq :
    Bytes.int16 cancelRequestCode.1 ++ Bytes.int16 cancelRequestCode.2 =
      Bytes.int32 Heard.cancelCode := by
  decide

/-- What is written is laid out as the grammar has it, and can be read back if it fits. -/
theorem encode_eq {charset : Charset} {m : FrontendMessage} {octets : Bytes}
    (h : m.encode charset = .ok octets) :
    octets = (m.heard charset).encode ∧ (m.Fits → (m.heard charset).FieldsWellFormed) := by
  cases m with
  | startup parameters =>
      obtain ⟨pairs, hpairs, h⟩ := bind_eq_ok h
      cases h
      obtain ⟨hflatten, hzeros⟩ := pairs_eq_ok hpairs
      refine ⟨?_, fun hfits p hp => ?_⟩
      · rw [hflatten]
        rfl
      · obtain ⟨q, hq, rfl⟩ := List.mem_map.1 hp
        exact ⟨encode_ne_nil (hfits q hq), hzeros q hq⟩
  | terminate | password | sync | flush =>
      cases h
      exact ⟨rfl, fun _ => trivial⟩
  | sslRequest =>
      simp only [encode, pure, Except.pure, Except.ok.injEq] at h
      subst h
      refine ⟨?_, fun _ => trivial⟩
      rw [heard, Heard.encode_of_none rfl, Heard.body]
  | cancelRequest key =>
      simp only [encode, pure, Except.pure, Except.ok.injEq] at h
      subst h
      rw [cancelCode_eq]
      refine ⟨?_, id⟩
      rw [heard, Heard.encode_of_none rfl, Heard.body]
  | cleartextPassword text =>
      obtain ⟨_, htext, h⟩ := bind_eq_ok h
      cases h
      obtain ⟨-, rfl⟩ := string_eq_ok htext
      exact ⟨rfl, fun _ => trivial⟩
  | query sql =>
      obtain ⟨_, hsql, h⟩ := bind_eq_ok h
      cases h
      obtain ⟨hzero, rfl⟩ := string_eq_ok hsql
      exact ⟨rfl, fun _ => hzero⟩
  | parse statement sql types =>
      obtain ⟨_, hstatement, h⟩ := bind_eq_ok h
      obtain ⟨_, hsql, h⟩ := bind_eq_ok h
      cases h
      obtain ⟨hzero, rfl⟩ := string_eq_ok hstatement
      obtain ⟨hzero', rfl⟩ := string_eq_ok hsql
      refine ⟨?_, fun hfits => ⟨hzero, hzero', Nat.lt_of_le_of_lt hfits.1 (by decide), hfits.2⟩⟩
      simp only [heard, Heard.encode, Heard.body, Heard.counted, List.append_assoc]
      rfl
  | bind portal statement parameters =>
      obtain ⟨_, hportal, h⟩ := bind_eq_ok h
      obtain ⟨_, hstatement, h⟩ := bind_eq_ok h
      cases h
      obtain ⟨hzero, rfl⟩ := string_eq_ok hportal
      obtain ⟨hzero', rfl⟩ := string_eq_ok hstatement
      refine ⟨?_, fun hfits => ⟨hzero, hzero', ⟨by decide, List.forall_mem_nil _⟩,
        Nat.lt_of_le_of_lt hfits (by decide), by decide, List.forall_mem_nil _⟩⟩
      simp only [heard, Heard.encode, Heard.body, Heard.counted, List.append_assoc]
      rfl
  | describe kind name | close kind name =>
      obtain ⟨_, hname, h⟩ := bind_eq_ok h
      cases h
      obtain ⟨hzero, rfl⟩ := string_eq_ok hname
      exact ⟨rfl, fun _ => hzero⟩
  | execute portal maxRows =>
      obtain ⟨_, hportal, h⟩ := bind_eq_ok h
      cases h
      obtain ⟨hzero, rfl⟩ := string_eq_ok hportal
      exact ⟨rfl, fun hfits => ⟨hzero, hfits⟩⟩

theorem heard_tag (charset : Charset) (m : FrontendMessage) :
    (m.heard charset).tag?.isSome = m.isTagged := by
  cases m <;> rfl

theorem heard_wellFormed {charset : Charset} {m : FrontendMessage} {octets : Bytes}
    (hfits : m.Fits) (h : m.encode charset = .ok octets) (hsize : octets.length < 2 ^ 31) :
    (m.heard charset).WellFormed := by
  obtain ⟨rfl, hfields⟩ := encode_eq h
  refine ⟨hfields hfits, ?_⟩
  have hle : (withLength (m.heard charset).body).length ≤ (m.heard charset).encode.length := by
    rw [Heard.encode, List.length_append]
    omega
  rw [withLength, List.length_append, Bytes.length_int32] at hle
  omega

/-- A message of the client is read back: the length it declares is its own, its reader gets the
kind, every string as its octets and every item of every list, a null apart from a value without
octets, and nothing is left of it or taken from what follows. So no other message, in whatever
character set, has the same octets. -/
theorem encode_read_back {charset : Charset} {m : FrontendMessage} {octets : Bytes}
    (hfits : m.Fits) (hencode : m.encode charset = .ok octets) (hsize : octets.length < 2 ^ 31) :
    Heard.declaredLength m.isTagged octets = octets.length - m.isTagged.toNat ∧
      (∀ rest, Heard.reader m.isTagged (octets ++ rest) = .ok (m.heard charset, rest)) ∧
      ∀ (charset' : Charset) (m' : FrontendMessage), m'.Fits →
        m'.encode charset' = .ok octets → m'.heard charset' = m.heard charset := by
  have hm := heard_wellFormed hfits hencode hsize
  have hoctets := (encode_eq hencode).1
  refine ⟨?_, fun rest => ?_, fun charset' m' hfits' hencode' => ?_⟩
  · rw [hoctets, ← heard_tag charset m]
    exact Heard.declaredLength_encode hm.size
  · rw [hoctets, ← heard_tag charset m]
    exact Heard.reader_append hm rest
  · have hm' := heard_wellFormed hfits' hencode' hsize
    exact Heard.encode_injective hm' hm ((encode_eq hencode').1.symm.trans hoctets)

/-- Values that are null, that are empty and that hold zero octets, one behind the other. -/
theorem bind_read_back :
    (bind "" "S_é" [none, some [], some [0, 0, 0, 0], none, some [0x42, 0, 0xFF]]).encode .latin1 =
      .ok [0x42, 0, 0, 0, 0x2A, 0, 0x53, 0x5F, 0xE9, 0, 0, 0, 0, 5, 0xFF, 0xFF, 0xFF, 0xFF,
        0, 0, 0, 0, 0, 0, 0, 4, 0, 0, 0, 0, 0xFF, 0xFF, 0xFF, 0xFF, 0, 0, 0, 3, 0x42, 0, 0xFF,
        0, 0] ∧
    Heard.reader true ([0x42, 0, 0, 0, 0x2A, 0, 0x53, 0x5F, 0xE9, 0, 0, 0, 0, 5, 0xFF, 0xFF, 0xFF,
        0xFF, 0, 0, 0, 0, 0, 0, 0, 4, 0, 0, 0, 0, 0xFF, 0xFF, 0xFF, 0xFF, 0, 0, 0, 3, 0x42, 0, 0xFF,
        0, 0] ++ [0x53, 0, 0, 0, 4]) =
      .ok (.bind [] [0x53, 0x5F, 0xE9] []
        [none, some [], some [0, 0, 0, 0], none, some [0x42, 0, 0xFF]] [], [0x53, 0, 0, 0, 4]) :=
  have hencode := by decide
  have hread := @encode_read_back .latin1
    (.bind "" "S_é" [none, some [], some [0, 0, 0, 0], none, some [0x42, 0, 0xFF]]) _
    (by show 5 ≤ 32767; decide) hencode (by decide)
  ⟨hencode, hread.2.1 _⟩

end FrontendMessage

end PgClient
