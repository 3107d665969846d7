import PgClient.Proofs.Channel
import PgClient.Proofs.Text
import PgClient.Proofs.Utf8

/-!
# What survives reading and writing

A character set turns texts into octets and octets into texts, and neither direction ever fails, so
what it has no form for is replaced. Each direction undoes the other exactly where nothing was
replaced, and that is told here for every set: by the octets or the characters that it has.

For UTF-8 these octets are those that spell a text (`Utf8.IsText`). That every text is read back is
known; the other half is that whatever is read as a text without a replacement was the spelling of
it, so there is no second one (`encode_of_finish`). Hence the octets of a report can be told apart
for good: those that spell a text are shown as it, and all others one by one.
-/

namespace PgClient

namespace Utf8

variable {b b₁ b₂ b₃ : UInt8} {rest rest' octets : Bytes} {v : Nat}

/-! ## One spelling for each text -/

theorem ofNat_eq {n : Nat} (h : n = b.toNat) : UInt8.ofNat n = b := by
  rw [h, UInt8.ofNat_toNat]

theorem spell_one (h : b.toNat ≤ 0x7F) : String.utf8EncodeChar (Char.ofNat b.toNat) = [b] := by
  unfold String.utf8EncodeChar
  simp only [val_charOfNat (n := b.toNat) (by omega)]
  rw [if_pos h, ofNat_eq rfl]

/-- An octet that continues a character. -/
def IsTail (b : UInt8) : Prop :=
  0x80 ≤ b.toNat ∧ b.toNat ≤ 0xBF

theorem spell_two {bits : Nat} (h : b.toNat = 0xC0 + bits) (hbits : 2 ≤ bits ∧ bits ≤ 0x1F)
    (h₁ : IsTail b₁) :
    String.utf8EncodeChar (Char.ofNat (bits * 64 + (b₁.toNat - 0x80))) = [b, b₁] := by
  obtain ⟨hlow, hhigh⟩ := h₁
  generalize hv : bits * 64 + (b₁.toNat - 0x80) = v
  unfold String.utf8EncodeChar
  simp only [val_charOfNat (n := v) (by omega)]
  rw [if_neg (by omega), if_pos (by omega), ofNat_eq (b := b) (by omega),
    ofNat_eq (b := b₁) (by omega)]

/-- Neither is there a shorter spelling, nor is the character a surrogate. -/
theorem spell_three {bits : Nat} (h : b.toNat = 0xE0 + bits) (hbits : bits ≤ 0xF)
    (h₁ : IsTail b₁) (h₂ : IsTail b₂) (hshort : bits = 0 → 0xA0 ≤ b₁.toNat)
    (hsurrogate : bits = 0xD → b₁.toNat ≤ 0x9F) :
    String.utf8EncodeChar (Char.ofNat
      ((bits * 64 + (b₁.toNat - 0x80)) * 64 + (b₂.toNat - 0x80))) = [b, b₁, b₂] := by
  obtain ⟨⟨hlow, hhigh⟩, hlow', hhigh'⟩ := And.intro h₁ h₂
  generalize hv : (bits * 64 + (b₁.toNat - 0x80)) * 64 + (b₂.toNat - 0x80) = v
  unfold String.utf8EncodeChar
  simp only [val_charOfNat (n := v) (by omega)]
  rw [if_neg (by omega), if_neg (by omega), if_pos (by omega), ofNat_eq (b := b) (by omega),
    ofNat_eq (b := b₁) (by omega), ofNat_eq (b := b₂) (by omega)]

/-- Neither is there a shorter spelling, nor does the number exceed that of the last character. -/
theorem spell_four {bits : Nat} (h : b.toNat = 0xF0 + bits) (hbits : bits ≤ 4) (h₁ : IsTail b₁)
    (h₂ : IsTail b₂) (h₃ : IsTail b₃) (hshort : bits = 0 → 0x90 ≤ b₁.toNat)
    (hlong : bits = 4 → b₁.toNat ≤ 0x8F) :
    String.utf8EncodeChar (Char.ofNat
      (((bits * 64 + (b₁.toNat - 0x80)) * 64 + (b₂.toNat - 0x80)) * 64 + (b₃.toNat - 0x80))) =
        [b, b₁, b₂, b₃] := by
  obtain ⟨⟨hlow, hhigh⟩, ⟨hlow', hhigh'⟩, hlow'', hhigh''⟩ := And.intro h₁ (And.intro h₂ h₃)
  generalize hv : ((bits * 64 + (b₁.toNat - 0x80)) * 64 + (b₂.toNat - 0x80)) * 64 +
    (b₃.toNat - 0x80) = v
  unfold String.utf8EncodeChar
  simp only [val_charOfNat (n := v) (by omega)]
  rw [if_neg (by omega), if_neg (by omega), if_neg (by omega), ofNat_eq (b := b) (by omega),
    ofNat_eq (b := b₁) (by omega), ofNat_eq (b := b₂) (by omega), ofNat_eq (b := b₃) (by omega)]

/-- An octet that was owed came, and in its range. -/
theorem finish_owed {bits : Nat} {low high : UInt8} {owed : List (UInt8 × UInt8)}
    (h : finish bits ((low, high) :: owed) rest = (some v, rest')) :
    ∃ b more, rest = b :: more ∧ (low.toNat ≤ b.toNat ∧ b.toNat ≤ high.toNat) ∧
      finish (bits * 64 + (b.toNat - 0x80)) owed more = (some v, rest') := by
  cases rest with
  | nil => cases h
  | cons b more =>
      rw [finish] at h
      split at h
      · next hrange =>
          exact ⟨b, more, rfl, ⟨UInt8.le_iff_toNat_le.1 hrange.1, UInt8.le_iff_toNat_le.1 hrange.2⟩,
            h⟩
      · cases h

theorem finish_done {bits : Nat} (h : finish bits [] rest = (some v, rest')) :
    v = bits ∧ rest' = rest := by
  rw [finish] at h
  obtain ⟨hv, hrest⟩ := Prod.mk.inj h
  exact ⟨(Option.some.inj hv).symm, hrest.symm⟩

/-- What a first octet announces: the bits of its own, and the range of the octet that comes next,
which excludes shorter spellings, surrogates and numbers beyond the last character. -/
inductive Announces (b : UInt8) : Lead → Prop where
  | one (h : b.toNat ≤ 0x7F) : Announces b ⟨b.toNat, []⟩
  | two {bits : Nat} (h : b.toNat = 0xC0 + bits) (hbits : 2 ≤ bits ∧ bits ≤ 0x1F) :
    Announces b ⟨bits, [tail]⟩
  | three {bits : Nat} {low high : UInt8} (h : b.toNat = 0xE0 + bits) (hbits : bits ≤ 0xF)
    (hrange : 0x80 ≤ low.toNat ∧ high.toNat ≤ 0xBF) (hshort : bits = 0 → 0xA0 ≤ low.toNat)
    (hsurrogate : bits = 0xD → high.toNat ≤ 0x9F) : Announces b ⟨bits, [(low, high), tail]⟩
  | four {bits : Nat} {low high : UInt8} (h : b.toNat = 0xF0 + bits) (hbits : bits ≤ 4)
    (hrange : 0x80 ≤ low.toNat ∧ high.toNat ≤ 0xBF) (hshort : bits = 0 → 0x90 ≤ low.toNat)
    (hlong : bits = 4 → high.toNat ≤ 0x8F) : Announces b ⟨bits, [(low, high), tail, tail]⟩

theorem announces_of_lead? {l : Lead} (h : lead? b = some l) : Announces b l := by
  have hlead := lead?_ofNat b.toNat_lt
  rw [UInt8.ofNat_toNat, h] at hlead
  -- The cases are those of the definition, in its order.
  split at hlead
  · next hone =>
      obtain rfl := Option.some.inj hlead
      exact .one hone
  split at hlead
  · next htwo =>
      obtain rfl := Option.some.inj hlead
      exact .two (by omega) (by omega)
  split at hlead
  · next hE0 =>
      obtain rfl := Option.some.inj hlead
      exact .three hE0 (by decide) (by decide) (by decide) (by decide)
  split at hlead
  · next hED =>
      obtain rfl := Option.some.inj hlead
      exact .three hED (by decide) (by decide) (by decide) (by decide)
  split at hlead
  · next hthree =>
      obtain rfl := Option.some.inj hlead
      exact .three (by omega) (by omega) (by decide) (by omega) (by omega)
  split at hlead
  · next hF0 =>
      obtain rfl := Option.some.inj hlead
      exact .four hF0 (by decide) (by decide) (by decide) (by decide)
  split at hlead
  · next hF4 =>
      obtain rfl := Option.some.inj hlead
      exact .four hF4 (by decide) (by decide) (by decide) (by decide)
  split at hlead
  · next hfour =>
      obtain rfl := Option.some.inj hlead
      exact .four (by omega) (by omega) (by decide) (by omega) (by omega)
  · cases hlead

/-- A character that was read is spelled by the octets it was read from. -/
theorem encode_of_finish {l : Lead} (hlead : lead? b = some l)
    (hscan : finish l.bits l.owed rest = (some v, rest')) :
    String.utf8EncodeChar (Char.ofNat v) ++ rest' = b :: rest := by
  cases announces_of_lead? hlead with
  | one h =>
      obtain ⟨hv, hrest⟩ := finish_done hscan
      rw [hv, hrest, spell_one h]
      rfl
  | two h hbits =>
      obtain ⟨b₁, _, rfl, h₁, hend⟩ := finish_owed hscan
      obtain ⟨hv, hrest⟩ := finish_done hend
      rw [hv, hrest, spell_two h hbits h₁]
      rfl
  | three h hbits hrange hshort hsurrogate =>
      obtain ⟨b₁, _, rfl, h₁, hmore⟩ := finish_owed hscan
      obtain ⟨b₂, _, rfl, h₂, hend⟩ := finish_owed hmore
      obtain ⟨hv, hrest⟩ := finish_done hend
      rw [hv, hrest, spell_three h hbits ⟨by omega, by omega⟩ h₂ (by omega) (by omega)]
      rfl
  | four h hbits hrange hshort hlong =>
      obtain ⟨b₁, _, rfl, h₁, hmore⟩ := finish_owed hscan
      obtain ⟨b₂, _, rfl, h₂, hmore'⟩ := finish_owed hmore
      obtain ⟨b₃, _, rfl, h₃, hend⟩ := finish_owed hmore'
      obtain ⟨hv, hrest⟩ := finish_done hend
      rw [hv, hrest, spell_four h hbits ⟨by omega, by omega⟩ h₂ h₃ (by omega) (by omega)]
      rfl

/-- What was read without a replacement is spelled by the octets it was read from. -/
theorem encode_decode (octets : Bytes) (h : (decode octets).all Option.isSome = true) :
    ((decode octets).map (·.getD '\uFFFD')).flatMap String.utf8EncodeChar = octets := by
  -- An octet that begins no character leaves none behind, so each scan found a character.
  fun_induction decode octets with
  | case1 => rfl
  | case2 b rest hlead ih => cases h
  | case3 b rest l hlead scan ih =>
      obtain ⟨hfirst, hrest⟩ := Bool.and_eq_true_iff.1 h
      obtain ⟨v, hv⟩ : ∃ v, scan.1 = some v :=
        Option.isSome_iff_exists.1 (Option.isSome_map.symm.trans hfirst)
      have hscan : finish l.bits l.owed rest = (some v, scan.2) := Prod.ext hv rfl
      rw [List.map_cons, List.flatMap_cons, ih hrest, hv]
      exact encode_of_finish hlead hscan

/-- The octets spell a text. -/
def IsText (octets : Bytes) : Prop :=
  octets.toByteArray.IsValidUTF8

theorem isText_iff : IsText octets ↔ ∃ text, encode text = octets := by
  constructor
  · rintro ⟨chars, h⟩
    refine ⟨String.ofList chars, ?_⟩
    rw [encode, String.toList_ofList]
    exact (List.toByteArray_inj.1 h).symm
  · rintro ⟨text, rfl⟩
    exact ⟨text.toList, rfl⟩

theorem decode?_eq_some {text : String} : decode? octets = some text ↔ encode text = octets := by
  refine ⟨fun h => ?_, fun h => h ▸ decode?_encode text⟩
  unfold decode? at h
  split at h
  · next hall =>
      obtain rfl := Option.some.inj h
      rw [encode, String.toList_ofList]
      exact encode_decode octets hall
  · cases h

theorem decode?_eq_none : decode? octets = none ↔ ¬ IsText octets := by
  rw [Option.eq_none_iff_forall_ne_some, isText_iff]
  exact ⟨fun h ⟨text, ht⟩ => h text (decode?_eq_some.2 ht),
    fun h text ht => h ⟨text, decode?_eq_some.1 ht⟩⟩

instance (octets : Bytes) : Decidable (IsText octets) :=
  decidable_of_iff (decode? octets ≠ none) (not_congr decode?_eq_none |>.trans not_not)

end Utf8

namespace Charset

/-! ## Sets of one octet for each character -/

/-- How many characters a set has, if each of them is one octet. -/
def size? : Charset → Option Nat
  | latin1 => some 0x100
  | ascii => some 0x80
  | utf8 | other _ => none

/-- The character of an octet. -/
def glyph (size : Nat) (b : UInt8) : Char :=
  if b.toNat < size then Char.ofNat b.toNat else '\uFFFD'

/-- The octet of a character. -/
def octet (size : Nat) (c : Char) : UInt8 :=
  if c.toNat < size then UInt8.ofNat c.toNat else 0x3F

variable {charset : Charset} {size : Nat}

theorem decode_eq_map (h : charset.size? = some size) (bs : Bytes) :
    charset.decode bs = String.ofList (bs.map (glyph size)) := by
  cases charset with
  | latin1 =>
      cases h
      refine congrArg String.ofList (List.map_congr_left fun b _ => ?_)
      rw [glyph, if_pos b.toNat_lt]
  | ascii =>
      cases h
      rfl
  | utf8 | other => cases h

theorem encode_eq_map (h : charset.size? = some size) (s : String) :
    charset.encode s = s.toList.map (octet size) := by
  cases charset with
  | latin1 =>
      cases h
      refine List.map_congr_left fun c _ => ?_
      exact if_congr Nat.lt_succ_iff.symm rfl rfl
  | ascii =>
      cases h
      rfl
  | utf8 | other => cases h

theorem size_range (h : charset.size? = some size) : 0x3F < size ∧ size ≤ 0x100 := by
  cases charset with
  | latin1 | ascii => cases h; decide
  | utf8 | other => cases h

theorem octet_glyph (hsize : 0x3F < size ∧ size ≤ 0x100) (b : UInt8) :
    octet size (glyph size b) = b ↔ b.toNat < size := by
  have hb := b.toNat_lt
  unfold glyph
  split
  · next h =>
      have hnat : (Char.ofNat b.toNat).toNat = b.toNat := toNat_charOfNat (by omega)
      simp only [octet, hnat, h, if_true, UInt8.ofNat_toNat]
  · next h =>
      -- U+FFFD is written as a question mark, which is an octet of the set, and b is none.
      rw [octet, if_neg (by show ¬ 0xFFFD < size; omega)]
      refine iff_of_false ?_ h
      rintro rfl
      exact h (by show 0x3F < size; omega)

theorem glyph_octet (hsize : 0x3F < size ∧ size ≤ 0x100) (c : Char) :
    glyph size (octet size c) = c ↔ c.toNat < size := by
  unfold octet
  split
  · next h =>
      have hnat : (UInt8.ofNat c.toNat).toNat = c.toNat :=
        UInt8.toNat_ofNat_of_lt' (show c.toNat < 256 by omega)
      simp only [glyph, hnat, h, if_true, Char.ofNat_toNat]
  · next h =>
      rw [glyph, if_pos (by show 0x3F < size; omega)]
      refine iff_of_false ?_ h
      rintro rfl
      exact h (by show 0x3F < size; omega)

theorem map_eq_self {α : Type} {f : α → α} {l : List α} : l.map f = l ↔ ∀ x ∈ l, f x = x := by
  conv_lhs => rhs; rw [← List.map_id l]
  exact List.map_inj_left

/-- Octets come back from reading exactly if each of them stands for a character. -/
theorem encode_decode_iff (h : charset.size? = some size) (bs : Bytes) :
    charset.encode (charset.decode bs) = bs ↔ ∀ b ∈ bs, b.toNat < size := by
  rw [decode_eq_map h, encode_eq_map h, String.toList_ofList, List.map_map, map_eq_self]
  exact forall₂_congr fun b _ => octet_glyph (size_range h) b

/-- A text comes back from writing exactly if the set has all its characters. -/
theorem decode_encode_iff (h : charset.size? = some size) (s : String) :
    charset.decode (charset.encode s) = s ↔ ∀ c ∈ s.toList, c.toNat < size := by
  have hback : charset.decode (charset.encode s) = s ↔
      (s.toList.map (octet size)).map (glyph size) = s.toList := by
    rw [decode_eq_map h, encode_eq_map h, ← String.toList_inj, String.toList_ofList]
  rw [hback, List.map_map, map_eq_self]
  exact forall₂_congr fun c _ => glyph_octet (size_range h) c

theorem length_decode (h : charset.size? = some size) (bs : Bytes) :
    (charset.decode bs).length = bs.length := by
  rw [decode_eq_map h, String.length_ofList, List.length_map]

theorem length_encode (h : charset.size? = some size) (s : String) :
    (charset.encode s).length = s.length := by
  rw [encode_eq_map h, List.length_map, String.length_toList]

/-! ## Sets read as UTF-8 -/

theorem decode_encode_of_utf8 (h : charset = .utf8 ∨ ∃ name, charset = .other name) (s : String) :
    charset.decode (charset.encode s) = s := by
  rcases h with rfl | ⟨name, rfl⟩ <;> exact Utf8.decodeLossy_encode s

theorem encode_decode_of_utf8 (h : charset = .utf8 ∨ ∃ name, charset = .other name) (bs : Bytes) :
    charset.encode (charset.decode bs) = bs ↔ Utf8.IsText bs := by
  have hutf8 : Utf8.encode (Utf8.decodeLossy bs) = bs ↔ Utf8.IsText bs := by
    rw [Utf8.isText_iff]
    refine ⟨fun h => ⟨_, h⟩, ?_⟩
    rintro ⟨text, rfl⟩
    rw [Utf8.decodeLossy_encode]
  rcases h with rfl | ⟨name, rfl⟩ <;> exact hutf8

/-! ## Reports -/

/-- What the octets of a report are shown as: the text they spell, or else each of them as a
character of its own, and none as a replacement. -/
structure ShownAs (body : Bytes) (text : String) : Prop where
  spelled : ∀ t, Utf8.encode t = body → text = t
  unspelled : ¬ Utf8.IsText body →
    text = latin1.decode body ∧ text.length = body.length ∧ '\uFFFD' ∉ text.toList

theorem not_mem_decode_latin1 (bs : Bytes) : '\uFFFD' ∉ (latin1.decode bs).toList := by
  rw [decode_eq_map rfl, String.toList_ofList]
  intro hm
  obtain ⟨b, -, hb⟩ := List.mem_map.1 hm
  have hlt := b.toNat_lt
  have hnat : (Char.ofNat b.toNat).toNat = b.toNat := toNat_charOfNat (by omega)
  rw [glyph, if_pos (by omega)] at hb
  rw [hb] at hnat
  exact absurd hnat (by show 0xFFFD ≠ b.toNat; omega)

theorem decodeReport_shown (body : Bytes) : ShownAs body (utf8.decodeReport body) where
  spelled t ht := by
    rw [decodeReport, Utf8.decode?_eq_some.2 ht]
    rfl
  unspelled h := by
    rw [decodeReport, Utf8.decode?_eq_none.2 h]
    have hsize : latin1.size? = some 0x100 := rfl
    exact ⟨rfl, length_decode hsize body, not_mem_decode_latin1 body⟩

end Charset

open Channel in
/-- Each direction undoes the other where nothing was replaced, and nowhere else.

UTF-8, and every set read as UTF-8, writes all texts so that they are read back, and writes back
the octets that spell a text. Latin-1 has a character for each octet and an octet for each of its
own characters, ASCII for the lower half of both. The octets of a report are shown under UTF-8 as
the text they spell, and otherwise as Latin-1, whatever comes behind them. -/
theorem charset_roundtrip :
    (∀ charset : Charset, charset = .utf8 ∨ (∃ name, charset = .other name) →
      (∀ s, charset.decode (charset.encode s) = s) ∧
      ∀ bs, charset.encode (charset.decode bs) = bs ↔ Utf8.IsText bs) ∧
    ((∀ bs, Charset.latin1.encode (Charset.latin1.decode bs) = bs) ∧
      ∀ s, Charset.latin1.decode (Charset.latin1.encode s) = s ↔ ∀ c ∈ s.toList, c.toNat ≤ 0xFF) ∧
    ((∀ bs, Charset.ascii.encode (Charset.ascii.decode bs) = bs ↔ ∀ b ∈ bs, b.toNat < 0x80) ∧
      ∀ s, Charset.ascii.decode (Charset.ascii.encode s) = s ↔ ∀ c ∈ s.toList, c.toNat < 0x80) ∧
    (∀ charset : Charset, charset = .latin1 ∨ charset = .ascii →
      (∀ bs, (charset.decode bs).length = bs.length) ∧
      ∀ s, (charset.encode s).length = s.length) ∧
    (∀ body, Charset.ShownAs body (Charset.utf8.decodeReport body)) ∧
    ∀ body : Bytes, body.length ≤ maxMessageSize →
      Yields .utf8 (receiveReportText body.length) body (Charset.utf8.decodeReport body) := by
  refine ⟨fun charset h => ⟨Charset.decode_encode_of_utf8 h, Charset.encode_decode_of_utf8 h⟩,
    ⟨fun bs => ?_, fun s => ?_⟩,
    ⟨Charset.encode_decode_iff rfl, Charset.decode_encode_iff rfl⟩, ?_,
    Charset.decodeReport_shown, fun body => yields_reportText⟩
  · exact (Charset.encode_decode_iff rfl bs).2 fun b _ => b.toNat_lt
  · have hsize : Charset.latin1.size? = some 0x100 := rfl
    rw [Charset.decode_encode_iff hsize]
    exact forall₂_congr fun c _ => Nat.lt_succ_iff
  · rintro charset (rfl | rfl)
    all_goals exact ⟨Charset.length_decode rfl, Charset.length_encode rfl⟩

/-- An accented letter in UTF-8, and a report with the same letter in Latin-1. -/
theorem charset_roundtrip_accent :
    let other := Charset.other "EUC_JP"
    let c : Channel := { socket := { inbound := [0xE9, 0x5A] }, host := default, charset := .utf8 }
    Utf8.IsText [0xC3, 0xA9] ∧ ¬ Utf8.IsText [0xE9] ∧
      other.encode (other.decode [0xC3, 0xA9]) = [0xC3, 0xA9] ∧
      (Charset.ascii.encode "é").length = 1 ∧
      ∃ c', Channel.receiveReportText 1 c = .ok "é" c' ∧ Channel.ReadsOff [0xE9] c c' := by
  intro other c
  obtain ⟨hutf8, -, -, hsingle, hshown, hreceived⟩ := charset_roundtrip
  have hletter : Utf8.IsText [0xC3, 0xA9] := by decide +kernel
  have hnone : ¬ Utf8.IsText [0xE9] := by decide +kernel
  have htext : Charset.utf8.decodeReport [0xE9] = "é" :=
    ((hshown [0xE9]).unspelled hnone).1.trans (by decide +kernel)
  refine ⟨hletter, hnone, ((hutf8 other (.inr ⟨_, rfl⟩)).2 _).2 hletter,
    (hsingle .ascii (.inr rfl)).2 "é", ?_⟩
  rw [← htext]
  exact hreceived [0xE9] (by decide) c [0x5A] rfl rfl

end PgClient
