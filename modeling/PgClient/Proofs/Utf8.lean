import PgClient.Text.Utf8

/-!
# Reading back what was written as UTF-8

The first octet of a character tells how many follow and carries its highest bits; each octet
that follows carries six more. Reading is therefore the same argument for each of the four
lengths: the first octet announces the others (`lead?_ofNat`), each of these is in the range it
has to be in (`finish_ofNat`), and the bits add up to the number of the character.
-/

namespace PgClient.Utf8

/-- What an octet announces, in terms of its number. -/
theorem lead?_ofNat {n : Nat} (h : n < 256) :
    lead? (UInt8.ofNat n) =
      if n ≤ 0x7F then some ⟨n, []⟩
      else if 0xC2 ≤ n ∧ n ≤ 0xDF then some ⟨n - 0xC0, [tail]⟩
      else if n = 0xE0 then some ⟨0, [(0xA0, 0xBF), tail]⟩
      else if n = 0xED then some ⟨0xD, [(0x80, 0x9F), tail]⟩
      else if 0xE1 ≤ n ∧ n ≤ 0xEF then some ⟨n - 0xE0, [tail, tail]⟩
      else if n = 0xF0 then some ⟨0, [(0x90, 0xBF), tail, tail]⟩
      else if n = 0xF4 then some ⟨4, [(0x80, 0x8F), tail, tail]⟩
      else if 0xF1 ≤ n ∧ n ≤ 0xF3 then some ⟨n - 0xF0, [tail, tail, tail]⟩
      else none := by
  unfold lead?
  simp only [UInt8.le_iff_toNat_le, ← UInt8.toNat_inj, UInt8.toNat_ofNat_of_lt' h,
    UInt8.reduceToNat]

/-- An octet in its range adds six bits. -/
theorem finish_ofNat {m : Nat} (h : m < 64) {low high : UInt8} (hlow : low.toNat ≤ m + 0x80)
    (hhigh : m + 0x80 ≤ high.toNat) (bits : Nat) (owed : List (UInt8 × UInt8)) (rest : Bytes) :
    finish bits ((low, high) :: owed) (UInt8.ofNat (m + 0x80) :: rest) =
      finish (bits * 64 + m) owed rest := by
  have hnat : (UInt8.ofNat (m + 0x80)).toNat = m + 0x80 :=
    UInt8.toNat_ofNat_of_lt' (by show m + 0x80 < 256; omega)
  rw [finish, if_pos ⟨UInt8.le_iff_toNat_le.2 (by omega), UInt8.le_iff_toNat_le.2 (by omega)⟩, hnat,
    Nat.add_sub_cancel]

theorem finish_tail {m : Nat} (h : m < 64) (bits : Nat) (owed : List (UInt8 × UInt8))
    (rest : Bytes) :
    finish bits (tail :: owed) (UInt8.ofNat (m + 0x80) :: rest) =
      finish (bits * 64 + m) owed rest :=
  finish_ofNat h (show 0x80 ≤ _ by omega) (show _ ≤ 0xBF by omega) bits owed rest

theorem decode_of_scan {b : UInt8} {l : Lead} {rest rest' : Bytes} {v : Nat}
    (hlead : lead? b = some l) (hscan : finish l.bits l.owed rest = (some v, rest')) :
    decode (b :: rest) = some (Char.ofNat v) :: decode rest' := by
  rw [decode]
  simp only [hlead]
  rw [hscan]
  rfl

/-! ## Characters of two, three and four octets -/

variable {n m m' m'' : Nat} (rest : Bytes)

theorem decode_two (hn : 0xC2 ≤ n ∧ n ≤ 0xDF) (hm : m < 64) :
    decode (UInt8.ofNat n :: UInt8.ofNat (m + 0x80) :: rest) =
      some (Char.ofNat ((n - 0xC0) * 64 + m)) :: decode rest := by
  have hlead := lead?_ofNat (n := n) (by omega)
  rw [if_neg (by omega), if_pos hn] at hlead
  refine decode_of_scan hlead ?_
  rw [finish_tail hm]
  rfl

theorem decode_three (hn : 0xE0 ≤ n ∧ n ≤ 0xEF) (hm : m < 64) (hm' : m' < 64)
    (hshort : n = 0xE0 → 0x20 ≤ m) (hsurrogate : n = 0xED → m < 0x20) :
    decode (UInt8.ofNat n :: UInt8.ofNat (m + 0x80) :: UInt8.ofNat (m' + 0x80) :: rest) =
      some (Char.ofNat (((n - 0xE0) * 64 + m) * 64 + m')) :: decode rest := by
  have hlead := lead?_ofNat (n := n) (by omega)
  rw [if_neg (by omega), if_neg (by omega)] at hlead
  by_cases hlow : n = 0xE0
  · have := hshort hlow
    subst hlow
    rw [if_pos rfl] at hlead
    refine decode_of_scan hlead ?_
    rw [finish_ofNat hm (show 0xA0 ≤ _ by omega) (show _ ≤ 0xBF by omega), finish_tail hm']
    rfl
  · rw [if_neg hlow] at hlead
    by_cases hhigh : n = 0xED
    · have := hsurrogate hhigh
      subst hhigh
      rw [if_pos rfl] at hlead
      refine decode_of_scan hlead ?_
      rw [finish_ofNat hm (show 0x80 ≤ _ by omega) (show _ ≤ 0x9F by omega), finish_tail hm']
      rfl
    · rw [if_neg hhigh, if_pos (by omega)] at hlead
      refine decode_of_scan hlead ?_
      rw [finish_tail hm, finish_tail hm']
      rfl

theorem decode_four (hn : 0xF0 ≤ n ∧ n ≤ 0xF4) (hm : m < 64) (hm' : m' < 64) (hm'' : m'' < 64)
    (hshort : n = 0xF0 → 0x10 ≤ m) (hlong : n = 0xF4 → m < 0x10) :
    decode (UInt8.ofNat n :: UInt8.ofNat (m + 0x80) :: UInt8.ofNat (m' + 0x80) ::
        UInt8.ofNat (m'' + 0x80) :: rest) =
      some (Char.ofNat ((((n - 0xF0) * 64 + m) * 64 + m') * 64 + m'')) :: decode rest := by
  have hlead := lead?_ofNat (n := n) (by omega)
  rw [if_neg (by omega), if_neg (by omega), if_neg (by omega), if_neg (by omega),
    if_neg (by omega)] at hlead
  by_cases hlow : n = 0xF0
  · have := hshort hlow
    subst hlow
    rw [if_pos rfl] at hlead
    refine decode_of_scan hlead ?_
    rw [finish_ofNat hm (show 0x90 ≤ _ by omega) (show _ ≤ 0xBF by omega), finish_tail hm',
      finish_tail hm'']
    rfl
  · rw [if_neg hlow] at hlead
    by_cases hhigh : n = 0xF4
    · have := hlong hhigh
      subst hhigh
      rw [if_pos rfl] at hlead
      refine decode_of_scan hlead ?_
      rw [finish_ofNat hm (show 0x80 ≤ _ by omega) (show _ ≤ 0x8F by omega), finish_tail hm',
        finish_tail hm'']
      rfl
    · rw [if_neg hhigh, if_pos (by omega)] at hlead
      refine decode_of_scan hlead ?_
      rw [finish_tail hm, finish_tail hm', finish_tail hm'']
      rfl

/-! ## Texts -/

/-- A character is read back, whatever follows it. -/
theorem decode_char (c : Char) :
    decode (String.utf8EncodeChar c ++ rest) = some c :: decode rest := by
  have hvalid : c.val.toNat < 0xD800 ∨ 0xDFFF < c.val.toNat ∧ c.val.toNat < 0x110000 := c.valid
  have hchar : Char.ofNat c.val.toNat = c := Char.ofNat_toNat c
  unfold String.utf8EncodeChar
  simp only []
  generalize c.val.toNat = v at *
  rw [← hchar]
  split
  · have hlead := lead?_ofNat (n := v) (by omega)
    rw [if_pos (by omega)] at hlead
    exact decode_of_scan hlead rfl
  · split
    · refine (decode_two rest (by omega) (by omega)).trans ?_
      rw [show (v / 64 % 0x20 + 0xC0 - 0xC0) * 64 + v % 0x40 = v by omega]
    · split
      · refine (decode_three rest (by omega) (by omega) (by omega) (by omega) (by omega)).trans ?_
        rw [show ((v / 4096 % 0x10 + 0xE0 - 0xE0) * 64 + v / 64 % 0x40) * 64 + v % 0x40 = v by
          omega]
      · refine (decode_four rest (by omega) (by omega) (by omega) (by omega) (by omega)
          (by omega)).trans ?_
        rw [show (((v / 262144 % 0x08 + 0xF0 - 0xF0) * 64 + v / 4096 % 0x40) * 64 + v / 64 % 0x40) *
          64 + v % 0x40 = v by omega]

theorem decode_encode (s : String) : decode (encode s) = s.toList.map some := by
  unfold encode
  induction s.toList with
  | nil => simp [decode]
  | cons c cs ih => rw [List.flatMap_cons, decode_char, ih, List.map_cons]

/-- A text that was written as UTF-8 is read back. -/
theorem decodeLossy_encode (s : String) : decodeLossy (encode s) = s := by
  unfold decodeLossy
  rw [decode_encode, List.map_map]
  exact (congrArg String.ofList (List.map_id _)).trans String.ofList_toList

theorem decode?_encode (s : String) : decode? (encode s) = some s := by
  have hall : (decode (encode s)).all Option.isSome = true := by
    rw [decode_encode, List.all_map]
    exact List.all_eq_true.2 fun _ _ => rfl
  unfold decode?
  rw [if_pos hall]
  exact congrArg some (decodeLossy_encode s)

/-- Different texts are written differently. -/
theorem encode_inj {s t : String} (h : encode s = encode t) : s = t := by
  rw [← decodeLossy_encode s, h, decodeLossy_encode]

end PgClient.Utf8
