import PgClient.Text.Charset

/-!
# Texts on the wire

A string on the wire ends at its first zero octet. Under every character set a
zero octet stands for the zero character and for nothing else, so whether a text
can be sent at all does not depend on the set, and reading back the name of a
setting or the letter of a status is a matter of single octets.
-/

namespace PgClient

/-- The number of a character. -/
theorem val_charOfNat {n : Nat} (h : n < 0xD800 ∨ 0xDFFF < n ∧ n < 0x110000) :
    (Char.ofNat n).val.toNat = n := by
  have hvalid : n.isValidChar := h
  unfold Char.ofNat
  rw [dif_pos hvalid]
  rfl

theorem toNat_charOfNat {n : Nat} (h : n < 0xD800) : (Char.ofNat n).toNat = n :=
  val_charOfNat (.inl h)

/-- Different octets are shown as different characters. -/
theorem charOfNat_toNat_inj {b c : UInt8} (h : Char.ofNat b.toNat = Char.ofNat c.toNat) :
    b = c := by
  have hb := b.toNat_lt
  have hc := c.toNat_lt
  have := congrArg Char.toNat h
  rw [toNat_charOfNat (by omega), toNat_charOfNat (by omega)] at this
  exact UInt8.toNat_inj.1 this

theorem octet_ne_zero {n : Nat} (h : n % 256 ≠ 0) : UInt8.ofNat n ≠ 0 := by
  intro h0
  have := congrArg UInt8.toNat h0
  rw [UInt8.toNat_ofNat'] at this
  exact h this

theorem char_toNat_ne_zero {c : Char} (h : c ≠ '\x00') : c.toNat ≠ 0 := by
  intro h0
  have hval : c.val.toNat = ('\x00' : Char).val.toNat := h0
  exact h (Char.ext (UInt32.toNat_inj.1 hval))

theorem utf8EncodeChar_zero_free {c : Char} (h : c ≠ '\x00') : 0 ∉ String.utf8EncodeChar c := by
  have hpos : c.val.toNat ≠ 0 := char_toNat_ne_zero h
  unfold String.utf8EncodeChar
  simp only []
  split
  · have : UInt8.ofNat c.val.toNat ≠ 0 := octet_ne_zero (by omega)
    simpa using this.symm
  · split
    · intro hm
      simp only [List.mem_cons, List.not_mem_nil, or_false] at hm
      rcases hm with hm | hm <;> exact octet_ne_zero (by omega) hm.symm
    · split
      · intro hm
        simp only [List.mem_cons, List.not_mem_nil, or_false] at hm
        rcases hm with hm | hm | hm <;> exact octet_ne_zero (by omega) hm.symm
      · intro hm
        simp only [List.mem_cons, List.not_mem_nil, or_false] at hm
        rcases hm with hm | hm | hm | hm <;> exact octet_ne_zero (by omega) hm.symm

/-- A text without a zero character has no zero octet, whatever the set. -/
theorem Charset.encode_zero_free (charset : Charset) {s : String} (h : '\x00' ∉ s.toList) :
    0 ∉ charset.encode s := by
  have hutf8 : 0 ∉ Utf8.encode s := by
    intro hm
    obtain ⟨c, hc, hz⟩ := List.mem_flatMap.1 hm
    exact utf8EncodeChar_zero_free (fun h0 => h (h0 ▸ hc)) hz
  have hpos : ∀ c ∈ s.toList, c.toNat ≠ 0 :=
    fun c hc => char_toNat_ne_zero fun h0 => h (h0 ▸ hc)
  cases charset with
  | utf8 => exact hutf8
  | other name => exact hutf8
  | latin1 =>
      intro hm
      obtain ⟨c, hc, hz⟩ := List.mem_map.1 hm
      split at hz
      · exact octet_ne_zero (by have := hpos c hc; omega) hz
      · cases hz
  | ascii =>
      intro hm
      obtain ⟨c, hc, hz⟩ := List.mem_map.1 hm
      split at hz
      · exact octet_ne_zero (by have := hpos c hc; omega) hz
      · cases hz

end PgClient
