import Mathlib.Algebra.Group.Int.Defs
import Mathlib.Algebra.Group.Nat.Defs
import Mathlib.Data.List.Induction
import PgClient.Bytes

/-!
# Words and the octets they stand for

`PgClient.Bytes` shows that a number written as a word is read back. Here is
the other direction, which is what a reader of messages needs: a word of the
right width is the written form of the number it stands for, so a length field
that reads as five can only be the four octets of a written five.
-/

namespace PgClient.Bytes

theorem toNat_lt (bs : Bytes) : toNat bs < span bs.length := by
  induction bs using List.reverseRecOn with
  | nil => decide
  | append_singleton bs b ih =>
      rw [toNat_append_singleton, List.length_append, List.length_singleton, span]
      have hb : b.toNat < 256 := b.toNat_lt
      omega

theorem ofNat_toNat (bs : Bytes) : ofNat bs.length (toNat bs) = bs := by
  induction bs using List.reverseRecOn with
  | nil => rfl
  | append_singleton bs b ih =>
      have hb : b.toNat < 256 := b.toNat_lt
      have hdiv : (toNat bs * 256 + b.toNat) / 256 = toNat bs := by omega
      have hlow : UInt8.ofNat (toNat bs * 256 + b.toNat) = b := by
        apply UInt8.toNat_inj.1
        rw [UInt8.toNat_ofNat']
        omega
      rw [toNat_append_singleton, List.length_append, List.length_singleton, ofNat, hdiv, ih, hlow]

/-- A word is the written form of the integer it stands for. -/
theorem ofInt_toInt (bs : Bytes) : ofInt bs.length (toInt bs) = bs := by
  have hlt := toNat_lt bs
  have hmod : toInt bs % (span bs.length : Int) = (toNat bs : Int) := by
    rw [toInt, Int.bmod_emod]
    exact Int.emod_eq_of_lt (Int.natCast_nonneg _) (by exact_mod_cast hlt)
  rw [ofInt, hmod, Int.toNat_natCast, ofNat_toNat]

/-- Of a size that does not fit its word, the low-order part is left. -/
theorem toNat_ofInt (width n : Nat) : toNat (ofInt width (n : Int)) = n % span width := by
  rw [ofInt, toNat_ofNat]
  have hmod : ((n : Int) % (span width : Int)).toNat = n % span width := by
    rw [← Int.natCast_emod, Int.toNat_natCast]
  rw [hmod, Nat.mod_mod]

theorem int32_toInt {bs : Bytes} (h : bs.length = 4) : int32 (toInt bs) = bs := by
  rw [int32, ← h, ofInt_toInt]

theorem length_int32 (i : Int) : (int32 i).length = 4 := length_ofInt 4 i

theorem length_int16 (i : Int) : (int16 i).length = 2 := length_ofInt 2 i

/-- A signed number of 32 bits survives the journey over the wire. -/
theorem toInt_int32 {i : Int} (hlo : -2 ^ 31 ≤ i) (hhi : i < 2 ^ 31) : toInt (int32 i) = i := by
  rw [int32, toInt_ofInt, show span 4 = 4294967296 from rfl]
  apply Int.bmod_eq_of_le <;> simp <;> omega

/-- A signed number of 16 bits survives the journey over the wire. -/
theorem toInt_int16 {i : Int} (hlo : -2 ^ 15 ≤ i) (hhi : i < 2 ^ 15) : toInt (int16 i) = i := by
  rw [int16, toInt_ofInt, show span 2 = 65536 from rfl]
  apply Int.bmod_eq_of_le <;> simp <;> omega

end PgClient.Bytes
