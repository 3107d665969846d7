/-!
# Octets and big-endian words

Everything on the wire is a list of octets. Integers travel in network byte order and in two's
complement, so a word of `width` octets carries an integer modulo `256 ^ width`: `ofInt` keeps the
low-order part of a number that does not fit, and `toInt` reads the representative nearest to
zero. The two are inverse to each other on the numbers that fit.
-/

namespace PgClient

/-- A run of octets, first one first. -/
abbrev Bytes := List UInt8

namespace Bytes

/-- The `width` low-order base-256 digits of `n`, most significant first. -/
def ofNat : Nat → Nat → Bytes
  | 0, _ => []
  | width + 1, n => ofNat width (n / 256) ++ [UInt8.ofNat n]

/-- The number whose base-256 digits are these, most significant first. -/
def toNat (bs : Bytes) : Nat :=
  bs.foldl (fun n b => n * 256 + b.toNat) 0

/-- How many numbers a word of `width` octets tells apart. -/
def span : Nat → Nat
  | 0 => 1
  | width + 1 => span width * 256

/-- A signed integer as a word of `width` octets; what does not fit is cut off on the left. -/
def ofInt (width : Nat) (i : Int) : Bytes :=
  ofNat width (i % (span width : Int)).toNat

/-- The signed integer a word stands for. -/
def toInt (bs : Bytes) : Int :=
  Int.bmod bs.toNat (span bs.length)

/-- A signed integer as two octets. -/
def int16 (i : Int) : Bytes :=
  ofInt 2 i

/-- A signed integer as four octets. -/
def int32 (i : Int) : Bytes :=
  ofInt 4 i

/-- The digit of a value below 16, in lower case. -/
def hexDigit (n : Nat) : Char :=
  if n < 10 then Char.ofNat ('0'.toNat + n) else Char.ofNat ('a'.toNat + (n - 10))

/-- Two lower-case hexadecimal digits per octet. -/
def toHex (bs : Bytes) : String :=
  String.ofList (bs.flatMap fun b => [hexDigit (b.toNat / 16), hexDigit (b.toNat % 16)])

theorem length_ofNat (width n : Nat) : (ofNat width n).length = width := by
  induction width generalizing n with
  | zero => rfl
  | succ width ih => simp [ofNat, ih]

theorem length_ofInt (width : Nat) (i : Int) : (ofInt width i).length = width :=
  length_ofNat _ _

theorem toNat_append_singleton (bs : Bytes) (b : UInt8) :
    toNat (bs ++ [b]) = toNat bs * 256 + b.toNat := by
  simp [toNat, List.foldl_append]

theorem span_pos (width : Nat) : 0 < span width := by
  induction width with
  | zero => decide
  | succ width ih => exact Nat.mul_pos ih (by decide)

/-- Writing a number in `width` digits keeps it modulo `256 ^ width`. -/
theorem toNat_ofNat (width n : Nat) : toNat (ofNat width n) = n % span width := by
  induction width generalizing n with
  | zero => simp [ofNat, toNat, span, Nat.mod_one]
  | succ width ih =>
    have octet : (UInt8.ofNat n).toNat = n % 256 := by simp
    rw [ofNat, toNat_append_singleton, ih, octet, span, Nat.mul_comm (span width) 256, Nat.mod_mul]
    omega

/-- A word reads back as the signed representative of the number written. -/
theorem toInt_ofInt (width : Nat) (i : Int) : toInt (ofInt width i) = Int.bmod i (span width) := by
  have hpos : (0 : Int) < (span width : Int) := Int.natCast_pos.2 (span_pos width)
  have hlt : (i % (span width : Int)).toNat < span width := by
    have := Int.emod_lt_of_pos i hpos
    have := Int.emod_nonneg i (Int.ne_of_gt hpos)
    omega
  rw [toInt, length_ofInt, ofInt, toNat_ofNat, Nat.mod_eq_of_lt hlt,
    Int.toNat_of_nonneg (Int.emod_nonneg i (Int.ne_of_gt hpos)), Int.emod_bmod]

end Bytes

end PgClient
