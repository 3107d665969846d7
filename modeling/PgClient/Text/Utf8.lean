import PgClient.Bytes

/-!
# UTF-8

Writing a text as UTF-8 always succeeds. Reading does not: octets that do not spell a character
are grouped into the longest runs that still begin some character, and each such run is one
failure. `decode` keeps the failures as `none`, so the reading that replaces each of them by
U+FFFD (`decodeLossy`) and the one that refuses the text (`decode?`) are two views of one scan.
-/

namespace PgClient.Utf8

/-- The octets of a text. -/
def encode (s : String) : Bytes :=
  s.toList.flatMap String.utf8EncodeChar

/-- What the first octet of a character announces: the value bits it carries itself and the range
each of the octets still owed must lie in. -/
structure Lead where
  bits : Nat
  owed : List (UInt8 × UInt8)

/-- The range of an octet that continues a character. -/
def tail : UInt8 × UInt8 :=
  (0x80, 0xBF)

/-- Narrower ranges after E0, ED, F0 and F4 exclude overlong forms, surrogates and values past
U+10FFFF. -/
def lead? (b : UInt8) : Option Lead :=
  if b ≤ 0x7F then some ⟨b.toNat, []⟩
  else if 0xC2 ≤ b ∧ b ≤ 0xDF then some ⟨b.toNat - 0xC0, [tail]⟩
  else if b = 0xE0 then some ⟨0, [(0xA0, 0xBF), tail]⟩
  else if b = 0xED then some ⟨0xD, [(0x80, 0x9F), tail]⟩
  else if 0xE1 ≤ b ∧ b ≤ 0xEF then some ⟨b.toNat - 0xE0, [tail, tail]⟩
  else if b = 0xF0 then some ⟨0, [(0x90, 0xBF), tail, tail]⟩
  else if b = 0xF4 then some ⟨4, [(0x80, 0x8F), tail, tail]⟩
  else if 0xF1 ≤ b ∧ b ≤ 0xF3 then some ⟨b.toNat - 0xF0, [tail, tail, tail]⟩
  else none

/-- Collects the octets still owed. The scan stops in front of the first octet that is out of its
range, which is then read again as the beginning of something else. -/
def finish : Nat → List (UInt8 × UInt8) → Bytes → Option Nat × Bytes
  | bits, [], rest => (some bits, rest)
  | _, _ :: _, [] => (none, [])
  | bits, (low, high) :: owed, b :: rest =>
    if low ≤ b ∧ b ≤ high then finish (bits * 64 + (b.toNat - 0x80)) owed rest
    else (none, b :: rest)

theorem length_finish_le (bits : Nat) (owed : List (UInt8 × UInt8)) (bs : Bytes) :
    (finish bits owed bs).2.length ≤ bs.length := by
  fun_induction finish bits owed bs with
  | case1 => exact Nat.le_refl _
  | case2 => exact Nat.le_refl _
  | case3 _ _ _ _ _ _ _ ih => exact Nat.le_succ_of_le ih
  | case4 => exact Nat.le_refl _

/-- The characters spelled by a run of octets, with `none` for each longest run that begins a
character and does not complete it, or that begins none. -/
def decode : Bytes → List (Option Char)
  | [] => []
  | b :: rest =>
    match lead? b with
    | none => none :: decode rest
    | some l =>
      let scan := finish l.bits l.owed rest
      scan.1.map Char.ofNat :: decode scan.2
termination_by bs => bs.length
decreasing_by
  · simp
  · have := length_finish_le l.bits l.owed rest
    simp only [List.length_cons]
    omega

/-- The text, with U+FFFD in place of what spells no character. -/
def decodeLossy (bs : Bytes) : String :=
  String.ofList ((decode bs).map (·.getD '\uFFFD'))

/-- The text, when every octet belongs to a character. -/
def decode? (bs : Bytes) : Option String :=
  if (decode bs).all Option.isSome then some (String.ofList ((decode bs).map (·.getD '\uFFFD')))
  else none

end PgClient.Utf8
