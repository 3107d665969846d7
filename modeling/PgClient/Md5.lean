import PgClient.Bytes

/-!
# MD5

The digest a server asks for in place of a password. The message is padded with one set bit,
zeros and its length in bits to a whole number of blocks of 64 octets; each block is mixed into
four words of state in 64 steps.
-/

namespace PgClient.Md5

/-- The four words that the blocks are mixed into. -/
structure State where
  a : UInt32
  b : UInt32
  c : UInt32
  d : UInt32

def State.start : State :=
  ⟨0x67452301, 0xefcdab89, 0x98badcfe, 0x10325476⟩

/-- The rotation of each step: four amounts to each run of sixteen steps. -/
def rotations : Array (Array UInt32) :=
  #[#[7, 12, 17, 22], #[5, 9, 14, 20], #[4, 11, 16, 23], #[6, 10, 15, 21]]

/-- The integer part of `2 ^ 32 * |sin (i + 1)|`. -/
def sines : Array UInt32 :=
  #[0xd76aa478, 0xe8c7b756, 0x242070db, 0xc1bdceee, 0xf57c0faf, 0x4787c62a, 0xa8304613, 0xfd469501,
    0x698098d8, 0x8b44f7af, 0xffff5bb1, 0x895cd7be, 0x6b901122, 0xfd987193, 0xa679438e, 0x49b40821,
    0xf61e2562, 0xc040b340, 0x265e5a51, 0xe9b6c7aa, 0xd62f105d, 0x02441453, 0xd8a1e681, 0xe7d3fbc8,
    0x21e1cde6, 0xc33707d6, 0xf4d50d87, 0x455a14ed, 0xa9e3e905, 0xfcefa3f8, 0x676f02d9, 0x8d2a4c8a,
    0xfffa3942, 0x8771f681, 0x6d9d6122, 0xfde5380c, 0xa4beea44, 0x4bdecfa9, 0xf6bb4b60, 0xbebfbc70,
    0x289b7ec6, 0xeaa127fa, 0xd4ef3085, 0x04881d05, 0xd9d4d039, 0xe6db99e5, 0x1fa27cf8, 0xc4ac5665,
    0xf4292244, 0x432aff97, 0xab9423a7, 0xfc93a039, 0x655b59c3, 0x8f0ccc92, 0xffeff47d, 0x85845dd1,
    0x6fa87e4f, 0xfe2ce6e0, 0xa3014314, 0x4e0811a1, 0xf7537e82, 0xbd3af235, 0x2ad7d2bb, 0xeb86d391]

def rotateLeft (x amount : UInt32) : UInt32 :=
  (x <<< amount) ||| (x >>> (32 - amount))

/-- How a step mixes three of the words, and which word of the block it takes in. -/
def mix (s : State) (i : Nat) : UInt32 × Nat :=
  if i < 16 then ((s.b &&& s.c) ||| (~~~s.b &&& s.d), i)
  else if i < 32 then ((s.d &&& s.b) ||| (~~~s.d &&& s.c), (5 * i + 1) % 16)
  else if i < 48 then (s.b ^^^ s.c ^^^ s.d, (3 * i + 5) % 16)
  else (s.c ^^^ (s.b ||| ~~~s.d), (7 * i) % 16)

def step (block : Array UInt32) (s : State) (i : Nat) : State :=
  let (f, word) := mix s i
  let sum := s.a + f + sines.getD i 0 + block.getD word 0
  let amount := (rotations.getD (i / 16) #[]).getD (i % 4) 0
  ⟨s.d, s.b + rotateLeft sum amount, s.b, s.c⟩

def State.add (s t : State) : State :=
  ⟨s.a + t.a, s.b + t.b, s.c + t.c, s.d + t.d⟩

/-- Octets as words, least significant octet first; a word that is not complete is dropped. -/
def words : Bytes → List UInt32
  | a :: b :: c :: d :: rest =>
    (a.toUInt32 ||| b.toUInt32 <<< 8 ||| c.toUInt32 <<< 16 ||| d.toUInt32 <<< 24) :: words rest
  | _ => []

/-- A number as `width` octets, least significant first. -/
def littleEndian (width n : Nat) : Bytes :=
  (Bytes.ofNat width n).reverse

/-- Mixes whole blocks into the state. -/
def absorb (s : State) (bs : Bytes) : State :=
  if _h : bs.drop 63 = [] then s
  else absorb (s.add ((List.range 64).foldl (step (words (bs.take 64)).toArray) s)) (bs.drop 64)
termination_by bs.length
decreasing_by
  have := List.length_pos_iff.2 _h
  simp only [List.length_drop] at this ⊢
  omega

/-- The message followed by one set bit, zeros and its length in bits. -/
def padded (bs : Bytes) : Bytes :=
  bs ++ 0x80 :: List.replicate ((119 - bs.length % 64) % 64) 0 ++ littleEndian 8 (8 * bs.length)

/-- The digest of a message, sixteen octets. -/
def digest (bs : Bytes) : Bytes :=
  let s := absorb State.start (padded bs)
  [s.a, s.b, s.c, s.d].flatMap fun w => littleEndian 4 w.toNat

end PgClient.Md5
