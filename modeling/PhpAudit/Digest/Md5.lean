/-
The MD5 digest.

File contents are told apart by their digest, and fingerprints of findings carry digests of the
texts they show.  The message is padded to whole blocks of sixty-four bytes; each block is mixed
into four words in sixty-four steps.
-/

set_option autoImplicit false

namespace PhpAudit.Digest

/-- The four words of a running digest. -/
structure Words where
  a : UInt32
  b : UInt32
  c : UInt32
  d : UInt32

/-- The words before the first block. -/
def Words.initial : Words :=
  ⟨0x67452301, 0xefcdab89, 0x98badcfe, 0x10325476⟩

/-- The additive constant of each step: the integer part of `2 ^ 32 * |sin (i + 1)|`. -/
def sines : Array UInt32 := #[
  0xd76aa478, 0xe8c7b756, 0x242070db, 0xc1bdceee, 0xf57c0faf, 0x4787c62a, 0xa8304613, 0xfd469501,
  0x698098d8, 0x8b44f7af, 0xffff5bb1, 0x895cd7be, 0x6b901122, 0xfd987193, 0xa679438e, 0x49b40821,
  0xf61e2562, 0xc040b340, 0x265e5a51, 0xe9b6c7aa, 0xd62f105d, 0x02441453, 0xd8a1e681, 0xe7d3fbc8,
  0x21e1cde6, 0xc33707d6, 0xf4d50d87, 0x455a14ed, 0xa9e3e905, 0xfcefa3f8, 0x676f02d9, 0x8d2a4c8a,
  0xfffa3942, 0x8771f681, 0x6d9d6122, 0xfde5380c, 0xa4beea44, 0x4bdecfa9, 0xf6bb4b60, 0xbebfbc70,
  0x289b7ec6, 0xeaa127fa, 0xd4ef3085, 0x04881d05, 0xd9d4d039, 0xe6db99e5, 0x1fa27cf8, 0xc4ac5665,
  0xf4292244, 0x432aff97, 0xab9423a7, 0xfc93a039, 0x655b59c3, 0x8f0ccc92, 0xffeff47d, 0x85845dd1,
  0x6fa87e4f, 0xfe2ce6e0, 0xa3014314, 0x4e0811a1, 0xf7537e82, 0xbd3af235, 0x2ad7d2bb, 0xeb86d391]

/-- The four rotations of each round of sixteen steps. -/
def rotations : Array UInt32 :=
  #[7, 12, 17, 22, 5, 9, 14, 20, 4, 11, 16, 23, 6, 10, 15, 21]

/-- Rotation to the left by fewer than thirty-two places. -/
def rotate (x n : UInt32) : UInt32 :=
  (x <<< n) ||| (x >>> (32 - n))

/-- One step: the round's mixing function and the word of the block that it takes. -/
def step (block : Array UInt32) (w : Words) (i : Nat) : Words :=
  let mixed :=
    match i / 16 with
    | 0 => ((w.b &&& w.c) ||| (~~~w.b &&& w.d), i)
    | 1 => ((w.d &&& w.b) ||| (~~~w.d &&& w.c), (5 * i + 1) % 16)
    | 2 => (w.b ^^^ w.c ^^^ w.d, (3 * i + 5) % 16)
    | _ => (w.c ^^^ (w.b ||| ~~~w.d), 7 * i % 16)
  let sum := mixed.1 + w.a + sines.getD i 0 + block.getD mixed.2 0
  ⟨w.d, w.b + rotate sum (rotations.getD (4 * (i / 16) + i % 4) 0), w.b, w.c⟩

/-- A block mixed into the words. -/
def absorb (w : Words) (block : Array UInt32) : Words :=
  let m := (List.range 64).foldl (step block) w
  ⟨w.a + m.a, w.b + m.b, w.c + m.c, w.d + m.d⟩

/-- The word of four bytes, the lowest first. -/
def word (bytes : ByteArray) (start : Nat) : UInt32 :=
  let byte (k : Nat) : UInt32 := (bytes.data.getD (start + k) 0).toUInt32
  byte 0 ||| (byte 1 <<< 8) ||| (byte 2 <<< 16) ||| (byte 3 <<< 24)

/-- The bytes of a number of sixty-four bits, the lowest first. -/
def lengthBytes (n : Nat) : List UInt8 :=
  (List.range 8).map fun k => (n / Nat.pow 256 k % 256).toUInt8

/-- A one bit, zeros up to eight bytes before a block's end, and the length in bits. -/
def pad (bytes : ByteArray) : ByteArray :=
  let gap := (119 - bytes.size % 64) % 64
  ((0x80 :: List.replicate gap 0) ++ lengthBytes (8 * bytes.size)).foldl ByteArray.push bytes

/-- The words after all blocks. -/
def words (bytes : ByteArray) : Words :=
  let padded := pad bytes
  (List.range (padded.size / 64)).foldl
    (fun w k => absorb w (Array.ofFn fun i : Fin 16 => word padded (64 * k + 4 * i.val)))
    Words.initial

/-- A byte as two hexadecimal digits. -/
def hexByte (n : Nat) : List Char :=
  [Nat.digitChar (n / 16 % 16), Nat.digitChar (n % 16)]

/-- A word as eight hexadecimal digits, the lowest byte first. -/
def hexWord (w : UInt32) : List Char :=
  (List.range 4).flatMap fun k => hexByte (w.toNat / Nat.pow 256 k)

/-- The digest as thirty-two hexadecimal digits. -/
def md5 (bytes : ByteArray) : String :=
  let w := words bytes
  String.ofList (hexWord w.a ++ hexWord w.b ++ hexWord w.c ++ hexWord w.d)

/-- The digest of a text in UTF-8. -/
def ofText (s : String) : String :=
  md5 s.toUTF8

/-- The first eight digits of the digest of a text. -/
def short (s : String) : String :=
  String.ofList ((ofText s).toList.take 8)

end PhpAudit.Digest
