/-!
# The MD5 Digest

The 128-bit digest of a byte string, as hexadecimal text.

The message is padded with a one bit, zeros and its length in bits to a
multiple of sixty-four bytes. Each block is mixed into four 32-bit words by
sixty-four steps, and the words are added to what they were before the block.
All arithmetic wraps at 32 bits, which is what `UInt32` does.

## Main definitions

* `padded`: The message with its padding.
* `step`, `mixBlock`: The compression function.
* `md5Hex`: The digest of a text in hexadecimal.
-/

namespace Worksheet

namespace Digest

/-- The additive constant of each step: the whole part of `2 ^ 32 * |sin i|`
    for `i` from one to sixty-four. -/
def sineTable : List UInt32 :=
  [0xd76aa478, 0xe8c7b756, 0x242070db, 0xc1bdceee, 0xf57c0faf, 0x4787c62a, 0xa8304613, 0xfd469501,
    0x698098d8, 0x8b44f7af, 0xffff5bb1, 0x895cd7be, 0x6b901122, 0xfd987193, 0xa679438e, 0x49b40821,
    0xf61e2562, 0xc040b340, 0x265e5a51, 0xe9b6c7aa, 0xd62f105d, 0x02441453, 0xd8a1e681, 0xe7d3fbc8,
    0x21e1cde6, 0xc33707d6, 0xf4d50d87, 0x455a14ed, 0xa9e3e905, 0xfcefa3f8, 0x676f02d9, 0x8d2a4c8a,
    0xfffa3942, 0x8771f681, 0x6d9d6122, 0xfde5380c, 0xa4beea44, 0x4bdecfa9, 0xf6bb4b60, 0xbebfbc70,
    0x289b7ec6, 0xeaa127fa, 0xd4ef3085, 0x04881d05, 0xd9d4d039, 0xe6db99e5, 0x1fa27cf8, 0xc4ac5665,
    0xf4292244, 0x432aff97, 0xab9423a7, 0xfc93a039, 0x655b59c3, 0x8f0ccc92, 0xffeff47d, 0x85845dd1,
    0x6fa87e4f, 0xfe2ce6e0, 0xa3014314, 0x4e0811a1, 0xf7537e82, 0xbd3af235, 0x2ad7d2bb, 0xeb86d391]

/-- How far each of the four steps of a round rotates. -/
def rotations : List (List UInt32) :=
  [[7, 12, 17, 22], [5, 9, 14, 20], [4, 11, 16, 23], [6, 10, 15, 21]]

/-- The four words that are mixed. -/
structure Words where
  a : UInt32
  b : UInt32
  c : UInt32
  d : UInt32

/-- The words before the first block. -/
def Words.start : Words := ⟨0x67452301, 0xefcdab89, 0x98badcfe, 0x10325476⟩

/-- Rotate to the left. -/
def rotate (x n : UInt32) : UInt32 := (x <<< n) ||| (x >>> (32 - n))

/-- The bytes of a number, least significant first. -/
def littleEndian (count n : Nat) : List UInt8 :=
  (List.range count).map fun i => UInt8.ofNat (n / Nat.pow 256 i)

/-- A message with a one bit, zeros and its length after it. -/
def padded (bytes : List UInt8) : List UInt8 :=
  let zeros := (119 - bytes.length % 64) % 64
  bytes ++ 0x80 :: List.replicate zeros 0 ++ littleEndian 8 (bytes.length * 8 % UInt64.size)

/-- Words out of bytes, four bytes each, least significant first. -/
def wordsOf : List UInt8 → List UInt32
  | a :: b :: c :: d :: rest =>
    (a.toUInt32 ||| b.toUInt32 <<< 8 ||| c.toUInt32 <<< 16 ||| d.toUInt32 <<< 24) :: wordsOf rest
  | _ => []

/-- The mixing function of a round and the place of the message word that
    step `i` uses. -/
def mixing (i : Nat) (w : Words) : UInt32 × Nat :=
  if i < 16 then ((w.b &&& w.c) ||| (~~~w.b &&& w.d), i)
  else if i < 32 then ((w.d &&& w.b) ||| (~~~w.d &&& w.c), (5 * i + 1) % 16)
  else if i < 48 then (w.b ^^^ w.c ^^^ w.d, (3 * i + 5) % 16)
  else (w.c ^^^ (w.b ||| ~~~w.d), 7 * i % 16)

/-- One step on a block of sixteen words. -/
def step (block : List UInt32) (w : Words) (i : Nat) : Words :=
  let (f, place) := mixing i w
  let sum := f + w.a + sineTable.getD i 0 + block.getD place 0
  let turn := (rotations.getD (i / 16) []).getD (i % 4) 0
  ⟨w.d, w.b + rotate sum turn, w.b, w.c⟩

/-- The sixty-four steps of a block, added to the words before it. -/
def mixBlock (w : Words) (block : List UInt32) : Words :=
  let m := (List.range 64).foldl (step block) w
  ⟨w.a + m.a, w.b + m.b, w.c + m.c, w.d + m.d⟩

/-- All blocks of a message, one after the other. -/
def mixAll (w : Words) : List UInt32 → Words
  | a :: b :: c :: d :: e :: f :: g :: h :: i :: j :: k :: l :: m :: n :: o :: p :: rest =>
    mixAll (mixBlock w [a, b, c, d, e, f, g, h, i, j, k, l, m, n, o, p]) rest
  | _ => w

/-- Two hexadecimal digits for a byte, in lower case. -/
def hexByte (b : UInt8) : List Char :=
  [Nat.digitChar (b.toNat / 16), Nat.digitChar (b.toNat % 16)]

/-- The digest of a text's UTF-8 bytes, in hexadecimal. -/
def md5Hex (s : String) : String :=
  let w := mixAll .start (wordsOf (padded s.toUTF8.toList))
  String.ofList (([w.a, w.b, w.c, w.d].flatMap fun x => littleEndian 4 x.toNat).flatMap hexByte)

end Digest

end Worksheet
