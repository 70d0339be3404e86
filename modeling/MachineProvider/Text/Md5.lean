import MachineProvider.Text.Utf8
/-! The MD5 digest: four words, stirred by sixty-four steps for every block of sixteen words. -/
namespace MachineProvider.Text.Md5

structure Words where
  a : UInt32
  b : UInt32
  c : UInt32
  d : UInt32

def start : Words := ⟨0x67452301, 0xefcdab89, 0x98badcfe, 0x10325476⟩

/-- The first thirty-two bits of the sines of one to sixty-four, signs dropped. -/
def sines : List UInt32 := [
  0xd76aa478, 0xe8c7b756, 0x242070db, 0xc1bdceee, 0xf57c0faf, 0x4787c62a, 0xa8304613, 0xfd469501,
  0x698098d8, 0x8b44f7af, 0xffff5bb1, 0x895cd7be, 0x6b901122, 0xfd987193, 0xa679438e, 0x49b40821,
  0xf61e2562, 0xc040b340, 0x265e5a51, 0xe9b6c7aa, 0xd62f105d, 0x02441453, 0xd8a1e681, 0xe7d3fbc8,
  0x21e1cde6, 0xc33707d6, 0xf4d50d87, 0x455a14ed, 0xa9e3e905, 0xfcefa3f8, 0x676f02d9, 0x8d2a4c8a,
  0xfffa3942, 0x8771f681, 0x6d9d6122, 0xfde5380c, 0xa4beea44, 0x4bdecfa9, 0xf6bb4b60, 0xbebfbc70,
  0x289b7ec6, 0xeaa127fa, 0xd4ef3085, 0x04881d05, 0xd9d4d039, 0xe6db99e5, 0x1fa27cf8, 0xc4ac5665,
  0xf4292244, 0x432aff97, 0xab9423a7, 0xfc93a039, 0x655b59c3, 0x8f0ccc92, 0xffeff47d, 0x85845dd1,
  0x6fa87e4f, 0xfe2ce6e0, 0xa3014314, 0x4e0811a1, 0xf7537e82, 0xbd3af235, 0x2ad7d2bb, 0xeb86d391]

/-- The rotations of each round of sixteen steps, four of them in turn. -/
def rotations : List (List UInt32) :=
  [[7, 12, 17, 22], [5, 9, 14, 20], [4, 11, 16, 23], [6, 10, 15, 21]]

def rotate (x n : UInt32) : UInt32 := (x <<< n) ||| (x >>> (32 - n))

/-- The mixing function of a round, and the block's word that a step of it takes. -/
def mix (w : Words) (step : Nat) : UInt32 × Nat :=
  match step / 16 with
  | 0 => ((w.b &&& w.c) ||| (~~~w.b &&& w.d), step)
  | 1 => ((w.d &&& w.b) ||| (~~~w.d &&& w.c), (5 * step + 1) % 16)
  | 2 => (w.b ^^^ w.c ^^^ w.d, (3 * step + 5) % 16)
  | _ => (w.c ^^^ (w.b ||| ~~~w.d), (7 * step) % 16)

def stir (block : List UInt32) (w : Words) (step : Nat) (sine : UInt32) : Words :=
  let (mixed, index) := mix w step
  let turn := (rotations.getD (step / 16) []).getD (step % 4) 0
  let fresh := w.b + rotate (w.a + mixed + sine + block.getD index 0) turn
  ⟨w.d, fresh, w.b, w.c⟩

def absorb (w : Words) (block : List UInt32) : Words :=
  let stirred := sines.zipIdx.foldl (fun w (sine, step) => stir block w step sine) w
  ⟨w.a + stirred.a, w.b + stirred.b, w.c + stirred.c, w.d + stirred.d⟩

/-- Bytes as words, the low byte first. -/
def wordsOf : Bytes → List UInt32
  | a :: b :: c :: d :: rest =>
    (a.toUInt32 ||| (b.toUInt32 <<< 8) ||| (c.toUInt32 <<< 16) ||| (d.toUInt32 <<< 24)) ::
      wordsOf rest
  | _ => []

/-- The low bytes of a number, the lowest first. -/
def lowBytes (count n : Nat) : Bytes := (List.range count).map fun k => UInt8.ofNat (n >>> (8 * k))

/-- A one bit, zeros and the length in bits fill the last block. -/
def padded (bytes : Bytes) : Bytes :=
  bytes ++ 0x80 :: List.replicate ((119 - bytes.length % 64) % 64) 0 ++
    lowBytes 8 (8 * bytes.length)

def blocksWithin : Nat → List UInt32 → List (List UInt32)
  | 0, _ => []
  | n + 1, ws => ws.take 16 :: blocksWithin n (ws.drop 16)

def digest (bytes : Bytes) : Bytes :=
  let words := wordsOf (padded bytes)
  let w := (blocksWithin (words.length / 16) words).foldl absorb start
  [w.a, w.b, w.c, w.d].flatMap fun x => lowBytes 4 x.toNat

/-- The digest in lower-case hexadecimal digits. -/
def hex (bytes : Bytes) : String :=
  String.ofList ((digest bytes).flatMap fun b =>
    [Nat.digitChar (b.toNat / 16), Nat.digitChar (b.toNat % 16)])

end MachineProvider.Text.Md5
