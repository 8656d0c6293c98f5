import KsmbdTools.Blocks
import KsmbdTools.Bytes

/-! The MD4 message digest as its standard defines it: the padded message, sixteen words at a time, in three rounds of
sixteen operations. -/

namespace KsmbdTools.Rfc1320

/-- The four words A, B, C and D. -/
structure Words where
  a : UInt32
  b : UInt32
  c : UInt32
  d : UInt32
  deriving DecidableEq

def initial : Words := ⟨0x67452301, 0xefcdab89, 0x98badcfe, 0x10325476⟩

def f (x y z : UInt32) : UInt32 := (x &&& y) ||| (~~~x &&& z)

def g (x y z : UInt32) : UInt32 := (x &&& y) ||| (x &&& z) ||| (y &&& z)

def h (x y z : UInt32) : UInt32 := x ^^^ y ^^^ z

def rotate (x : UInt32) (s : Nat) : UInt32 := ⟨x.toBitVec.rotateLeft s⟩

/-- `[abcd k s]`, and then the word that was last takes the place of the first. -/
def operation (mix : UInt32 → UInt32 → UInt32 → UInt32) (constant : UInt32) (x : List UInt32) (words : Words)
    (entry : Nat × Nat) : Words :=
  ⟨words.d, rotate (words.a + mix words.b words.c words.d + x.getD entry.1 0 + constant) entry.2, words.b, words.c⟩

def round (mix : UInt32 → UInt32 → UInt32 → UInt32) (constant : UInt32) (order shifts : List Nat) (x : List UInt32)
    (words : Words) : Words :=
  (order.zip (shifts ++ shifts ++ shifts ++ shifts)).foldl (operation mix constant x) words

def round1 : List UInt32 → Words → Words :=
  round f 0 [0, 1, 2, 3, 4, 5, 6, 7, 8, 9, 10, 11, 12, 13, 14, 15] [3, 7, 11, 19]

def round2 : List UInt32 → Words → Words :=
  round g 0x5A827999 [0, 4, 8, 12, 1, 5, 9, 13, 2, 6, 10, 14, 3, 7, 11, 15] [3, 5, 9, 13]

def round3 : List UInt32 → Words → Words :=
  round h 0x6ED9EBA1 [0, 8, 4, 12, 2, 10, 6, 14, 1, 9, 5, 13, 3, 11, 7, 15] [3, 9, 11, 15]

/-- The words of a block of bytes, the low-order byte of each first. -/
def words : Nat → List UInt8 → List UInt32
  | 0, _ => []
  | count + 1, bytes => UInt32.ofNat (Bytes.decode true (bytes.take 4)) :: words count (bytes.drop 4)

def mixBlock (x : List UInt32) (before : Words) : Words :=
  let after := round3 x (round2 x (round1 x before))
  ⟨before.a + after.a, before.b + after.b, before.c + after.c, before.d + after.d⟩

def process (before : Words) (block : List UInt8) : Words := mixBlock (words 16 block) before

/-- A one bit, zero bits up to 448 modulo 512, and the number of bits in 64 bits. -/
def pad (message : List UInt8) : List UInt8 :=
  message ++ 0x80 :: List.replicate ((119 - message.length % 64) % 64) 0 ++ Bytes.encode true 8 (8 * message.length)

def output (hash : Words) : List UInt8 :=
  [hash.a, hash.b, hash.c, hash.d].flatMap fun word => Bytes.encode true 4 word.toNat

def md4 (message : List UInt8) : List UInt8 := output (Blocks.fold process 64 initial (pad message))

example : md4 [97, 98, 99] =
    [0xa4, 0x48, 0x01, 0x7a, 0xaf, 0x21, 0xd8, 0x52, 0x5f, 0xc1, 0x0a, 0xe8, 0x7a, 0xa6, 0x72, 0x9d] := by decide +kernel

end KsmbdTools.Rfc1320
