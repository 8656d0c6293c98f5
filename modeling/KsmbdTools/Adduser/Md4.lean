import KsmbdTools.Bytes

/-! The MD4 implementation of the user tool (`md4_hash.c`). The block of the context is kept as the 64 bytes of its
memory; a word of it is read and written in the byte order of the host. -/

namespace KsmbdTools.Adduser

structure Md4Hash where
  h0 : UInt32
  h1 : UInt32
  h2 : UInt32
  h3 : UInt32
  deriving DecidableEq

structure Md4Ctx where
  hash : Md4Hash
  block : List UInt8
  byteCount : UInt64
  deriving DecidableEq

def lshift (x s : UInt32) : UInt32 :=
  let x := x &&& 0xFFFFFFFF
  ((x <<< s) &&& 0xFFFFFFFF) ||| (x >>> (32 - s))

def F (x y z : UInt32) : UInt32 := (x &&& y) ||| (~~~x &&& z)

def G (x y z : UInt32) : UInt32 := (x &&& y) ||| (x &&& z) ||| (y &&& z)

def H (x y z : UInt32) : UInt32 := x ^^^ y ^^^ z

def ROUND1 (a b c d k s : UInt32) : UInt32 := lshift (a + F b c d + k) s

def ROUND2 (a b c d k s : UInt32) : UInt32 := lshift (a + G b c d + k + 0x5A827999) s

def ROUND3 (a b c d k s : UInt32) : UInt32 := lshift (a + H b c d + k + 0x6ED9EBA1) s

def md4Transform (hash : Md4Hash) (input : List UInt32) : Md4Hash := Id.run do
  let word (k : Nat) : UInt32 := input.getD k 0
  let mut a := hash.h0
  let mut b := hash.h1
  let mut c := hash.h2
  let mut d := hash.h3

  a := ROUND1 a b c d (word 0) 3
  d := ROUND1 d a b c (word 1) 7
  c := ROUND1 c d a b (word 2) 11
  b := ROUND1 b c d a (word 3) 19
  a := ROUND1 a b c d (word 4) 3
  d := ROUND1 d a b c (word 5) 7
  c := ROUND1 c d a b (word 6) 11
  b := ROUND1 b c d a (word 7) 19
  a := ROUND1 a b c d (word 8) 3
  d := ROUND1 d a b c (word 9) 7
  c := ROUND1 c d a b (word 10) 11
  b := ROUND1 b c d a (word 11) 19
  a := ROUND1 a b c d (word 12) 3
  d := ROUND1 d a b c (word 13) 7
  c := ROUND1 c d a b (word 14) 11
  b := ROUND1 b c d a (word 15) 19

  a := ROUND2 a b c d (word 0) 3
  d := ROUND2 d a b c (word 4) 5
  c := ROUND2 c d a b (word 8) 9
  b := ROUND2 b c d a (word 12) 13
  a := ROUND2 a b c d (word 1) 3
  d := ROUND2 d a b c (word 5) 5
  c := ROUND2 c d a b (word 9) 9
  b := ROUND2 b c d a (word 13) 13
  a := ROUND2 a b c d (word 2) 3
  d := ROUND2 d a b c (word 6) 5
  c := ROUND2 c d a b (word 10) 9
  b := ROUND2 b c d a (word 14) 13
  a := ROUND2 a b c d (word 3) 3
  d := ROUND2 d a b c (word 7) 5
  c := ROUND2 c d a b (word 11) 9
  b := ROUND2 b c d a (word 15) 13

  a := ROUND3 a b c d (word 0) 3
  d := ROUND3 d a b c (word 8) 9
  c := ROUND3 c d a b (word 4) 11
  b := ROUND3 b c d a (word 12) 15
  a := ROUND3 a b c d (word 2) 3
  d := ROUND3 d a b c (word 10) 9
  c := ROUND3 c d a b (word 6) 11
  b := ROUND3 b c d a (word 14) 15
  a := ROUND3 a b c d (word 1) 3
  d := ROUND3 d a b c (word 9) 9
  c := ROUND3 c d a b (word 5) 11
  b := ROUND3 b c d a (word 13) 15
  a := ROUND3 a b c d (word 3) 3
  d := ROUND3 d a b c (word 11) 9
  c := ROUND3 c d a b (word 7) 11
  b := ROUND3 b c d a (word 15) 15

  return ⟨hash.h0 + a, hash.h1 + b, hash.h2 + c, hash.h3 + d⟩

section Host
variable (little : Bool)

/-- The first words of the memory swapped in place on a host that is not little-endian. `cpu_to_le32_array` does the
same. -/
def le32ToCpuArray : Nat → List UInt8 → List UInt8
  | 0, memory => memory
  | words + 1, memory =>
    (if little then memory.take 4 else (memory.take 4).reverse) ++ le32ToCpuArray words (memory.drop 4)

def hostWords : Nat → List UInt8 → List UInt32
  | 0, _ => []
  | count + 1, memory => UInt32.ofNat (Bytes.decode little (memory.take 4)) :: hostWords count (memory.drop 4)

def md4TransformHelper (mctx : Md4Ctx) : Md4Ctx :=
  let block := le32ToCpuArray little 16 mctx.block
  { mctx with block := block, hash := md4Transform mctx.hash (hostWords little 16 block) }

def md4Init (mctx : Md4Ctx) : Md4Ctx :=
  { mctx with hash := ⟨0x67452301, 0xefcdab89, 0x98badcfe, 0x10325476⟩, byteCount := 0 }

/-- The loop of `md4_update` over the whole blocks, which leaves the data behind them. -/
def md4UpdateLoop : Nat → Md4Ctx → List UInt8 → Md4Ctx × List UInt8
  | 0, mctx, data => (mctx, data)
  | fuel + 1, mctx, data =>
    if 64 ≤ data.length then
      let mctx := { mctx with block := Bytes.overlay mctx.block 0 (data.take 64) }
      md4UpdateLoop fuel (md4TransformHelper little mctx) (data.drop 64)
    else (mctx, data)

def md4Update (mctx : Md4Ctx) (data : List UInt8) : Md4Ctx :=
  let avail := 64 - (mctx.byteCount &&& 0x3f).toNat
  let mctx := { mctx with byteCount := mctx.byteCount + UInt64.ofNat data.length }
  if data.length < avail then { mctx with block := Bytes.overlay mctx.block (64 - avail) data }
  else
    let mctx := { mctx with block := Bytes.overlay mctx.block (64 - avail) (data.take avail) }
    let (mctx, rest) := md4UpdateLoop little data.length (md4TransformHelper little mctx) (data.drop avail)
    { mctx with block := Bytes.overlay mctx.block 0 rest }

/-- The context behind the one bit, with the place and the number of the zeros that are left to write. -/
def md4FinalPad (mctx : Md4Ctx) : Md4Ctx × Nat × Nat :=
  let offset := (mctx.byteCount &&& 0x3f).toNat
  let padding : Int := 56 - (offset + 1)
  let mctx := { mctx with block := Bytes.overlay mctx.block offset [0x80] }
  if padding < 0 then
    let zeros := List.replicate (padding + 8).toNat 0
    (md4TransformHelper little { mctx with block := Bytes.overlay mctx.block (offset + 1) zeros }, 0, 56)
  else (mctx, offset + 1, padding.toNat)

def Md4Hash.memory (hash : Md4Hash) : List UInt8 :=
  [hash.h0, hash.h1, hash.h2, hash.h3].flatMap fun word => Bytes.encode little 4 word.toNat

def md4Final (mctx : Md4Ctx) : List UInt8 × Md4Ctx :=
  let (mctx, p, padding) := md4FinalPad little mctx
  let block := Bytes.overlay mctx.block p (List.replicate padding 0)
  let block := Bytes.overlay block 56 (Bytes.encode little 4 (mctx.byteCount <<< 3).toNat)
  let block := Bytes.overlay block 60 (Bytes.encode little 4 (mctx.byteCount >>> 29).toNat)
  let block := le32ToCpuArray little 14 block
  let hash := md4Transform mctx.hash (hostWords little 16 block)
  (le32ToCpuArray little 4 (hash.memory little), ⟨⟨0, 0, 0, 0⟩, List.replicate block.length 0, 0⟩)

end Host

end KsmbdTools.Adduser
