import KsmbdTools.Proc
import KsmbdTools.Bytes

/-! The ASN.1 routines: a decoder that moves one cursor over a buffer, and an encoder
that is told the sizes beforehand. -/

namespace KsmbdTools.Spnego

/-- `struct asn1_ctx`, with `begin` as offset 0 and `end` behind the last byte. -/
structure Asn1Ctx where
  buffer : List UInt8
  /-- `none` is the null pointer. -/
  pointer : Option Nat
  /-- Every value the cursor was given and every end that was passed on, newest first. -/
  used : List (Option Nat) := []
  deriving DecidableEq

abbrev Asn1 := Proc Asn1Ctx Unit

def asn1Open (buffer : List UInt8) : Asn1Ctx := { buffer, pointer := some 0, used := [some 0] }

namespace Asn1Ctx

def move (ctx : Asn1Ctx) (pointer : Option Nat) : Asn1Ctx := { ctx with pointer, used := pointer :: ctx.used }

def note (ctx : Asn1Ctx) (eoc : Option Nat) : Asn1Ctx := { ctx with used := eoc :: ctx.used }

end Asn1Ctx

def asn1OctetDecode : Asn1 UInt8 := fun ctx =>
  match ctx.pointer with
  -- null is below `end`, so it is read
  | none => (.fault, ctx)
  | some pointer =>
    match ctx.buffer[pointer]? with
    | none => (.stop (), ctx)
    | some ch => (.ok ch, ctx.move (some (pointer + 1)))

/-- Groups of seven bits into an integer of the given width, to the first byte without
the eighth bit. The buffer ends before the fuel does. -/
def septets (width : Nat) : Nat → Nat → Asn1 Nat
  | 0, _ => Proc.fault
  | fuel + 1, value => do
    let ch ← asn1OctetDecode
    let value := (value * 128 + ch.toNat % 128) % 2 ^ width
    if ch.toNat / 128 = 1 then septets width fuel value else return value

/-- Into an `unsigned int`. -/
def asn1TagDecode : Asn1 Nat := do
  let ctx ← Proc.get
  septets 32 (ctx.buffer.length + 1) 0

structure Asn1Id where
  cls : Nat
  con : Nat
  tag : Nat
  deriving DecidableEq, Repr

def asn1IdDecode : Asn1 Asn1Id := do
  let ch ← asn1OctetDecode
  let id : Asn1Id := { cls := ch.toNat / 64, con := ch.toNat / 32 % 2, tag := ch.toNat % 32 }
  if id.tag = 31 then
    let tag ← asn1TagDecode
    return { id with tag }
  else return id

/-- The bytes of a long length, into an `unsigned int`. -/
def lengthOctets : Nat → Nat → Asn1 Nat
  | 0, len => pure len
  | count + 1, len => do
    let ch ← asn1OctetDecode
    lengthOctets count ((len * 256 + ch.toNat) % 2 ^ 32)

def checkLength (len : Nat) : Asn1 Unit := fun ctx =>
  match ctx.pointer with
  | none => (.fault, ctx)
  | some pointer => if ctx.buffer.length < pointer + len then (.stop (), ctx) else (.ok (), ctx)

/-- What the first byte of a length says; `none` is an indefinite length. -/
def lengthForm (ch : UInt8) : Asn1 (Option Nat) :=
  if ch = 128 then pure none
  else if ch < 128 then pure (some ch.toNat)
  else do
    let len ← lengthOctets (ch.toNat % 128) 0
    return some len

/-- For an indefinite length `len` keeps the 0 of the caller. -/
def asn1LengthDecode : Asn1 (Option Nat) := do
  let ch ← asn1OctetDecode
  let len ← lengthForm ch
  checkLength (len.getD 0)
  return len

/-- `asn1_header_decode`: the end of the contents, null for an indefinite length, which a
primitive element may not have. -/
def asn1HeaderDecode : Asn1 (Option Nat × Asn1Id) := do
  let id ← asn1IdDecode
  let len ← asn1LengthDecode
  if id.con = 0 ∧ len = none then Proc.stop ()
  else
    let ctx ← Proc.get
    return (len.bind fun len => ctx.pointer.map (· + len), id)

def asn1Read (len : Nat) : Asn1 (List UInt8) := fun ctx =>
  match ctx.pointer with
  | none => (.fault, ctx)
  | some pointer =>
    if ctx.buffer.length < pointer + len then (.stop (), ctx)
    else (.ok ((ctx.buffer.drop pointer).take len), ctx.move (some (pointer + len)))

/-- Into an `unsigned long`. -/
def asn1SubidDecode : Asn1 Nat := do
  let ctx ← Proc.get
  septets 64 (ctx.buffer.length + 1) 0

def firstArcs (subid : Nat) : List Nat :=
  if subid < 40 then [0, subid] else if subid < 80 then [1, subid - 40] else [2, subid - 80]

/-- The loop over the further arcs; `size` is the room for them. -/
def oidArcs (eoc size : Nat) : Nat → List Nat → Asn1 (List Nat)
  | 0, _ => Proc.fault
  | fuel + 1, arcs => do
    let ctx ← Proc.get
    let pointer ← Proc.deref ctx.pointer
    if pointer < eoc then
      if size < arcs.length + 1 then Proc.stop ()
      else
        let subid ← asn1SubidDecode
        oidArcs eoc size fuel (arcs ++ [subid])
    else return arcs

/-- The room is computed in an `unsigned int`. -/
def asn1OidDecode (eoc : Option Nat) : Asn1 (List Nat) := do
  Proc.modify (·.note eoc)
  let ctx ← Proc.get
  let eoc ← Proc.deref eoc
  let pointer ← Proc.deref ctx.pointer
  let size := (((eoc : Int) - pointer + 1) % 2 ^ 32).toNat
  if size < 2 ∨ (2 ^ 32 - 1) / 8 < size then Proc.stop ()
  else
    let subid ← asn1SubidDecode
    oidArcs eoc size (ctx.buffer.length + 1) (firstArcs subid)

/-- Header and length octets in front of the payload, `depth` times. -/
def asn1HeaderLen (payloadLen : Nat) : Nat → Nat
  | 0 => payloadLen
  | depth + 1 =>
    let octets := if 2 ^ 24 ≤ payloadLen then 5 else if 2 ^ 16 ≤ payloadLen then 4 else if 2 ^ 8 ≤ payloadLen then 3
      else if 2 ^ 7 ≤ payloadLen then 2 else 1
    asn1HeaderLen ((payloadLen + octets + 1) % 2 ^ 32) depth

def arcOctets (arc : Nat) : List UInt8 :=
  (if 2 ^ 28 ≤ arc then [UInt8.ofNat (128 + arc / 2 ^ 28 % 128)] else []) ++
  (if 2 ^ 21 ≤ arc then [UInt8.ofNat (128 + arc / 2 ^ 21 % 128)] else []) ++
  (if 2 ^ 14 ≤ arc then [UInt8.ofNat (128 + arc / 2 ^ 14 % 128)] else []) ++
  (if 2 ^ 7 ≤ arc then [UInt8.ofNat (128 + arc / 2 ^ 7 % 128)] else []) ++ [UInt8.ofNat (arc % 128)]

def asn1OidEncode (oid : List Nat) : List UInt8 :=
  UInt8.ofNat (40 * oid.getD 0 0 + oid.getD 1 0) :: (oid.drop 2).flatMap arcOctets

/-- The header for an element of `len` bytes in all, and the bytes that are left for its
contents. `none` is `-EINVAL`. -/
def asn1HeaderEncode (cls con tag len : Nat) : Option (List UInt8 × Nat) :=
  if len < 2 then none
  else
    let id := UInt8.ofNat (cls % 4 * 64 + con % 2 * 32 + tag % 32)
    let left := len - 1
    some <|
      if left - 1 < 2 ^ 7 then (id :: Bytes.encode false 1 (left - 1), left - 1)
      else if left - 2 < 2 ^ 8 then (id :: 129 :: Bytes.encode false 1 (left - 2), left - 2)
      else if left - 3 < 2 ^ 16 then (id :: 130 :: Bytes.encode false 2 (left - 3), left - 3)
      else if left - 4 < 2 ^ 24 then (id :: 131 :: Bytes.encode false 3 (left - 4), left - 4)
      else (id :: 132 :: Bytes.encode false 4 (left - 5), left - 5)

end KsmbdTools.Spnego
