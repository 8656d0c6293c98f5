import KsmbdTools.Rpc.Buffer

/-! The writes into a payload that may grow, which only differ from those into a fixed one in what
`try_realloc_payload` does when the data does not fit. -/

namespace KsmbdTools.Rpc
open Bytes

/-- What `g_try_realloc` answers. A payload only ever gets longer, so both the refusals and the content of the new bytes
are given by the size asked for. -/
structure Allocator where
  grants : Nat → Bool
  /-- The byte at an index of a block of this size. -/
  fresh : (size index : Nat) → UInt8

namespace Allocator
variable (allocator : Allocator)

def gTryRealloc (block : List UInt8) (size : Nat) : Option (List UInt8) :=
  if allocator.grants size then
    some (block.take size ++ (List.range' block.length (size - block.length)).map (allocator.fresh size))
  else none

end Allocator

namespace Growable
variable (allocator : Allocator)
open Buffer (Program alignOffset autoAlignOffset store advance IntType)

/-- `memset(payload + offset, 0, payload_sz - offset)`. The count wraps around where the offset lies behind the payload. -/
def clearTail : Program Unit := fun buffer =>
  if buffer.offset ≤ buffer.payload.length then
    (.ok (), { buffer with
      payload := buffer.payload.take buffer.offset ++ List.replicate (buffer.payload.length - buffer.offset) 0 })
  else (.fault, buffer)

def tryReallocPayload (fixed : Bool) (dataSz : Nat) : Program Unit := do
  let buffer ← Proc.get
  if 2 ^ 64 - 1 - buffer.offset < dataSz then Proc.stop ()
  if sizeT (buffer.offset + dataSz) ≤ buffer.payload.length then return
  if fixed then Proc.stop ()
  match allocator.gTryRealloc buffer.payload (sizeT (buffer.payload.length + 4096)) with
  | none => Proc.stop ()
  | some payload =>
    Proc.modify fun buffer => { buffer with payload }
    clearTail

def writeAligned (width : Nat) (data : List UInt8) : Program Unit := do
  alignOffset width
  tryReallocPayload allocator false data.length
  store data
  advance data.length

def ndrWriteInt32 (value : Nat) : Program Unit := do
  let buffer ← Proc.get
  writeAligned allocator 4 (encode buffer.flags.littleEndian 4 value)

def ndrWriteBytes (value : List UInt8) : Program Unit := writeAligned allocator 2 value

def ndrWriteVstring (platform : Platform) (value : Option CStr) : Program Unit := do
  let buffer ← Proc.get
  let raw := value.getD []
  match platform.gconvert buffer.flags.charset .utf8 (raw ++ [0]) with
  | none => Proc.stop ()
  | some out =>
    let strLen := platform.utf8Strlen raw + 1
    ndrWriteInt32 allocator strLen
    ndrWriteInt32 allocator 0
    ndrWriteInt32 allocator strLen
    ndrWriteBytes allocator out
    autoAlignOffset

/-- Nothing outside the payload is touched, and no byte in front of `low` changes. -/
structure StaysInside (low : Nat) (buffer : Buffer) (program : Program Unit) : Prop where
  inside : (program buffer).1 ≠ .fault
  kept : ∀ index < low, index < buffer.payload.length →
    (program buffer).2.payload[index]? = buffer.payload[index]?

/-- `try_realloc_payload` makes room for the data it returns zero for. -/
structure MakesRoom (dataSz : Nat) (buffer : Buffer) : Prop
    extends StaysInside buffer.offset buffer (tryReallocPayload allocator false dataSz) where
  room : (tryReallocPayload allocator false dataSz buffer).1 = .ok () →
    buffer.offset + dataSz ≤ (tryReallocPayload allocator false dataSz buffer).2.payload.length

/-- Blocks of these lengths are written one behind the other into a payload of this size, and each lies within one step
of 4096 bytes of the payload as it then is, unless the write of a block fails. -/
def Room : (size start : Nat) → (lengths : List Nat) → Prop
  | _, _, [] => True
  | size, start, length :: lengths =>
    2 ^ 64 - 1 - start < length ∨
      if start + length ≤ size then Room size (start + length) lengths
      else allocator.grants (sizeT (size + 4096)) = false ∨
        start + length ≤ sizeT (size + 4096) ∧ Room (sizeT (size + 4096)) (start + length) lengths

end Growable
end KsmbdTools.Rpc
