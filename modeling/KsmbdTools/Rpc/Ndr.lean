import KsmbdTools.Bytes
import KsmbdTools.Platform
import KsmbdTools.Proc

/-! The NDR functions: aligned integers, byte blocks and strings read from and
written to a payload of fixed size. The payload of a reply is memory that was
zeroed, so it is kept as the bytes up to the last one written. -/

namespace KsmbdTools.Rpc
open Bytes

/-- The bits of `dce->flags` that the NDR functions read, apart from
`KSMBD_DCERPC_FIXED_PAYLOAD_SZ`: payloads are of fixed size. The daemon itself always
aligns to four and never sets the last two. -/
structure NdrFlags where
  littleEndian : Bool
  align4 : Bool := true
  align8 : Bool := false
  asciiString : Bool := false
  deriving DecidableEq, Repr

namespace NdrFlags

/-- What `auto_align_offset` aligns to. -/
def autoAlign (flags : NdrFlags) : Nat := if flags.align8 then 8 else if flags.align4 then 4 else 1

def charset (flags : NdrFlags) : Charset :=
  if flags.asciiString then .utf8 else if flags.littleEndian then .utf16le else .utf16be

def charWidth (flags : NdrFlags) : Nat := if flags.asciiString then 1 else 2

end NdrFlags

/-- What the NDR functions use of a `ksmbd_dcerpc`. -/
structure Stream where
  payload : List UInt8
  payloadSz : Nat
  offset : Nat := 0
  numPointers : UInt32 := 1
  flags : NdrFlags
  deriving DecidableEq, Repr

namespace Stream

def setExtPayload (stream : Stream) (payload : List UInt8) (payloadSz : Nat) : Stream :=
  { stream with payload, payloadSz, offset := 0, numPointers := 1 }

def alignOffset (stream : Stream) (width : Nat) : Stream := { stream with offset := alignUp stream.offset width }

abbrev littleEndian (stream : Stream) : Bool := stream.flags.littleEndian

end Stream

/-- Zero, or a negative error that every caller answers in its own way. -/
abbrev Ndr := Proc Stream Unit

def ndrReadAligned (width size : Nat) : Ndr (List UInt8) := fun stream =>
  let aligned := stream.alignOffset width
  if aligned.payloadSz < aligned.offset + size then (.stop (), aligned)
  else (.ok ((aligned.payload.drop aligned.offset).take size), { aligned with offset := aligned.offset + size })

def ndrReadInt (width : Nat) : Ndr Nat := do
  let bytes ← ndrReadAligned width width
  let stream ← Proc.get
  return decode stream.littleEndian bytes

def ndrReadInt8 : Ndr UInt8 := do return UInt8.ofNat (← ndrReadInt 1)

def ndrReadInt16 : Ndr UInt16 := do return UInt16.ofNat (← ndrReadInt 2)

def ndrReadInt32 : Ndr UInt32 := do return UInt32.ofNat (← ndrReadInt 4)

def ndrReadInt64 : Ndr UInt64 := do return UInt64.ofNat (← ndrReadInt 8)

def ndrReadUnionInt32 : Ndr UInt32 := do
  let first ← ndrReadInt32
  let second ← ndrReadInt32
  if first != second then Proc.stop ()
  return first

def ndrReadBytes (size : Nat) : Ndr (List UInt8) := ndrReadAligned 2 size

/-- The string up to its terminator, or an error for a NULL answer. -/
def ndrReadVstring (platform : Platform) : Ndr CStr := do
  let rawLen ← ndrReadInt 4
  let _ ← ndrReadInt 4
  let actualLen ← ndrReadInt 4
  if rawLen < actualLen then Proc.stop ()
  if actualLen = 0 then return []
  let stream ← Proc.get
  if stream.payloadSz < stream.offset then Proc.stop ()
  let rawBytes := stream.flags.charWidth * actualLen
  if (stream.payloadSz - stream.offset) / stream.flags.charWidth < actualLen then Proc.stop ()
  match platform.gconvert .utf8 stream.flags.charset ((stream.payload.drop stream.offset).take rawBytes) with
  | none => Proc.stop ()
  | some out =>
    Proc.modify fun stream => { stream with offset := alignUp (stream.offset + rawBytes) stream.flags.autoAlign }
    return out.takeWhile (· != 0)

/-- One call of an NDR write function, or one step of the offset between two calls. -/
inductive Item where
  | int8 (value : UInt8)
  | int16 (value : UInt16)
  | int32 (value : UInt32)
  | int64 (value : UInt64)
  /-- `num_pointers` counted up, then written. -/
  | ref
  | bytes (data : List UInt8)
  | vstring (str : Option CStr)
  | string (str : CStr)
  | lsaString (str : CStr)
  | align (width : Nat)
  | skip (count : Nat)
  deriving DecidableEq

inductive Piece where
  | put (width : Nat) (data : List UInt8)
  /-- The bytes of a string, with the offset aligned behind them even when they do not fit. -/
  | text (data : List UInt8) (behind : Nat)
  | ref
  | align (width : Nat)
  | skip (count : Nat)
  /-- A string that cannot be converted. -/
  | unconverted
  deriving DecidableEq

namespace Item

def int (flags : NdrFlags) (width value : Nat) : Piece := .put width (encode flags.littleEndian width value)

/-- Maximum count, offset and actual count of a conformant and varying string. -/
def counts (flags : NdrFlags) (maximum actual : Nat) : List Piece :=
  [int flags 4 maximum, int flags 4 0, int flags 4 actual]

def pieces (platform : Platform) (flags : NdrFlags) : Item → List Piece
  | .int8 value => [int flags 1 value.toNat]
  | .int16 value => [int flags 2 value.toNat]
  | .int32 value => [int flags 4 value.toNat]
  | .int64 value => [int flags 8 value.toNat]
  | .ref => [.ref]
  | .bytes data => [.put 2 data]
  | .vstring str =>
    let raw := str.getD []
    match platform.gconvert flags.charset .utf8 (raw ++ [0]) with
    | none => [.unconverted]
    | some out =>
      let count := platform.utf8Strlen raw + 1
      counts flags count count ++ [.put 2 out, .align flags.autoAlign]
  | .string str =>
    match platform.gconvert flags.charset .utf8 (str ++ [0]) with
    | none => [.unconverted]
    | some out => counts flags (str.length + 1) (str.length + 1) ++ [.text out flags.autoAlign]
  | .lsaString str =>
    match platform.gconvert flags.charset .utf8 str with
    | none => [.unconverted]
    | some out => counts flags (str.length + 1) str.length ++ [.text out flags.autoAlign]
  | .align width => [.align width]
  | .skip count => [.skip count]

end Item

/-- `try_realloc_payload` on a payload of fixed size, then the copy. -/
def ndrPut (width : Nat) (data : List UInt8) : Ndr Unit := fun stream =>
  let aligned := stream.alignOffset width
  if aligned.offset + data.length ≤ aligned.payloadSz then
    (.ok (), { aligned with
      payload := overlay aligned.payload aligned.offset data, offset := aligned.offset + data.length })
  else (.stop (), aligned)

def Piece.write : Piece → Ndr Unit
  | .put width data => ndrPut width data
  | .text data behind => fun stream =>
    let (outcome, after) := ndrPut 2 data stream
    (outcome, after.alignOffset behind)
  | .ref => do
    Proc.modify fun stream => { stream with numPointers := stream.numPointers + 1 }
    let stream ← Proc.get
    ndrPut 4 (encode stream.littleEndian 4 stream.numPointers.toNat)
  | .align width => Proc.modify (·.alignOffset width)
  | .skip count => Proc.modify fun stream => { stream with offset := stream.offset + count }
  | .unconverted => Proc.stop ()

def ndrWrite (platform : Platform) (items : List Item) : Ndr Unit := fun stream =>
  Proc.each (items.flatMap (Item.pieces platform stream.flags)) Piece.write stream

end KsmbdTools.Rpc
