import KsmbdTools.Rpc.Dcerpc
import KsmbdTools.Rpc.SmbAcl

/-! The NDR functions on machine words. The offset is a `size_t`, whose sums wrap around, `dcerpc_write_headers` keeps
it in an `int`, and a copy that leaves the payload is undefined. -/

namespace KsmbdTools.Rpc
open Bytes

/-- What the functions use of a `ksmbd_dcerpc` with a payload of fixed size. `payload_sz` is the length of the list. -/
structure Buffer where
  payload : List UInt8
  offset : Nat
  flags : NdrFlags
  hdr : Header := {}
  reqHdr : RequestHeader := {}
  deriving DecidableEq

/-- A sum as `size_t`. -/
def sizeT (sum : Nat) : Nat := sum % 2 ^ 64

/-- An `int` as `size_t`. -/
def sizeTOfInt (number : Int) : Nat := (number % 2 ^ 64).toNat

namespace Buffer

abbrev Program := Proc Buffer Unit

def alignOffset (width : Nat) : Program Unit :=
  Proc.modify fun buffer => { buffer with offset := sizeT (alignUp buffer.offset width) }

def autoAlignOffset : Program Unit := do
  let buffer ← Proc.get
  alignOffset buffer.flags.autoAlign

def advance (size : Nat) : Program Unit :=
  Proc.modify fun buffer => { buffer with offset := sizeT (buffer.offset + size) }

/-- The bytes at `PAYLOAD_HEAD`. No byte is looked at for none. -/
def load (size : Nat) : Program (List UInt8) := fun buffer =>
  if size = 0 then (.ok [], buffer)
  else if buffer.offset + size ≤ buffer.payload.length then (.ok ((buffer.payload.drop buffer.offset).take size), buffer)
  else (.fault, buffer)

def store (data : List UInt8) : Program Unit := fun buffer =>
  if data.isEmpty then (.ok (), buffer)
  else if buffer.offset + data.length ≤ buffer.payload.length then
    (.ok (), { buffer with payload := overlay buffer.payload buffer.offset data })
  else (.fault, buffer)

def tryReallocPayload (dataSz : Nat) : Program Unit := do
  let buffer ← Proc.get
  if 2 ^ 64 - 1 - buffer.offset < dataSz then Proc.stop ()
  if buffer.payload.length < sizeT (buffer.offset + dataSz) then Proc.stop ()

/-- What `NDR_WRITE_INT` and `ndr_write_bytes` do with the bytes of their value. -/
def writeAligned (width : Nat) (data : List UInt8) : Program Unit := do
  alignOffset width
  tryReallocPayload data.length
  store data
  advance data.length

/-- What `NDR_READ_INT` and `ndr_read_bytes` do. Unlike in the writes, there is no check that the sum can be formed. -/
def readAligned (width size : Nat) : Program (List UInt8) := do
  alignOffset width
  let buffer ← Proc.get
  if buffer.payload.length < sizeT (buffer.offset + size) then Proc.stop ()
  let raw ← load size
  advance size
  return raw

/-- The types of `NDR_WRITE_INT` and `NDR_READ_INT`. -/
inductive IntType where
  | int8
  | int16
  | int32
  | int64
  deriving DecidableEq, Repr

def IntType.size : IntType → Nat
  | .int8 => 1
  | .int16 => 2
  | .int32 => 4
  | .int64 => 8

def ndrWriteInt (type : IntType) (value : Nat) : Program Unit := do
  let buffer ← Proc.get
  writeAligned type.size (encode buffer.flags.littleEndian type.size value)

def ndrReadInt (type : IntType) : Program Nat := do
  let raw ← readAligned type.size type.size
  let buffer ← Proc.get
  return decode buffer.flags.littleEndian raw

def ndrWriteUnion (type : IntType) (value : Nat) : Program Unit := do
  ndrWriteInt type value
  ndrWriteInt type value

def ndrReadUnionInt32 : Program Nat := do
  let first ← ndrReadInt .int32
  let second ← ndrReadInt .int32
  if first ≠ second then Proc.stop ()
  return first

def ndrWriteBytes (value : List UInt8) : Program Unit := writeAligned 2 value

def ndrReadBytes (sz : Nat) : Program (List UInt8) := readAligned 2 sz

section Strings
variable (platform : Platform)

def writeCounts (maximum actual : Nat) : Program Unit := do
  ndrWriteInt .int32 maximum
  ndrWriteInt .int32 0
  ndrWriteInt .int32 actual

def ndrWriteVstring (value : Option CStr) : Program Unit := do
  let buffer ← Proc.get
  let raw := value.getD []
  match platform.gconvert buffer.flags.charset .utf8 (raw ++ [0]) with
  | none => Proc.stop ()
  | some out =>
    writeCounts (platform.utf8Strlen raw + 1) (platform.utf8Strlen raw + 1)
    ndrWriteBytes out
    autoAlignOffset

/-- The offset is aligned behind the bytes even if they do not fit. -/
def writeText (out : List UInt8) : Program Unit := fun buffer =>
  let (outcome, after) := ndrWriteBytes out buffer
  (outcome, (autoAlignOffset after).2)

def ndrWriteString (str : Option CStr) : Program Unit := do
  let buffer ← Proc.get
  let str := str.getD []
  match platform.gconvert buffer.flags.charset .utf8 (str ++ [0]) with
  | none => Proc.stop ()
  | some out =>
    writeCounts (str.length + 1) (str.length + 1)
    writeText out

def ndrWriteLsaString (str : Option CStr) : Program Unit := do
  let buffer ← Proc.get
  let str := str.getD []
  match platform.gconvert buffer.flags.charset .utf8 str with
  | none => Proc.stop ()
  | some out =>
    writeCounts (str.length + 1) str.length
    writeText out

def ndrReadVstring : Program CStr := do
  let rawLen ← ndrReadInt .int32
  let _ ← ndrReadInt .int32
  let actualLen ← ndrReadInt .int32
  if rawLen < actualLen then Proc.stop ()
  if actualLen = 0 then return []
  let buffer ← Proc.get
  if buffer.payload.length < buffer.offset then Proc.stop ()
  if (buffer.payload.length - buffer.offset) / buffer.flags.charWidth < actualLen then Proc.stop ()
  let raw ← load (buffer.flags.charWidth * actualLen)
  match platform.gconvert .utf8 buffer.flags.charset raw with
  | none => Proc.stop ()
  | some out =>
    advance (buffer.flags.charWidth * actualLen)
    autoAlignOffset
    return out.takeWhile (· != 0)

def ndrReadUniqVstringPtr : Program (Option CStr) := do
  let refId ← ndrReadInt .int32
  if refId = 0 then return none
  let str ← ndrReadVstring platform
  return some str

end Strings

def ndrReadUniqPtr : Program Nat := do
  let refId ← ndrReadInt .int32
  if refId = 0 then return 0
  ndrReadInt .int32

def smbReadSid : Program Unit := do
  let _ ← ndrReadInt .int8
  let numSubauth ← ndrReadInt .int8
  if numSubauth = 0 ∨ sidMaxSubAuthorities < numSubauth then Proc.stop ()
  let _ ← Proc.collect 6 (ndrReadInt .int8)
  let _ ← Proc.collect numSubauth (ndrReadInt .int32)

structure RawSid where
  revision : UInt8
  numSubauth : UInt8
  authority : Vector UInt8 6
  subAuth : Vector UInt32 15
  deriving DecidableEq

def smbWriteSid (src : RawSid) : Program Unit := do
  if sidMaxSubAuthorities < src.numSubauth.toNat then Proc.stop ()
  ndrWriteInt .int8 src.revision.toNat
  ndrWriteInt .int8 src.numSubauth.toNat
  Proc.each src.authority.toList fun byte => ndrWriteInt .int8 byte.toNat
  Proc.each (src.subAuth.toList.take src.numSubauth.toNat) fun auth => ndrWriteInt .int32 auth.toNat

def dcerpcHdrWrite (hdr : Header) : Program Unit := do
  ndrWriteInt .int8 hdr.rpcVers.toNat
  ndrWriteInt .int8 hdr.rpcVersMinor.toNat
  ndrWriteInt .int8 hdr.ptype.toNat
  ndrWriteInt .int8 hdr.pfcFlags.toNat
  ndrWriteBytes hdr.packedDrep.toList
  ndrWriteInt .int16 hdr.fragLength.toNat
  ndrWriteInt .int16 hdr.authLength.toNat
  ndrWriteInt .int32 hdr.callId.toNat

def dcerpcResponseHdrWrite (allocHint : UInt32) (contextId : UInt16) : Program Unit := do
  ndrWriteInt .int32 allocHint.toNat
  ndrWriteInt .int16 contextId.toNat
  ndrWriteInt .int8 0
  ndrWriteInt .int8 0

def seek (offset : Nat) : Program Unit := Proc.modify fun buffer => { buffer with offset }

/-- The offset comes back through an `int`. -/
def dcerpcWriteHeaders (moreData : Bool) : Program Unit := do
  let buffer ← Proc.get
  let payloadOffset := toInt32 buffer.offset
  seek 0
  let hdr := { buffer.hdr with
    ptype := Ptype.response
    pfcFlags := if moreData then Pfc.firstFrag else Pfc.firstFrag ||| Pfc.lastFrag
    fragLength := UInt16.ofInt payloadOffset }
  Proc.modify fun buffer => { buffer with hdr }
  dcerpcHdrWrite hdr
  let allocHint := UInt32.ofInt payloadOffset
  Proc.modify fun buffer => { buffer with reqHdr := { buffer.reqHdr with opnum := 0, allocHint } }
  dcerpcResponseHdrWrite allocHint buffer.reqHdr.contextId
  seek (sizeTOfInt payloadOffset)

/-- A call of one of the functions. `ndr_read_ptr` is a read of an integer, and `ndr_read_vstring_ptr` one of a string. -/
inductive Operation where
  | readInt (type : IntType)
  | readUnionInt32
  | readBytes (sz : Nat)
  | readVstring
  | readUniqVstringPtr
  | readUniqPtr
  | writeInt (type : IntType) (value : Nat)
  | writeUnion (type : IntType) (value : Nat)
  | writeBytes (value : List UInt8)
  | writeVstring (value : Option CStr)
  | writeString (str : Option CStr)
  | writeLsaString (str : Option CStr)
  | readSid
  | writeSid (src : RawSid)
  | writeHeaders (moreData : Bool)

namespace Operation

def run (platform : Platform) : Operation → Program Unit
  | .readInt type => do let _ ← ndrReadInt type
  | .readUnionInt32 => do let _ ← ndrReadUnionInt32
  | .readBytes sz => do let _ ← ndrReadBytes sz
  | .readVstring => do let _ ← ndrReadVstring platform
  | .readUniqVstringPtr => do let _ ← ndrReadUniqVstringPtr platform
  | .readUniqPtr => do let _ ← ndrReadUniqPtr
  | .writeInt type value => ndrWriteInt type value
  | .writeUnion type value => ndrWriteUnion type value
  | .writeBytes value => ndrWriteBytes value
  | .writeVstring value => ndrWriteVstring platform value
  | .writeString str => ndrWriteString platform str
  | .writeLsaString str => ndrWriteLsaString platform str
  | .readSid => smbReadSid
  | .writeSid src => smbWriteSid src
  | .writeHeaders moreData => dcerpcWriteHeaders moreData

def isPlainWrite : Operation → Bool
  | .writeInt _ _ | .writeBytes _ => true
  | _ => false

def isPlain : Operation → Bool
  | .readInt _ | .readBytes _ | .writeInt _ _ | .writeBytes _ => true
  | _ => false

end Operation

structure Respects (platform : Platform) (buffer : Buffer) (operation : Operation) : Prop where
  inside : (operation.run platform buffer).1 ≠ .fault
  unchanged : operation.isPlainWrite = true → (operation.run platform buffer).1 = .stop () →
    (operation.run platform buffer).2.payload = buffer.payload
  within : operation.isPlain = true → (operation.run platform buffer).1 = .ok () →
    (operation.run platform buffer).2.offset ≤ buffer.payload.length

/-- Every call of the sequence does, each from where the one before it ended. -/
def AllRespect (platform : Platform) : Buffer → List Operation → Prop
  | _, [] => True
  | buffer, operation :: operations =>
    Respects platform buffer operation ∧ AllRespect platform (operation.run platform buffer).2 operations

end Buffer
end KsmbdTools.Rpc
