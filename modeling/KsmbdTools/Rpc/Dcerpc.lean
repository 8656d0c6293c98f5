import KsmbdTools.Rpc.Pipe

/-! DCE/RPC headers and the bind exchange. -/

namespace KsmbdTools.Rpc
open Management Bytes

namespace Work
variable (machine : Machine)

def ndr {α : Type} (code : Status) (program : Ndr α) : Proc Work Status α := handle (Call.ndr code program)

def write (items : List Item) : Proc Work Status Unit := handle (Call.write machine items)

def seek (offset : Nat) : Proc Work Status Unit := handle (Call.seek offset)

def modifyDce (f : Dce → Dce) : Proc Work Status Unit :=
  Proc.modify fun work => { work with channel := { work.channel with dce := f work.channel.dce } }

def modifyHdr (f : Header → Header) : Proc Work Status Unit :=
  modifyDce fun dce => { dce with hdr := f dce.hdr }

end Work

def littleEndianDrep : UInt8 := 0x10

def Header.little (hdr : Header) : Bool := hdr.packedDrep[0] == littleEndianDrep

/-- Fields read before an error stay assigned; the last three are assigned together. -/
def dcerpcHdrRead (code : Status) : Proc Work Status Unit := do
  let rpcVers ← Work.ndr code ndrReadInt8
  Work.modifyHdr ({ · with rpcVers })
  let rpcVersMinor ← Work.ndr code ndrReadInt8
  Work.modifyHdr ({ · with rpcVersMinor })
  let ptype ← Work.ndr code ndrReadInt8
  Work.modifyHdr ({ · with ptype })
  let pfcFlags ← Work.ndr code ndrReadInt8
  Work.modifyHdr ({ · with pfcFlags })
  let drep ← Work.ndr code (ndrReadBytes 4)
  let packedDrep := Vector.ofFn fun index : Fin 4 => drep.getD index 0
  Work.modifyDce fun dce => { dce with
    hdr := { dce.hdr with packedDrep }
    stream := { dce.stream with
      flags := { dce.stream.flags with align4 := true, littleEndian := packedDrep[0] == littleEndianDrep } } }
  let fragLength ← Work.ndr code ndrReadInt16
  let authLength ← Work.ndr code ndrReadInt16
  let callId ← Work.ndr code ndrReadInt32
  Work.modifyHdr ({ · with fragLength, authLength, callId })

def dcerpcRequestHdrRead (code : Status) : Proc Work Status Unit := do
  let allocHint ← Work.ndr code ndrReadInt32
  let contextId ← Work.ndr code ndrReadInt16
  let opnum ← Work.ndr code ndrReadInt16
  Work.modifyDce fun dce => { dce with reqHdr := { allocHint, contextId, opnum } }

/-- The calls of `dcerpc_hdr_write`. -/
def Header.items (hdr : Header) : List Item :=
  [.int8 hdr.rpcVers, .int8 hdr.rpcVersMinor, .int8 hdr.ptype, .int8 hdr.pfcFlags,
    .bytes hdr.packedDrep.toList, .int16 hdr.fragLength, .int16 hdr.authLength, .int32 hdr.callId]

def headerSize : Nat := 16

def responseHeaderSize : Nat := 8

namespace Pfc
def firstFrag : UInt8 := 0x01
def lastFrag : UInt8 := 0x02
end Pfc

variable (machine : Machine)

/-- The header written in front of the payload, with its new type. -/
def writeHdr (ptype pfcFlags : UInt8) : Proc Work Status Unit := do
  let work ← Proc.get
  let payloadOffset := work.channel.dce.stream.offset
  Work.seek 0
  Work.modifyHdr ({ · with ptype, pfcFlags, fragLength := UInt16.ofNat payloadOffset })
  let work ← Proc.get
  Work.write machine work.channel.dce.hdr.items

/-- The request header becomes the response header: `opnum` turns into the zero
`cancel_count` and `reserved`. -/
def dcerpcWriteHeaders (methodStatus : Status) : Proc Work Status Unit := do
  let work ← Proc.get
  let payloadOffset := work.channel.dce.stream.offset
  writeHdr machine Ptype.response
    (if methodStatus = .moreData then Pfc.firstFrag else Pfc.firstFrag ||| Pfc.lastFrag)
  Work.modifyDce fun dce => { dce with
    reqHdr := { dce.reqHdr with opnum := 0, allocHint := UInt32.ofNat payloadOffset } }
  Work.write machine [.int32 (UInt32.ofNat payloadOffset), .int16 work.channel.dce.reqHdr.contextId, .int8 0, .int8 0]
  Work.seek payloadOffset

/-- The common end of the four services: return code, headers, payload size. -/
def sendResponse (status : Status) : Proc Work Status Unit := do
  Work.write machine [.int32 status.toUInt32]
  dcerpcWriteHeaders machine status
  Proc.modify fun work => { work with payloadSz := work.channel.dce.stream.offset }

def ndrReadSyntax : Ndr DcerpcSyntax := do
  let timeLow ← ndrReadInt32
  let timeMid ← ndrReadInt16
  let timeHiAndVersion ← ndrReadInt16
  let clockSeq ← ndrReadBytes 2
  let node ← ndrReadBytes 6
  let verMajor ← ndrReadInt16
  let verMinor ← ndrReadInt16
  return { timeLow, timeMid, timeHiAndVersion, clockSeq, node, verMajor, verMinor }

def ndrReadContext : Ndr DcerpcContext := do
  let id ← ndrReadInt16
  let numSyntaxes ← ndrReadInt8
  if numSyntaxes = 0 then Proc.stop ()
  let abstractSyntax ← ndrReadSyntax
  let firstTransfer ← ndrReadSyntax
  let moreTransfers ← Proc.collect (numSyntaxes.toNat - 1) ndrReadSyntax
  return { id, abstractSyntax, firstTransfer, moreTransfers }

def modifyBiReq (f : DcerpcBindRequest → DcerpcBindRequest) : Proc Work Status Unit :=
  Work.modifyDce fun dce => { dce with req := .bind (f (dce.req.biReq machine)) }

/-- The list read, or freed again with the request left without contexts. -/
def readContexts (numContexts : Nat) : Proc Work Status Unit := fun work =>
  match Work.ndr .badData (Proc.collect numContexts ndrReadContext) work with
  | (.ok contexts, after) =>
    let (heap, list) := after.store.contexts.alloc contexts
    modifyBiReq machine ({ · with list := some list }) { after with store := { after.store with contexts := heap } }
  | (.stop code, after) =>
    (modifyBiReq machine ({ · with list := none, numContexts := 0 }) >>= fun _ => Proc.stop code) after
  | (.fault, after) => (.fault, after)

def dcerpcParseBindReq : Proc Work Status Unit := do
  let work ← Proc.get
  modifyBiReq machine ({ · with flags := work.channel.dce.rpcFlags })
  let maxXmitFragSz ← Work.ndr .badData ndrReadInt16
  modifyBiReq machine ({ · with maxXmitFragSz })
  let maxRecvFragSz ← Work.ndr .badData ndrReadInt16
  modifyBiReq machine ({ · with maxRecvFragSz })
  let assocGroupId ← Work.ndr .badData ndrReadInt32
  modifyBiReq machine ({ · with assocGroupId })
  let numContexts ← Work.ndr .badData ndrReadInt8
  modifyBiReq machine ({ · with numContexts := numContexts.toNat, list := none })
  Work.modifyDce fun dce => { dce with stream := dce.stream.alignOffset 4 }
  if numContexts != 0 then readContexts machine numContexts.toNat

def isDssetupInterface (syn : DcerpcSyntax) : Bool :=
  syn.timeLow == 0x3919286a && syn.timeMid == 0xb10c && syn.timeHiAndVersion == 0x11d0

/-- The contexts of the bind request; the list is not looked at when there are none. -/
def bindContexts (store : Store) (request : DcerpcBindRequest) : Option (List DcerpcContext) :=
  if request.numContexts = 0 then some []
  else (request.list.bind store.contexts.get?).bind fun contexts =>
    if request.numContexts ≤ contexts.length then some (contexts.take request.numContexts) else none

def dcerpcBindInvoke : Proc Work Status Unit := do
  dcerpcParseBindReq machine
  let work ← Proc.get
  let contexts ← Proc.deref (bindContexts work.store (work.channel.dce.req.biReq machine))
  match contexts.find? fun context => isDssetupInterface context.abstractSyntax with
  | none => pure ()
  | some context => Work.modifyDce ({ · with dssetupContextId := some context.id })
  Work.handle (Proc.modify fun call => { call with pipe := { call.pipe with entryProcessed := none } })

/-- `enum DCERPC_BIND_ACK_RESULT`, as far as the daemon answers it. -/
inductive AckResult where
  | accept
  | negotiateAck
  deriving DecidableEq

def knownSyntaxes : List (DcerpcSyntax × AckResult) :=
  [({ timeLow := 0x8a885d04, timeMid := 0x1ceb, timeHiAndVersion := 0x11c9, clockSeq := [0x9f, 0xe8],
      node := [0x8, 0x0, 0x2b, 0x10, 0x48, 0x60], verMajor := 2, verMinor := 0 }, .accept),
    ({ timeLow := 0x6CB71C2C, timeMid := 0x9812, timeHiAndVersion := 0x4540, clockSeq := [0, 0],
        node := [0, 0, 0, 0, 0, 0], verMajor := 1, verMinor := 0 }, .negotiateAck)]

def negotiateAckPnio : DcerpcSyntax :=
  { timeLow := 0, timeMid := 0, timeHiAndVersion := 0, clockSeq := [0, 0], node := [0, 0, 0, 0, 0, 0],
    verMajor := 0, verMinor := 0 }

def dcerpcSyntaxSupported (syn : DcerpcSyntax) : Option AckResult :=
  (knownSyntaxes.find? fun known => syn == known.1).map (·.2)

def DcerpcSyntax.items (syn : DcerpcSyntax) : List Item :=
  [.int32 syn.timeLow, .int16 syn.timeMid, .int16 syn.timeHiAndVersion, .bytes syn.clockSeq, .bytes syn.node,
    .int16 syn.verMajor, .int16 syn.verMinor]

/-- The result for one context, decided by its first known transfer syntax. -/
def DcerpcContext.ackItems (context : DcerpcContext) : List Item :=
  match context.transferSyntaxes.find? fun syn => (dcerpcSyntaxSupported syn).isSome with
  | none => [.int16 2, .int16 2] ++ context.firstTransfer.items
  | some syn =>
    match dcerpcSyntaxSupported syn with
    | some .negotiateAck => [.int16 3, .int16 0] ++ negotiateAckPnio.items
    | _ => [.int16 0, .int16 0] ++ syn.items

def nackItems : List Item :=
  [.int16 4, .int8 (UInt8.ofNat knownSyntaxes.length), .align 4] ++
    knownSyntaxes.flatMap fun known =>
      [.int8 (UInt8.ofNat known.1.verMajor.toNat), .int8 (UInt8.ofNat known.1.verMinor.toNat)]

def sendBindReply (ptype : UInt8) : Proc Work Status Unit := do
  let work ← Proc.get
  let payloadOffset := work.channel.dce.stream.offset
  writeHdr machine ptype (Pfc.firstFrag ||| Pfc.lastFrag)
  Work.seek payloadOffset
  Proc.modify fun work => { work with payloadSz := payloadOffset }

def dcerpcBindNackReturn : Proc Work Status Unit := do
  Work.seek headerSize
  Work.write machine nackItems
  sendBindReply machine Ptype.bindNack

/-- ASCII of the pipe's name behind `\PIPE\`, by the service of the bind request. -/
def pipeAddr (flags : UInt32) : Option CStr :=
  let pipe : CStr := [92, 80, 73, 80, 69, 92]
  if testFlag flags Method.srvsvcInvoke then some (pipe ++ [115, 114, 118, 115, 118, 99])
  else if testFlag flags Method.wkssvcInvoke then some (pipe ++ [119, 107, 115, 115, 118, 99])
  else if testFlag flags Method.samrInvoke then some (pipe ++ [115, 97, 109, 114])
  else if testFlag flags Method.lsarpcInvoke then some (pipe ++ [108, 115, 97, 114, 112, 99])
  else none

def dcerpcBindAckReturn (contexts : List DcerpcContext) : Proc Work Status Unit := do
  Work.seek headerSize
  modifyBiReq machine fun request =>
    if request.assocGroupId = 0 then { request with assocGroupId := 0x53f0 } else request
  let work ← Proc.get
  let request := work.channel.dce.req.biReq machine
  let altCont := work.channel.dce.hdr.ptype == Ptype.altCont
  Work.write machine [.int16 request.maxXmitFragSz, .int16 request.maxRecvFragSz, .int32 request.assocGroupId]
  match pipeAddr request.flags with
  | none => Proc.stop .badFunc
  | some addr =>
    Work.write machine <|
      (if altCont then [.int16 0, .int16 0] else [.int16 (UInt16.ofNat addr.length), .bytes addr]) ++
      [.align 4, .int8 (UInt8.ofNat request.numContexts), .align 2] ++ contexts.flatMap DcerpcContext.ackItems
    sendBindReply machine (if altCont then Ptype.altContResp else Ptype.bindAck)

/-- Freeing goes through the list, so it must be there when contexts are counted. -/
def dcerpcBindReqFree : Proc Work Status Unit := do
  let work ← Proc.get
  let request := work.channel.dce.req.biReq machine
  let _ ← Proc.deref (bindContexts work.store request)
  match request.list with
  | none => pure ()
  | some list =>
    let _ ← Proc.deref (work.store.contexts.get? list)
    Proc.modify fun work => { work with store := { work.store with contexts := work.store.contexts.free list } }
  modifyBiReq machine ({ · with list := none, numContexts := 0 })

def dcerpcBindReturn : Proc Work Status Unit := do
  let work ← Proc.get
  let contexts ← Proc.deref (bindContexts work.store (work.channel.dce.req.biReq machine))
  let ack := contexts.any fun context => context.transferSyntaxes.any fun syn => (dcerpcSyntaxSupported syn).isSome
  let ret ← Proc.code .ok (if ack then dcerpcBindAckReturn machine contexts else dcerpcBindNackReturn machine)
  dcerpcBindReqFree machine
  answer ret

end KsmbdTools.Rpc
