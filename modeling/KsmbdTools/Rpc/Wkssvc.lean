import KsmbdTools.Rpc.Srvsvc

/-! The workstation service: what a client asks of the server's own machine. -/

namespace KsmbdTools.Rpc
open Management

namespace Wkssvc

def netwkstaGetInfo : UInt16 := 0

def platformIdNt : UInt32 := 500

def entryRepCtr100 : List Item := [.int32 platformIdNt, .ref, .ref, .int32 2, .int32 1]

def entryDataCtr100 (serverName workGroup : Option CStr) : List Item := [.vstring serverName, .vstring workGroup]

end Wkssvc

open Wkssvc
variable (machine : Machine)

def modifyWiReq (f : WkssvcNetwkstaInfoRequest → WkssvcNetwkstaInfoRequest) : Proc Call Status Unit :=
  Proc.modify fun call => { call with req := .wkssvc (f (call.req.wiReq machine)) }

def wkssvcParseNetwkstaInfoReq : Proc Call Status Unit := do
  Call.readUniqVstringPtr machine .badData fun serverName req => .wkssvc { req.wiReq machine with serverName }
  let level ← Call.ndr .badData ndrReadInt32
  if intMax < level then Proc.stop .badData
  modifyWiReq machine ({ · with level })

def wkssvcNetwkstaGetInfoReturn : Proc Call Status Unit := do
  let call ← Proc.get
  let request := call.req.wiReq machine
  Call.write machine [.int32 request.level, .int32 request.level]
  if request.level != 100 then Proc.stop .invalidLevel
  Call.write machine entryRepCtr100
  let serverName ← Call.strVal request.serverName.ptr
  Call.write machine (entryDataCtr100 serverName call.store.management.globalConf.workGroup)

def wkssvcClearHeaders : Proc Call Status Unit := do
  let call ← Proc.get
  Call.freeString (call.req.wiReq machine).serverName.ptr
  modifyWiReq machine ({ · with serverName := {} })

def wkssvcNetwkstaInfoReturn (restricted : Bool) : Proc Call Status Status := do
  Call.seek (headerSize + responseHeaderSize)
  Proc.modify fun call => { call with pipe := { call.pipe with numProcessed := 0 } }
  let call ← Proc.get
  if (call.req.wiReq machine).level != 100 then Call.rpcPipeReset machine
  let status ← Proc.code .ok (wkssvcNetwkstaGetInfoReturn machine)
  let status := if restricted then .accessDenied else status
  wkssvcClearHeaders machine
  return status

/-- With the only method there is, restricted and free contexts end alike. -/
def rpcWkssvcWriteRequest : Proc Work Status Unit := do
  let work ← Proc.get
  if work.channel.dce.reqHdr.opnum = netwkstaGetInfo then Work.handle (wkssvcParseNetwkstaInfoReq machine)
  else Proc.stop .notImplemented

def rpcWkssvcReadRequest (maxRespSz : Nat) : Proc Work Status Unit := do
  let work ← Proc.get
  if work.channel.dce.reqHdr.opnum = netwkstaGetInfo then
    setRespPayload maxRespSz
    let status ← Work.handle (wkssvcNetwkstaInfoReturn machine
      (rpcRestrictedContext work.store.management.globalConf work.channel.dce.rpcFlags))
    sendResponse machine status
  else Proc.stop .badFunc

end KsmbdTools.Rpc
