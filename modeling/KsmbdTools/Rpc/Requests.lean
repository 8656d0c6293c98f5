import KsmbdTools.Rpc.Lsarpc

/-! The requests on a pipe, and the worker that allocates a reply, dispatches
an RPC message by its flags and sends the reply. -/

namespace KsmbdTools.Rpc
open Management

/-- `struct ksmbd_rpc_command` as received; `payload_sz` is the length of the payload. -/
structure Command where
  handle : UInt32
  xid : UInt32 := 0
  flags : UInt32
  payload : List UInt8 := []
  deriving DecidableEq

/-- The response command: the bytes written to its payload, and `payload_sz`. -/
structure Response where
  payload : List UInt8 := []
  payloadSz : Nat := 0
  deriving DecidableEq

structure Exchange where
  server : Server
  resp : Response := {}
  deriving DecidableEq

inductive Service where
  | srvsvc
  | wkssvc
  | samr
  | lsarpc
  deriving DecidableEq

def service? (flags : UInt32) : Option Service :=
  if testFlag flags Method.srvsvcInvoke then some .srvsvc
  else if testFlag flags Method.wkssvcInvoke then some .wkssvc
  else if testFlag flags Method.samrInvoke then some .samr
  else if testFlag flags Method.lsarpcInvoke then some .lsarpc
  else none

variable (machine : Machine)

def serviceReadRequest (maxRespSz : Nat) : Service → Proc Work Status Unit
  | .srvsvc => rpcSrvsvcReadRequest machine maxRespSz
  | .wkssvc => rpcWkssvcReadRequest machine maxRespSz
  | .samr => rpcSamrReadRequest machine
  | .lsarpc => rpcLsarpcReadRequest machine

def serviceWriteRequest : Service → Proc Work Status Unit
  | .srvsvc => rpcSrvsvcWriteRequest machine
  | .wkssvc => rpcWkssvcWriteRequest machine
  | .samr => rpcSamrWriteRequest machine
  | .lsarpc => rpcLsarpcWriteRequest machine

def isBind (ptype : UInt8) : Bool := ptype == Ptype.bind || ptype == Ptype.altCont

/-- The return handler of the pending PDU, for the command in `rpc_req`. -/
def returnHandler (maxRespSz : Nat) : Proc Work Status Unit := do
  let work ← Proc.get
  let dce := work.channel.dce
  if isBind dce.hdr.ptype then dcerpcBindReturn machine
  else if dce.hdr.ptype = Ptype.request then
    match service? dce.rpcFlags with
    | none => Proc.stop .notImplemented
    | some service => serviceReadRequest machine maxRespSz service
  else Proc.stop .notImplemented

/-- The invoke handler of the PDU whose header was read, for the command in `rpc_req`. -/
def invokePdu : Proc Work Status Unit := do
  let work ← Proc.get
  let dce := work.channel.dce
  if isBind dce.hdr.ptype then dcerpcBindInvoke machine
  else if dce.hdr.ptype = Ptype.request then
    dcerpcRequestHdrRead .badData
    match service? dce.rpcFlags with
    | none => Proc.stop .notImplemented
    | some service => serviceWriteRequest machine service
  else Proc.stop .notImplemented

def invokeHandler : Proc Work Status Unit := do
  dcerpcHdrRead .badData
  invokePdu machine

namespace Server

def setChannel (server : Server) (handle : UInt32) (channel : Channel) : Server :=
  { server with pipes := server.pipes.replace handle channel }

def finish (server : Server) (handle : UInt32) (work : Work) : Server :=
  { server with store := work.store, pipes := server.pipes.replace handle work.channel }

/-- `(unsigned int)-1`, the id of a pipe that is not in the table. -/
def unboundId : UInt32 := 0xFFFFFFFF

def dangles (server : Server) (handle : UInt32) : Bool := server.dangling && handle == unboundId

def noPipe {σ α : Type} (server : Server) (handle : UInt32) (code : Status) : Proc σ Status α :=
  if server.dangles handle then Proc.fault else Proc.stop code

end Server

namespace Channel

/-- The pipe as `rpc_write_request` hands it to the parser. -/
def startWrite (channel : Channel) (req : Command) : Channel where
  pipe := { channel.pipe with ioctlReplyConsumed := false }
  dce := { channel.dce with
    rpcFlags := req.flags
    stream := channel.dce.stream.setExtPayload req.payload req.payload.length
    returnReady := true }

/-- The pipe as `rpc_read_request` hands it to the return handler. -/
def startRead (channel : Channel) (req : Command) (resp : Response) (maxRespSz : Nat) : Channel :=
  { channel with dce := { channel.dce with
      rpcFlags := req.flags
      stream := channel.dce.stream.setExtPayload resp.payload maxRespSz
      returnReady := false } }

/-- The pipe as `rpc_pending_response_len` hands it to the return handler. -/
def startPeek (channel : Channel) (scratchSz : Nat) : Channel where
  pipe := { channel.pipe with entryProcessed := none }
  dce := { channel.dce with stream := channel.dce.stream.setExtPayload [] scratchSz }

/-- The two structures copied back. The array of entries is one of the things they
only point to. -/
def restore (channel peeked : Channel) : Channel :=
  { channel with pipe := { channel.pipe with entries := peeked.pipe.entries } }

end Channel

def rpcWriteRequest (req : Command) : Proc Exchange Status Unit := fun exchange =>
  match exchange.server.pipes.lookup req.handle with
  | none => exchange.server.noPipe req.handle .noMem exchange
  | some channel =>
    if channel.dce.returnReady then (.ok (), exchange)
    else
      let (outcome, work) := invokeHandler machine ⟨exchange.server.store, channel.startWrite req, 0⟩
      (outcome, { exchange with server := exchange.server.finish req.handle work })

def rpcReadRequest (req : Command) (maxRespSz : Nat) : Proc Exchange Status Unit := fun exchange =>
  match exchange.server.pipes.lookup req.handle with
  | none => exchange.server.noPipe req.handle .badFid exchange
  | some channel =>
    if channel.pipe.ioctlReplyConsumed then
      let channel := { channel with dce := { channel.dce with returnReady := false } }
      (.ok (), { exchange with server := exchange.server.setChannel req.handle channel })
    else if !channel.dce.returnReady then (.ok (), exchange)
    else
      let (outcome, work) := returnHandler machine maxRespSz
        ⟨exchange.server.store, channel.startRead req exchange.resp maxRespSz, exchange.resp.payloadSz⟩
      (outcome, {
        server := exchange.server.finish req.handle work
        resp := ⟨work.channel.dce.stream.payload, work.payloadSz⟩ })

def consumeReply (handle : UInt32) : Proc Exchange Status Unit := fun exchange =>
  match exchange.server.pipes.lookup handle with
  | none => (.fault, exchange)
  | some channel =>
    let channel : Channel := {
      pipe := { channel.pipe with ioctlReplyConsumed := true }
      dce := { channel.dce with returnReady := false } }
    (.ok (), { exchange with server := exchange.server.setChannel handle channel })

def rpcIoctlRequest (req : Command) (maxRespSz : Nat) : Proc Exchange Status Unit := do
  if req.payload.length < headerSize then Proc.stop .badData
  let exchange ← Proc.get
  if req.handle ∉ exchange.server.pipes then exchange.server.noPipe req.handle .badFid
  rpcWriteRequest machine req
  rpcReadRequest machine req maxRespSz
  consumeReply req.handle

def pipePeekScratchSz : Nat := 4 * 1024 * 1024

/-- The length of the pending reply, found by running its return handler on a scratch
buffer. What the handler did behind the two copied structures stays done. The flags it reads
are those of the last command on the pipe, which the worker has freed by then. -/
def rpcPendingResponseLen (handle : UInt32) (channel : Channel) : Proc Server Status Nat := fun server =>
  let (outcome, work) := returnHandler machine pipePeekScratchSz
    ⟨server.store, channel.startPeek pipePeekScratchSz, 0⟩
  let server := { server with store := work.store }.setChannel handle (channel.restore work.channel)
  match outcome with
  | .ok _ => (.ok work.payloadSz, server)
  | .stop code => (.stop code, server)
  | .fault => (.fault, server)

structure PipeInfo where
  pipeState : Nat := 0
  readDataAvailable : Nat := 0
  numberOfMessages : Nat := 0
  messageLength : Nat := 0
  deriving DecidableEq

def PipeInfo.size : Nat := 16

def PipeInfo.bytes (info : PipeInfo) : List UInt8 :=
  [info.pipeState, info.readDataAvailable, info.numberOfMessages, info.messageLength].flatMap (Bytes.encodeLittle 4)

def filePipeConnectedState : Nat := 3

def commandSize : Nat := 16

def sendInfo (info : PipeInfo) : Proc Exchange Status PipeInfo := do
  Proc.modify fun exchange => { exchange with resp := ⟨info.bytes, PipeInfo.size⟩ }
  return info

def rpcStateRequest (req : Command) (maxRespSz : Nat) : Proc Exchange Status PipeInfo := do
  if maxRespSz < commandSize + PipeInfo.size then Proc.stop .moreData
  let exchange ← Proc.get
  match exchange.server.pipes.lookup req.handle with
  | none => exchange.server.noPipe req.handle .badFid
  | some channel =>
    let info ← sendInfo { pipeState := filePipeConnectedState }
    if !channel.dce.returnReady then return info
    let info ← sendInfo { info with numberOfMessages := 1 }
    let length ← (rpcPendingResponseLen machine req.handle channel).zoom (·.server) fun exchange server =>
      { exchange with server }
    sendInfo { info with messageLength := length, readDataAvailable := length }

def rpcOpenRequest (req : Command) : Proc Exchange Status Unit := do
  let exchange ← Proc.get
  if req.handle ∈ exchange.server.pipes then Proc.stop .exists
  if exchange.server.dangles req.handle then Proc.fault
  let channel : Channel := {
    pipe := { id := req.handle }
    dce := { stream := {
      payload := req.payload, payloadSz := req.payload.length, numPointers := 0,
      flags := { littleEndian := true } } } }
  Proc.modify fun exchange => { exchange with server :=
    { exchange.server with pipes := exchange.server.pipes.insert req.handle channel } }

/-- The pipe is taken from the table unless its id is -1, and freed. -/
def rpcCloseRequest (req : Command) : Proc Exchange Status Unit := fun exchange =>
  match exchange.server.pipes.lookup req.handle with
  | none => exchange.server.noPipe req.handle .badFid exchange
  | some channel =>
    let (outcome, call) := Call.rpcPipeReset machine (Work.call ⟨exchange.server.store, channel, 0⟩)
    (outcome, { exchange with server := {
      store := call.store
      pipes := exchange.server.pipes.erase req.handle
      dangling := exchange.server.dangling || channel.pipe.id == Server.unboundId } })

/-- An RPC message: its `sz`, the command header and what follows it. -/
structure IpcMsg where
  sz : Nat
  handle : UInt32
  xid : UInt32
  flags : UInt32
  payloadSz : Nat
  payload : List UInt8
  deriving DecidableEq

def IpcMsg.command (msg : IpcMsg) : Command where
  handle := msg.handle
  xid := msg.xid
  flags := msg.flags
  payload := msg.payload.take msg.payloadSz

def ipcMaxMessageSize : Nat := 4096

/-- The size a reply is allocated with, and then `resp_msg->sz` as the requests see it. -/
def respMsgSz (flags : UInt32) : Nat :=
  if testFlag flags Method.methodReturn then ipcMaxMessageSize - commandSize else commandSize

/-- `sizeof(struct ksmbd_ipc_msg)`. -/
def ipcMsgSize : Nat := 8

/-- The bytes `ipc_msg_alloc` takes from the heap. -/
def ipcMsgAlloc (sz : Nat) : Nat := sz + ipcMsgSize + 1

/-- Flags are tested one after another, those that share a bit included. -/
def dispatch (req : Command) (maxRespSz : Nat) : Proc Exchange Status Unit :=
  if req.flags &&& Method.rap = Method.rap then Proc.stop .notImplemented
  else if testFlag req.flags Method.openPipe then rpcOpenRequest req
  else if testFlag req.flags Method.close then rpcCloseRequest machine req
  else if testFlag req.flags Method.query then do
    let _ ← rpcStateRequest machine req maxRespSz
  else if testFlag req.flags Method.ioctl then rpcIoctlRequest machine req maxRespSz
  else if testFlag req.flags Method.write then rpcWriteRequest machine req
  else if testFlag req.flags Method.read then rpcReadRequest machine req maxRespSz
  else Proc.stop .notImplemented

/-- A message accepted by `rpc_request`, answered. -/
structure Answered where
  allocSz : Nat
  outcome : Outcome Status Unit
  exchange : Exchange

namespace Answered

/-- `resp_msg->sz` of the message that is sent. -/
def sentSz (answered : Answered) : Nat := commandSize + answered.exchange.resp.payloadSz

end Answered

def rpcRequest (msg : IpcMsg) (server : Server) : Option Answered :=
  if msg.sz < commandSize then none
  else if msg.sz - commandSize < msg.payloadSz then none
  else
    let allocSz := respMsgSz msg.flags
    let (outcome, exchange) := dispatch machine msg.command allocSz ⟨server, {}⟩
    some ⟨allocSz, outcome, exchange⟩

end KsmbdTools.Rpc
