import KsmbdTools.Table
import KsmbdTools.Management.Proofs.Histories
import KsmbdTools.Rpc.Requests

/-! The requests on an open pipe, case by case, and runs of them. -/

namespace KsmbdTools.Rpc
open Management Proc

theorem Work.handle_of {ε α : Type} {handler : Proc Call ε α} {work : Work} {outcome : Outcome ε α} {after : Call}
    (ran : handler work.call = (outcome, after)) : Work.handle handler work = (outcome, work.setCall after) := by
  simp only [Work.handle, Proc.zoom, ran]

theorem Work.handle_ran {ε α : Type} {handler : Proc Call ε α} {work after : Work} {outcome : Outcome ε α}
    (ran : Work.handle handler work = (outcome, after)) :
    ∃ call, handler work.call = (outcome, call) ∧ after = work.setCall call := by
  simp only [Work.handle, Proc.zoom] at ran
  cases ran
  exact ⟨_, rfl, rfl⟩

def Exchange.writing (exchange : Exchange) (channel : Channel) (req : Command) : Work :=
  ⟨exchange.server.store, channel.startWrite req, 0⟩

def Exchange.reading (exchange : Exchange) (channel : Channel) (req : Command) (maxRespSz : Nat) : Work :=
  ⟨exchange.server.store, channel.startRead req exchange.resp maxRespSz, exchange.resp.payloadSz⟩

def Exchange.peeking (exchange : Exchange) (channel : Channel) : Work :=
  ⟨exchange.server.store, channel.startPeek pipePeekScratchSz, 0⟩

/-- The server behind a state query, with the two structures of the pipe copied back. -/
def Server.peeked (server : Server) (handle : UInt32) (channel : Channel) (work : Work) : Server :=
  { server with store := work.store }.setChannel handle (channel.restore work.channel)

namespace Server
variable {server : Server} {handle : UInt32} {channel : Channel}

theorem lookup_finish (found : server.pipes.lookup handle = some channel) (work : Work) :
    (server.finish handle work).pipes.lookup handle = some work.channel := Table.lookup_replace_of_lookup _ found

theorem lookup_setChannel (found : server.pipes.lookup handle = some channel) (fresh : Channel) :
    (server.setChannel handle fresh).pipes.lookup handle = some fresh := Table.lookup_replace_of_lookup _ found

theorem lookup_peeked (found : server.pipes.lookup handle = some channel) (work : Work) :
    (server.peeked handle channel work).pipes.lookup handle = some (channel.restore work.channel) :=
  Table.lookup_replace_of_lookup _ found

theorem noPipe_keeps {σ α : Type} {assertion : σ → Prop} (code : Status) :
    Preserves assertion (server.noPipe handle code : Proc σ Status α) := .ite .fault (.stop _)

end Server

section
variable {machine : Machine} {req : Command} {maxRespSz : Nat} {exchange : Exchange} {channel : Channel}

structure Channel.Opened (handle : UInt32) (channel : Channel) : Prop where
  pipe : channel.pipe = { id := handle }
  idle : channel.dce.returnReady = false
  unnamed : channel.dce.dssetupContextId = none

theorem rpcOpenRequest_ok {after : Exchange} (opened : rpcOpenRequest req exchange = (.ok (), after)) :
    ∃ channel : Channel, channel.Opened req.handle ∧ after = { exchange with
      server := { exchange.server with pipes := exchange.server.pipes.insert req.handle channel } } := by
  obtain ⟨_, _, got, rest⟩ := bind_eq_ok.mp opened
  cases got
  split at rest
  next =>
    obtain ⟨_, _, stopped, -⟩ := bind_eq_ok.mp rest
    cases stopped
  split at rest
  next =>
    obtain ⟨_, _, faulted, -⟩ := bind_eq_ok.mp rest
    cases faulted
  cases rest
  exact ⟨_, ⟨rfl, rfl, rfl⟩, rfl⟩

theorem rpcWriteRequest_absent (absent : exchange.server.pipes.lookup req.handle = none) :
    ∃ outcome, rpcWriteRequest machine req exchange = (outcome, exchange) ∧ outcome ≠ .ok () := by
  simp only [rpcWriteRequest, absent, Server.noPipe]
  split
  · exact ⟨.fault, rfl, nofun⟩
  · exact ⟨.stop .noMem, rfl, nofun⟩

theorem rpcWriteRequest_pending (found : exchange.server.pipes.lookup req.handle = some channel)
    (ready : channel.dce.returnReady = true) : rpcWriteRequest machine req exchange = (.ok (), exchange) := by
  simp only [rpcWriteRequest, found, ready, ↓reduceIte]

theorem rpcWriteRequest_idle (found : exchange.server.pipes.lookup req.handle = some channel)
    (idle : channel.dce.returnReady = false) :
    rpcWriteRequest machine req exchange =
      ((invokeHandler machine (exchange.writing channel req)).1,
        { exchange with
          server := exchange.server.finish req.handle (invokeHandler machine (exchange.writing channel req)).2 }) := by
  simp only [rpcWriteRequest, found, idle, Bool.false_eq_true, ↓reduceIte]
  rfl

theorem rpcReadRequest_absent (absent : exchange.server.pipes.lookup req.handle = none) :
    rpcReadRequest machine req maxRespSz exchange = exchange.server.noPipe req.handle .badFid exchange := by
  simp only [rpcReadRequest, absent]

theorem rpcReadRequest_consumed (found : exchange.server.pipes.lookup req.handle = some channel)
    (consumed : channel.pipe.ioctlReplyConsumed = true) :
    rpcReadRequest machine req maxRespSz exchange = (.ok (), { exchange with
      server := exchange.server.setChannel req.handle
        { channel with dce := { channel.dce with returnReady := false } } }) := by
  simp only [rpcReadRequest, found, consumed, ↓reduceIte]

theorem rpcReadRequest_idle (found : exchange.server.pipes.lookup req.handle = some channel)
    (fresh : channel.pipe.ioctlReplyConsumed = false) (idle : channel.dce.returnReady = false) :
    rpcReadRequest machine req maxRespSz exchange = (.ok (), exchange) := by
  simp only [rpcReadRequest, found, fresh, idle, Bool.false_eq_true, Bool.not_false, ↓reduceIte]

theorem rpcReadRequest_pending (found : exchange.server.pipes.lookup req.handle = some channel)
    (fresh : channel.pipe.ioctlReplyConsumed = false) (ready : channel.dce.returnReady = true) :
    rpcReadRequest machine req maxRespSz exchange =
      let ended := returnHandler machine maxRespSz (exchange.reading channel req maxRespSz)
      (ended.1, {
        server := exchange.server.finish req.handle ended.2
        resp := ⟨ended.2.channel.dce.stream.payload, ended.2.payloadSz⟩ }) := by
  simp only [rpcReadRequest, found, fresh, ready, Bool.false_eq_true, Bool.not_true, ↓reduceIte]
  rfl

theorem rpcStateRequest_short (short : maxRespSz < commandSize + PipeInfo.size) :
    rpcStateRequest machine req maxRespSz exchange = (.stop .moreData, exchange) := by
  rw [rpcStateRequest, if_pos short]
  exact bind_stop rfl

theorem rpcStateRequest_absent (room : commandSize + PipeInfo.size ≤ maxRespSz)
    (absent : exchange.server.pipes.lookup req.handle = none) :
    rpcStateRequest machine req maxRespSz exchange = exchange.server.noPipe req.handle .badFid exchange := by
  simp only [rpcStateRequest, if_neg (Nat.not_lt.mpr room), bind_apply, get_apply, absent]

theorem rpcStateRequest_idle (room : commandSize + PipeInfo.size ≤ maxRespSz)
    (found : exchange.server.pipes.lookup req.handle = some channel) (idle : channel.dce.returnReady = false) :
    rpcStateRequest machine req maxRespSz exchange =
      let info : PipeInfo := { pipeState := filePipeConnectedState }
      (.ok info, { exchange with resp := ⟨info.bytes, PipeInfo.size⟩ }) := by
  simp only [rpcStateRequest, if_neg (Nat.not_lt.mpr room), bind_apply, get_apply, found, idle, sendInfo, modify_apply,
    pure_apply, Bool.not_false, ↓reduceIte]

theorem rpcStateRequest_pending (room : commandSize + PipeInfo.size ≤ maxRespSz)
    (found : exchange.server.pipes.lookup req.handle = some channel) (ready : channel.dce.returnReady = true) :
    rpcStateRequest machine req maxRespSz exchange =
      let ended := returnHandler machine pipePeekScratchSz (exchange.peeking channel)
      let server := exchange.server.peeked req.handle channel ended.2
      let info : PipeInfo := { pipeState := filePipeConnectedState, numberOfMessages := 1 }
      match ended.1 with
      | .ok _ =>
        let info := { info with messageLength := ended.2.payloadSz, readDataAvailable := ended.2.payloadSz }
        (.ok info, ⟨server, ⟨info.bytes, PipeInfo.size⟩⟩)
      | .stop code => (.stop code, ⟨server, ⟨info.bytes, PipeInfo.size⟩⟩)
      | .fault => (.fault, ⟨server, ⟨info.bytes, PipeInfo.size⟩⟩) := by
  have peeked : exchange.peeking channel = ⟨exchange.server.store, channel.startPeek pipePeekScratchSz, 0⟩ := rfl
  simp only [rpcStateRequest, if_neg (Nat.not_lt.mpr room), bind_apply, get_apply, found, ready, sendInfo, modify_apply,
    pure_apply, Bool.not_true, Bool.false_eq_true, ↓reduceIte, Proc.zoom, rpcPendingResponseLen, ← peeked]
  rcases returnHandler machine pipePeekScratchSz (exchange.peeking channel) with ⟨_ | _ | _, work⟩ <;> rfl

end

namespace Scenario

def evens : List UInt8 → List UInt8
  | first :: _ :: rest => first :: evens rest
  | rest => rest

def convert (target source : Charset) (bytes : List UInt8) : List UInt8 :=
  let ascii := match source with
    | .utf8 => bytes
    | .utf16le => evens bytes
    | .utf16be => evens bytes.tail
  match target with
  | .utf8 => ascii
  | .utf16le => ascii.flatMap fun byte => [byte, 0]
  | .utf16be => ascii.flatMap fun byte => [0, byte]

/-- A host named `h`; the union of requests shows zeros through its other members. -/
def machine : Machine :=
  { Management.Scenario.plainPlatform with
    gethostname := some [104]
    gconvert := fun target source bytes => some (convert target source bytes)
    asSrvsvc := fun _ => {}
    asBind := fun _ => {}
    asWkssvc := fun _ => {}
    asSamr := fun _ => {}
    asLsarpc := fun _ => {}
    mallocNamesInfo := {}
    mallocConnectHandle := fun _ _ => true
    mallocPolicyHandle := fun _ _ => true }

def pipe : UInt32 := 7

def server : Server :=
  let share : ShareGroup := { name := Management.Scenario.shareName, flags := ShareFlag.browseable }
  let store : Store := { management := Management.Scenario.loaded share }
  (rpcOpenRequest { handle := pipe, flags := Method.openPipe } { server := { store } }).2.server

def int32 (value : Nat) : List UInt8 := Bytes.encodeLittle 4 value

/-- A little endian PDU with nothing but its type and its call id set. -/
def pdu (ptype : UInt8) (callId : Nat) (body : List UInt8) : List UInt8 :=
  [5, 0, ptype, 3, littleEndianDrep, 0, 0, 0, 0, 0, 0, 0] ++ int32 callId ++ body

def request (opnum : UInt8) (callId : Nat) (stub : List UInt8) : List UInt8 :=
  pdu Ptype.request callId (int32 0 ++ [0, 0, opnum, 0] ++ stub)

/-- `NetShareEnumAll` on level 1 without a server name. -/
def shareEnum (callId maxSize : Nat) : List UInt8 :=
  request 15 callId (int32 0 ++ int32 1 ++ int32 1 ++ int32 1 ++ int32 0 ++ int32 0 ++ int32 maxSize ++ int32 0)

def write (payload : List UInt8) : Command :=
  { handle := pipe, flags := Method.write ||| Method.srvsvcInvoke, payload }

def read : Command := { handle := pipe, flags := Method.read ||| Method.srvsvcInvoke }

def ioctl (payload : List UInt8) : Command :=
  { handle := pipe, flags := Method.ioctl ||| Method.srvsvcInvoke, payload }

def query : Command := { handle := pipe, flags := Method.query ||| Method.srvsvcInvoke }

def pending : Server := (rpcWriteRequest machine (write (shareEnum 1 4000)) ⟨server, {}⟩).2.server

end Scenario
end KsmbdTools.Rpc
