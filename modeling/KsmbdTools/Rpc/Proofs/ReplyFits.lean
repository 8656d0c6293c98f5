import KsmbdTools.Rpc.Proofs.Bodies
import KsmbdTools.Rpc.Proofs.PipeRequests

/-! Replies and the block they are written into. A reply is allocated large only
for messages that also ask for the state of the pipe, whose answer is short. All
other replies have no room behind the headers, and then nothing is written. -/

namespace KsmbdTools.Rpc
open Management Bytes Proc

/-- The offset is past a limit that leaves no room behind the header. -/
structure Stream.Stuck (stream : Stream) : Prop where
  payload : stream.payload = []
  room : stream.payloadSz ≤ headerSize
  past : headerSize < stream.offset

namespace Stream.Stuck
variable {machine : Machine} {stream : Stream}

private theorem align_keeps (width : Nat) (stuck : stream.Stuck) : (stream.alignOffset width).Stuck :=
  ⟨stuck.payload, stuck.room, Nat.lt_of_lt_of_le stuck.past (le_alignUp stream.offset width)⟩

private theorem short (stuck : stream.Stuck) (width size : Nat) :
    stream.payloadSz < alignUp stream.offset width + size := by
  have aligned := le_alignUp stream.offset width
  have room := stuck.room
  have past := stuck.past
  omega

private theorem ndrPut_keeps (width : Nat) (data : List UInt8) : Preserves Stuck (ndrPut width data) := by
  intro stream stuck
  rw [ndrPut_full (stuck.short width data.length)]
  exact stuck.align_keeps width

private theorem piece_keeps (piece : Piece) : Preserves Stuck piece.write := by
  cases piece with
  | put width data => exact ndrPut_keeps width data
  | text data width => exact fun stream stuck => (ndrPut_keeps 2 data stream stuck).align_keeps width
  | ref =>
    exact .bind (.modify fun _ stuck => ⟨stuck.payload, stuck.room, stuck.past⟩) fun _ => .bind .get fun _ =>
      ndrPut_keeps _ _
  | align width => exact .modify fun _ stuck => stuck.align_keeps width
  | skip count => exact .modify fun _ stuck => ⟨stuck.payload, stuck.room, Nat.lt_add_right count stuck.past⟩
  | unconverted => exact .stop ()

private theorem write_int {call : Call} {item : Item} {width value : Nat} (rest : List Item)
    (first : item.pieces machine.toPlatform call.stream.flags = [Item.int call.stream.flags width value])
    (stuck : call.stream.Stuck) :
    Call.write machine (item :: rest) call = (.stop .badData, { call with stream := call.stream.alignOffset width }) :=
  Call.write_blocked first (stuck.short width _)

private theorem security_keeps : Preserves (Call.OnStream Stuck) (samrQuerySecurityReturn machine) := by
  have blocked : ∀ conf rid call, Call.OnStream Stuck call →
      buildSecDesc machine conf rid call = (.stop .badData, { call with stream := call.stream.alignOffset 2 }) :=
    fun conf rid call stuck => bind_stop (write_int _ rfl stuck)
  have keeps : ∀ conf rid, Preserves (Call.OnStream Stuck) (buildSecDesc machine conf rid) := by
    intro conf rid call stuck
    rw [blocked conf rid call stuck]
    exact align_keeps 2 stuck
  refine .bind samrChLookup_keeps fun found => ?_
  dsimp only
  split
  next => exact .stop _
  next =>
    refine .bind .get fun call => .bind (.deref _) fun record => .bind (.bind .get fun _ => .pure _) fun _ =>
      .bind (Call.write_keeps piece_keeps _) fun _ => .bind_never (keeps _ _) ?_
    intro call stuck value
    simp [blocked _ _ call stuck]

theorem kept : Call.Kept machine (Call.OnStream Stuck) :=
  ⟨Call.OnStream.apart Stuck, Call.write_keeps piece_keeps, security_keeps⟩

theorem body_start (payload : stream.payload = []) (room : stream.payloadSz ≤ headerSize) :
    Stuck { stream with offset := headerSize + responseHeaderSize } := ⟨payload, room, show 16 < 24 by decide⟩

end Stream.Stuck

/-- A reply with no room behind its header, and nothing written to it. -/
structure Work.Unwritten (work : Work) : Prop where
  payload : work.channel.dce.stream.payload = []
  room : work.channel.dce.stream.payloadSz ≤ headerSize
  payloadSz : work.payloadSz = 0

namespace Work.Unwritten
variable {machine : Machine}

private theorem respond {body : Proc Call Status Status} {next : Status → Proc Work Status Unit} {work : Work}
    (unwritten : work.Unwritten) (stuck : (body work.call).2.stream.Stuck)
    (rest : ∀ status after, after.channel.dce.stream.Stuck → Unwritten after → (next status after).2.Unwritten) :
    ((Work.handle body >>= next) work).2.Unwritten := by
  have silent : Unwritten (work.setCall (body work.call).2) := ⟨stuck.payload, stuck.room, unwritten.payloadSz⟩
  revert stuck silent
  rcases ran : body work.call with ⟨status | code | _, after⟩ <;> intro stuck silent
  · rw [bind_ok (handle_of ran)]
    exact rest status _ stuck silent
  · rw [bind_stop (handle_of ran)]
    exact silent
  · rw [bind_fault (handle_of ran)]
    exact silent

private theorem sendResponse_stops {work : Work} (status : Status) (stuck : work.channel.dce.stream.Stuck) :
    sendResponse machine status work =
      (.stop .badData, work.setCall { work.call with stream := work.channel.dce.stream.alignOffset 4 }) :=
  bind_stop (handle_of (Stream.Stuck.write_int [] rfl stuck))

private theorem sendResponse_keeps {work : Work} (status : Status) (next : Unit → Proc Work Status Unit)
    (stuck : work.channel.dce.stream.Stuck) (unwritten : work.Unwritten) :
    ((sendResponse machine status >>= next) work).2.Unwritten := by
  rw [bind_stop (sendResponse_stops status stuck)]
  exact ⟨unwritten.payload, unwritten.room, unwritten.payloadSz⟩

theorem rpcSamrReadRequest_keeps : Preserves Unwritten (rpcSamrReadRequest machine) := by
  intro work unwritten
  apply respond unwritten
  · exact samrReturn_keeps Stream.Stuck.kept (fun _ => Call.modify_keeps fun _ => rfl) _ _ _
      (.body_start unwritten.payload unwritten.room)
  · exact fun status _ => sendResponse_keeps status _

theorem rpcLsarpcReadRequest_keeps : Preserves Unwritten (rpcLsarpcReadRequest machine) := by
  intro work unwritten
  apply respond unwritten
  · exact lsarpcReturn_keeps Stream.Stuck.kept.replies (fun _ => Call.modify_keeps fun _ => rfl) _ _ _
      (.body_start unwritten.payload unwritten.room)
  · exact fun status _ => sendResponse_keeps status _

private theorem respond_limited {body : Proc Call Status Status} {limit : Nat} (room : limit ≤ headerSize)
    (keeps : ∀ call : Call, Stream.Stuck { call.stream with offset := headerSize + responseHeaderSize } →
      (body call).2.stream.Stuck) :
    Preserves Unwritten (setRespPayload limit >>= fun _ => Work.handle body >>= sendResponse machine) := by
  refine .bind (.modify fun work unwritten => ⟨unwritten.payload, room, unwritten.payloadSz⟩) fun _ => ?_
  intro work unwritten
  apply respond unwritten
  · exact keeps _ (.body_start unwritten.payload unwritten.room)
  · intro status after stuck silent
    rw [sendResponse_stops status stuck]
    exact ⟨silent.payload, silent.room, silent.payloadSz⟩

theorem rpcSrvsvcReadRequest_keeps {maxRespSz : Nat} (room : maxRespSz ≤ headerSize) :
    Preserves Unwritten (rpcSrvsvcReadRequest machine maxRespSz) := by
  refine .bind .get fun work => .ite (respond_limited ?_ ?_) (.stop _)
  · split <;> omega
  · exact srvsvcShareInfoReturn_keeps Stream.Stuck.kept _ _

theorem rpcWkssvcReadRequest_keeps {maxRespSz : Nat} (room : maxRespSz ≤ headerSize) :
    Preserves Unwritten (rpcWkssvcReadRequest machine maxRespSz) :=
  .bind .get fun _ => .ite (respond_limited room (wkssvcNetwkstaInfoReturn_keeps Stream.Stuck.kept.replies _)) (.stop _)

private theorem bind_stops {items : List Item} {value : UInt16} {work : Work} (next : Unit → Proc Work Status Unit)
    (unwritten : work.Unwritten) (offset : work.channel.dce.stream.offset = headerSize) :
    ((Work.write machine (.int16 value :: items) >>= next) work).2.Unwritten := by
  have short : work.call.stream.payloadSz < alignUp work.call.stream.offset 2 +
      (encode work.call.stream.littleEndian 2 value.toNat).length := by
    have limit : work.call.stream.payloadSz ≤ work.call.stream.offset := offset ▸ unwritten.room
    have aligned := le_alignUp work.call.stream.offset 2
    rw [length_encode]
    omega
  have stops : Work.write machine (.int16 value :: items) work = (.stop .badData, _) :=
    handle_of (Call.write_blocked rfl short)
  rw [bind_stop stops]
  exact ⟨unwritten.payload, unwritten.room, unwritten.payloadSz⟩

private theorem dcerpcBindReqFree_keeps : Preserves Unwritten (dcerpcBindReqFree machine) := by
  refine .bind .get fun work => .bind (.deref _) fun _ => ?_
  have last : Preserves Unwritten (modifyBiReq machine ({ · with list := none, numContexts := 0 })) :=
    .modify fun _ unwritten => ⟨unwritten.payload, unwritten.room, unwritten.payloadSz⟩
  dsimp only
  split
  next => exact last
  next =>
    refine .bind (.deref _) fun _ => .bind (.modify ?_) fun _ => last
    exact fun _ unwritten => ⟨unwritten.payload, unwritten.room, unwritten.payloadSz⟩

theorem dcerpcBindReturn_keeps : Preserves Unwritten (dcerpcBindReturn machine) := by
  have ack : ∀ contexts, Preserves Unwritten (dcerpcBindAckReturn machine contexts) := fun contexts work unwritten =>
    bind_stops _ ⟨unwritten.payload, unwritten.room, unwritten.payloadSz⟩ rfl
  have nack : Preserves Unwritten (dcerpcBindNackReturn machine) := fun work unwritten =>
    bind_stops _ ⟨unwritten.payload, unwritten.room, unwritten.payloadSz⟩ rfl
  exact .bind .get fun _ => .bind (.deref _) fun contexts => .bind (.code (.ite (ack contexts) nack)) fun _ =>
    .bind dcerpcBindReqFree_keeps fun _ => .ite (.pure ()) (.stop _)

theorem returnHandler_keeps {maxRespSz : Nat} (room : maxRespSz ≤ headerSize) :
    Preserves Unwritten (returnHandler machine maxRespSz) := by
  refine .bind .get fun work => .ite dcerpcBindReturn_keeps (.ite ?_ (.stop _))
  split
  next => exact .stop _
  next service _ =>
    cases service with
    | srvsvc => exact rpcSrvsvcReadRequest_keeps room
    | wkssvc => exact rpcWkssvcReadRequest_keeps room
    | samr => exact rpcSamrReadRequest_keeps
    | lsarpc => exact rpcLsarpcReadRequest_keeps

end Work.Unwritten

def replyPayloadOffset : Nat := ipcMsgSize + commandSize

/-- The bytes written lie in the block allocated for the size, and the message sent
is no longer than it. -/
structure Exchange.Fits (size : Nat) (exchange : Exchange) : Prop where
  block : replyPayloadOffset + exchange.resp.payload.length ≤ ipcMsgAlloc size
  message : commandSize + exchange.resp.payloadSz ≤ size

namespace Exchange
variable {machine : Machine}

def Empty (exchange : Exchange) : Prop := exchange.resp = {}

private theorem Empty.fits {exchange : Exchange} {size : Nat} (empty : exchange.Empty) (room : commandSize ≤ size) :
    Fits size exchange := by
  constructor <;> rw [show exchange.resp = {} from empty]
  · simp only [replyPayloadOffset, ipcMsgAlloc, commandSize, ipcMsgSize, List.length_nil] at room ⊢
    omega
  · exact room

private theorem rpcOpenRequest_keeps (req : Command) : Preserves Empty (rpcOpenRequest req) :=
  .bind .get fun _ => .guard <| .ite (.bind .fault fun _ => .modify fun _ empty => empty) (.modify fun _ empty => empty)

private theorem rpcCloseRequest_keeps (req : Command) : Preserves Empty (rpcCloseRequest machine req) := by
  intro exchange empty
  simp only [rpcCloseRequest]
  split
  next => exact Server.noPipe_keeps _ _ empty
  next => exact empty

private theorem rpcWriteRequest_keeps (req : Command) : Preserves Empty (rpcWriteRequest machine req) := by
  intro exchange empty
  simp only [rpcWriteRequest]
  split
  next => exact Server.noPipe_keeps _ _ empty
  next => split <;> exact empty

private theorem rpcReadRequest_keeps (req : Command) :
    Preserves Empty (rpcReadRequest machine req commandSize) := by
  intro exchange empty
  cases found : exchange.server.pipes.lookup req.handle with
  | none => rw [rpcReadRequest_absent found]; exact Server.noPipe_keeps _ _ empty
  | some channel =>
    cases fresh : channel.pipe.ioctlReplyConsumed with
    | true => rw [rpcReadRequest_consumed found fresh]; exact empty
    | false =>
      cases ready : channel.dce.returnReady with
      | false => rw [rpcReadRequest_idle found fresh ready]; exact empty
      | true =>
        have start : (exchange.reading channel req commandSize).Unwritten :=
          ⟨congrArg Response.payload empty, Nat.le_refl _, congrArg Response.payloadSz empty⟩
        have silent : (returnHandler machine commandSize (exchange.reading channel req commandSize)).2.Unwritten :=
          Work.Unwritten.returnHandler_keeps (Nat.le_refl headerSize) _ start
        rw [rpcReadRequest_pending found fresh ready]
        exact congrArg₂ Response.mk silent.payload silent.payloadSz

private theorem rpcIoctlRequest_keeps (req : Command) :
    Preserves Empty (rpcIoctlRequest machine req commandSize) := by
  have consume : Preserves Empty (consumeReply req.handle) := by
    intro exchange empty
    simp only [consumeReply]
    split <;> exact empty
  have rest : Preserves Empty (do
      rpcWriteRequest machine req
      rpcReadRequest machine req commandSize
      consumeReply req.handle) :=
    .bind (rpcWriteRequest_keeps req) fun _ => .bind (rpcReadRequest_keeps req) fun _ => consume
  have found : Preserves Empty (do
      let exchange ← Proc.get
      if req.handle ∉ exchange.server.pipes then exchange.server.noPipe req.handle .badFid
      rpcWriteRequest machine req
      rpcReadRequest machine req commandSize
      consumeReply req.handle) := .bind .get fun _ => .ite (.bind (Server.noPipe_keeps _) fun _ => rest) rest
  exact .guard found

private theorem rpcStateRequest_keeps (req : Command) (size : Nat) :
    Preserves (Fits size) (rpcStateRequest machine req size) := by
  intro exchange fits
  rcases Nat.lt_or_ge size (commandSize + PipeInfo.size) with short | room
  · rw [rpcStateRequest_short short]
    exact fits
  have sent : ∀ server (info : PipeInfo), Fits size ⟨server, ⟨info.bytes, PipeInfo.size⟩⟩ := by
    intro server info
    refine ⟨?_, room⟩
    have length : info.bytes.length = PipeInfo.size := by simp [PipeInfo.bytes, PipeInfo.size]
    rw [length]
    simp only [replyPayloadOffset, ipcMsgAlloc, commandSize, PipeInfo.size, ipcMsgSize] at room ⊢
    omega
  cases found : exchange.server.pipes.lookup req.handle with
  | none => rw [rpcStateRequest_absent room found]; exact Server.noPipe_keeps _ _ fits
  | some channel =>
    cases ready : channel.dce.returnReady with
    | false => rw [rpcStateRequest_idle room found ready]; exact sent _ _
    | true =>
      rw [rpcStateRequest_pending room found ready]
      dsimp only
      split <;> exact sent _ _

private theorem testFlag_query {flags : UInt32} (large : testFlag flags Method.methodReturn = true) :
    testFlag flags Method.query = true := by
  simp only [testFlag, bne_iff_ne] at large ⊢
  intro none
  have part : flags &&& Method.methodReturn = flags &&& Method.query &&& Method.methodReturn := by
    rw [UInt32.and_assoc]
    rfl
  rw [part, none] at large
  exact large (by decide)

private theorem dispatch_fits (req : Command) (server : Server) :
    Fits (respMsgSz req.flags) (dispatch machine req (respMsgSz req.flags) ⟨server, {}⟩).2 := by
  have room : commandSize ≤ respMsgSz req.flags := by
    simp only [respMsgSz]
    split <;> decide
  have start : Empty ⟨server, {}⟩ := rfl
  simp only [dispatch]
  split
  next => exact start.fits room
  split
  next => exact (rpcOpenRequest_keeps req _ start).fits room
  split
  next => exact (rpcCloseRequest_keeps req _ start).fits room
  split
  next => exact Preserves.bind (rpcStateRequest_keeps req _) (fun _ => .pure ()) _ (start.fits room)
  next other =>
    -- from here on there is no room for a reply
    have small : respMsgSz req.flags = commandSize := if_neg fun large => other (testFlag_query large)
    rw [small]
    split
    next => exact (rpcIoctlRequest_keeps req _ start).fits (Nat.le_refl _)
    split
    next => exact (rpcWriteRequest_keeps req _ start).fits (Nat.le_refl _)
    split
    next => exact (rpcReadRequest_keeps req _ start).fits (Nat.le_refl _)
    next => exact start.fits (Nat.le_refl _)

end Exchange

/-- Whatever a message asks for and however it ends, the bytes of its reply lie in the
block allocated for it, and the message sent is no longer than it was allocated. -/
theorem rpcRequest_reply_fits (machine : Machine) (server : Server) (msg : IpcMsg) (answered : Answered)
    (accepted : rpcRequest machine msg server = some answered) :
    replyPayloadOffset + answered.exchange.resp.payload.length ≤ ipcMsgAlloc answered.allocSz ∧
      answered.sentSz ≤ answered.allocSz := by
  simp only [rpcRequest] at accepted
  split at accepted
  next => cases accepted
  split at accepted
  next => cases accepted
  cases accepted
  have fits : Exchange.Fits (respMsgSz msg.flags) (dispatch machine msg.command (respMsgSz msg.flags) ⟨server, {}⟩).2 :=
    Exchange.dispatch_fits msg.command server
  exact ⟨fits.block, fits.message⟩

/-- The state of a pipe with a reply pending, asked for by a message. -/
theorem rpcRequest_reply_fits_query :
    let msg : IpcMsg := ⟨commandSize, Scenario.query.handle, 0, Scenario.query.flags, 0, []⟩
    ∃ answered, rpcRequest Scenario.machine msg Scenario.pending = some answered ∧
      (replyPayloadOffset + answered.exchange.resp.payload.length ≤ ipcMsgAlloc answered.allocSz ∧
        answered.sentSz ≤ answered.allocSz) := by
  intro msg
  have accepted : (rpcRequest Scenario.machine msg Scenario.pending).isSome := by decide +kernel
  obtain ⟨answered, same⟩ := Option.isSome_iff_exists.mp accepted
  exact ⟨answered, same, rpcRequest_reply_fits Scenario.machine Scenario.pending msg answered same⟩

end KsmbdTools.Rpc
