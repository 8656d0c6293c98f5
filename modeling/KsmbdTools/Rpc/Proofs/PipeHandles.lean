import KsmbdTools.Rpc.Proofs.CallIds
import KsmbdTools.Rpc.Proofs.HandleBalance

/-! Pipes and the handles that were opened on them. A handle is numbered by its pipe, but
lives in a table of its service that closing the pipe does not look at. -/

namespace KsmbdTools.Rpc
open Management Bytes Proc

def Call.tables (call : Call) : HashTable Handle ConnectHandle × HashTable Handle Unit × UInt32 :=
  (call.store.chTable, call.store.phTable, call.pipe.id)

def Call.setPolicies (call : Call) (table : HashTable Handle Unit) : Call :=
  { call with store := { call.store with phTable := table } }

structure Handles where
  connect : Set Handle
  policy : Set Handle

/-- The handle of the pipe may be there if the method is one that brings it in. -/
structure Handles.Admits (handles : Handles) (id : UInt32) (opnum : UInt16) : Prop where
  connect : opnum = Samr.connect5 → newHandle id ∈ handles.connect
  policy : opnum = Lsarpc.openPolicy2 → newHandle id ∈ handles.policy

theorem Handles.admits_zero (handles : Handles) (id : UInt32) : handles.Admits id 0 := ⟨nofun, nofun⟩

/-- The pipe with this id is at work, and no other handles than these are in the tables. -/
structure Owned (handles : Handles) (id : UInt32)
    (tables : HashTable Handle ConnectHandle × HashTable Handle Unit × UInt32) : Prop where
  connect : ∀ handle ∈ tables.1, handle ∈ handles.connect
  policy : ∀ handle ∈ tables.2.1, handle ∈ handles.policy
  id : tables.2.2 = id

/-- The same of a PDU at work, whose method may bring a handle in. -/
structure Work.Owned (handles : Handles) (id : UInt32) (work : Work) : Prop where
  tables : Rpc.Owned handles id work.call.tables
  admits : handles.Admits id work.channel.dce.reqHdr.opnum

/-! Only a connect and an opened policy bring a handle into a table, that of the pipe. -/

section
variable {machine : Machine} {handles : Handles} {id : UInt32}

private theorem apart_owned : Call.Apart fun call => Owned handles id call.tables :=
  ⟨fun _ _ owned => owned, fun _ _ _ same owned => ⟨owned.connect, owned.policy, same.trans owned.id⟩,
    fun _ _ owned => owned⟩

private theorem kept_owned : Call.Kept machine fun call => Owned handles id call.tables :=
  .ofTables apart_owned fun _ _ owned => owned

private theorem reads_owned : Call.Reads machine fun call => Owned handles id call.tables :=
  .ofTables (fun _ _ owned => owned) apart_owned

private theorem modifyChTable_owned {f : HashTable Handle ConnectHandle → HashTable Handle ConnectHandle}
    (shrinks : ∀ table handle, handle ∈ f table → handle ∈ table) :
    Preserves (fun call => Owned handles id call.tables) (modifyChTable f) :=
  .modify fun _ owned => ⟨fun handle member => owned.connect handle (shrinks _ handle member), owned.policy, owned.id⟩

private theorem modifyPhTable_owned {f : HashTable Handle Unit → HashTable Handle Unit}
    (shrinks : ∀ table handle, handle ∈ f table → handle ∈ table) :
    Preserves (fun call => Owned handles id call.tables) (modifyPhTable f) :=
  .modify fun _ owned => ⟨owned.connect, fun handle member => owned.policy handle (shrinks _ handle member), owned.id⟩

private theorem replace_shrinks {ν : Type} (key : Handle) (value : ν) (table : HashTable Handle ν) (handle : Handle)
    (member : handle ∈ table.replace key value) : handle ∈ table := AList.mem_replace.mp member

private theorem erase_shrinks {ν : Type} (key : Handle) (table : HashTable Handle ν) (handle : Handle)
    (member : handle ∈ table.erase key) : handle ∈ table := (AList.mem_erase.mp member).2

private theorem samrOpenDomainReturn_owned :
    Preserves (fun call => Owned handles id call.tables) (samrOpenDomainReturn machine) :=
  .bind samrChLookup_keeps fun _ => .bind (modifyChTable_owned (replace_shrinks _ _)) fun _ => kept_owned.write _

private theorem samrLookupNamesReturn_owned :
    Preserves (fun call => Owned handles id call.tables) (samrLookupNamesReturn machine) := by
  refine .bind samrChLookup_keeps fun _ => .bind .get fun _ => .bind (Call.strVal_keeps _) fun _ =>
    .bind (.modify fun _ owned => owned) fun _ => .bind (modifyChTable_owned (replace_shrinks _ _)) fun _ => ?_
  split
  next => exact .stop _
  next => exact .bind (.deref _) fun _ => kept_owned.write _

private theorem samrOpenUserReturn_owned :
    Preserves (fun call => Owned handles id call.tables) (samrOpenUserReturn machine) := by
  refine .bind samrChLookup_keeps fun _ => .bind (modifyChTable_owned (replace_shrinks _ _)) fun _ => ?_
  split
  next => exact .stop _
  next => exact .bind .get fun _ => .bind (.deref _) fun _ => .guard (kept_owned.write _)

private theorem samrCloseReturn_owned :
    Preserves (fun call => Owned handles id call.tables) (samrCloseReturn machine) := by
  refine .bind samrChLookup_keeps fun _ => .bind (modifyChTable_owned fun table handle member => ?_) fun _ =>
    kept_owned.write _
  split at member
  next => exact replace_shrinks _ _ _ _ member
  next => exact erase_shrinks _ _ _ member

private theorem lsarpcCloseReturn_owned :
    Preserves (fun call => Owned handles id call.tables) (lsarpcCloseReturn machine) :=
  .bind lsarpcPhLookup_keeps fun _ => .bind (modifyPhTable_owned (erase_shrinks _)) fun _ => kept_owned.write _

private theorem samrChAlloc_owned (own : newHandle id ∈ handles.connect) :
    Preserves (fun call => Owned handles id call.tables) (samrChAlloc machine) := by
  intro call owned
  rw [samrChAlloc_eq]
  split
  · split
    · exact modifyChTable_owned (erase_shrinks _) call owned
    · refine ⟨fun handle member => ?_, owned.policy, owned.id⟩
      rcases (AList.mem_insert _).mp member with rfl | old
      · rwa [show call.pipe.id = id from owned.id]
      · exact owned.connect handle old
  · exact owned

theorem lsarpcPhAlloc_eq (machine : Machine) (call : Call) : lsarpcPhAlloc machine call =
    if machine.mallocPolicyHandle call.store call.pipe.id = true then
      if newHandle call.pipe.id ∈ call.store.phTable then
        (.stop .noMem, call.setPolicies (call.store.phTable.erase (newHandle call.pipe.id)))
      else (.ok (newHandle call.pipe.id), call.setPolicies (call.store.phTable.insert (newHandle call.pipe.id) ()))
    else (.stop .noMem, call) := by
  rw [lsarpcPhAlloc, bind_ok (get_apply call)]
  exact allocHandle_eq (·.store.phTable) Call.setPolicies (fun _ _ => rfl) (fun _ _ _ => rfl) _ _ _ call

private theorem lsarpcPhAlloc_owned (own : newHandle id ∈ handles.policy) :
    Preserves (fun call => Owned handles id call.tables) (lsarpcPhAlloc machine) := by
  intro call owned
  rw [lsarpcPhAlloc_eq]
  split
  · split
    · exact modifyPhTable_owned (erase_shrinks _) call owned
    · refine ⟨owned.connect, fun handle member => ?_, owned.id⟩
      rcases (AList.mem_insert _).mp member with rfl | old
      · rwa [show call.pipe.id = id from owned.id]
      · exact owned.policy handle old
  · exact owned

private theorem samrReturn_owned {opnum : UInt16} (admits : handles.Admits id opnum) (restricted : Bool) :
    Preserves (fun call => Owned handles id call.tables) (samrReturn machine opnum restricted) := by
  have method : Preserves (fun call => Owned handles id call.tables) (samrMethodReturn machine opnum) :=
    samrMethodReturn_keeps kept_owned.written
      (fun connect => .bind .get fun _ => .bind (kept_owned.write _) fun _ =>
        .bind (samrChAlloc_owned (admits.connect connect)) fun _ => kept_owned.write _)
      (fun _ => samrOpenDomainReturn_owned) (fun _ => samrLookupNamesReturn_owned) (fun _ => samrOpenUserReturn_owned)
      fun _ => samrCloseReturn_owned
  exact .bind (fun _ owned => owned) fun _ => .bind method.code fun _ => .pure _

private theorem lsarpcReturn_owned {opnum : UInt16} (admits : handles.Admits id opnum) (dssetup : Bool) :
    Preserves (fun call => Owned handles id call.tables) (lsarpcReturn machine opnum dssetup) :=
  .bind (fun _ owned => owned) fun _ => (lsarpcMethodReturn_keeps kept_owned.replies opnum dssetup
    (fun policy => .bind (lsarpcPhAlloc_owned (admits.policy policy)) fun _ => kept_owned.write _)
      lsarpcCloseReturn_owned).code

end

/-! The two handlers of a PDU. -/

section
variable {machine : Machine} {handles : Handles} {id : UInt32}

private theorem handle_owned {α : Type} {handler : Proc Call Status α}
    (keeps : Preserves (fun call => Owned handles id call.tables) handler) :
    Preserves (Work.Owned handles id) (Work.handle handler) := fun work owned =>
  ⟨keeps work.call owned.tables, owned.admits⟩

private theorem wire_owned : Work.Apart (Work.Owned handles id) where
  wire _ _ _ _ _ _ owned := ⟨owned.tables, owned.admits⟩
  answered _ _ method owned := ⟨owned.tables, method ▸ handles.admits_zero id⟩

private theorem dcerpcBindInvoke_owned : Preserves (Work.Owned handles id) (dcerpcBindInvoke machine) := by
  have last : Preserves (Work.Owned handles id) (Work.handle
      (Proc.modify fun call => { call with pipe := { call.pipe with entryProcessed := none } })) :=
    handle_owned (.modify fun _ owned => owned)
  refine .bind wire_owned.dcerpcParseBindReq fun _ => .bind .get fun _ => .bind (.deref _) fun _ => ?_
  split
  next => exact last
  next => exact .bind (.modify fun _ owned => ⟨owned.tables, owned.admits⟩) fun _ => last

private theorem serviceWriteRequest_owned (service : Service) :
    Preserves (Work.Owned handles id) (serviceWriteRequest machine service) := by
  cases service with
  | srvsvc => exact .bind .get fun _ => .ite (handle_owned (srvsvcShareInfoInvoke_keeps reads_owned _ _)) (.stop _)
  | wkssvc => exact .bind .get fun _ => .ite (handle_owned (wkssvcParseNetwkstaInfoReq_keeps reads_owned.toFills)) (.stop _)
  | samr => exact .bind .get fun _ => handle_owned (samrInvoke_keeps reads_owned.toFills _)
  | lsarpc => exact .bind .get fun _ => handle_owned (lsarpcInvoke_keeps reads_owned _ _)

private def requestHdr : Proc Work Status RequestHeader := do
  let allocHint ← Work.ndr .badData ndrReadInt32
  let contextId ← Work.ndr .badData ndrReadInt16
  let opnum ← Work.ndr .badData ndrReadInt16
  return { allocHint, contextId, opnum }

private theorem dcerpcRequestHdrRead_eq :
    dcerpcRequestHdrRead .badData = requestHdr >>= fun hdr => Work.modifyDce fun dce => { dce with reqHdr := hdr } := by
  simp only [dcerpcRequestHdrRead, requestHdr, bind_assoc, pure_bind]

private theorem dcerpcRequestHdrRead_owned {bytes : List UInt8} {work : Work} (reached : work.At bytes headerSize)
    (order : work.channel.dce.stream.littleEndian = pduLittle bytes) (owned : work.Owned handles id)
    (admits : handles.Admits id (pduReqHdr bytes).opnum) : (dcerpcRequestHdrRead .badData work).2.Owned handles id := by
  have reads : Preserves (Work.Owned handles id) requestHdr :=
    .bind (wire_owned.ndr _ _) fun _ => .bind (wire_owned.ndr _ _) fun _ => .bind (wire_owned.ndr _ _) fun _ => .pure _
  rcases read : requestHdr work with ⟨hdr | code | _, middle⟩
  · have ran := congrFun dcerpcRequestHdrRead_eq work
    rw [bind_ok read] at ran
    obtain ⟨reqHdr, -, -⟩ := dcerpcRequestHdrRead_ok reached order ran
    rw [ran]
    exact ⟨(reads.along read owned).tables, reqHdr ▸ admits⟩
  · rw [dcerpcRequestHdrRead_eq, bind_stop read]
    exact reads.along read owned
  · rw [dcerpcRequestHdrRead_eq, bind_fault read]
    exact reads.along read owned

theorem invokeHandler_owned {bytes : List UInt8} {work : Work} (start : work.At bytes 0) (owned : work.Owned handles id)
    (admits : handles.Admits id (pduReqHdr bytes).opnum) : (invokeHandler machine work).2.Owned handles id := by
  rcases read : dcerpcHdrRead .badData work with ⟨_ | code | _, middle⟩
  · obtain ⟨header, ordered, reached⟩ := dcerpcHdrRead_ok start read
    have order : middle.channel.dce.stream.littleEndian = pduLittle bytes := by
      rw [← pduHeader_little, ← header]
      exact ordered
    have kept : middle.Owned handles id := (wire_owned.dcerpcHdrRead _).along read owned
    rw [invokeHandler, bind_ok read, invokePdu, bind_ok (get_apply _)]
    split
    next => exact dcerpcBindInvoke_owned middle kept
    split
    next =>
      have behind := dcerpcRequestHdrRead_owned reached order kept admits
      revert behind
      rw [bind_apply]
      rcases dcerpcRequestHdrRead .badData middle with ⟨_ | code | _, after⟩ <;> intro behind
      · cases service? middle.channel.dce.rpcFlags with
        | none => exact behind
        | some service => exact serviceWriteRequest_owned service after behind
      · exact behind
      · exact behind
    next => exact kept
  · rw [invokeHandler, bind_stop read]
    exact (wire_owned.dcerpcHdrRead _).along read owned
  · rw [invokeHandler, bind_fault read]
    exact (wire_owned.dcerpcHdrRead _).along read owned

private theorem serviceReadRequest_owned (service : Service) (maxRespSz : Nat) :
    Preserves (Work.Owned handles id) (serviceReadRequest machine maxRespSz service) := by
  have sized : ∀ size, Preserves (Work.Owned handles id) (setRespPayload size) := fun _ =>
    .modify fun _ owned => ⟨owned.tables, owned.admits⟩
  cases service with
  | srvsvc =>
    exact .bind .get fun _ => .ite (.bind (sized _) fun _ =>
      .bind (handle_owned fun call owned => srvsvcShareInfoReturn_keeps kept_owned _ _ call owned) fun _ =>
      wire_owned.sendResponse _) (.stop _)
  | wkssvc =>
    exact .bind .get fun _ => .ite (.bind (sized _) fun _ =>
      .bind (handle_owned fun call owned => wkssvcNetwkstaInfoReturn_keeps kept_owned.replies _ call owned) fun _ =>
      wire_owned.sendResponse _) (.stop _)
  | samr =>
    intro work owned
    exact wire_owned.respond (handle_owned (samrReturn_owned owned.admits _)) work owned
  | lsarpc =>
    intro work owned
    exact wire_owned.respond (handle_owned (lsarpcReturn_owned owned.admits _)) work owned

theorem returnHandler_owned (maxRespSz : Nat) : Preserves (Work.Owned handles id) (returnHandler machine maxRespSz) := by
  refine .bind .get fun _ => .ite wire_owned.dcerpcBindReturn (.ite ?_ (.stop _))
  split
  next => exact .stop _
  next service _ => exact serviceReadRequest_owned service maxRespSz

end

/-! Runs of requests. -/

theorem rpcPipeReset_tables (machine : Machine) (call : Call) :
    (Call.rpcPipeReset machine call).2.store.chTable = call.store.chTable ∧
      (Call.rpcPipeReset machine call).2.store.phTable = call.store.phTable := by
  have apart : Call.Apart fun after => after.store.chTable = call.store.chTable ∧ after.store.phTable = call.store.phTable :=
    ⟨fun _ _ same => same, fun _ _ _ _ same => same, fun _ _ same => same⟩
  exact Call.rpcPipeReset_keeps apart call ⟨rfl, rfl⟩

theorem newHandle_injective : Function.Injective newHandle := by
  intro first second same
  have front := congrArg (List.take 4) same
  simp only [newHandle, List.take_left' (length_encodeLittle 4 _)] at front
  have decoded := congrArg decodeLittle front
  rw [decodeLittle_encodeLittle (first + 1).toNat_lt, decodeLittle_encodeLittle (second + 1).toNat_lt] at decoded
  exact (UInt32.add_left_inj 1).mp (UInt32.toNat_inj.mp decoded)

inductive PipeRequest where
  | opens (req : Command)
  | closes (req : Command)
  | serves (call : PipeCall)
  deriving DecidableEq

namespace PipeRequest

def serve (machine : Machine) : PipeRequest → Proc Exchange Status Unit
  | .opens req => rpcOpenRequest req
  | .closes req => rpcCloseRequest machine req
  | .serves call => call.serve machine

def pdu? : PipeRequest → Option (UInt32 × List UInt8)
  | .serves (.write req) | .serves (.ioctl req _) => some (req.handle, req.payload)
  | _ => none

def closed? : PipeRequest → Option UInt32
  | .closes req => some req.handle
  | _ => none

end PipeRequest

/-- No other handles than these are in the tables, or come in by a request that is
pending. These pipes are open. -/
structure Server.Within (handles : Handles) (ids : Set UInt32) (server : Server) : Prop where
  connect : ∀ handle ∈ server.store.chTable, handle ∈ handles.connect
  policy : ∀ handle ∈ server.store.phTable, handle ∈ handles.policy
  channels : ∀ id channel, server.pipes.lookup id = some channel →
    channel.pipe.id = id ∧ handles.Admits id channel.dce.reqHdr.opnum
  pipes : ∀ id ∈ ids, id ∈ server.pipes

section
variable {machine : Machine} {handles : Handles} {ids : Set UInt32} {req : Command} {maxRespSz : Nat}

namespace Server.Within

theorem mono {server : Server} {more : Handles} (within : server.Within handles ids)
    (connect : handles.connect ⊆ more.connect) (policy : handles.policy ⊆ more.policy) : server.Within more ids := by
  refine ⟨fun handle member => connect (within.connect handle member),
    fun handle member => policy (within.policy handle member), fun id channel found => ?_, within.pipes⟩
  obtain ⟨same, admits⟩ := within.channels id channel found
  exact ⟨same, fun opnum => connect (admits.connect opnum), fun opnum => policy (admits.policy opnum)⟩

private theorem replaced {server : Server} {channel fresh : Channel} {store : Store} (within : server.Within handles ids)
    (found : server.pipes.lookup req.handle = some channel)
    (tables : Owned handles req.handle (store.chTable, store.phTable, fresh.pipe.id))
    (admits : handles.Admits req.handle fresh.dce.reqHdr.opnum) :
    ({ server with store, pipes := server.pipes.replace req.handle fresh } : Server).Within handles ids := by
  refine ⟨tables.connect, tables.policy, fun id other there => ?_,
    fun id member => AList.mem_replace.mpr (within.pipes id member)⟩
  rcases eq_or_ne id req.handle with rfl | differs
  · have same : some fresh = some other := (Table.lookup_replace_of_lookup fresh found).symm.trans there
    rw [← Option.some.inj same]
    exact ⟨tables.id, admits⟩
  · exact within.channels id other ((Table.lookup_replace_ne fresh differs).symm.trans there)

private theorem tables {server : Server} {channel : Channel} (within : server.Within handles ids)
    (found : server.pipes.lookup req.handle = some channel) :
    Owned handles req.handle (server.store.chTable, server.store.phTable, channel.pipe.id) :=
  ⟨within.connect, within.policy, (within.channels _ _ found).1⟩

private theorem noPipe {α : Type} {code : Status} (server : Server) {exchange : Exchange}
    (within : exchange.server.Within handles ids) :
    (server.noPipe req.handle code exchange : Outcome Status α × Exchange).2.server.Within handles ids := by
  have keeps : Preserves (fun exchange : Exchange => exchange.server.Within handles ids) (server.noPipe req.handle code :
    Proc Exchange Status α) := Server.noPipe_keeps code
  exact keeps exchange within

private theorem write {exchange : Exchange} (within : exchange.server.Within handles ids)
    (admits : req.handle ∈ exchange.server.pipes → handles.Admits req.handle (pduReqHdr req.payload).opnum) :
    (rpcWriteRequest machine req exchange).2.server.Within handles ids := by
  cases found : exchange.server.pipes.lookup req.handle with
  | none =>
    obtain ⟨outcome, ran, -⟩ : ∃ outcome, rpcWriteRequest machine req exchange = (outcome, exchange) ∧ outcome ≠ .ok () :=
      rpcWriteRequest_absent found
    rw [ran]
    exact within
  | some channel =>
    cases ready : channel.dce.returnReady with
    | true =>
      rw [rpcWriteRequest_pending found ready]
      exact within
    | false =>
      have tables := within.tables found
      have start : (exchange.writing channel req).Owned handles req.handle := ⟨tables, (within.channels _ _ found).2⟩
      have there : (exchange.writing channel req).At req.payload 0 := ⟨rfl, rfl, rfl⟩
      have ended : (invokeHandler machine (exchange.writing channel req)).2.Owned handles req.handle :=
        invokeHandler_owned there start (admits (AList.lookup_isSome.mp (found ▸ rfl)))
      rw [rpcWriteRequest_idle found ready]
      exact within.replaced found ended.tables ended.admits

private theorem read {exchange : Exchange} (within : exchange.server.Within handles ids) :
    (rpcReadRequest machine req maxRespSz exchange).2.server.Within handles ids := by
  cases found : exchange.server.pipes.lookup req.handle with
  | none =>
    rw [rpcReadRequest_absent found]
    exact within.noPipe _
  | some channel =>
    have tables := within.tables found
    have admits := (within.channels _ _ found).2
    cases fresh : channel.pipe.ioctlReplyConsumed with
    | true =>
      rw [rpcReadRequest_consumed found fresh]
      exact within.replaced found tables admits
    | false =>
      cases ready : channel.dce.returnReady with
      | false =>
        rw [rpcReadRequest_idle found fresh ready]
        exact within
      | true =>
        have ended : (returnHandler machine maxRespSz (exchange.reading channel req maxRespSz)).2.Owned handles req.handle :=
          returnHandler_owned maxRespSz (exchange.reading channel req maxRespSz) ⟨tables, admits⟩
        rw [rpcReadRequest_pending found fresh ready]
        exact within.replaced found ended.tables ended.admits

private theorem consume {exchange : Exchange} (within : exchange.server.Within handles ids) :
    (consumeReply req.handle exchange).2.server.Within handles ids := by
  simp only [consumeReply]
  split
  next => exact within
  next channel found =>
    have tables := within.tables found
    exact within.replaced found tables (within.channels _ _ found).2

private theorem ioctl {exchange : Exchange} (within : exchange.server.Within handles ids)
    (admits : req.handle ∈ exchange.server.pipes → handles.Admits req.handle (pduReqHdr req.payload).opnum) :
    (rpcIoctlRequest machine req maxRespSz exchange).2.server.Within handles ids := by
  rcases Nat.lt_or_ge req.payload.length headerSize with short | long
  · simp only [rpcIoctlRequest, if_pos short, bind_apply, stop_apply]
    exact within
  by_cases member : req.handle ∈ exchange.server.pipes
  · have rest : Preserves (fun exchange : Exchange => exchange.server.Within handles ids) (do
        rpcWriteRequest machine req
        rpcReadRequest machine req maxRespSz
        consumeReply req.handle) :=
      .bind (fun _ within => within.write fun _ => admits member) fun _ =>
        .bind (fun _ within => within.read) fun _ _ within =>
        within.consume
    have ended := rest exchange within
    simp only [bind_apply] at ended
    simpa only [rpcIoctlRequest, if_neg (Nat.not_lt.mpr long), bind_apply, get_apply, member, not_true_eq_false, ↓reduceIte]
      using ended
  · simp only [rpcIoctlRequest, if_neg (Nat.not_lt.mpr long), bind_apply, get_apply, member, not_false_eq_true, ↓reduceIte,
      Server.noPipe]
    cases exchange.server.dangles req.handle <;> exact within

private theorem state {exchange : Exchange} (within : exchange.server.Within handles ids) :
    (rpcStateRequest machine req maxRespSz exchange).2.server.Within handles ids := by
  rcases Nat.lt_or_ge maxRespSz (commandSize + PipeInfo.size) with short | room
  · rw [rpcStateRequest_short short]
    exact within
  cases found : exchange.server.pipes.lookup req.handle with
  | none =>
    rw [rpcStateRequest_absent room found]
    exact within.noPipe _
  | some channel =>
    cases ready : channel.dce.returnReady with
    | false =>
      rw [rpcStateRequest_idle room found ready]
      exact within
    | true =>
      have tables := within.tables found
      have admits := (within.channels _ _ found).2
      have ended : (returnHandler machine pipePeekScratchSz (exchange.peeking channel)).2.Owned handles req.handle :=
        returnHandler_owned pipePeekScratchSz (exchange.peeking channel) ⟨tables, admits⟩
      have peeked : (exchange.server.peeked req.handle channel
          (returnHandler machine pipePeekScratchSz (exchange.peeking channel)).2).Within handles ids :=
        within.replaced found ⟨ended.tables.connect, ended.tables.policy, tables.id⟩ admits
      rw [rpcStateRequest_pending room found ready]
      dsimp only
      split <;> exact peeked

private theorem openPipe {exchange : Exchange} (within : exchange.server.Within handles ids) :
    (rpcOpenRequest req exchange).2.server.Within handles ids := by
  simp only [rpcOpenRequest, bind_apply, get_apply]
  split
  next => exact within
  split
  next => exact within
  refine ⟨within.connect, within.policy, fun id other there => ?_, fun id member => (AList.mem_insert _).mpr
    (.inr (within.pipes id member))⟩
  rcases eq_or_ne id req.handle with rfl | differs
  · rw [modify_apply, AList.lookup_insert] at there
    rw [← Option.some.inj there]
    exact ⟨rfl, handles.admits_zero _⟩
  · rw [modify_apply, AList.lookup_insert_ne differs] at there
    exact within.channels id other there

private theorem closePipe {exchange : Exchange} (within : exchange.server.Within handles ids) (stays : req.handle ∉ ids) :
    (rpcCloseRequest machine req exchange).2.server.Within handles ids := by
  simp only [rpcCloseRequest]
  split
  next => exact within.noPipe _
  next channel found =>
    obtain ⟨connect, policy⟩ := rpcPipeReset_tables machine (Work.call ⟨exchange.server.store, channel, 0⟩)
    refine ⟨fun handle member => ?_, fun handle member => ?_, fun id other there => ?_, fun id member => ?_⟩
    · exact within.connect handle (connect ▸ member)
    · exact within.policy handle (policy ▸ member)
    · rcases eq_or_ne id req.handle with rfl | differs
      · rw [AList.lookup_erase] at there
        cases there
      · rw [AList.lookup_erase_ne differs] at there
        exact within.channels id other there
    · exact AList.mem_erase.mpr ⟨fun same => stays (same ▸ member), within.pipes id member⟩

theorem serve {request : PipeRequest} {exchange : Exchange} (within : exchange.server.Within handles ids)
    (admits : ∀ pdu ∈ request.pdu?, pdu.1 ∈ exchange.server.pipes → handles.Admits pdu.1 (pduReqHdr pdu.2).opnum)
    (stays : ∀ id ∈ request.closed?, id ∉ ids) : (request.serve machine exchange).2.server.Within handles ids := by
  cases request with
  | opens req => exact within.openPipe
  | closes req => exact within.closePipe (stays _ rfl)
  | serves call =>
    cases call with
    | write req => exact within.write (admits _ rfl)
    | read req maxRespSz => exact within.read
    | ioctl req maxRespSz => exact within.ioctl (admits _ rfl)
    | state req maxRespSz =>
      rw [PipeRequest.serve, PipeCall.serve_state]
      exact within.state

end Server.Within

end

/-! The first handle that is opened on a pipe. -/

section
variable {machine : Machine} {server written : Server} {channel : Channel} {write read : Command} {maxRespSz : Nat}

theorem connect_answered (commands : SamrCommands write read) (found : server.pipes.lookup write.handle = some channel)
    (idle : channel.dce.returnReady = false) (opnum : (pduReqHdr write.payload).opnum = Samr.connect5)
    (accepted : rpcWriteRequest machine write ⟨server, {}⟩ = (.ok (), ⟨written, {}⟩)) (room : 64 ≤ maxRespSz)
    (unrestricted : rpcRestrictedContext server.store.management.globalConf read.flags = false)
    (fresh : newHandle channel.pipe.id ∉ server.store.chTable)
    (granted : machine.mallocConnectHandle written.store channel.pipe.id = true) :
    (rpcReadRequest machine read maxRespSz ⟨written, {}⟩).1 = .ok () := by
  rcases parses : invokeHandler machine (Exchange.writing ⟨server, {}⟩ channel write) with ⟨outcome, parsed⟩
  have wrote := (rpcWriteRequest_idle found idle).symm.trans accepted
  rw [parses, Prod.mk.injEq] at wrote
  obtain ⟨rfl, rest⟩ := wrote
  obtain rfl : server.finish write.handle parsed = written := congrArg Exchange.server rest
  have start : (Exchange.writing ⟨server, {}⟩ channel write).At write.payload 0 := ⟨rfl, rfl, rfl⟩
  have whole := invokeHandler_whole start commands.request parses
  obtain ⟨ended, -⟩ := samrCall_connects ⟨commands, whole, found, idle, parses⟩ opnum room unrestricted fresh granted
  rwa [samrCall_ok accepted] at ended

private theorem lsarpcOpenPolicy2Return_fresh {call : Call} (fresh : newHandle call.pipe.id ∉ call.store.phTable)
    (granted : machine.mallocPolicyHandle call.store call.pipe.id = true)
    (filled : call.stream.Filled headerSpace) (room : 44 ≤ call.stream.payloadSz) :
    ∃ done : Call, lsarpcOpenPolicy2Return machine call = (.ok (), done) ∧ done.stream.offset = 44 ∧
      call.stream.Moved done.stream := by
  have inserted : lsarpcPhAlloc machine call =
      (.ok (newHandle call.pipe.id), call.setPolicies (call.store.phTable.insert (newHandle call.pipe.id) ())) :=
    (lsarpcPhAlloc_eq machine call).trans ((if_pos granted).trans (if_neg fresh))
  have length : (headerSpace ++ newHandle call.pipe.id).length = 44 := by
    rw [List.length_append, newHandle_length]
    rfl
  obtain ⟨stream, wrote, whole, moved⟩ := Call.write_bytes machine
    (call.setPolicies (call.store.phTable.insert (newHandle call.pipe.id) ())) (newHandle call.pipe.id) filled
      (by decide) (by rwa [← List.length_append, length])
  exact ⟨_, (bind_ok inserted).trans wrote, whole.offset.trans length, moved⟩

structure PolicyCommands (write read : Command) : Prop where
  handle : read.handle = write.handle
  written : service? write.flags = some .lsarpc
  read : service? read.flags = some .lsarpc
  request : (pduHeader write.payload).ptype = Ptype.request
  opnum : (pduReqHdr write.payload).opnum = Lsarpc.openPolicy2

private theorem openPolicy2_aside {parsed : Work} (commands : PolicyCommands write read)
    (ran : invokeHandler machine (Exchange.writing ⟨server, {}⟩ channel write) = (.ok (), parsed)) :
    parsed.call.aside = (Exchange.writing ⟨server, {}⟩ channel write).call.aside := by
  have start : (Exchange.writing ⟨server, {}⟩ channel write).At write.payload 0 := ⟨rfl, rfl, rfl⟩
  rw [invokeHandler_request start commands.request] at ran
  obtain ⟨_, headed, headers, rest⟩ := bind_eq_ok.mp ran
  obtain ⟨reqHdr, -⟩ := requestHeaders_ok start headers
  have served : service? (Exchange.writing ⟨server, {}⟩ channel write).channel.dce.rpcFlags = some .lsarpc :=
    commands.written
  rw [served] at rest
  have handled : Work.handle (lsarpcInvoke machine headed.channel.dce.reqHdr.opnum headed.channel.dce.dssetup) headed =
    (.ok (), parsed) := rest
  rw [reqHdr, commands.opnum] at handled
  cases handled
  have aside : headed.call.aside = (Exchange.writing ⟨server, {}⟩ channel write).call.aside :=
    requestHeaders_aside.along headers rfl
  exact aside

private theorem rpcLsarpcReadRequest_opens {work : Work} (opnum : work.channel.dce.reqHdr.opnum = Lsarpc.openPolicy2)
    (fresh : newHandle work.channel.pipe.id ∉ work.store.phTable)
    (granted : machine.mallocPolicyHandle work.store work.channel.pipe.id = true)
    (empty : work.channel.dce.stream.payload = []) (room : 48 ≤ work.channel.dce.stream.payloadSz) :
    (rpcLsarpcReadRequest machine work).1 = .ok () := by
  have space : work.samrStart.stream.payload = [] := empty
  have filled : work.samrStart.stream.Filled headerSpace := .gap space
  have within : 44 ≤ work.samrStart.stream.payloadSz := Nat.le_trans (by decide) room
  obtain ⟨done, ran, offset, moved⟩ : ∃ done : Call, lsarpcOpenPolicy2Return machine work.samrStart = (.ok (), done) ∧ _ :=
    lsarpcOpenPolicy2Return_fresh fresh granted filled within
  have body : lsarpcReturn machine work.channel.dce.reqHdr.opnum work.channel.dce.dssetup work.call = (.ok .ok, done) := by
    rw [opnum]
    exact (bind_ok (show Call.seek (headerSize + responseHeaderSize) work.call = (.ok (), work.samrStart) from rfl)).trans
      (code_of_ok ran)
  have size : (work.setCall done).channel.dce.stream.payloadSz = work.channel.dce.stream.payloadSz := moved.payloadSz
  have place : (work.setCall done).channel.dce.stream.offset = 44 := offset
  obtain ⟨after, sent⟩ := exists_of_ok (sendResponse_sends machine .ok
    (by rw [place]; decide) (by rw [place, size]; exact room) (by rw [size]; exact Nat.le_trans (by decide) room))
  rw [rpcLsarpcReadRequest, bind_ok (get_apply work), bind_ok (Work.handle_of body), bind_ok sent]
  rfl

theorem policy_answered (commands : PolicyCommands write read) (found : server.pipes.lookup write.handle = some channel)
    (idle : channel.dce.returnReady = false)
    (accepted : rpcWriteRequest machine write ⟨server, {}⟩ = (.ok (), ⟨written, {}⟩)) (room : 48 ≤ maxRespSz)
    (fresh : newHandle channel.pipe.id ∉ server.store.phTable)
    (granted : machine.mallocPolicyHandle written.store channel.pipe.id = true) :
    (rpcReadRequest machine read maxRespSz ⟨written, {}⟩).1 = .ok () := by
  have start : (Exchange.writing ⟨server, {}⟩ channel write).At write.payload 0 := ⟨rfl, rfl, rfl⟩
  rw [rpcWriteRequest_idle found idle] at accepted
  have ran : (invokeHandler machine (Exchange.writing ⟨server, {}⟩ channel write)).1 = .ok () := congrArg Prod.fst accepted
  obtain ⟨parsed, parses⟩ := exists_of_ok ran
  rw [parses] at accepted
  obtain rfl : server.finish write.handle parsed = written := congrArg (·.2.server) accepted
  obtain ⟨reqHdr, marks⟩ := invokeHandler_reqHdr start commands.request parses
  obtain ⟨header, -⟩ := invokeHandler_ok start parses
  have aside := openPolicy2_aside commands parses
  have ready : parsed.channel.dce.returnReady = true := congrArg (·.2.1) marks
  have pipe : parsed.channel.pipe = { channel.pipe with ioctlReplyConsumed := false } := congrArg (·.2.2.2) aside
  have table : parsed.store.phTable = server.store.phTable := congrArg (·.2.2.1) aside
  have lookup := Server.lookup_finish found parsed
  rw [← commands.handle] at lookup ⊢
  rw [rpcReadRequest_pending lookup (by rw [pipe]) ready]
  generalize reading : Exchange.reading ⟨server.finish read.handle parsed, {}⟩ parsed.channel read maxRespSz = work
  have handled : returnHandler machine maxRespSz work = rpcLsarpcReadRequest machine work := by
    have type : work.channel.dce.hdr.ptype = Ptype.request := by
      rw [← reading]
      exact (congrArg Header.ptype header).trans commands.request
    have flags : service? work.channel.dce.rpcFlags = some .lsarpc := by
      rw [← reading]
      exact commands.read
    rw [returnHandler, bind_ok (get_apply _)]
    simp only [type, flags, show isBind Ptype.request = false from rfl, Bool.false_eq_true, ↓reduceIte]
    rfl
  have opens : (rpcLsarpcReadRequest machine work).1 = .ok () := by
    rw [← reading]
    have unused : newHandle parsed.channel.pipe.id ∉ parsed.store.phTable := by
      rw [pipe, table]
      exact fresh
    have given : machine.mallocPolicyHandle parsed.store parsed.channel.pipe.id = true := by
      rw [pipe]
      exact granted
    exact rpcLsarpcReadRequest_opens ((congrArg RequestHeader.opnum reqHdr).trans commands.opnum) unused given rfl room
  rw [handled]
  exact opens

end

/-! Runs of the daemon. -/

/-- A run over requests that all meet the condition. In between the rest of the daemon works
on what is its own. -/
inductive PipeRun (machine : Machine) (allowed : Server → PipeRequest → Prop) (start : Server) : Server → Prop
  | refl : PipeRun machine allowed start start
  | served {server : Server} {outcome : Outcome Status Unit} {after : Exchange} (request : PipeRequest)
      (earlier : PipeRun machine allowed start server) (meets : allowed server request)
      (ran : request.serve machine ⟨server, {}⟩ = (outcome, after)) (alive : outcome ≠ .fault) :
      PipeRun machine allowed start after.server
  | elsewhere {server : Server} (management : State) (strings : Heap CStr) (earlier : PipeRun machine allowed start server) :
      PipeRun machine allowed start { server with store := { server.store with management, strings } }

structure Server.Unused (server : Server) : Prop where
  pipes : server.pipes = ∅
  connect : server.store.chTable = ∅
  policy : server.store.phTable = ∅

def Server.Released (server : Server) (id : UInt32) : Prop :=
  newHandle id ∉ server.store.chTable ∧ newHandle id ∉ server.store.phTable

def ReleasesFirst (server : Server) (request : PipeRequest) : Prop := ∀ id ∈ request.closed?, server.Released id

def NotAsked (id : UInt32) (opnum : UInt16) (request : PipeRequest) : Prop :=
  ∀ pdu ∈ request.pdu?, pdu.1 = id → (pduReqHdr pdu.2).opnum ≠ opnum

def pipeHandles (pipes : HashTable UInt32 Channel) : Set Handle := { handle | ∃ id ∈ pipes, handle = newHandle id }

def Server.Tidy (server : Server) : Prop :=
  server.Within ⟨pipeHandles server.pipes, pipeHandles server.pipes⟩ { id | id ∈ server.pipes }

section
variable {machine : Machine} {start server now : Server}

private theorem admits_open {id : UInt32} {pipes : HashTable UInt32 Channel} (opnum : UInt16) (member : id ∈ pipes) :
    Handles.Admits ⟨pipeHandles pipes, pipeHandles pipes⟩ id opnum :=
  ⟨fun _ => ⟨id, member, rfl⟩, fun _ => ⟨id, member, rfl⟩⟩

private theorem tidy_of_within {after : Server}
    (within : after.Within ⟨pipeHandles server.pipes, pipeHandles server.pipes⟩ { id | id ∈ server.pipes }) :
    after.Tidy := by
  have more : pipeHandles server.pipes ⊆ pipeHandles after.pipes := by
    rintro _ ⟨id, member, rfl⟩
    exact ⟨id, within.pipes id member, rfl⟩
  refine ⟨fun handle member => more (within.connect handle member), fun handle member => more (within.policy handle member),
    fun id channel found => ⟨(within.channels id channel found).1, ?_⟩, fun _ member => member⟩
  exact admits_open _ (AList.lookup_isSome.mp (found ▸ rfl))

private theorem tidy_close {req : Command} (tidy : server.Tidy) (released : server.Released req.handle) :
    (rpcCloseRequest machine req ⟨server, {}⟩).2.server.Tidy := by
  simp only [rpcCloseRequest]
  split
  next => exact (Server.noPipe_keeps _ : Preserves (fun exchange : Exchange => exchange.server.Tidy) _) _ tidy
  next channel found =>
    obtain ⟨connect, policy⟩ := rpcPipeReset_tables machine (Work.call ⟨server.store, channel, 0⟩)
    have rest : ∀ handle ∈ pipeHandles server.pipes, handle ≠ newHandle req.handle →
        handle ∈ pipeHandles (server.pipes.erase req.handle) := by
      rintro _ ⟨id, member, rfl⟩ differs
      exact ⟨id, AList.mem_erase.mpr ⟨fun same => differs (same ▸ rfl), member⟩, rfl⟩
    refine ⟨fun handle member => ?_, fun handle member => ?_, fun id other there => ?_, fun _ member => member⟩
    · have old : handle ∈ server.store.chTable := connect ▸ member
      exact rest handle (tidy.connect handle old) fun same => released.1 (same ▸ old)
    · have old : handle ∈ server.store.phTable := policy ▸ member
      exact rest handle (tidy.policy handle old) fun same => released.2 (same ▸ old)
    · refine ⟨?_, admits_open _ (AList.lookup_isSome.mp (there ▸ rfl))⟩
      rcases eq_or_ne id req.handle with rfl | differs
      · rw [AList.lookup_erase] at there
        cases there
      · rw [AList.lookup_erase_ne differs] at there
        exact (tidy.channels id other there).1

private theorem tidy_served {request : PipeRequest} {outcome : Outcome Status Unit} {after : Exchange} (tidy : server.Tidy)
    (stays : request.closed? = none) (ran : request.serve machine ⟨server, {}⟩ = (outcome, after)) : after.server.Tidy := by
  have within : (request.serve machine ⟨server, {}⟩).2.server.Within _ _ :=
    Server.Within.serve tidy (fun pdu _ member => admits_open (pduReqHdr pdu.2).opnum member) (by rw [stays]; exact nofun)
  rw [ran] at within
  exact tidy_of_within within

theorem PipeRun.tidy (unused : start.Unused) (run : PipeRun machine ReleasesFirst start server) : server.Tidy := by
  induction run with
  | refl =>
    refine ⟨fun handle member => ?_, fun handle member => ?_, fun id channel found => ?_, fun _ member => member⟩
    · rw [unused.connect] at member
      exact absurd member (AList.notMem_empty _)
    · rw [unused.policy] at member
      exact absurd member (AList.notMem_empty _)
    · rw [unused.pipes] at found
      cases found
  | @served server outcome after request _ meets ran _ ih =>
    cases request with
    | closes req =>
      have closed : (rpcCloseRequest machine req ⟨server, {}⟩).2.server.Tidy := tidy_close ih (meets _ rfl)
      rwa [show rpcCloseRequest machine req ⟨server, {}⟩ = _ from ran] at closed
    | opens req => exact tidy_served ih rfl ran
    | serves call => exact tidy_served ih rfl ran
  | elsewhere management strings _ ih => exact ⟨ih.connect, ih.policy, ih.channels, ih.pipes⟩

theorem PipeRun.within {handles : Handles} {allowed : Server → PipeRequest → Prop} (within : start.Within handles ∅)
    (admits : ∀ server request, allowed server request → ∀ pdu ∈ request.pdu?, handles.Admits pdu.1 (pduReqHdr pdu.2).opnum)
    (run : PipeRun machine allowed start now) : now.Within handles ∅ := by
  induction run with
  | refl => exact within
  | @served server outcome after request _ meets ran _ ih =>
    have kept : (request.serve machine ⟨server, {}⟩).2.server.Within handles ∅ :=
      ih.serve (fun pdu member _ => admits _ request meets pdu member) fun _ _ => id
    rwa [ran] at kept
  | elsewhere management strings _ ih => exact ⟨ih.connect, ih.policy, ih.channels, ih.pipes⟩

end

def ConnectsOn (machine : Machine) (server : Server) (id : UInt32) : Prop :=
  ∀ (channel : Channel) (write read : Command) (written : Server) (maxRespSz : Nat),
    server.pipes.lookup id = some channel → channel.dce.returnReady = false →
    write.handle = id → SamrCommands write read → (pduReqHdr write.payload).opnum = Samr.connect5 → 64 ≤ maxRespSz →
    rpcRestrictedContext server.store.management.globalConf read.flags = false →
    rpcWriteRequest machine write ⟨server, {}⟩ = (.ok (), ⟨written, {}⟩) →
    machine.mallocConnectHandle written.store id = true →
    (rpcReadRequest machine read maxRespSz ⟨written, {}⟩).1 = .ok ()

def OpensPolicyOn (machine : Machine) (server : Server) (id : UInt32) : Prop :=
  ∀ (channel : Channel) (write read : Command) (written : Server) (maxRespSz : Nat),
    server.pipes.lookup id = some channel → channel.dce.returnReady = false →
    write.handle = id → PolicyCommands write read → 48 ≤ maxRespSz →
    rpcWriteRequest machine write ⟨server, {}⟩ = (.ok (), ⟨written, {}⟩) →
    machine.mallocPolicyHandle written.store id = true →
    (rpcReadRequest machine read maxRespSz ⟨written, {}⟩).1 = .ok ()

theorem rpcCloseRequest_tables (machine : Machine) (req : Command) (exchange : Exchange) :
    (rpcCloseRequest machine req exchange).2.server.store.chTable = exchange.server.store.chTable ∧
      (rpcCloseRequest machine req exchange).2.server.store.phTable = exchange.server.store.phTable := by
  simp only [rpcCloseRequest]
  split
  next =>
    exact (Server.noPipe_keeps _ : Preserves (fun after : Exchange =>
      after.server.store.chTable = exchange.server.store.chTable ∧
        after.server.store.phTable = exchange.server.store.phTable) _) exchange ⟨rfl, rfl⟩
  next channel _ => exact rpcPipeReset_tables machine (Work.call ⟨exchange.server.store, channel, 0⟩)

section
variable {machine : Machine} {server now opened : Server} {opening : Command}

private def others (id : UInt32) : Set Handle := { handle | handle ≠ newHandle id }

private theorem newHandle_mem_others {id other : UInt32} (differs : other ≠ id) : newHandle other ∈ others id := fun same =>
  differs (newHandle_injective same)

private theorem within_others (tidy : server.Tidy) (opens : rpcOpenRequest opening ⟨server, {}⟩ = (.ok (), ⟨opened, {}⟩)) :
    opened.Within ⟨others opening.handle, others opening.handle⟩ ∅ := by
  have absent : opening.handle ∉ server.pipes := by
    intro member
    simp only [rpcOpenRequest, bind_apply, get_apply, member, ↓reduceIte, stop_apply] at opens
    cases opens
  have apart : ∀ id ∈ server.pipes, newHandle id ∈ others opening.handle := fun id member =>
    newHandle_mem_others fun same => absent (same ▸ member)
  have owned : pipeHandles server.pipes ⊆ others opening.handle := by
    rintro _ ⟨id, member, rfl⟩
    exact apart id member
  have within : server.Within ⟨others opening.handle, others opening.handle⟩ ∅ := by
    refine ⟨fun handle member => owned (tidy.connect handle member), fun handle member => owned (tidy.policy handle member),
      fun id channel found => ⟨(tidy.channels id channel found).1, ?_⟩, nofun⟩
    have own := apart id (AList.lookup_isSome.mp (found ▸ rfl))
    exact ⟨fun _ => own, fun _ => own⟩
  have after : (rpcOpenRequest opening ⟨server, {}⟩).2.server.Within _ _ := Server.Within.openPipe within
  rwa [opens] at after

private theorem connects_first (within : opened.Within ⟨others opening.handle, others opening.handle⟩ ∅)
    (run : PipeRun machine (fun _ => NotAsked opening.handle Samr.connect5) opened now) :
    ConnectsOn machine now opening.handle := by
  have start : opened.Within ⟨others opening.handle, Set.univ⟩ ∅ := within.mono subset_rfl (Set.subset_univ _)
  have reached := PipeRun.within start (fun _ request free pdu member => ⟨fun connect => newHandle_mem_others fun same =>
    free pdu member same connect, fun _ => trivial⟩) run
  intro channel write read written maxRespSz found idle pipe commands opnum room unrestricted accepted granted
  obtain ⟨id, -⟩ := reached.channels _ _ found
  rw [← pipe] at found
  refine connect_answered commands found idle opnum accepted room unrestricted (fun member => ?_) (id ▸ granted)
  exact reached.connect _ member (congrArg newHandle id)

private theorem opens_policy_first (within : opened.Within ⟨others opening.handle, others opening.handle⟩ ∅)
    (run : PipeRun machine (fun _ => NotAsked opening.handle Lsarpc.openPolicy2) opened now) :
    OpensPolicyOn machine now opening.handle := by
  have start : opened.Within ⟨Set.univ, others opening.handle⟩ ∅ := within.mono (Set.subset_univ _) subset_rfl
  have reached := PipeRun.within start (fun _ request free pdu member => ⟨fun _ => trivial, fun policy =>
    newHandle_mem_others fun same => free pdu member same policy⟩) run
  intro channel write read written maxRespSz found idle pipe commands room accepted granted
  obtain ⟨id, -⟩ := reached.channels _ _ found
  rw [← pipe] at found
  refine policy_answered commands found idle accepted room (fun member => ?_) (id ▸ granted)
  exact reached.policy _ member (congrArg newHandle id)

end

/-- In a run in which pipes are only closed behind their handles, a pipe that is closed has
no handle left exactly if it had none, and the first connect on a pipe that was just opened
is answered, as is the first policy. -/
theorem pipe_handles_released (machine : Machine) (start server : Server) (unused : start.Unused)
    (run : PipeRun machine ReleasesFirst start server) :
    (∀ (close : Command) (after : Exchange), rpcCloseRequest machine close ⟨server, {}⟩ = (.ok (), after) →
      (after.server.Released close.handle ↔ server.Released close.handle)) ∧
    ∀ (opening : Command) (opened now : Server), rpcOpenRequest opening ⟨server, {}⟩ = (.ok (), ⟨opened, {}⟩) →
      (PipeRun machine (fun _ => NotAsked opening.handle Samr.connect5) opened now →
        ConnectsOn machine now opening.handle) ∧
      (PipeRun machine (fun _ => NotAsked opening.handle Lsarpc.openPolicy2) opened now →
        OpensPolicyOn machine now opening.handle) := by
  have tidy := run.tidy unused
  refine ⟨fun close after closed => ?_, fun opening opened now opens => ?_⟩
  · obtain ⟨connect, policy⟩ := rpcCloseRequest_tables machine close ⟨server, {}⟩
    rw [closed] at connect policy
    rw [Server.Released, connect, policy, Server.Released]
  · have within := within_others tidy opens
    exact ⟨connects_first within, opens_policy_first within⟩

namespace Scenario

def pipeless : Server := { server with pipes := ∅ }

def openPipe : Command := { handle := pipe, flags := Method.openPipe }

def closePipe : Command := { handle := pipe, flags := Method.close }

def ask (payload : List UInt8) : List PipeRequest :=
  [.serves (.write (samrWrite payload)), .serves (.read samrRead 4080)]

def askPolicy (payload : List UInt8) : List PipeRequest :=
  [.serves (.write { handle := pipe, flags := Method.write ||| Method.lsarpcInvoke, payload }),
    .serves (.read { handle := pipe, flags := Method.read ||| Method.lsarpcInvoke } 4080)]

def openPolicy : List UInt8 := request 44 5 []

def closePolicy : List UInt8 := request 0 6 samrConnected

def serveAll (server : Server) (requests : List PipeRequest) : Server :=
  requests.foldl (fun server request => (request.serve machine ⟨server, {}⟩).2.server) server

def survive : Server → List PipeRequest → Bool
  | _, [] => true
  | server, request :: rest =>
    (request.serve machine ⟨server, {}⟩).1 != .fault && survive (request.serve machine ⟨server, {}⟩).2.server rest

theorem run_serveAll {allowed : Server → PipeRequest → Prop} {start : Server} (requests : List PipeRequest)
    (meets : ∀ server, ∀ request ∈ requests, allowed server request) :
    ∀ server, PipeRun machine allowed start server → survive server requests = true →
      PipeRun machine allowed start (serveAll server requests) := by
  induction requests with
  | nil => exact fun _ run _ => run
  | cons request rest ih =>
    intro server run alive
    simp only [survive, Bool.and_eq_true, bne_iff_ne, ne_eq] at alive
    have next : PipeRun machine allowed start (request.serve machine ⟨server, {}⟩).2.server :=
      .served request run (meets _ _ (.head _)) rfl alive.1
    exact ih (fun server request member => meets server request (.tail _ member)) _ next alive.2

def connectedPipe : Server := serveAll pipeless (.opens openPipe :: ask samrConnect)

/-- Both services opened the handle of the pipe. -/
def usedPipe : List PipeRequest := .opens openPipe :: (ask samrConnect ++ askPolicy openPolicy)

def releasedPipe : Server := serveAll pipeless (usedPipe ++ ask samrClose ++ askPolicy closePolicy)

theorem pipeless_unused : pipeless.Unused := ⟨rfl, rfl, rfl⟩

end Scenario

open Scenario in
/-- A pipe whose two handles were closed is closed, and one more is opened. -/
theorem pipe_handles_released_in_turn :
    (samrConnected ∈ (serveAll pipeless usedPipe).store.chTable ∧
    samrConnected ∈ (serveAll pipeless usedPipe).store.phTable) ∧
    (rpcCloseRequest machine closePipe ⟨releasedPipe, {}⟩).2.server.Released pipe ∧
    ConnectsOn machine (rpcOpenRequest { openPipe with handle := 8 } ⟨releasedPipe, {}⟩).2.server 8 ∧
      OpensPolicyOn machine (rpcOpenRequest { openPipe with handle := 8 } ⟨releasedPipe, {}⟩).2.server 8 := by
  have run : PipeRun machine ReleasesFirst pipeless releasedPipe := by
    refine run_serveAll _ (fun server request member id closed => ?_) _ .refl (by decide +kernel)
    have none : ∀ request ∈ usedPipe ++ ask samrClose ++ askPolicy closePolicy, request.closed? = none := by decide
    rw [none request member] at closed
    cases closed
  have released : releasedPipe.Released pipe := ⟨by decide +kernel, by decide +kernel⟩
  have holds := pipe_handles_released machine pipeless releasedPipe pipeless_unused run
  have ended : (rpcCloseRequest machine closePipe ⟨releasedPipe, {}⟩).1 = .ok () := by decide +kernel
  have opened : (rpcOpenRequest { openPipe with handle := 8 } ⟨releasedPipe, {}⟩).1 = .ok () := by decide +kernel
  obtain ⟨after, closes⟩ := exists_of_ok ended
  obtain ⟨last, opens⟩ := exists_of_ok opened
  refine ⟨⟨by decide +kernel, by decide +kernel⟩, ?_, ?_⟩
  · rw [closes]
    exact (holds.1 closePipe after closes).mpr released
  · rw [opens]
    obtain ⟨channel, -, rfl⟩ := rpcOpenRequest_ok opens
    obtain ⟨connects, opensPolicy⟩ := holds.2 _ _ _ opens
    exact ⟨connects .refl, opensPolicy .refl⟩

open Scenario in
/-- A pipe is closed that a handle was opened on. The handle stays in its table, and the
first connect on the next pipe with this id is refused. -/
theorem handle_outlives_pipe :
    PipeRun machine (fun _ _ => True) pipeless connectedPipe ∧
    (rpcCloseRequest machine closePipe ⟨connectedPipe, {}⟩).1 = .ok () ∧
    samrConnected ∈ (serveAll connectedPipe [.closes closePipe]).store.chTable ∧
    (rpcOpenRequest openPipe ⟨serveAll connectedPipe [.closes closePipe], {}⟩).1 = .ok () ∧
    (rpcWriteRequest machine (samrWrite samrConnect) ⟨serveAll connectedPipe [.closes closePipe, .opens openPipe], {}⟩).1 =
      .ok () ∧
    (samr (serveAll connectedPipe [.closes closePipe, .opens openPipe]) samrConnect).1 = .stop .noMem := by
  refine ⟨?_, by decide +kernel, by decide +kernel, by decide +kernel, by decide +kernel, by decide +kernel⟩
  exact run_serveAll _ (fun _ _ _ => trivial) _ .refl (by decide +kernel)

end KsmbdTools.Rpc
