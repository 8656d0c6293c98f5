import KsmbdTools.Rpc.Requests

/-! What the headers and the bind exchange have no part in. They read and write the stream, and keep what they read in
the request and the two headers. -/

namespace KsmbdTools.Rpc
open Proc

namespace Work
variable {machine : Machine} {assertion : Work → Prop}

/-- The PDU at work with other contents of what goes over the wire. -/
def onWire (work : Work) (contexts : Heap (List DcerpcContext)) (stream : Stream) (req : Req) (hdr : Header)
    (payloadSz : Nat) : Work where
  store := { work.store with contexts }
  channel := { work.channel with dce := { work.channel.dce with stream, req, hdr } }
  payloadSz := payloadSz

/-- An assertion about none of it. Only the method of a request may be looked at, which its reply replaces by zero. -/
structure Apart (assertion : Work → Prop) : Prop where
  wire : ∀ work contexts stream req hdr payloadSz, assertion work → assertion (work.onWire contexts stream req hdr payloadSz)
  answered : ∀ (work : Work) (reqHdr : RequestHeader), reqHdr.opnum = 0 → assertion work →
    assertion { work with channel := { work.channel with dce := { work.channel.dce with reqHdr } } }

namespace Apart
variable (apart : Apart assertion)
include apart

theorem ndr {α : Type} (code : Status) (program : Ndr α) : Preserves assertion (Work.ndr code program) := by
  intro work holds
  have moved := apart.wire work work.store.contexts (program work.call.stream).2 work.channel.dce.req work.channel.dce.hdr
    work.payloadSz holds
  have ends : (Work.ndr code program work).2 =
      work.setCall { work.call with stream := (program work.call.stream).2 } := by
    simp only [Work.ndr, Work.handle, Proc.zoom, Call.ndr, Proc.orStop]
    rcases program work.call.stream with ⟨_ | _ | _, stream⟩ <;> rfl
  rw [ends]
  exact moved

theorem write (items : List Item) : Preserves assertion (Work.write machine items) := apart.ndr _ _

theorem seek (offset : Nat) : Preserves assertion (Work.seek offset) := fun _ => apart.wire _ _ _ _ _ _

theorem modifyHdr (f : Header → Header) : Preserves assertion (Work.modifyHdr f) := fun _ => apart.wire _ _ _ _ _ _

theorem modifyBiReq (f : DcerpcBindRequest → DcerpcBindRequest) : Preserves assertion (modifyBiReq machine f) :=
  fun _ => apart.wire _ _ _ _ _ _

theorem dcerpcHdrRead (code : Status) : Preserves assertion (dcerpcHdrRead code) :=
  .bind (apart.ndr _ _) fun _ => .bind (apart.modifyHdr _) fun _ => .bind (apart.ndr _ _) fun _ =>
    .bind (apart.modifyHdr _) fun _ => .bind (apart.ndr _ _) fun _ => .bind (apart.modifyHdr _) fun _ =>
    .bind (apart.ndr _ _) fun _ => .bind (apart.modifyHdr _) fun _ => .bind (apart.ndr _ _) fun _ =>
    .bind (fun _ => apart.wire _ _ _ _ _ _) fun _ => .bind (apart.ndr _ _) fun _ => .bind (apart.ndr _ _) fun _ =>
    .bind (apart.ndr _ _) fun _ => apart.modifyHdr _

theorem dcerpcRequestHdrRead (code : Status) (reqHdr : ∀ (work : Work) (reqHdr : RequestHeader), assertion work →
    assertion { work with channel := { work.channel with dce := { work.channel.dce with reqHdr } } }) :
    Preserves assertion (dcerpcRequestHdrRead code) :=
  .bind (apart.ndr _ _) fun _ => .bind (apart.ndr _ _) fun _ => .bind (apart.ndr _ _) fun _ => .modify fun _ => reqHdr _ _

theorem writeHdr (ptype pfcFlags : UInt8) : Preserves assertion (writeHdr machine ptype pfcFlags) :=
  .bind .get fun _ => .bind (apart.seek _) fun _ => .bind (apart.modifyHdr _) fun _ => .bind .get fun _ => apart.write _

theorem setPayloadSz (f : Work → Nat) :
    Preserves assertion (Proc.modify (ε := Status) fun work => { work with payloadSz := f work }) :=
  fun work => apart.wire work work.store.contexts work.channel.dce.stream work.channel.dce.req work.channel.dce.hdr _

theorem sendResponse (status : Status) : Preserves assertion (sendResponse machine status) :=
  .bind (apart.write _) fun _ => .bind (.bind .get fun _ => .bind (apart.writeHdr _ _) fun _ =>
    .bind (.modify fun _ => apart.answered _ _ rfl) fun _ => .bind (apart.write _) fun _ => apart.seek _) fun _ =>
    apart.setPayloadSz _

theorem respond {handler : Proc Call Status Status} (keeps : Preserves assertion (Work.handle handler)) :
    Preserves assertion (do let status ← Work.handle handler; Rpc.sendResponse machine status; answer status) :=
  .bind keeps fun _ => .bind (apart.sendResponse _) fun _ => .ite (.pure ()) (.stop _)

theorem readContexts (count : Nat) : Preserves assertion (readContexts machine count) := by
  intro work holds
  have collected := apart.ndr .badData (Proc.collect count ndrReadContext) work holds
  simp only [Rpc.readContexts]
  revert collected
  rcases Work.ndr .badData (Proc.collect count ndrReadContext) work with ⟨contexts | code | _, after⟩ <;> intro collected
  · exact apart.wire _ _ _ _ _ _ collected
  · exact apart.wire _ _ _ _ _ _ collected
  · exact collected

theorem dcerpcParseBindReq : Preserves assertion (dcerpcParseBindReq machine) :=
  .bind .get fun _ => .bind (apart.modifyBiReq _) fun _ => .bind (apart.ndr _ _) fun _ =>
    .bind (apart.modifyBiReq _) fun _ =>
    .bind (apart.ndr _ _) fun _ => .bind (apart.modifyBiReq _) fun _ => .bind (apart.ndr _ _) fun _ =>
    .bind (apart.modifyBiReq _) fun _ => .bind (apart.ndr _ _) fun _ => .bind (apart.modifyBiReq _) fun _ =>
    .bind (fun _ => apart.wire _ _ _ _ _ _) fun _ => .ite (apart.readContexts _) (.pure ())

theorem dcerpcBindReqFree : Preserves assertion (dcerpcBindReqFree machine) := by
  refine .bind .get fun work => .bind (.deref _) fun _ => ?_
  dsimp only
  split
  next => exact apart.modifyBiReq _
  next =>
    refine .bind (.deref _) fun _ => .bind ?_ fun _ => apart.modifyBiReq _
    exact fun work => apart.wire work _ work.channel.dce.stream work.channel.dce.req work.channel.dce.hdr work.payloadSz

theorem sendBindReply (ptype : UInt8) : Preserves assertion (sendBindReply machine ptype) :=
  .bind .get fun _ => .bind (apart.writeHdr _ _) fun _ => .bind (apart.seek _) fun _ => apart.setPayloadSz _

theorem dcerpcBindReturn : Preserves assertion (dcerpcBindReturn machine) := by
  refine .bind .get fun _ => .bind (.deref _) fun contexts => .bind (.code (.ite ?_ ?_)) fun _ =>
    .bind apart.dcerpcBindReqFree fun _ => .ite (.pure ()) (.stop _)
  · refine .bind (apart.seek _) fun _ => .bind (apart.modifyBiReq _) fun _ => .bind .get fun _ =>
      .bind (apart.write _) fun _ => ?_
    split
    next => exact .stop _
    next => exact .bind (apart.write _) fun _ => apart.sendBindReply _
  · exact .bind (apart.seek _) fun _ => .bind (apart.write _) fun _ => apart.sendBindReply _

end Apart
end Work
end KsmbdTools.Rpc
