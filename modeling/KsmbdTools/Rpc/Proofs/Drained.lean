import KsmbdTools.Rpc.Proofs.Dropping
import KsmbdTools.Rpc.Proofs.RejectedPdu

/-! A call on a pipe: a write that is accepted and the read behind it. Whether
the pipe is empty again can be told from the state between the two. -/

namespace KsmbdTools.Rpc
open Management Proc

section
open Call
variable {machine : Machine} {base : State} {call : Call}

/-! Nothing is put on an empty pipe by a read. -/

theorem processEntries_none (none : call.pipe.numEntries = 0) :
    (processEntries machine call.pipe.numEntries.toNat call).2 = call := by
  rw [none]
  simp only [processEntries, bind_apply, get_apply]
  cases call.pipe.entryProcessed with
  | none => rfl
  | some kind => cases kind <;> rfl

theorem rpcPipeReset_emptied : Preserves (OnLoans (Emptied base)) (rpcPipeReset machine) := by
  intro call empty
  refine bind_still rfl empty ?_
  rintro _ ⟨⟩
  exact bind_still (processEntries_none empty.numEntries) empty fun _ _ => ⟨empty.entries, rfl, rfl, empty.management⟩

theorem lsarpcDropEntries_emptied : Preserves (OnLoans (Emptied base)) (lsarpcDropEntries machine) := by
  intro call empty
  refine bind_still rfl empty ?_
  rintro _ ⟨⟩
  cases call.pipe.entryProcessed.isSome with
  | false => exact empty
  | true =>
    exact bind_still (processEntries_none empty.numEntries) empty fun _ _ =>
      ⟨empty.entries, rfl, empty.fresh, empty.management⟩

theorem emptied_replies : Replies machine (OnLoans (Emptied base)) where
  toWritten := loans_written
  processed _ _ empty := ⟨empty.entries, empty.numEntries, empty.fresh, empty.management⟩
  replaced call _ _ empty :=
    ⟨by simp [show call.pipe.entries = [] from empty.entries], empty.numEntries, empty.fresh, empty.management⟩
  reset := rpcPipeReset_emptied
  drops := lsarpcDropEntries_emptied

theorem lsarpcMethodReturn_emptied (opnum : UInt16) (dssetup : Bool) :
    Preserves (OnLoans (Emptied base)) (lsarpcMethodReturn machine opnum dssetup) := by
  have write : ∀ items, Preserves (OnLoans (Emptied base)) (Call.write machine items) := fun _ => ndr_loans _ _
  have table : ∀ f, Preserves (OnLoans (Emptied base)) (modifyPhTable f) := fun _ => .modify fun _ empty => empty
  exact lsarpcMethodReturn_keeps emptied_replies opnum dssetup (fun _ => .bind (lsarpcPhAlloc_keeps table) fun _ => write _)
    (.bind lsarpcPhLookup_keeps fun _ => .bind (table _) fun _ => write _)

end

namespace Work
variable {machine : Machine} {assertion : Pipe → State → Prop} {flags : UInt32} {base : State}

def drains (machine : Machine) (work : Work) (flags : UInt32) (maxRespSz : Nat) : Prop :=
  let request := work.channel.dce.req.siReq machine
  let opnum := work.channel.dce.reqHdr.opnum
  let fits limit script := fits machine work.channel.dce.stream.flags limit script
  work.channel.pipe.entries = [] ∨
  match service? flags with
  | some .srvsvc =>
    (opnum = Srvsvc.shareEnumAll ∨ opnum = Srvsvc.getShareInfo) ∧
    ((Srvsvc.level? request.level).isNone ∨
      fits (if opnum = Srvsvc.shareEnumAll then min maxRespSz request.maxSize else maxRespSz)
        (srvsvcScript machine opnum work.call))
  | some .lsarpc =>
    (opnum = Lsarpc.lookupSid2 ∨ opnum = Lsarpc.lookupNames3) ∧
    knowsPolicy machine work.call ∧ fits maxRespSz (lsarpcScript machine opnum work.call)
  | _ => False

section
variable {work : Work} {maxRespSz : Nat}

private theorem ended_loans (status : Status) : Preserves (OnLoans assertion flags) (do
    sendResponse machine status
    answer status) := .bind (loans_apart.sendResponse status) fun _ => .ite (.pure ()) (.stop _)

theorem rpcSamrReadRequest_loans (other : work.channel.dce.reqHdr.opnum ≠ Samr.lookupNames)
    (holds : OnLoans assertion flags work) : OnLoans assertion flags (rpcSamrReadRequest machine work).2 := by
  refine bind_still rfl holds ?_
  rintro _ ⟨⟩
  have handled : ∀ restricted, Preserves (OnLoans assertion flags)
      (handle (samrReturn machine work.channel.dce.reqHdr.opnum restricted)) := fun restricted =>
    handle_loans (.bind (.modify fun _ holds => holds) fun _ => .bind (samrMethodReturn_tables loans_written
      (fun _ => .modify fun _ holds => holds) fun same => absurd same other).code fun _ => .pure _)
  exact Preserves.bind (handled _) (fun _ => ended_loans _) work holds

theorem rpcSrvsvcReadRequest_other
    (other : ¬(work.channel.dce.reqHdr.opnum = Srvsvc.shareEnumAll ∨ work.channel.dce.reqHdr.opnum = Srvsvc.getShareInfo)) :
    rpcSrvsvcReadRequest machine maxRespSz work = (.stop .badFunc, work) := by
  simp only [rpcSrvsvcReadRequest, bind_apply, get_apply, if_neg other]
  rfl

theorem rpcWkssvcReadRequest_other (other : work.channel.dce.reqHdr.opnum ≠ Wkssvc.netwkstaGetInfo) :
    rpcWkssvcReadRequest machine maxRespSz work = (.stop .badFunc, work) := by
  simp only [rpcWkssvcReadRequest, bind_apply, get_apply, if_neg other]
  rfl

theorem rpcLsarpcReadRequest_other
    (other : work.channel.dce.reqHdr.opnum = Srvsvc.shareEnumAll ∨ work.channel.dce.reqHdr.opnum = Srvsvc.getShareInfo)
    (holds : OnLoans assertion flags work) : OnLoans assertion flags (rpcLsarpcReadRequest machine work).2 := by
  refine bind_still rfl holds ?_
  rintro _ ⟨⟩
  have handled : Preserves (OnLoans assertion flags)
      (handle (lsarpcReturn machine work.channel.dce.reqHdr.opnum work.channel.dce.dssetup)) := by
    refine handle_loans (.bind (.modify fun _ holds => holds) fun _ => .code ?_)
    rcases other with method | method <;> rw [method] <;> exact .stop _
  exact Preserves.bind handled (fun _ => ended_loans _) work holds

theorem serviceReadRequest_emptied (service : Service) (other : work.channel.dce.reqHdr.opnum ≠ Samr.lookupNames)
    (empty : OnLoans (Emptied base) flags work) :
    OnLoans (Emptied base) flags (serviceReadRequest machine maxRespSz service work).2 := by
  have payload : ∀ size, Preserves (OnLoans (Emptied base) flags) (setRespPayload size) :=
    fun _ => .modify fun _ empty => empty
  cases service with
  | srvsvc =>
    refine Preserves.bind .get (fun _ => .ite (.bind (payload _) fun _ => .bind (handle_loans ?_) fun _ =>
      loans_apart.sendResponse _) (.stop _)) work empty
    exact srvsvcShareInfoReturn_replies emptied_replies (srvsvcMethodReturn_emptied _ _)
  | wkssvc =>
    refine Preserves.bind .get (fun _ => .ite (.bind (payload _) fun _ => .bind (handle_loans ?_) fun _ =>
      loans_apart.sendResponse _) (.stop _)) work empty
    exact wkssvcNetwkstaInfoReturn_keeps emptied_replies _
  | samr => exact rpcSamrReadRequest_loans other empty
  | lsarpc =>
    have handled : ∀ opnum dssetup, Preserves (Call.OnLoans (Emptied base)) (lsarpcReturn machine opnum dssetup) :=
      fun _ _ => .bind (.modify fun _ empty => empty) fun _ => (lsarpcMethodReturn_emptied _ _).code
    exact Preserves.bind .get (fun _ => .bind (handle_loans (handled _ _)) fun _ => ended_loans _) work empty

theorem rpcSrvsvcReadRequest_told (held : base.Held)
    (method : work.channel.dce.reqHdr.opnum = Srvsvc.shareEnumAll ∨ work.channel.dce.reqHdr.opnum = Srvsvc.getShareInfo)
    (shared : OnLoans (Shared base) flags work) (occupied : work.channel.pipe.entries ≠ []) {read : UInt32}
    (service : service? read = some .srvsvc) :
    (rpcSrvsvcReadRequest machine maxRespSz work).1 = .fault ∨
      OnLoans (Told (drains machine work read maxRespSz) base) flags (rpcSrvsvcReadRequest machine maxRespSz work).2 := by
  let limit := if work.channel.dce.reqHdr.opnum = Srvsvc.shareEnumAll then
    min maxRespSz (work.channel.dce.req.siReq machine).maxSize else maxRespSz
  let restricted := rpcRestrictedContext work.store.management.globalConf work.channel.dce.rpcFlags
  have whole : rpcSrvsvcReadRequest machine maxRespSz work = (do
      let status ← handle (srvsvcShareInfoReturn machine work.channel.dce.reqHdr.opnum restricted)
      sendResponse machine status) (setRespPayload limit work).2 := by
    simp only [rpcSrvsvcReadRequest, bind_apply, get_apply, if_pos method]
    rfl
  rw [whole]
  refine bind_along ?_ fun status => loans_apart.sendResponse status
  have begun : Call.OnLoans (Shared base) (setRespPayload limit work).2.call := shared.1
  refine (srvsvcShareInfoReturn_told held method begun occupied).imp id fun told => ⟨told.congr ?_, shared.2⟩
  simp only [drains, service, occupied, false_or, method, true_and]
  rfl

theorem rpcLsarpcReadRequest_told (held : base.Held)
    (method : work.channel.dce.reqHdr.opnum = Lsarpc.lookupSid2 ∨ work.channel.dce.reqHdr.opnum = Lsarpc.lookupNames3)
    (named : OnLoans (Named base) flags work) (occupied : work.channel.pipe.entries ≠ []) {read : UInt32}
    (service : service? read = some .lsarpc) (limit : work.channel.dce.stream.payloadSz = maxRespSz) :
    (rpcLsarpcReadRequest machine work).1 = .fault ∨
      OnLoans (Told (drains machine work read maxRespSz) base) flags (rpcLsarpcReadRequest machine work).2 := by
  have whole : rpcLsarpcReadRequest machine work = (do
      let status ← handle (lsarpcReturn machine work.channel.dce.reqHdr.opnum work.channel.dce.dssetup)
      sendResponse machine status
      answer status) work := rfl
  rw [whole]
  refine bind_along ?_ fun status => ended_loans status
  have begun : Call.OnLoans (Named base) work.call := named.1
  refine (lsarpcReturn_told held method begun occupied).imp id fun told => ⟨told.congr ?_, named.2⟩
  simp only [drains, service, occupied, false_or, method, true_and, ← limit]
  rfl

/-- Of the methods that leave entries on the pipe, each is answered by its own service. -/
theorem serviceReadRequest_told (held : base.Held) (service : Service)
    (collected : Collected base work.channel.dce.reqHdr.opnum work.channel.pipe work.store.management)
    (command : work.channel.dce.rpcFlags = flags) (limit : work.channel.dce.stream.payloadSz = maxRespSz)
    (read : service? flags = some service) :
    (serviceReadRequest machine maxRespSz service work).1 = .fault ∨
      OnLoans (Told (drains machine work flags maxRespSz) base) flags
        (serviceReadRequest machine maxRespSz service work).2 := by
  by_cases none : work.channel.pipe.entries = []
  · have empty : OnLoans (Emptied base) flags work := ⟨collected.emptied none, command⟩
    have still : OnLoans (Emptied base) flags (serviceReadRequest machine maxRespSz service work).2 :=
      serviceReadRequest_emptied service collected.method_ne empty
    exact .inr ⟨.inl ⟨.inl none, still.1⟩, still.2⟩
  · have left : OnLoans (fun pipe _ => pipe.entries ≠ []) flags work := ⟨none, command⟩
    have method := collected.method_ne
    have stays : ∀ {after : Work}, ¬drains machine work flags maxRespSz →
        OnLoans (fun pipe _ => pipe.entries ≠ []) flags after →
          OnLoans (Told (drains machine work flags maxRespSz) base) flags after :=
      fun never left => ⟨.inr ⟨never, left.1⟩, left.2⟩
    cases collected with
    | nothing _ empty => exact absurd empty.entries none
    | shares shares shared =>
      cases service with
      | srvsvc => exact rpcSrvsvcReadRequest_told held shares ⟨shared, command⟩ none read
      | wkssvc =>
        have stopped : serviceReadRequest machine maxRespSz .wkssvc work = (.stop .badFunc, work) :=
          rpcWkssvcReadRequest_other (by rcases shares with same | same <;> rw [same] <;> decide)
        rw [stopped]
        exact .inr (stays (by simp [drains, none, read]) left)
      | samr => exact .inr (stays (by simp [drains, none, read]) (rpcSamrReadRequest_loans method left))
      | lsarpc =>
        have other : ¬(work.channel.dce.reqHdr.opnum = Lsarpc.lookupSid2 ∨
            work.channel.dce.reqHdr.opnum = Lsarpc.lookupNames3) := by
          rcases shares with same | same <;> rw [same] <;> decide
        exact .inr (stays (by simp [drains, none, read, other]) (rpcLsarpcReadRequest_other shares left))
    | names names named =>
      cases service with
      | lsarpc => exact rpcLsarpcReadRequest_told held names ⟨named, command⟩ none read limit
      | wkssvc =>
        have stopped : serviceReadRequest machine maxRespSz .wkssvc work = (.stop .badFunc, work) :=
          rpcWkssvcReadRequest_other (by rcases names with same | same <;> rw [same] <;> decide)
        rw [stopped]
        exact .inr (stays (by simp [drains, none, read]) left)
      | samr => exact .inr (stays (by simp [drains, none, read]) (rpcSamrReadRequest_loans method left))
      | srvsvc =>
        have other : ¬(work.channel.dce.reqHdr.opnum = Srvsvc.shareEnumAll ∨
            work.channel.dce.reqHdr.opnum = Srvsvc.getShareInfo) := by
          rcases names with same | same <;> rw [same] <;> decide
        have stopped : serviceReadRequest machine maxRespSz .srvsvc work = (.stop .badFunc, work) :=
          rpcSrvsvcReadRequest_other other
        rw [stopped]
        exact .inr (stays (by simp [drains, none, read, other]) left)

theorem returnHandler_told (held : base.Held)
    (pending : isBind work.channel.dce.hdr.ptype = true ∧ Emptied base work.channel.pipe work.store.management ∨
      work.channel.dce.hdr.ptype = Ptype.request ∧
      Collected base work.channel.dce.reqHdr.opnum work.channel.pipe work.store.management)
    (limit : work.channel.dce.stream.payloadSz = maxRespSz) :
    (returnHandler machine maxRespSz work).1 = .fault ∨
      OnLoans (Told (drains machine work work.channel.dce.rpcFlags maxRespSz) base) work.channel.dce.rpcFlags
        (returnHandler machine maxRespSz work).2 := by
  rcases pending with ⟨bind, empty⟩ | ⟨request, collected⟩
  · have answered : returnHandler machine maxRespSz work = dcerpcBindReturn machine work := by
      simp only [returnHandler, bind_apply, get_apply, bind, ↓reduceIte]
    have still : OnLoans (Emptied base) work.channel.dce.rpcFlags (dcerpcBindReturn machine work).2 :=
      loans_apart.dcerpcBindReturn work ⟨empty, rfl⟩
    rw [answered]
    exact .inr ⟨.inl ⟨.inl empty.entries, still.1⟩, still.2⟩
  · cases service : service? work.channel.dce.rpcFlags with
    | none =>
      have stopped : returnHandler machine maxRespSz work = (.stop .notImplemented, work) := by
        simp only [returnHandler, bind_apply, get_apply, request, service]
        rfl
      rw [stopped]
      by_cases none : work.channel.pipe.entries = []
      · exact .inr ⟨.inl ⟨.inl none, collected.emptied none⟩, rfl⟩
      · exact .inr ⟨.inr ⟨by simp [drains, none, service], none⟩, rfl⟩
    | some service' =>
      have answered : returnHandler machine maxRespSz work = serviceReadRequest machine maxRespSz service' work := by
        simp only [returnHandler, bind_apply, get_apply, request, service]
        rfl
      rw [answered]
      exact serviceReadRequest_told held service' collected rfl limit service

end

end Work

/-- The pipe has no entries, and the references taken for them have been given back. -/
def Server.Drained (before after : Server) (handle : UInt32) : Prop :=
  ∃ channel, after.pipes.lookup handle = some channel ∧ channel.pipe.entries = [] ∧ channel.pipe.numEntries = 0 ∧
    after.store.management = before.store.management

/-- A call on an empty pipe leaves it empty exactly if its reply had no entries to list,
was for an unknown level, or could be written to the end of its entries. -/
theorem completed_call_drained (machine : Machine) {server written : Server} {channel pending : Channel}
    {write read : Command} {maxRespSz : Nat} (held : server.store.management.Held)
    (found : server.pipes.lookup write.handle = some channel) (idle : channel.dce.returnReady = false)
    (empty : channel.pipe.entries = [] ∧ channel.pipe.numEntries = 0)
    (service : service? write.flags = some .srvsvc ∨ service? write.flags = some .lsarpc)
    (accepted : rpcWriteRequest machine write ⟨server, {}⟩ = (.ok (), ⟨written, {}⟩))
    (next : written.pipes.lookup write.handle = some pending) (same : read.handle = write.handle)
    (returns : (rpcReadRequest machine read maxRespSz ⟨written, {}⟩).1 ≠ .fault) :
    server.Drained (rpcReadRequest machine read maxRespSz ⟨written, {}⟩).2.server read.handle ↔
      Work.drains machine ⟨written.store, pending, 0⟩ read.flags maxRespSz := by
  rw [rpcWriteRequest_idle found idle] at accepted
  obtain ⟨after, ran⟩ : ∃ after, invokeHandler machine (Exchange.writing ⟨server, {}⟩ channel write) = (.ok (), after) :=
    ⟨_, Prod.ext (congrArg (·.1) accepted) rfl⟩
  rw [ran] at accepted
  cases accepted
  have current : pending = after.channel := Option.some.inj (next.symm.trans (Server.lookup_finish found after))
  subst current
  have start : Work.OnLoans (Emptied server.store.management) write.flags (Exchange.writing ⟨server, {}⟩ channel write) :=
    ⟨⟨empty.1, empty.2, rfl, rfl⟩, rfl⟩
  have left := Work.invokeHandler_collected held service start ran
  have ready : after.channel.dce.returnReady = true := (invokeHandler_ready machine).along ran rfl
  have fresh : after.channel.pipe.ioctlReplyConsumed = false := by
    rcases left with ⟨_, bound⟩ | ⟨_, collected⟩
    · exact bound.fresh
    · exact collected.fresh
  have there : (server.finish write.handle after).pipes.lookup read.handle = some after.channel := by
    rw [same]
    exact next
  rw [rpcReadRequest_pending there fresh ready] at returns ⊢
  let reading := Exchange.reading ⟨server.finish write.handle after, {}⟩ after.channel read maxRespSz
  have told : (returnHandler machine maxRespSz reading).1 = .fault ∨ _ := Work.returnHandler_told held left rfl
  obtain ⟨told, _⟩ := told.resolve_left returns
  have last : ((server.finish write.handle after).finish read.handle
      (returnHandler machine maxRespSz reading).2).pipes.lookup read.handle =
        some (returnHandler machine maxRespSz reading).2.channel := Server.lookup_finish there _
  constructor
  · rintro ⟨final, lookup, none, _⟩
    have here := Option.some.inj (last.symm.trans lookup)
    subst here
    rcases told with ⟨drains, _⟩ | ⟨_, occupied⟩
    · exact drains
    · exact absurd none occupied
  · intro drains
    rcases told with ⟨_, gone⟩ | ⟨never, _⟩
    · exact ⟨_, last, gone.entries, gone.numEntries, gone.management⟩
    · exact absurd drains never

theorem Scenario.server_held : Scenario.server.store.management.Held := by
  have users : ∀ entry ∈ Scenario.server.store.management.usersTable.entries,
      ∃ record ∈ Scenario.server.store.management.users.get? entry.2, record.name = entry.1 ∧ 1 ≤ record.refCount ∧
        record.freeing = false := by decide +kernel
  have shares : SharesSound Scenario.server.store.management :=
    (Management.Scenario.loaded_consistent { name := Management.Scenario.shareName, flags := ShareFlag.browseable }).shares
  exact .of_sound shares fun name user listed => users ⟨name, user⟩ (AList.mem_lookup_iff.mp listed)

/-- An enumeration whose reply has room for its one share. -/
theorem completed_call_drained_enum :
    Scenario.server.Drained (rpcReadRequest Scenario.machine Scenario.read 4080 ⟨Scenario.pending, {}⟩).2.server
      Scenario.pipe := by
  obtain ⟨channel, found⟩ := Option.isSome_iff_exists.mp
    (show (Scenario.server.pipes.lookup Scenario.pipe).isSome by decide +kernel)
  obtain ⟨pending, next⟩ := Option.isSome_iff_exists.mp
    (show (Scenario.pending.pipes.lookup Scenario.pipe).isSome by decide +kernel)
  have idle : ∀ channel ∈ Scenario.server.pipes.lookup Scenario.pipe, channel.dce.returnReady = false ∧
      channel.pipe.entries = [] ∧ channel.pipe.numEntries = 0 := by decide +kernel
  have answered : (rpcWriteRequest Scenario.machine (Scenario.write (Scenario.shareEnum 1 4000))
      ⟨Scenario.server, {}⟩).1 = .ok () := by decide +kernel
  have silent : (rpcWriteRequest Scenario.machine (Scenario.write (Scenario.shareEnum 1 4000))
      ⟨Scenario.server, {}⟩).2.resp = {} := by decide +kernel
  have accepted : rpcWriteRequest Scenario.machine (Scenario.write (Scenario.shareEnum 1 4000)) ⟨Scenario.server, {}⟩ =
      (.ok (), ⟨Scenario.pending, {}⟩) := Prod.ext answered (congrArg (Exchange.mk Scenario.pending) silent)
  have returns : (rpcReadRequest Scenario.machine Scenario.read 4080 ⟨Scenario.pending, {}⟩).1 = .ok () := by decide +kernel
  have room : ∀ pending ∈ Scenario.pending.pipes.lookup Scenario.pipe,
      pending.dce.reqHdr.opnum = Srvsvc.shareEnumAll ∧
      fits Scenario.machine pending.dce.stream.flags (min 4080 (pending.dce.req.siReq Scenario.machine).maxSize)
        (srvsvcScript Scenario.machine Srvsvc.shareEnumAll (Work.call ⟨Scenario.pending.store, pending, 0⟩)) = true := by
    decide +kernel
  obtain ⟨method, room⟩ := room pending next
  have asked : service? Scenario.read.flags = some .srvsvc := by decide +kernel
  have drains : Work.drains Scenario.machine ⟨Scenario.pending.store, pending, 0⟩ Scenario.read.flags 4080 := by
    simp only [Work.drains, asked, method, ↓reduceIte]
    exact .inr ⟨.inl trivial, .inr room⟩
  have same : Scenario.read.handle = (Scenario.write (Scenario.shareEnum 1 4000)).handle := rfl
  have service : service? (Scenario.write (Scenario.shareEnum 1 4000)).flags = some .srvsvc := by decide +kernel
  have drained := (completed_call_drained Scenario.machine Scenario.server_held found (idle channel found).1
    (idle channel found).2 (.inl service) accepted next same (by rw [returns]; exact fun ended => nomatch ended)).mpr drains
  exact drained

/-- A reply the client allows 40 bytes for stops in front of its shares, and the share
stays on the pipe. -/
theorem small_reply_leaves_entries :
    let wrote := rpcWriteRequest Scenario.machine (Scenario.write (Scenario.shareEnum 1 40)) ⟨Scenario.server, {}⟩
    let read := rpcReadRequest Scenario.machine Scenario.read 4080 ⟨wrote.2.server, {}⟩
    wrote.1 = .ok () ∧ read.1 = .stop .badData ∧ ¬Scenario.server.Drained read.2.server Scenario.pipe := by
  refine ⟨by decide +kernel, by decide +kernel, ?_⟩
  rintro ⟨channel, found, none, _⟩
  have left : ∀ channel ∈ (rpcReadRequest Scenario.machine Scenario.read 4080
      ⟨(rpcWriteRequest Scenario.machine (Scenario.write (Scenario.shareEnum 1 40)) ⟨Scenario.server, {}⟩).2.server,
        {}⟩).2.server.pipes.lookup Scenario.pipe, channel.pipe.entries ≠ [] := by decide +kernel
  exact left channel found none

end KsmbdTools.Rpc
