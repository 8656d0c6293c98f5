import KsmbdTools.Rpc.Proofs.SamrParsing

/-! One SAMR call: a request that is written, and the read of its reply. The write only
parses. The handle is looked up, and the table of handles changed, by the read, which follows a write that was refused
as well. -/

namespace KsmbdTools.Rpc
open Management Bytes Proc

/-! The reply that is sent. -/

section
variable {machine : Machine} {hdr : Header} {contextId : UInt16} {limit : Nat} {work after : Work}

theorem Call.write_contiguous (machine : Machine) (call : Call) {items : List Item} {list : List (Nat × List UInt8)}
    (pieces : items.flatMap (Item.pieces machine.toPlatform call.stream.flags) = list.map fun put => Piece.put put.1 put.2)
    (contiguous : Contiguous call.stream.offset list)
    (room : call.stream.offset + (list.flatMap (·.2)).length ≤ call.stream.payloadSz) :
    ∃ stream, Call.write machine items call = (.ok (), { call with stream }) ∧ call.stream.Moved stream ∧
      stream.offset = call.stream.offset + (list.flatMap (·.2)).length := by
  obtain ⟨stream, moved, offset, ran⟩ := Call.write_apply machine items call
  have reach : call.reach machine items = ⟨call.stream.offset + (list.flatMap (·.2)).length, true⟩ := by
    rw [Call.reach, Reach.items, pieces]
    exact Reach.pieces_contiguous contiguous room
  rw [reach] at ran offset
  exact ⟨stream, ran, moved, offset⟩

private theorem Work.write_contiguous (machine : Machine) (work : Work) {items : List Item} {list : List (Nat × List UInt8)}
    (pieces : items.flatMap (Item.pieces machine.toPlatform work.channel.dce.stream.flags) =
      list.map fun put => Piece.put put.1 put.2)
    (contiguous : Contiguous work.channel.dce.stream.offset list)
    (room : work.channel.dce.stream.offset + (list.flatMap (·.2)).length ≤ work.channel.dce.stream.payloadSz) :
    ∃ after : Work, Work.write machine items work = (.ok (), after) ∧
      work.channel.dce.stream.Moved after.channel.dce.stream ∧
      after.channel.dce.stream.offset = work.channel.dce.stream.offset + (list.flatMap (·.2)).length := by
  obtain ⟨stream, ran, moved, offset⟩ := Call.write_contiguous machine work.call pieces contiguous room
  exact ⟨_, Work.handle_of ran, moved, offset⟩

private theorem writeHdr_sends (machine : Machine) (ptype pfcFlags : UInt8)
    (long : headerSize ≤ work.channel.dce.stream.payloadSz) :
    ∃ after : Work, writeHdr machine ptype pfcFlags work = (.ok (), after) ∧
      after.channel.dce.stream.offset = headerSize ∧ work.channel.dce.stream.Moved after.channel.dce.stream := by
  generalize started : ({ work with channel := { work.channel with dce := { work.channel.dce with
    hdr := { work.channel.dce.hdr with ptype, pfcFlags, fragLength := UInt16.ofNat work.channel.dce.stream.offset }
    stream := { work.channel.dce.stream with offset := 0 } } } } : Work) = start
  have same : writeHdr machine ptype pfcFlags work = Work.write machine start.channel.dce.hdr.items start := by
    rw [← started]
    rfl
  have offset : start.channel.dce.stream.offset = 0 := by rw [← started]
  have size : start.channel.dce.stream.payloadSz = work.channel.dce.stream.payloadSz := by rw [← started]
  have flags : start.channel.dce.stream.flags = work.channel.dce.stream.flags := by rw [← started]
  have length : ((start.channel.dce.hdr.puts start.channel.dce.stream.littleEndian).flatMap (·.2)).length = headerSize :=
    Header.length_bytes _ _
  obtain ⟨after, wrote, moved, reached⟩ := Work.write_contiguous machine start
    (show List.flatMap (Item.pieces machine.toPlatform start.channel.dce.stream.flags) start.channel.dce.hdr.items =
      (start.channel.dce.hdr.puts start.channel.dce.stream.littleEndian).map _ from rfl)
    (offset ▸ Header.contiguous _ _) (by rw [offset, length, size, Nat.zero_add]; exact long)
  rw [offset, length, Nat.zero_add] at reached
  exact ⟨after, same.trans wrote, reached, moved.payloadSz.trans size, moved.flags.trans flags⟩

theorem sendResponse_sends (machine : Machine) (status : Status)
    (aligned : alignUp work.channel.dce.stream.offset 4 = work.channel.dce.stream.offset)
    (room : work.channel.dce.stream.offset + 4 ≤ work.channel.dce.stream.payloadSz)
    (long : headerSize + responseHeaderSize ≤ work.channel.dce.stream.payloadSz) :
    (sendResponse machine status work).1 = .ok () := by
  obtain ⟨coded, wrote, moved, -⟩ := Work.write_contiguous machine work
    (show List.flatMap (Item.pieces machine.toPlatform work.channel.dce.stream.flags) [.int32 status.toUInt32] =
      [(4, encode work.channel.dce.stream.littleEndian 4 status.toUInt32.toNat)].map _ from rfl)
    ⟨aligned, trivial⟩ (by simpa using room)
  have within : headerSize ≤ coded.channel.dce.stream.payloadSz := by
    rw [moved.payloadSz]
    omega
  obtain ⟨headed, wroteHdr, offset, kept⟩ := writeHdr_sends machine Ptype.response
    (if status = .moreData then Pfc.firstFrag else Pfc.firstFrag ||| Pfc.lastFrag) within
  generalize assigned : ({ headed with channel := { headed.channel with dce := { headed.channel.dce with
    reqHdr := { headed.channel.dce.reqHdr with
      opnum := 0, allocHint := UInt32.ofNat coded.channel.dce.stream.offset } } } } : Work) = start
  have stream : start.channel.dce.stream = headed.channel.dce.stream := by rw [← assigned]
  obtain ⟨last, wroteResponse, -, -⟩ := Work.write_contiguous machine start
    (show List.flatMap (Item.pieces machine.toPlatform start.channel.dce.stream.flags)
      [.int32 (UInt32.ofNat coded.channel.dce.stream.offset), .int16 coded.channel.dce.reqHdr.contextId, .int8 0, .int8 0] =
      (responsePuts start.channel.dce.stream.littleEndian coded.channel.dce.stream.offset
        coded.channel.dce.reqHdr.contextId).map _ from rfl)
    (by rw [stream, offset]; exact responsePuts_contiguous _ _ _)
    (by
      rw [stream, offset, kept.payloadSz, moved.payloadSz]
      exact Nat.le_trans (Nat.le_of_eq (congrArg _ (length_responseBytes _ _ _))) long)
  have headers : (dcerpcWriteHeaders machine status coded).1 = .ok () := by
    simp only [dcerpcWriteHeaders, bind_apply, get_apply, wroteHdr, Work.modifyDce, modify_apply, assigned, wroteResponse]
    rfl
  obtain ⟨last, sent⟩ := exists_of_ok headers
  rw [sendResponse, bind_ok wrote, bind_ok sent]
  rfl

end

theorem Call.write_defined {machine : Machine} (items : List Item) : Defined (Call.write machine items) := by
  intro call
  obtain ⟨stream, -, -, ran⟩ := Call.write_apply machine items call
  rw [ran]
  split <;> exact nofun

section
variable {machine : Machine} {work after : Work}
  {aside : State × HashTable Handle ConnectHandle × HashTable Handle Unit × Pipe}

def Work.samrStart (work : Work) : Call :=
  { work.call with stream := { work.call.stream with offset := headerSize + responseHeaderSize } }

private def samrAnswer (machine : Machine) (status : Status) : Proc Work Status Unit := do
  sendResponse machine status
  answer status

private theorem rpcSamrReadRequest_coded {status : Status} {done : Call}
    (coded : (Proc.code .ok (samrMethodReturn machine work.channel.dce.reqHdr.opnum) : Proc Call Status Status)
      work.samrStart = (.ok status, done)) :
    rpcSamrReadRequest machine work = samrAnswer machine
      (if rpcRestrictedContext work.store.management.globalConf work.channel.dce.rpcFlags then .accessDenied else status)
      (work.setCall done) := by
  have body : ∀ restricted, samrReturn machine work.channel.dce.reqHdr.opnum restricted work.call =
      (.ok (if restricted then .accessDenied else status), done) := fun restricted =>
    (bind_ok (show Call.seek (headerSize + responseHeaderSize) work.call = (.ok (), work.samrStart) from rfl)).trans
      ((bind_ok coded).trans rfl)
  rw [rpcSamrReadRequest, bind_ok (get_apply work), bind_ok (Work.handle_of (body _)), samrAnswer]

theorem rpcSamrReadRequest_fault {done : Call}
    (ran : samrMethodReturn machine work.channel.dce.reqHdr.opnum work.samrStart = (.fault, done)) :
    rpcSamrReadRequest machine work = (.fault, work.setCall done) := by
  have body : ∀ restricted, samrReturn machine work.channel.dce.reqHdr.opnum restricted work.call = (.fault, done) :=
    fun restricted =>
      (bind_ok (show Call.seek (headerSize + responseHeaderSize) work.call = (.ok (), work.samrStart) from rfl)).trans
        (bind_fault (code_of_fault ran))
  rw [rpcSamrReadRequest, bind_ok (get_apply work), bind_fault (Work.handle_of (body _))]

private theorem samrAnswer_defined (status : Status) : Defined (samrAnswer machine status) := by
  have write : ∀ items, Defined (Work.write machine items) := fun items work => Call.write_defined items work.call
  exact .bind (.bind (write _) fun _ => .bind (.bind .get fun _ => .bind (.bind .get fun _ => .bind (.modify _) fun _ =>
    .bind (.modify _) fun _ => .bind .get fun _ => write _) fun _ => .bind (.modify _) fun _ => .bind (write _) fun _ =>
    .modify _) fun _ => .modify _) fun _ => .ite (.pure ()) (.stop _)

theorem rpcSamrReadRequest_defined {outcome : Outcome Status Unit} {done : Call}
    (ran : samrMethodReturn machine work.channel.dce.reqHdr.opnum work.samrStart = (outcome, done))
    (ends : outcome ≠ .fault) : (rpcSamrReadRequest machine work).1 ≠ .fault := by
  rcases outcome with _ | code | _
  · rw [rpcSamrReadRequest_coded (code_of_ok ran)]
    exact samrAnswer_defined _ _
  · rw [rpcSamrReadRequest_coded (code_of_stop ran)]
    exact samrAnswer_defined _ _
  · exact absurd rfl ends

private theorem samrAnswer_aside (status : Status) :
    Preserves (fun work : Work => work.call.aside = aside) (samrAnswer machine status) :=
  .bind (aside_apart.sendResponse _) fun _ => .ite (.pure ()) (.stop _)

theorem rpcSamrReadRequest_aside {outcome : Outcome Status Unit} {done : Call}
    (ran : samrMethodReturn machine work.channel.dce.reqHdr.opnum work.samrStart = (outcome, done)) :
    (rpcSamrReadRequest machine work).2.call.aside = done.aside := by
  rcases outcome with _ | code | _
  · rw [rpcSamrReadRequest_coded (code_of_ok ran)]
    exact samrAnswer_aside _ _ rfl
  · rw [rpcSamrReadRequest_coded (code_of_stop ran)]
    exact samrAnswer_aside _ _ rfl
  · rw [rpcSamrReadRequest_fault ran]
    rfl

private theorem samrAnswer_refused {status : Status} (failed : status ≠ .ok) :
    (samrAnswer machine status work).1 ≠ .ok () := by
  intro ended
  obtain ⟨last, answered⟩ := exists_of_ok ended
  obtain ⟨_, _, -, ended⟩ := bind_eq_ok.mp answered
  rw [answer, if_neg failed] at ended
  cases ended

theorem rpcSamrReadRequest_refused {code : Status} {done : Call} (failed : code ≠ .ok)
    (ran : samrMethodReturn machine work.channel.dce.reqHdr.opnum work.samrStart = (.stop code, done)) :
    (rpcSamrReadRequest machine work).1 ≠ .ok () := by
  rw [rpcSamrReadRequest_coded (code_of_stop ran)]
  refine samrAnswer_refused ?_
  split
  · decide
  · exact failed

theorem rpcSamrReadRequest_done {hdr : Header} {contextId : UInt16} {limit : Nat} {done : Call} {text : List UInt8}
    (awaits : work.channel.dce.Awaits hdr contextId limit) (request : hdr.ptype = Ptype.request)
    (unrestricted : rpcRestrictedContext work.store.management.globalConf work.channel.dce.rpcFlags = false)
    (ran : samrMethodReturn machine work.channel.dce.reqHdr.opnum work.samrStart = (.ok (), done))
    (moved : work.channel.dce.stream.Moved done.stream) (filled : done.stream.Filled text) (aligned : 4 ∣ text.length)
    (long : headerSize + responseHeaderSize ≤ text.length) (room : text.length + 4 ≤ work.channel.dce.stream.payloadSz) :
    ∃ after : Work, rpcSamrReadRequest machine work = (.ok (), after) ∧
      after.channel.dce.stream.payload.drop (headerSize + responseHeaderSize) =
        text.drop (headerSize + responseHeaderSize) ++ encode hdr.little 4 (Status.ok.toUInt32).toNat ∧
      after.payloadSz = text.length + 4 := by
  have offset : (work.setCall done).channel.dce.stream.offset = text.length := filled.offset
  have size : (work.setCall done).channel.dce.stream.payloadSz = work.channel.dce.stream.payloadSz := moved.payloadSz
  have behind : (work.setCall done).channel.dce.Awaits hdr contextId limit :=
    ⟨awaits.header, awaits.contextId, (congrArg NdrFlags.littleEndian moved.flags).trans awaits.order,
      size.trans_le awaits.room⟩
  obtain ⟨after, sent⟩ := exists_of_ok (sendResponse_sends machine .ok
    (by rw [offset, alignUp_of_dvd aligned]) (by rw [offset, size]; exact room) (by rw [size]; omega))
  obtain ⟨-, coded, wrote, body, ended⟩ := sendResponse_ok behind request (by decide) sent
  obtain ⟨call, written, rfl⟩ := Work.handle_ran wrote
  obtain ⟨stream, put, rfl⟩ := Call.write_ran written
  obtain ⟨_, _, put, last⟩ := bind_eq_ok.mp put
  cases last
  obtain ⟨whole, payload⟩ := filled.put put
  have order : (work.setCall done).call.stream.flags.littleEndian = hdr.little := behind.order
  rw [padTo_of_dvd aligned, order] at whole payload
  refine ⟨after, ?_, ?_, ?_⟩
  · rw [rpcSamrReadRequest_coded (code_of_ok ran), unrestricted]
    exact (bind_ok sent).trans rfl
  · refine body.trans ((congrArg _ payload).trans ?_)
    rw [List.drop_append_of_le_length long]
  · refine ended.trans (whole.offset.trans ?_)
    rw [List.length_append, length_encode]

end

/-! The methods that change the table. -/

def headerSpace : List UInt8 := List.replicate (headerSize + responseHeaderSize) 0

theorem headerSpace_length : headerSpace.length = headerSize + responseHeaderSize := List.length_replicate

theorem Call.write_filled (machine : Machine) (call : Call) {text : List UInt8} {items : List Item}
    {list : List (Nat × List UInt8)} (filled : call.stream.Filled text)
    (pieces : items.flatMap (Item.pieces machine.toPlatform call.stream.flags) = list.map fun put => Piece.put put.1 put.2)
    (contiguous : Contiguous text.length list) (room : text.length + (list.flatMap (·.2)).length ≤ call.stream.payloadSz) :
    ∃ stream, Call.write machine items call = (.ok (), { call with stream }) ∧
      stream.Filled (text ++ list.flatMap (·.2)) ∧ call.stream.Moved stream := by
  obtain ⟨stream, ran, moved, -⟩ := Call.write_contiguous machine call pieces (filled.offset ▸ contiguous)
    (filled.offset ▸ room)
  obtain ⟨_, put, same⟩ := Call.write_ran ran
  obtain rfl := congrArg Call.stream same
  rw [ndrWrite, pieces] at put
  refine ⟨stream, ran, ?_, moved⟩
  rw [← foldl_puts contiguous]
  refine filled.pieces (fun piece member => ?_) put
  obtain ⟨_, -, rfl⟩ := List.mem_map.mp member
  rfl

theorem Call.write_bytes (machine : Machine) (call : Call) {text : List UInt8} (bytes : List UInt8)
    (filled : call.stream.Filled text) (even : 2 ∣ text.length) (room : text.length + bytes.length ≤ call.stream.payloadSz) :
    ∃ stream, Call.write machine [.bytes bytes] call = (.ok (), { call with stream }) ∧ stream.Filled (text ++ bytes) ∧
      call.stream.Moved stream := by
  have pieces : List.flatMap (Item.pieces machine.toPlatform call.stream.flags) [.bytes bytes] =
    [(2, bytes)].map fun put => Piece.put put.1 put.2 := rfl
  have written := Call.write_filled machine call filled pieces ⟨alignUp_of_dvd even, trivial⟩ (by simpa using room)
  simpa using written

namespace Call

def setTable (call : Call) (table : HashTable Handle ConnectHandle) : Call :=
  { call with store := { call.store with chTable := table } }

def referred (call : Call) (handle : Handle) (ch : ConnectHandle) : Call :=
  call.setTable (call.store.chTable.replace handle { ch with refcount := ch.refcount + 1 })

def released (call : Call) (handle : Handle) (ch : ConnectHandle) : Call :=
  call.setTable (if 1 < ch.refcount then call.store.chTable.replace handle { ch with refcount := ch.refcount - 1 }
    else call.store.chTable.erase handle)

def connected (call : Call) : Call := call.setTable (call.store.chTable.insert (newHandle call.pipe.id) ⟨1, none⟩)

end Call

section
variable {machine : Machine} {call : Call} {handle : Handle} {ch : ConnectHandle}

theorem samrChLookup_known (named : (call.req.smReq machine).handle = handle)
    (known : call.store.chTable.lookup handle = some ch) : samrChLookup machine call = (.ok (handle, ch), call) := by
  subst named
  simp only [samrChLookup, bind_apply, get_apply, known, pure_apply]

theorem samrChLookup_unknown (named : (call.req.smReq machine).handle = handle)
    (unknown : call.store.chTable.lookup handle = none) : samrChLookup machine call = (.stop .badFid, call) := by
  subst named
  simp only [samrChLookup, bind_apply, get_apply, unknown, stop_apply]

theorem samrOpenDomainReturn_known (named : (call.req.smReq machine).handle = handle)
    (known : call.store.chTable.lookup handle = some ch) (filled : call.stream.Filled headerSpace)
    (room : headerSpace.length + handle.length ≤ call.stream.payloadSz) :
    ∃ stream, samrOpenDomainReturn machine call = (.ok (), { call.referred handle ch with stream }) ∧
      stream.Filled (headerSpace ++ handle) ∧ call.stream.Moved stream := by
  obtain ⟨stream, wrote, whole, moved⟩ := Call.write_bytes machine (call.referred handle ch) handle filled (by decide) room
  exact ⟨stream, (bind_ok (samrChLookup_known named known)).trans wrote, whole, moved⟩

theorem samrOpenUserReturn_known {user : Ref User} {record : User} (named : (call.req.smReq machine).handle = handle)
    (known : call.store.chTable.lookup handle = some ch) (has : ch.user = some user)
    (live : call.store.management.users.get? user = some record) (same : (call.req.smReq machine).rid = record.uid)
    (filled : call.stream.Filled headerSpace) (room : headerSpace.length + handle.length ≤ call.stream.payloadSz) :
    ∃ stream, samrOpenUserReturn machine call = (.ok (), { call.referred handle ch with stream }) ∧
      stream.Filled (headerSpace ++ handle) ∧ call.stream.Moved stream := by
  obtain ⟨stream, wrote, whole, moved⟩ := Call.write_bytes machine (call.referred handle ch) handle filled (by decide) room
  refine ⟨stream, ?_, whole, moved⟩
  have counted : modifyChTable (·.replace handle { ch with refcount := ch.refcount + 1 }) call =
      (.ok (), call.referred handle ch) := rfl
  have found : (Proc.deref ((call.referred handle ch).store.management.users.get? user) : Proc Call Status User)
      (call.referred handle ch) = (.ok record, call.referred handle ch) := by
    rw [show (call.referred handle ch).store.management.users.get? user = some record from live]
    rfl
  rw [samrOpenUserReturn, bind_ok (samrChLookup_known named known)]
  simp only [has]
  rw [bind_ok (has ▸ counted), bind_ok (get_apply _), bind_ok found]
  have agrees : ((call.referred handle ch).req.smReq machine).rid = record.uid := same
  simp only [agrees, bne_self_eq_false, Bool.false_eq_true, ↓reduceIte]
  exact wrote

theorem samrCloseReturn_known (named : (call.req.smReq machine).handle = handle)
    (known : call.store.chTable.lookup handle = some ch) (filled : call.stream.Filled headerSpace)
    (room : headerSpace.length + handleSize ≤ call.stream.payloadSz) :
    ∃ stream, samrCloseReturn machine call = (.ok (), { call.released handle ch with stream }) ∧
      stream.Filled (headerSpace ++ List.replicate handleSize 0) ∧ call.stream.Moved stream := by
  generalize order : call.stream.flags.littleEndian = little
  have pieces : List.flatMap (Item.pieces machine.toPlatform (call.released handle ch).stream.flags)
      [.int64 0, .int64 0, .int32 0] =
      [(8, encode little 8 0), (8, encode little 8 0), (4, encode little 4 0)].map fun put => Piece.put put.1 put.2 := by
    rw [← order]
    rfl
  have zeros : [(8, encode little 8 0), (8, encode little 8 0), (4, encode little 4 0)].flatMap (·.2) =
      List.replicate handleSize 0 := by
    cases little <;> decide
  obtain ⟨stream, wrote, whole, moved⟩ := Call.write_filled machine (call.released handle ch) filled pieces
    (by cases little <;> exact ⟨by decide, by decide, by decide, trivial⟩) (by rw [zeros]; exact room)
  exact ⟨stream, (bind_ok (samrChLookup_known named known)).trans wrote, zeros ▸ whole, moved⟩

/-- What an allocation of a handle does with its table. The entry of before is lost with the one that is refused. -/
theorem allocHandle_eq {α : Type} (table : Call → HashTable Handle α) (set : Call → HashTable Handle α → Call)
    (table_set : ∀ call held, table (set call held) = held)
    (set_set : ∀ call held new, set (set call held) new = set call new) (granted : Bool) (handle : Handle)
    (entry : α) (call : Call) :
    (do
      if !granted then Proc.stop .noMem
      Proc.modify fun call' => set call' (HashTable.add (table call) handle entry).1
      if !(HashTable.add (table call) handle entry).2 then
        Proc.modify fun call => set call (HashTable.drop (table call) handle).1
        Proc.stop .noMem
      return handle : Proc Call Status Handle) call =
    if granted = true then
      if handle ∈ table call then (.stop .noMem, set call ((table call).erase handle))
      else (.ok handle, set call ((table call).insert handle entry))
    else (.stop .noMem, call) := by
  cases granted with
  | false => rfl
  | true =>
    by_cases present : handle ∈ table call
    · have old : (HashTable.add (table call) handle entry).2 = false := by simp [HashTable.add, present]
      rw [if_pos rfl, if_pos present, ← HashTable.drop_add (table call) _ entry,
        ← set_set call (HashTable.add (table call) handle entry).1]
      simp only [Bool.not_true, Bool.not_false, Bool.false_eq_true, ↓reduceIte, bind_apply, modify_apply, old, table_set]
      rfl
    · have new : (HashTable.add (table call) handle entry).2 = true := by simp [HashTable.add, present]
      rw [if_pos rfl, if_neg present]
      simp only [new]
      rfl

theorem samrChAlloc_eq (machine : Machine) (call : Call) : samrChAlloc machine call =
    if machine.mallocConnectHandle call.store call.pipe.id = true then
      if newHandle call.pipe.id ∈ call.store.chTable then
        (.stop .noMem, call.setTable (call.store.chTable.erase (newHandle call.pipe.id)))
      else (.ok (newHandle call.pipe.id), call.connected)
    else (.stop .noMem, call) := by
  rw [samrChAlloc, bind_ok (get_apply call)]
  exact allocHandle_eq (·.store.chTable) Call.setTable (fun _ _ => rfl) (fun _ _ _ => rfl) _ _ _ call

private def connectPuts (little : Bool) (request : SamrInfoRequest) : List (Nat × List UInt8) :=
  [(4, encode little 4 request.level.toNat), (4, encode little 4 request.level.toNat),
    (4, encode little 4 request.clientVersion.toNat), (4, encode little 4 0)]

private theorem connectPuts_length (little : Bool) (request : SamrInfoRequest) :
    ((connectPuts little request).flatMap (·.2)).length = 16 := by
  simp only [connectPuts, List.flatMap_cons, List.flatMap_nil, List.length_append, length_encode, List.length_nil]

theorem samrConnect5Return_levels (machine : Machine) (filled : call.stream.Filled headerSpace)
    (room : 40 ≤ call.stream.payloadSz) :
    ∃ (stream : Stream) (levels : List UInt8), samrConnect5Return machine call =
        (samrChAlloc machine >>= fun handle => Call.write machine [.bytes handle]) { call with stream } ∧
      levels.length = 16 ∧ stream.Filled (headerSpace ++ levels) ∧ call.stream.Moved stream := by
  let puts := connectPuts call.stream.flags.littleEndian (call.req.smReq machine)
  have length : (puts.flatMap (·.2)).length = 16 := connectPuts_length _ _
  have contiguous : Contiguous headerSpace.length puts := by
    simp only [puts, connectPuts, Contiguous, length_encode]
    decide
  obtain ⟨levelled, wroteLevels, text, first⟩ := Call.write_filled machine call filled
    (show List.flatMap (Item.pieces machine.toPlatform call.stream.flags)
      [.int32 (call.req.smReq machine).level, .int32 (call.req.smReq machine).level,
        .int32 (call.req.smReq machine).clientVersion, .int32 0] = puts.map fun put => Piece.put put.1 put.2 from rfl)
    contiguous (by rw [length]; exact room)
  exact ⟨levelled, puts.flatMap (·.2), bind_ok wroteLevels, length, text, first⟩

theorem samrConnect5Return_fresh (fresh : newHandle call.pipe.id ∉ call.store.chTable)
    (granted : machine.mallocConnectHandle call.store call.pipe.id = true)
    (filled : call.stream.Filled headerSpace) (room : 60 ≤ call.stream.payloadSz) :
    ∃ (stream : Stream) (levels : List UInt8), samrConnect5Return machine call = (.ok (), { call.connected with stream }) ∧
      levels.length = 16 ∧ stream.Filled (headerSpace ++ levels ++ newHandle call.pipe.id) ∧ call.stream.Moved stream := by
  obtain ⟨levelled, levels, ran, length, text, first⟩ := samrConnect5Return_levels machine filled
    (Nat.le_trans (by decide) room)
  have inserted : samrChAlloc machine { call with stream := levelled } =
      (.ok (newHandle call.pipe.id), { call.connected with stream := levelled }) :=
    (samrChAlloc_eq machine { call with stream := levelled }).trans ((if_pos granted).trans (if_neg fresh))
  have size : (headerSpace ++ levels).length = 40 := by
    rw [List.length_append, length]
    rfl
  obtain ⟨stream, wrote, whole, second⟩ := Call.write_bytes machine { call.connected with stream := levelled }
    (newHandle call.pipe.id) text (by rw [size]; decide) (by rw [size, first.payloadSz]; exact room)
  exact ⟨stream, levels, ran.trans ((bind_ok inserted).trans wrote), length, whole, first.trans second⟩

theorem samrConnect5Return_denied (denied : machine.mallocConnectHandle call.store call.pipe.id ≠ true)
    (filled : call.stream.Filled headerSpace) (room : 40 ≤ call.stream.payloadSz) :
    ∃ stream, samrConnect5Return machine call = (.stop .noMem, { call with stream }) := by
  obtain ⟨stream, -, ran, -, -, -⟩ := samrConnect5Return_levels machine filled room
  have refused : samrChAlloc machine { call with stream } = (.stop .noMem, { call with stream }) :=
    (samrChAlloc_eq machine { call with stream }).trans (if_neg denied)
  exact ⟨stream, ran.trans (bind_stop refused)⟩

end

/-! The two halves of a call. -/

/-- A request and the read behind it. A request that is refused is read for as well: the pipe was marked before it was
parsed. -/
def samrCall (machine : Machine) (write read : Command) (maxRespSz : Nat) : Proc Exchange Status Unit := fun exchange =>
  match rpcWriteRequest machine write exchange with
  | (.ok _, written) => rpcReadRequest machine read maxRespSz written
  | (.stop code, written) => (rpcReadRequest machine read maxRespSz >>= fun _ => Proc.stop code) written
  | (.fault, written) => (.fault, written)

/-- Both commands are for the service, on one pipe, and the PDU is a request. -/
structure SamrCommands (write read : Command) : Prop where
  handle : read.handle = write.handle
  written : service? write.flags = some .samr
  read : service? read.flags = some .samr
  request : (pduHeader write.payload).ptype = Ptype.request

section
variable {machine : Machine} {server : Server} {channel : Channel} {write read : Command} {maxRespSz : Nat}

theorem samrCall_ok {exchange written : Exchange} (wrote : rpcWriteRequest machine write exchange = (.ok (), written)) :
    samrCall machine write read maxRespSz exchange = rpcReadRequest machine read maxRespSz written := by
  simp only [samrCall, wrote]

theorem samrCall_stop {exchange written : Exchange} {code : Status}
    (wrote : rpcWriteRequest machine write exchange = (.stop code, written)) :
    samrCall machine write read maxRespSz exchange =
      (rpcReadRequest machine read maxRespSz >>= fun _ => Proc.stop code) written := by
  simp only [samrCall, wrote]

theorem samrCall_fault {exchange written : Exchange} (wrote : rpcWriteRequest machine write exchange = (.fault, written)) :
    samrCall machine write read maxRespSz exchange = (.fault, written) := by
  simp only [samrCall, wrote]

def Work.samrRead (parsed : Work) (read : Command) (maxRespSz : Nat) : Work :=
  ⟨parsed.store, parsed.channel.startRead read {} maxRespSz, 0⟩

/-- What parsing the request of a call came to, on a pipe without a pending reply. -/
structure SamrWritten (machine : Machine) (server : Server) (channel : Channel) (write read : Command)
    (outcome : Outcome Status Unit) (parsed : Work) : Prop where
  commands : SamrCommands write read
  whole : headerSize + responseHeaderSize ≤ write.payload.length
  found : server.pipes.lookup write.handle = some channel
  idle : channel.dce.returnReady = false
  ran : invokeHandler machine (Exchange.writing ⟨server, {}⟩ channel write) = (outcome, parsed)

variable {outcome : Outcome Status Unit} {parsed : Work}

theorem SamrWritten.headed (written : SamrWritten machine server channel write read outcome parsed) :
    ∃ headed, SamrHeaded write.payload (Exchange.writing ⟨server, {}⟩ channel write) headed ∧
      ∃ call, samrInvoke machine (pduReqHdr write.payload).opnum headed.call = (outcome, call) ∧
        parsed = headed.setCall call := by
  have start : (Exchange.writing ⟨server, {}⟩ channel write).At write.payload 0 := ⟨rfl, rfl, rfl⟩
  obtain ⟨headed, heads, ran⟩ := invokeHandler_headed machine start written.commands.request
    written.commands.written written.whole
  rw [written.ran, Prod.mk.injEq] at ran
  exact ⟨headed, heads, _, Prod.ext ran.1.symm rfl, ran.2⟩

theorem SamrWritten.defined (written : SamrWritten machine server channel write read outcome parsed) : outcome ≠ .fault := by
  obtain ⟨headed, -, call, ran, -⟩ := written.headed
  have ends := @samrInvoke_defined machine (pduReqHdr write.payload).opnum headed.call
  rwa [ran] at ends

theorem SamrWritten.aside (written : SamrWritten machine server channel write read outcome parsed) :
    parsed.call.aside = (Exchange.writing ⟨server, {}⟩ channel write).call.aside := by
  obtain ⟨headed, heads, call, ran, rfl⟩ := written.headed
  refine (samrInvoke_aside _).along ran ?_
  simp only [Call.aside, Work.call, heads.store, heads.pipe]

/-- What the method of a request starts with. -/
structure SamrStarts (machine : Machine) (server : Server) (channel : Channel) (outcome : Outcome Status Unit)
    (bytes : List UInt8) (maxRespSz : Nat) (start : Call) : Prop where
  left : SamrLeft machine server.store.strings channel.dce.req channel.dce.stream.flags.asciiString bytes (outcome, start)
  parsed : outcome = .ok () → SamrParsed machine bytes start
  management : start.store.management = server.store.management
  chTable : start.store.chTable = server.store.chTable
  id : start.pipe.id = channel.pipe.id
  filled : start.stream.Filled headerSpace
  size : start.stream.payloadSz = maxRespSz

theorem samrRead_starts (maxRespSz : Nat) (written : SamrWritten machine server channel write read outcome parsed) :
    SamrStarts machine server channel outcome write.payload maxRespSz (parsed.samrRead read maxRespSz).samrStart ∧
      (parsed.samrRead read maxRespSz).channel.dce.reqHdr = pduReqHdr write.payload ∧
      (parsed.samrRead read maxRespSz).channel.dce.Awaits (pduHeader write.payload)
        (pduReqHdr write.payload).contextId maxRespSz := by
  have aside := written.aside
  obtain ⟨headed, heads, call, ran, rfl⟩ := written.headed
  have left : SamrLeft machine server.store.strings channel.dce.req channel.dce.stream.flags.asciiString write.payload
      (outcome, call) := by
    have all := @samrInvoke_left machine _ _ heads.reached
    rw [ran] at all
    have strings : headed.call.store.strings = server.store.strings := congrArg Store.strings heads.store
    have req : headed.call.req = channel.dce.req := heads.req
    have ascii : headed.call.stream.flags.asciiString = channel.dce.stream.flags.asciiString := heads.asciiString
    rwa [strings, req, ascii] at all
  have request : outcome = .ok () → SamrParsed machine write.payload call := by
    rintro rfl
    exact samrInvoke_ok heads.reached call ran
  have order : call.stream.littleEndian = pduLittle write.payload :=
    (samrInvoke_keeps (Call.Reads.onStream (Stream.steady_littleEndian _)).toFills _).along ran heads.reached.order
  have space : ((headed.setCall call).samrRead read maxRespSz).samrStart.stream.payload = [] := rfl
  have kept {place : Nat} (named : LeftNamed machine server.store.strings (seenHandle machine channel.dce.req write.payload)
      channel.dce.req channel.dce.stream.flags.asciiString place write.payload (outcome, call)) :
        LeftNamed machine _ _ _ _ place
      write.payload (outcome, ((headed.setCall call).samrRead read maxRespSz).samrStart) :=
    ⟨⟨named.1.handle, named.1.name⟩, named.2⟩
  refine ⟨⟨⟨fun domain => kept (left.domain domain), fun names => kept (left.names names), left.info⟩,
    fun accepted => ?_, congrArg (·.1) aside, congrArg (·.2.1) aside, congrArg (·.2.2.2.id) aside, .gap space,
      rfl⟩, heads.reqHdr,
    heads.hdr, congrArg RequestHeader.contextId heads.reqHdr, ?_, Nat.le_refl _⟩
  · have parses := request accepted
    exact ⟨parses.handle, parses.rid⟩
  · rw [pduHeader_little]
    exact order

private theorem rpcReadRequest_written (maxRespSz : Nat)
    (written : SamrWritten machine server channel write read outcome parsed) :
    rpcReadRequest machine read maxRespSz ⟨server.finish write.handle parsed, {}⟩ =
      let ended := rpcSamrReadRequest machine (parsed.samrRead read maxRespSz)
      (ended.1, {
        server := (server.finish write.handle parsed).finish write.handle ended.2
        resp := ⟨ended.2.channel.dce.stream.payload, ended.2.payloadSz⟩ }) := by
  have aside := written.aside
  obtain ⟨headed, heads, call, -, rfl⟩ := written.headed
  obtain ⟨commands, -, found, -, -⟩ := written
  have fresh : (headed.setCall call).channel.pipe.ioctlReplyConsumed = false := congrArg (·.2.2.2.ioctlReplyConsumed) aside
  have ready : (headed.setCall call).channel.dce.returnReady = true := congrArg (·.2.1) heads.marks
  have handled : returnHandler machine maxRespSz ((headed.setCall call).samrRead read maxRespSz) =
      rpcSamrReadRequest machine ((headed.setCall call).samrRead read maxRespSz) := by
    have type : ((headed.setCall call).samrRead read maxRespSz).channel.dce.hdr.ptype = Ptype.request :=
      (congrArg Header.ptype heads.hdr).trans commands.request
    have flags : service? ((headed.setCall call).samrRead read maxRespSz).channel.dce.rpcFlags = some .samr := commands.read
    rw [returnHandler, bind_ok (get_apply _)]
    simp only [type, flags, show isBind Ptype.request = false from rfl, Bool.false_eq_true, ↓reduceIte]
    rfl
  generalize headed.setCall call = parsed at fresh ready handled ⊢
  have lookup := Server.lookup_finish found parsed
  rw [← commands.handle] at lookup ⊢
  rw [rpcReadRequest_pending lookup fresh ready]
  rw [show Exchange.reading ⟨server.finish read.handle parsed, {}⟩ parsed.channel read maxRespSz =
    parsed.samrRead read maxRespSz from rfl, handled]

/-- The state is that of the read. Its outcome is hidden by that of a write that was refused, unless it crashes. -/
theorem samrCall_written (maxRespSz : Nat) (written : SamrWritten machine server channel write read outcome parsed) :
    let ended := rpcSamrReadRequest machine (parsed.samrRead read maxRespSz)
    (samrCall machine write read maxRespSz ⟨server, {}⟩).2 = {
        server := (server.finish write.handle parsed).finish write.handle ended.2
        resp := ⟨ended.2.channel.dce.stream.payload, ended.2.payloadSz⟩ } ∧
      ((samrCall machine write read maxRespSz ⟨server, {}⟩).1 = .fault ↔ ended.1 = .fault) ∧
      ((samrCall machine write read maxRespSz ⟨server, {}⟩).1 = .ok () ↔ outcome = .ok () ∧ ended.1 = .ok ()) := by
  have answers := rpcReadRequest_written maxRespSz written
  have wrote : rpcWriteRequest machine write ⟨server, {}⟩ = (outcome, ⟨server.finish write.handle parsed, {}⟩) := by
    rw [rpcWriteRequest_idle written.found written.idle, written.ran]
  have defined := written.defined
  rcases outcome with _ | code | _
  · rw [samrCall_ok wrote, answers]
    simp
  · rw [samrCall_stop wrote]
    revert answers
    rcases rpcSamrReadRequest machine (parsed.samrRead read maxRespSz) with ⟨_ | _ | _, last⟩ <;> intro answers <;>
      simp [bind_apply, answers]
  · exact absurd rfl defined

theorem samrCall_cases (machine : Machine) (maxRespSz : Nat) (commands : SamrCommands write read)
    (whole : headerSize + responseHeaderSize ≤ write.payload.length)
    (idle : ∀ channel ∈ server.pipes.lookup write.handle, channel.dce.returnReady = false) :
    (write.handle ∉ server.pipes ∧ (samrCall machine write read maxRespSz ⟨server, {}⟩).1 ≠ .ok () ∧
      (samrCall machine write read maxRespSz ⟨server, {}⟩).2.server = server) ∨
    ∃ channel outcome parsed, SamrWritten machine server channel write read outcome parsed := by
  cases found : server.pipes.lookup write.handle with
  | none =>
    obtain ⟨outcome, wrote, refused⟩ : ∃ outcome, rpcWriteRequest machine write ⟨server, {}⟩ = (outcome, ⟨server, {}⟩) ∧
      outcome ≠ .ok () := rpcWriteRequest_absent found
    have answers : rpcReadRequest machine read maxRespSz ⟨server, {}⟩ = _ := rpcReadRequest_absent (commands.handle ▸ found)
    refine .inl ⟨AList.lookup_eq_none.mp found, ?_⟩
    rcases outcome with _ | code | _
    · exact absurd rfl refused
    · rw [samrCall_stop wrote]
      by_cases dangles : server.dangles read.handle = true <;> simp [bind_apply, answers, Server.noPipe, dangles]
    · rw [samrCall_fault wrote]
      exact ⟨by simp, rfl⟩
  | some channel => exact .inr ⟨channel, _, _, commands, whole, found, idle channel found, rfl⟩

theorem samrCall_table {ended : Outcome Status Unit} {done : Call}
    (written : SamrWritten machine server channel write read outcome parsed)
    (ran : samrMethodReturn machine (pduReqHdr write.payload).opnum (parsed.samrRead read maxRespSz).samrStart =
      (ended, done)) :
    (samrCall machine write read maxRespSz ⟨server, {}⟩).2.server.store.management = done.store.management ∧
      (samrCall machine write read maxRespSz ⟨server, {}⟩).2.server.store.chTable = done.store.chTable := by
  obtain ⟨-, reqHdr, -⟩ := samrRead_starts maxRespSz written
  rw [← reqHdr] at ran
  have aside := rpcSamrReadRequest_aside ran
  rw [(samrCall_written maxRespSz written).1]
  exact ⟨congrArg (·.1) aside, congrArg (·.2.1) aside⟩

theorem samrCall_fault_iff (maxRespSz : Nat) (written : SamrWritten machine server channel write read outcome parsed) :
    (samrCall machine write read maxRespSz ⟨server, {}⟩).1 = .fault ↔
      (samrMethodReturn machine (pduReqHdr write.payload).opnum (parsed.samrRead read maxRespSz).samrStart).1 = .fault := by
  obtain ⟨-, reqHdr, -⟩ := samrRead_starts maxRespSz written
  rw [(samrCall_written maxRespSz written).2.1, ← reqHdr]
  refine ⟨fun faulted => ?_, fun faulted => ?_⟩
  · by_contra ends
    exact rpcSamrReadRequest_defined rfl ends faulted
  · have ran : samrMethodReturn machine (parsed.samrRead read maxRespSz).channel.dce.reqHdr.opnum
        (parsed.samrRead read maxRespSz).samrStart = (.fault, _) := Prod.ext faulted rfl
    rw [rpcSamrReadRequest_fault ran]

theorem samrCall_refused {code : Status} {done : Call}
    (written : SamrWritten machine server channel write read outcome parsed) (failed : code ≠ .ok)
    (ran : samrMethodReturn machine (pduReqHdr write.payload).opnum (parsed.samrRead read maxRespSz).samrStart =
      (.stop code, done)) :
    (samrCall machine write read maxRespSz ⟨server, {}⟩).1 ≠ .ok () := by
  obtain ⟨-, reqHdr, -⟩ := samrRead_starts maxRespSz written
  rw [← reqHdr] at ran
  rw [ne_eq, (samrCall_written maxRespSz written).2.2]
  exact fun ended => rpcSamrReadRequest_refused failed ran ended.2

theorem samrCall_done {done : Call} {body : List UInt8}
    (accepted : SamrWritten machine server channel write read (.ok ()) parsed)
    (unrestricted : rpcRestrictedContext server.store.management.globalConf read.flags = false)
    (ran : samrMethodReturn machine (pduReqHdr write.payload).opnum (parsed.samrRead read maxRespSz).samrStart =
      (.ok (), done))
    (moved : (parsed.samrRead read maxRespSz).samrStart.stream.Moved done.stream)
    (filled : done.stream.Filled (headerSpace ++ body)) (aligned : 4 ∣ body.length)
    (room : headerSize + responseHeaderSize + body.length + 4 ≤ maxRespSz) :
    (samrCall machine write read maxRespSz ⟨server, {}⟩).1 = .ok () ∧
      (samrCall machine write read maxRespSz ⟨server, {}⟩).2.resp.payload.drop (headerSize + responseHeaderSize) =
        body ++ encode (pduLittle write.payload) 4 (Status.ok.toUInt32).toNat := by
  have length : (headerSpace ++ body).length = headerSize + responseHeaderSize + body.length := by
    rw [List.length_append, headerSpace_length]
  obtain ⟨starts, reqHdr, awaits⟩ := samrRead_starts maxRespSz accepted
  rw [← reqHdr] at ran
  have permitted : rpcRestrictedContext (parsed.samrRead read maxRespSz).store.management.globalConf
      (parsed.samrRead read maxRespSz).channel.dce.rpcFlags = false := by
    rw [show (parsed.samrRead read maxRespSz).store.management = server.store.management from starts.management]
    exact unrestricted
  obtain ⟨after, answered, payload, -⟩ := rpcSamrReadRequest_done awaits accepted.commands.request permitted ran
    ⟨moved.payloadSz, moved.flags⟩ filled (by rw [length]; exact Nat.dvd_add (by decide) aligned) (by omega)
      (by rw [length]; exact room)
  rw [List.drop_left' headerSpace_length] at payload
  obtain ⟨state, -, ended⟩ := samrCall_written maxRespSz accepted
  rw [state, ended, answered, ← pduHeader_little]
  exact ⟨⟨rfl, rfl⟩, payload⟩

theorem newHandle_length (id : UInt32) : (newHandle id).length = handleSize := by
  simp [newHandle, length_encodeLittle, handleSize]

theorem samrCall_connects (accepted : SamrWritten machine server channel write read (.ok ()) parsed)
    (opnum : (pduReqHdr write.payload).opnum = Samr.connect5) (room : 64 ≤ maxRespSz)
    (unrestricted : rpcRestrictedContext server.store.management.globalConf read.flags = false)
    (fresh : newHandle channel.pipe.id ∉ server.store.chTable)
    (granted : machine.mallocConnectHandle parsed.store channel.pipe.id = true) :
    (samrCall machine write read maxRespSz ⟨server, {}⟩).1 = .ok () ∧
      ((samrCall machine write read maxRespSz ⟨server, {}⟩).2.resp.payload.drop 40).take handleSize =
        newHandle channel.pipe.id ∧
      (samrCall machine write read maxRespSz ⟨server, {}⟩).2.server.store.chTable =
        server.store.chTable.insert (newHandle channel.pipe.id) ⟨1, none⟩ := by
  obtain ⟨starts, -, -⟩ := samrRead_starts maxRespSz accepted
  generalize started : (parsed.samrRead read maxRespSz).samrStart = start at starts
  have unused : newHandle start.pipe.id ∉ start.store.chTable := by
    rw [starts.id, starts.chTable]
    exact fresh
  have given : machine.mallocConnectHandle start.store start.pipe.id = true := by
    rw [starts.id, ← started]
    exact granted
  obtain ⟨stream, levels, ran, length, filled, moved⟩ :=
    samrConnect5Return_fresh unused given starts.filled (by rw [starts.size]; omega)
  have method : samrMethodReturn machine (pduReqHdr write.payload).opnum = samrConnect5Return machine := by
    rw [opnum]
    rfl
  rw [← method, ← started] at ran
  rw [starts.id, List.append_assoc] at filled
  rw [← started] at moved
  have size : (levels ++ newHandle channel.pipe.id).length = 36 := by rw [List.length_append, length, newHandle_length]; rfl
  obtain ⟨ended, payload⟩ := samrCall_done accepted unrestricted ran moved filled (by rw [size]; decide)
    (by rw [size]; exact room)
  have table := (samrCall_table accepted ran).2
  refine ⟨ended, ?_, ?_⟩
  · rw [show 40 = headerSize + responseHeaderSize + 16 from rfl, ← List.drop_drop, payload, List.append_assoc,
      List.drop_left' length, List.take_left' (newHandle_length _)]
  · rw [table, started]
    exact starts.chTable ▸ starts.id ▸ rfl

end

end KsmbdTools.Rpc
