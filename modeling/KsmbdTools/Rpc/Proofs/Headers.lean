import KsmbdTools.Rpc.Proofs.Parsing
import KsmbdTools.Rpc.Proofs.PipeRequests

/-! The header of a PDU: what is read of it stays on the pipe until its reply. -/

namespace KsmbdTools.Rpc
open Management Bytes Proc

def pduLittle (bytes : List UInt8) : Bool := bytes.getD 4 0 == littleEndianDrep

def pduCallId (bytes : List UInt8) : UInt32 := UInt32.ofNat (decode (pduLittle bytes) ((bytes.drop 12).take 4))

def pduHeader (bytes : List UInt8) : Header where
  rpcVers := bytes.getD 0 0
  rpcVersMinor := bytes.getD 1 0
  ptype := bytes.getD 2 0
  pfcFlags := bytes.getD 3 0
  packedDrep := Vector.ofFn fun index : Fin 4 => bytes.getD (4 + index) 0
  fragLength := UInt16.ofNat (decode (pduLittle bytes) ((bytes.drop 8).take 2))
  authLength := UInt16.ofNat (decode (pduLittle bytes) ((bytes.drop 10).take 2))
  callId := pduCallId bytes

theorem pduHeader_little (bytes : List UInt8) : (pduHeader bytes).little = pduLittle bytes := by
  simp [Header.little, pduHeader, pduLittle]

def pduAllocHint (bytes : List UInt8) : UInt32 := UInt32.ofNat (decode (pduLittle bytes) ((bytes.drop 16).take 4))

def pduContextId (bytes : List UInt8) : UInt16 := UInt16.ofNat (decode (pduLittle bytes) ((bytes.drop 20).take 2))

def pduReqHdr (bytes : List UInt8) : RequestHeader where
  allocHint := pduAllocHint bytes
  contextId := pduContextId bytes
  opnum := UInt16.ofNat (decode (pduLittle bytes) ((bytes.drop 22).take 2))

def Dce.Ordered (dce : Dce) : Prop := dce.stream.littleEndian = dce.hdr.little

/-! Reading. -/

def Takes {α : Type} (program : Ndr α) (width size : Nat) (value : Bool → List UInt8 → α) : Prop :=
  ∀ stream after result, program stream = (.ok result, after) →
    alignUp stream.offset width + size ≤ stream.payloadSz ∧
    result = value stream.littleEndian ((stream.payload.drop (alignUp stream.offset width)).take size) ∧
    after = { stream with offset := alignUp stream.offset width + size }

namespace Takes

theorem aligned (width size : Nat) : Takes (ndrReadAligned width size) width size fun _ bytes => bytes := by
  intro stream after result ran
  simp only [ndrReadAligned] at ran
  split at ran
  next => cases ran
  next room =>
    cases ran
    exact ⟨Nat.not_lt.mp room, rfl, rfl⟩

theorem int {α : Type} {program : Ndr α} (width : Nat) (wrap : Nat → α)
    (defined : program = do return wrap (← ndrReadInt width)) :
    Takes program width width fun little bytes => wrap (decode little bytes) := by
  intro stream after result ran
  rw [defined] at ran
  obtain ⟨value, middle, read, rest⟩ := bind_eq_ok.mp ran
  obtain ⟨bytes, last, taken, decoded⟩ := bind_eq_ok.mp read
  obtain ⟨room, rfl, rfl⟩ := aligned width width stream last bytes taken
  cases decoded
  cases rest
  exact ⟨room, rfl, rfl⟩

end Takes

theorem Work.ndr_ok {α : Type} {program : Ndr α} {code : Status} {work after : Work} {result : α}
    (ran : Work.ndr code program work = (.ok result, after)) :
    ∃ stream, program work.call.stream = (.ok result, stream) ∧ after = work.setCall { work.call with stream } := by
  simp only [Work.ndr, Work.handle, Call.ndr, Proc.zoom, Proc.orStop] at ran
  rcases done : program work.call.stream with ⟨value | code | _, stream⟩ <;> rw [done] at ran <;> cases ran
  exact ⟨stream, rfl, rfl⟩

/-- The parser has read the payload up to this place. -/
structure Work.At (bytes : List UInt8) (place : Nat) (work : Work) : Prop where
  payload : work.channel.dce.stream.payload = bytes
  whole : work.channel.dce.stream.payloadSz = bytes.length
  offset : work.channel.dce.stream.offset = place

section
variable {α β : Type} {program : Ndr α} {width size place : Nat} {value : Bool → List UInt8 → α} {code : Status}
  {bytes : List UInt8} {work last : Work} {result : β}

theorem Work.At.read {next : α → Proc Work Status β} (reached : work.At bytes place) (takes : Takes program width size value)
    (aligned : alignUp place width = place) (ran : (Work.ndr code program >>= next) work = (.ok result, last)) :
    ∃ middle : Work, middle.At bytes (place + size) ∧ middle.channel.dce.hdr = work.channel.dce.hdr ∧
      middle.channel.dce.stream.littleEndian = work.channel.dce.stream.littleEndian ∧
      next (value work.channel.dce.stream.littleEndian ((bytes.drop place).take size)) middle = (.ok result, last) := by
  obtain ⟨_, middle, read, rest⟩ := bind_eq_ok.mp ran
  obtain ⟨stream, done, rfl⟩ := Work.ndr_ok read
  obtain ⟨-, rfl, rfl⟩ := takes _ _ _ done
  have start : work.call.stream.offset = place := reached.offset
  have payload : work.call.stream.payload = bytes := reached.payload
  rw [start, aligned, payload] at rest
  exact ⟨work.setCall { work.call with stream := { work.call.stream with payload := bytes, offset := place + size } },
    ⟨rfl, reached.whole, rfl⟩, rfl, rfl, rest⟩

theorem Work.At.readField {next : α → Proc Work Status β} {assign : α → Header → Header} (reached : work.At bytes place)
    (takes : Takes program width size value) (aligned : alignUp place width = place)
    (ran : (Work.ndr code program >>= fun field => Work.modifyHdr (assign field) >>= fun _ => next field) work =
      (.ok result, last)) :
    ∃ middle : Work, middle.At bytes (place + size) ∧
      middle.channel.dce.hdr =
        assign (value work.channel.dce.stream.littleEndian ((bytes.drop place).take size)) work.channel.dce.hdr ∧
      next (value work.channel.dce.stream.littleEndian ((bytes.drop place).take size)) middle = (.ok result, last) := by
  obtain ⟨middle, there, same, -, rest⟩ := reached.read takes aligned ran
  obtain ⟨_, changed, assigned, rest⟩ := bind_eq_ok.mp rest
  cases assigned
  refine ⟨_, ?_, ?_, rest⟩
  · exact ⟨there.payload, there.whole, there.offset⟩
  · exact congrArg (assign _) same

end

theorem int8_takes : Takes ndrReadInt8 1 1 fun little bytes => UInt8.ofNat (decode little bytes) := .int 1 _ rfl

theorem int16_takes : Takes ndrReadInt16 2 2 fun little bytes => UInt16.ofNat (decode little bytes) := .int 2 _ rfl

theorem int32_takes : Takes ndrReadInt32 4 4 fun little bytes => UInt32.ofNat (decode little bytes) := .int 4 _ rfl

theorem decode_byte (little : Bool) (bytes : List UInt8) (place : Nat) :
    UInt8.ofNat (decode little ((bytes.drop place).take 1)) = bytes.getD place 0 := by
  have first : (bytes.drop place).take 1 = bytes[place]?.toList := by rw [List.take_one, List.head?_drop]
  rw [first, List.getD_eq_getElem?_getD]
  cases bytes[place]? <;> cases little <;> simp [decode, decodeLittle]

theorem dcerpcHdrRead_ok {code : Status} {bytes : List UInt8} {work after : Work} (start : work.At bytes 0)
    (ran : dcerpcHdrRead code work = (.ok (), after)) :
    after.channel.dce.hdr = pduHeader bytes ∧ after.channel.dce.Ordered ∧ after.At bytes headerSize := by
  obtain ⟨_, reached, first, ran⟩ := start.readField int8_takes (by decide) ran
  obtain ⟨_, reached, second, ran⟩ := reached.readField int8_takes (by decide) ran
  obtain ⟨_, reached, third, ran⟩ := reached.readField int8_takes (by decide) ran
  obtain ⟨_, reached, fourth, ran⟩ := reached.readField int8_takes (by decide) ran
  obtain ⟨middle, reached, same, -, ran⟩ := reached.read (Takes.aligned 2 4) (by decide) ran
  obtain ⟨_, ordered, assigned, ran⟩ := bind_eq_ok.mp ran
  rw [second, first] at third
  rw [third] at fourth
  rw [fourth] at same
  simp only [decode_byte] at same
  have drep : (Vector.ofFn fun index : Fin 4 => ((bytes.drop 4).take 4).getD index 0) = (pduHeader bytes).packedDrep := by
    apply Vector.ext
    intro index inside
    simp [pduHeader, List.getD]
  have named : ordered.channel.dce.Ordered ∧ ordered.channel.dce.stream.littleEndian = pduLittle bytes ∧
      ordered.At bytes 8 ∧ ordered.channel.dce.hdr =
        { middle.channel.dce.hdr with packedDrep := (pduHeader bytes).packedDrep } := by
    cases assigned
    rw [← drep]
    exact ⟨rfl, by simp [pduLittle, List.getD], ⟨reached.payload, reached.whole, reached.offset⟩, rfl⟩
  obtain ⟨named, order, reached, header⟩ := named
  clear assigned
  obtain ⟨_, reached, sameFrag, keptFrag, ran⟩ := reached.read int16_takes (by decide) ran
  obtain ⟨_, reached, sameAuth, keptAuth, ran⟩ := reached.read int16_takes (by decide) ran
  obtain ⟨_, reached, sameCall, keptCall, ran⟩ := reached.read int32_takes (by decide) ran
  cases ran
  rw [keptFrag, order] at keptAuth
  rw [keptAuth] at keptCall
  have kept := sameCall.trans (sameAuth.trans sameFrag)
  refine ⟨?_, ?_, ⟨reached.payload, reached.whole, reached.offset⟩⟩
  · simp only [kept, header, same, keptFrag, keptAuth, order]
    rfl
  · have drep := congrArg Header.little kept
    exact keptCall.trans (order.symm.trans (named.trans drep.symm))

theorem invokeHandler_ok {machine : Machine} {bytes : List UInt8} {work after : Work} (start : work.At bytes 0)
    (ran : invokeHandler machine work = (.ok (), after)) :
    after.channel.dce.hdr = pduHeader bytes ∧ after.channel.dce.Ordered := by
  obtain ⟨_, middle, read, rest⟩ := bind_eq_ok.mp ran
  obtain ⟨header, ordered, -⟩ := dcerpcHdrRead_ok start read
  have frame : Dce.Frame fun dce => dce.hdr = pduHeader bytes ∧ dce.Ordered :=
    ⟨fun _ _ _ order holds => ⟨holds.1, order.trans holds.2⟩, fun _ _ holds => holds, fun _ _ holds => holds⟩
  exact (Work.invokePdu_keeps frame).along rest ⟨header, ordered⟩

section
variable {marks : UInt32 × Bool × Option UInt16}

theorem marks_apart : Work.Apart (Work.OnDce (·.marks = marks)) := ⟨fun _ _ _ _ _ _ same => same, fun _ _ _ same => same⟩

theorem dcerpcRequestHdrRead_marks (code : Status) :
    Preserves (Work.OnDce (·.marks = marks)) (dcerpcRequestHdrRead code) :=
  marks_apart.dcerpcRequestHdrRead code fun _ _ same => same

theorem serviceWriteRequest_marks {machine : Machine} {reqHdr : RequestHeader} (service : Service) :
    Preserves (Work.OnDce fun dce => dce.marks = marks ∧ dce.reqHdr = reqHdr) (serviceWriteRequest machine service) := by
  have handled : ∀ handler : Proc Call Status Unit,
      Preserves (Work.OnDce fun dce => dce.marks = marks ∧ dce.reqHdr = reqHdr) (Work.handle handler) := fun _ _ same => same
  cases service with
  | srvsvc => exact .bind .get fun _ => .ite (handled _) (.stop _)
  | wkssvc => exact .bind .get fun _ => .ite (handled _) (.stop _)
  | samr => exact .bind .get fun _ => handled _
  | lsarpc => exact .bind .get fun _ => handled _

end

theorem dcerpcRequestHdrRead_ok {code : Status} {bytes : List UInt8} {work after : Work}
    (start : work.At bytes headerSize) (order : work.channel.dce.stream.littleEndian = pduLittle bytes)
    (ran : dcerpcRequestHdrRead code work = (.ok (), after)) :
    after.channel.dce.reqHdr = pduReqHdr bytes ∧ after.At bytes (headerSize + responseHeaderSize) ∧
      after.channel.dce.stream.littleEndian = pduLittle bytes := by
  obtain ⟨_, reached, -, first, ran⟩ := start.read int32_takes (by decide) ran
  rw [order] at first ran
  obtain ⟨_, reached, -, second, ran⟩ := reached.read int16_takes (by decide) ran
  rw [first] at second ran
  obtain ⟨_, reached, -, third, ran⟩ := reached.read int16_takes (by decide) ran
  rw [second] at third ran
  cases ran
  exact ⟨rfl, ⟨reached.payload, reached.whole, reached.offset⟩, third⟩

def requestHeaders : Proc Work Status Unit := do
  dcerpcHdrRead .badData
  dcerpcRequestHdrRead .badData

section
variable {machine : Machine} {bytes : List UInt8} {work headed after : Work}

theorem requestHeaders_ok (start : work.At bytes 0) (ran : requestHeaders work = (.ok (), headed)) :
    headed.channel.dce.reqHdr = pduReqHdr bytes ∧ headed.channel.dce.marks = work.channel.dce.marks ∧
      headed.At bytes (headerSize + responseHeaderSize) ∧ headed.channel.dce.stream.littleEndian = pduLittle bytes := by
  obtain ⟨_, middle, read, rest⟩ := bind_eq_ok.mp ran
  obtain ⟨header, ordered, reached⟩ := dcerpcHdrRead_ok start read
  have order : middle.channel.dce.stream.littleEndian = pduLittle bytes := by
    rw [← pduHeader_little, ← header]
    exact ordered
  obtain ⟨reqHdr, behind, order⟩ := dcerpcRequestHdrRead_ok reached order rest
  exact ⟨reqHdr, (dcerpcRequestHdrRead_marks _).along rest ((marks_apart.dcerpcHdrRead _).along read rfl), behind, order⟩

theorem invokeHandler_request (start : work.At bytes 0) (request : (pduHeader bytes).ptype = Ptype.request) :
    invokeHandler machine work = (requestHeaders >>= fun _ =>
      match service? work.channel.dce.rpcFlags with
      | none => Proc.stop .notImplemented
      | some service => serviceWriteRequest machine service) work := by
  rcases read : dcerpcHdrRead .badData work with ⟨_ | code | _, middle⟩
  · obtain ⟨header, -, -⟩ := dcerpcHdrRead_ok start read
    have flags : middle.channel.dce.rpcFlags = work.channel.dce.rpcFlags :=
      congrArg (·.1) (show middle.channel.dce.marks = work.channel.dce.marks from
        (marks_apart.dcerpcHdrRead _).along read rfl)
    have type : middle.channel.dce.hdr.ptype = Ptype.request := by rw [header, request]
    rw [invokeHandler, bind_ok read, requestHeaders, bind_assoc, bind_ok read, invokePdu, bind_ok (get_apply _)]
    rw [type, ← flags]
    rfl
  · rw [invokeHandler, bind_stop read, requestHeaders, bind_assoc, bind_stop read]
  · rw [invokeHandler, bind_fault read, requestHeaders, bind_assoc, bind_fault read]

theorem invokeHandler_reqHdr (start : work.At bytes 0) (request : (pduHeader bytes).ptype = Ptype.request)
    (ran : invokeHandler machine work = (.ok (), after)) :
    after.channel.dce.reqHdr = pduReqHdr bytes ∧ after.channel.dce.marks = work.channel.dce.marks := by
  rw [invokeHandler_request start request] at ran
  obtain ⟨_, headed, headers, rest⟩ := bind_eq_ok.mp ran
  obtain ⟨reqHdr, marks, -, -⟩ := requestHeaders_ok start headers
  revert rest
  cases service? work.channel.dce.rpcFlags with
  | none => exact fun rest => nomatch rest
  | some service => exact fun rest => ((serviceWriteRequest_marks service).along rest ⟨marks, reqHdr⟩).symm

end

end KsmbdTools.Rpc
