import KsmbdTools.Rpc.Proofs.Headers

/-! The presentation contexts of a bind PDU. They are told from its bytes by their
places alone, and the parser hands the same ones to the pipe. -/

namespace KsmbdTools.Rpc
open Management Bytes Proc

def pduSyntax (little : Bool) (bytes : List UInt8) : DcerpcSyntax where
  timeLow := UInt32.ofNat (decode little (bytes.take 4))
  timeMid := UInt16.ofNat (decode little ((bytes.drop 4).take 2))
  timeHiAndVersion := UInt16.ofNat (decode little ((bytes.drop 6).take 2))
  clockSeq := (bytes.drop 8).take 2
  node := (bytes.drop 10).take 6
  verMajor := UInt16.ofNat (decode little ((bytes.drop 16).take 2))
  verMinor := UInt16.ofNat (decode little ((bytes.drop 18).take 2))

def syntaxSize : Nat := 20

/-- The byte arrays of a syntax are as long as the source has them. -/
def DcerpcSyntax.Sized (syn : DcerpcSyntax) : Prop := syn.clockSeq.length = 2 ∧ syn.node.length = 6

def DcerpcContext.Sized (context : DcerpcContext) : Prop := ∀ syn ∈ context.transferSyntaxes, syn.Sized

def pduSyntaxes (little : Bool) (count : Nat) (bytes : List UInt8) : List DcerpcSyntax :=
  (List.range count).map fun index => pduSyntax little (bytes.drop (syntaxSize * index))

theorem pduSyntaxes_succ (little : Bool) (count : Nat) (bytes : List UInt8) :
    pduSyntaxes little (count + 1) bytes = pduSyntax little bytes :: pduSyntaxes little count (bytes.drop syntaxSize) := by
  simp only [pduSyntaxes, List.range_succ_eq_map, List.map_cons, List.map_map]
  congr 1
  apply List.map_congr_left
  intro index _
  simp only [Function.comp, List.drop_drop, Nat.mul_succ, Nat.add_comm]

/-- The context at the start: its id, the number of transfer syntaxes, a reserved byte,
the interface, the transfer syntaxes. -/
def pduContext (little : Bool) (bytes : List UInt8) : DcerpcContext where
  id := UInt16.ofNat (decode little (bytes.take 2))
  abstractSyntax := pduSyntax little (bytes.drop 4)
  firstTransfer := pduSyntax little (bytes.drop 24)
  moreTransfers := pduSyntaxes little ((bytes.getD 2 0).toNat - 1) (bytes.drop 44)

def pduContextSize (bytes : List UInt8) : Nat := 24 + syntaxSize * (bytes.getD 2 0).toNat

def pduContexts (little : Bool) : Nat → List UInt8 → List DcerpcContext
  | 0, _ => []
  | count + 1, bytes => pduContext little bytes :: pduContexts little count (bytes.drop (pduContextSize bytes))

/-- How many contexts a bind PDU counts, behind the sizes and the group. -/
def pduContextCount (bytes : List UInt8) : Nat := (bytes.getD 24 0).toNat

def bindPduContexts (bytes : List UInt8) : List DcerpcContext :=
  pduContexts (pduLittle bytes) (pduContextCount bytes) (bytes.drop 28)

theorem length_pduContexts (little : Bool) (count : Nat) (bytes : List UInt8) :
    (pduContexts little count bytes).length = count := by
  induction count generalizing bytes with
  | zero => rfl
  | succ count ih => simp [pduContexts, ih]

/-! Reading them from a stream. -/

private theorem aligned_four {offset : Nat} (place : Nat) (multiple : 4 ∣ offset) (four : 4 ∣ place) :
    alignUp (offset + place) 4 = offset + place := alignUp_of_dvd (Nat.dvd_add multiple four)

private theorem aligned_two {offset : Nat} (place : Nat) (multiple : 4 ∣ offset) (two : 2 ∣ place) :
    alignUp (offset + place) 2 = offset + place :=
  alignUp_of_dvd (Nat.dvd_add (Nat.dvd_trans (by decide) multiple) two)

private def Stream.on (stream : Stream) (count : Nat) : Stream := { stream with offset := stream.offset + count }

private theorem Takes.at {α : Type} {program : Ndr α} {width size : Nat} {value : Bool → List UInt8 → α}
    (takes : Takes program width size value) {stream after : Stream} {place start : Nat} {result : α}
    (aligned : alignUp (stream.offset + place) width = stream.offset + start)
    (ran : program (stream.on place) = (.ok result, after)) :
    result = value stream.littleEndian (((stream.payload.drop stream.offset).drop start).take size) ∧
      after = stream.on (start + size) ∧ stream.offset + start + size ≤ stream.payloadSz := by
  obtain ⟨room, rfl, rfl⟩ := takes _ _ _ ran
  simp only [Stream.on, aligned] at room
  simp only [Stream.on, aligned, List.drop_drop, Nat.add_assoc, true_and]
  omega

private theorem ndrReadSyntax_at {stream after : Stream} {place start : Nat} {syn : DcerpcSyntax}
    (whole : stream.payloadSz = stream.payload.length) (multiple : 4 ∣ stream.offset) (four : 4 ∣ start)
    (aligned : alignUp (stream.offset + place) 4 = stream.offset + start)
    (ran : ndrReadSyntax (stream.on place) = (.ok syn, after)) :
    syn = pduSyntax stream.littleEndian ((stream.payload.drop stream.offset).drop start) ∧
      after = stream.on (start + syntaxSize) ∧ syn.Sized := by
  have even : 2 ∣ start := Nat.dvd_trans (by decide) four
  have part : ∀ count, 2 ∣ count → alignUp (stream.offset + (start + count)) 2 = stream.offset + (start + count) :=
    fun count two => aligned_two _ multiple (Nat.dvd_add even two)
  obtain ⟨_, _, read, ran⟩ := bind_eq_ok.mp ran
  obtain ⟨rfl, rfl, -⟩ := int32_takes.at aligned read
  obtain ⟨_, _, read, ran⟩ := bind_eq_ok.mp ran
  obtain ⟨rfl, rfl, -⟩ := int16_takes.at (part 4 (by decide)) read
  obtain ⟨_, _, read, ran⟩ := bind_eq_ok.mp ran
  obtain ⟨rfl, rfl, -⟩ := int16_takes.at (part 6 (by decide)) read
  obtain ⟨_, _, read, ran⟩ := bind_eq_ok.mp ran
  obtain ⟨rfl, rfl, -⟩ := (Takes.aligned 2 2).at (part 8 (by decide)) read
  obtain ⟨_, _, read, ran⟩ := bind_eq_ok.mp ran
  obtain ⟨rfl, rfl, -⟩ := (Takes.aligned 2 6).at (part 10 (by decide)) read
  obtain ⟨_, _, read, ran⟩ := bind_eq_ok.mp ran
  obtain ⟨rfl, rfl, -⟩ := int16_takes.at (part 16 (by decide)) read
  obtain ⟨_, _, read, ran⟩ := bind_eq_ok.mp ran
  obtain ⟨rfl, rfl, room⟩ := int16_takes.at (part 18 (by decide)) read
  cases ran
  refine ⟨?_, rfl, ?_, ?_⟩
  · simp only [pduSyntax, List.drop_drop, Nat.add_assoc]
  · simp only [List.length_take, List.length_drop]
    omega
  · simp only [List.length_take, List.length_drop]
    omega

private theorem ndrReadSyntaxes_at {stream after : Stream} {count place : Nat} {syntaxes : List DcerpcSyntax}
    (whole : stream.payloadSz = stream.payload.length) (multiple : 4 ∣ stream.offset) (four : 4 ∣ place)
    (ran : Proc.collect count ndrReadSyntax (stream.on place) = (.ok syntaxes, after)) :
    syntaxes = pduSyntaxes stream.littleEndian count ((stream.payload.drop stream.offset).drop place) ∧
      after = stream.on (place + syntaxSize * count) ∧ ∀ syn ∈ syntaxes, syn.Sized := by
  induction count generalizing place syntaxes after with
  | zero =>
    cases ran
    exact ⟨rfl, rfl, fun _ none => nomatch none⟩
  | succ count ih =>
    obtain ⟨_, _, read, ran⟩ := bind_eq_ok.mp ran
    obtain ⟨rfl, rfl, sized⟩ := ndrReadSyntax_at whole multiple four (aligned_four _ multiple four) read
    obtain ⟨_, _, collected, ran⟩ := bind_eq_ok.mp ran
    obtain ⟨rfl, rfl, others⟩ := ih (Nat.dvd_add four (show 4 ∣ syntaxSize by decide)) collected
    cases ran
    refine ⟨?_, ?_, List.forall_mem_cons.mpr ⟨sized, others⟩⟩
    · simp only [pduSyntaxes_succ, List.drop_drop, Nat.add_assoc]
    · rw [Nat.mul_succ, Nat.add_assoc, Nat.add_comm syntaxSize]

private theorem ndrReadContext_at {stream after : Stream} {place : Nat} {context : DcerpcContext}
    (whole : stream.payloadSz = stream.payload.length) (multiple : 4 ∣ stream.offset) (four : 4 ∣ place)
    (ran : ndrReadContext (stream.on place) = (.ok context, after)) :
    context = pduContext stream.littleEndian ((stream.payload.drop stream.offset).drop place) ∧
      after = stream.on (place + pduContextSize ((stream.payload.drop stream.offset).drop place)) ∧ context.Sized := by
  have even : 2 ∣ place := Nat.dvd_trans (by decide) four
  have byte : ((stream.payload.drop stream.offset).drop place).getD 2 0 =
      (stream.payload.drop stream.offset).getD (place + 2) 0 := by simp [List.getD, Nat.add_assoc]
  obtain ⟨_, _, read, ran⟩ := bind_eq_ok.mp ran
  obtain ⟨rfl, rfl, -⟩ := int16_takes.at (aligned_two _ multiple even) read
  obtain ⟨_, _, read, ran⟩ := bind_eq_ok.mp ran
  obtain ⟨rfl, rfl, -⟩ := int8_takes.at (alignUp_of_dvd (Nat.one_dvd _)) read
  rw [decode_byte, ← byte] at ran
  generalize bytes : (stream.payload.drop stream.offset).drop place = here at ran byte ⊢
  split at ran
  next => cases ran
  next some =>
    have one : 1 ≤ (here.getD 2 0).toNat := by
      have : (here.getD 2 0).toNat ≠ 0 := fun none => some (UInt8.toNat_inj.mp none)
      omega
    have next : alignUp (stream.offset + (place + 2 + 1)) 4 = stream.offset + (place + 4) := by
      obtain ⟨start, offset⟩ := Nat.dvd_add multiple four
      rw [show stream.offset + (place + 2 + 1) = 4 * start + 3 by omega,
        show stream.offset + (place + 4) = 4 * start + 4 by omega]
      rw [alignUp, if_neg (by decide)]
      omega
    obtain ⟨_, _, read, ran⟩ := bind_eq_ok.mp ran
    obtain ⟨rfl, rfl, -⟩ := ndrReadSyntax_at whole multiple (Nat.dvd_add four (by decide)) next read
    obtain ⟨_, _, read, ran⟩ := bind_eq_ok.mp ran
    have far : 4 ∣ place + 4 + syntaxSize := Nat.dvd_add (Nat.dvd_add four (by decide)) (by decide)
    obtain ⟨rfl, rfl, first⟩ := ndrReadSyntax_at whole multiple far (aligned_four _ multiple far) read
    obtain ⟨_, _, collected, ran⟩ := bind_eq_ok.mp ran
    obtain ⟨rfl, rfl, more⟩ := ndrReadSyntaxes_at whole multiple (Nat.dvd_add far (by decide)) collected
    cases ran
    refine ⟨?_, ?_, List.forall_mem_cons.mpr ⟨first, more⟩⟩
    · rw [pduContext, ← bytes]
      simp only [List.drop_drop, Nat.add_assoc, syntaxSize]
    · simp only [pduContextSize, syntaxSize]
      congr 1
      omega

private theorem ndrReadContexts_at {stream after : Stream} {count place : Nat} {contexts : List DcerpcContext}
    (whole : stream.payloadSz = stream.payload.length) (multiple : 4 ∣ stream.offset) (four : 4 ∣ place)
    (ran : Proc.collect count ndrReadContext (stream.on place) = (.ok contexts, after)) :
    contexts = pduContexts stream.littleEndian count ((stream.payload.drop stream.offset).drop place) ∧
      ∀ context ∈ contexts, context.Sized := by
  induction count generalizing place contexts after with
  | zero =>
    cases ran
    exact ⟨rfl, fun _ none => nomatch none⟩
  | succ count ih =>
    obtain ⟨_, _, read, ran⟩ := bind_eq_ok.mp ran
    obtain ⟨rfl, rfl, sized⟩ := ndrReadContext_at whole multiple four read
    obtain ⟨_, _, collected, ran⟩ := bind_eq_ok.mp ran
    have size : 4 ∣ pduContextSize ((stream.payload.drop stream.offset).drop place) :=
      Nat.dvd_add (by decide) (Nat.dvd_trans (by decide) (Nat.dvd_mul_right syntaxSize _))
    obtain ⟨rfl, others⟩ := ih (Nat.dvd_add four size) collected
    cases ran
    refine ⟨?_, List.forall_mem_cons.mpr ⟨sized, others⟩⟩
    simp only [pduContexts, List.drop_drop, Nat.add_assoc]

/-! The parser. -/

/-- What the pipe holds of a bind PDU whose contexts were read. -/
structure Work.Bound (machine : Machine) (bytes : List UInt8) (flags : UInt32) (work : Work) : Prop where
  contexts : bindContexts work.store (work.channel.dce.req.biReq machine) = some (bindPduContexts bytes)
  sized : ∀ context ∈ bindPduContexts bytes, context.Sized
  count : (work.channel.dce.req.biReq machine).numContexts = pduContextCount bytes
  flags : (work.channel.dce.req.biReq machine).flags = flags

section
variable {machine : Machine} {bytes : List UInt8} {work after : Work}

private structure Parses (machine : Machine) (bytes : List UInt8) (place : Nat) (request : DcerpcBindRequest) (work : Work) :
    Prop where
  reached : work.At bytes place
  order : work.channel.dce.stream.littleEndian = pduLittle bytes
  request : work.channel.dce.req.biReq machine = request

private theorem Parses.assign {place : Nat} {request : DcerpcBindRequest} (parses : Parses machine bytes place request work)
    (f : DcerpcBindRequest → DcerpcBindRequest) :
    Parses machine bytes place (f request) (modifyBiReq machine f work).2 :=
  ⟨⟨parses.reached.payload, parses.reached.whole, parses.reached.offset⟩, parses.order, congrArg f parses.request⟩

private theorem Parses.align {place : Nat} {request : DcerpcBindRequest} (parses : Parses machine bytes place request work)
    (moved : Work.modifyDce (fun dce => { dce with stream := dce.stream.alignOffset 4 }) work = (.ok (), after)) :
    Parses machine bytes (alignUp place 4) request after := by
  cases moved
  exact ⟨⟨parses.reached.payload, parses.reached.whole, congrArg (alignUp · 4) parses.reached.offset⟩, parses.order,
    parses.request⟩

private theorem Parses.readField {α β : Type} {program : Ndr α} {width size place : Nat} {value : Bool → List UInt8 → α}
    {code : Status} {request : DcerpcBindRequest} {result : β} {assign : α → DcerpcBindRequest → DcerpcBindRequest}
    {next : α → Proc Work Status β} (parses : Parses machine bytes place request work)
    (takes : Takes program width size value) (aligned : alignUp place width = place)
    (ran : (Work.ndr code program >>= fun field => modifyBiReq machine (assign field) >>= fun _ => next field) work =
      (.ok result, after)) :
    ∃ field middle, field = value (pduLittle bytes) ((bytes.drop place).take size) ∧
      Parses machine bytes (place + size) (assign field request) middle ∧ next field middle = (.ok result, after) := by
  obtain ⟨_, moved, read, rest⟩ := bind_eq_ok.mp ran
  obtain ⟨stream, done, rfl⟩ := Work.ndr_ok read
  obtain ⟨-, rfl, rfl⟩ := takes _ _ _ done
  have start : work.call.stream.offset = place := parses.reached.offset
  have payload : work.call.stream.payload = bytes := parses.reached.payload
  have order : work.call.stream.littleEndian = pduLittle bytes := parses.order
  rw [start, aligned, payload, order] at rest
  have moved : Parses machine bytes (place + size) request
      (work.setCall { work.call with stream := { work.call.stream with payload := bytes, offset := place + size } }) :=
    ⟨⟨rfl, parses.reached.whole, rfl⟩, parses.order, parses.request⟩
  exact ⟨_, _, rfl, moved.assign _, rest⟩

private theorem readContexts_ok {count : Nat} {request : DcerpcBindRequest} (parses : Parses machine bytes 28 request work)
    (counted : request.numContexts = count) (ran : readContexts machine count work = (.ok (), after)) :
    bindContexts after.store (after.channel.dce.req.biReq machine) =
        some (pduContexts (pduLittle bytes) count (bytes.drop 28)) ∧
      (∀ context ∈ pduContexts (pduLittle bytes) count (bytes.drop 28), context.Sized) ∧
      (after.channel.dce.req.biReq machine).numContexts = request.numContexts ∧
      (after.channel.dce.req.biReq machine).flags = request.flags := by
  simp only [readContexts] at ran
  rcases read : Work.ndr .badData (Proc.collect count ndrReadContext) work with ⟨contexts | code | _, middle⟩ <;>
    rw [read] at ran <;> cases ran
  obtain ⟨stream, collected, rfl⟩ := Work.ndr_ok read
  have offset : work.call.stream.offset = 28 := parses.reached.offset
  have payload : work.call.stream.payload = bytes := parses.reached.payload
  have order : work.call.stream.littleEndian = pduLittle bytes := parses.order
  have multiple : 4 ∣ work.call.stream.offset := offset ▸ (by decide : 4 ∣ 28)
  have whole : work.call.stream.payloadSz = work.call.stream.payload.length := parses.reached.whole.trans (by rw [payload])
  obtain ⟨found, sized⟩ : contexts = pduContexts work.call.stream.littleEndian count
      ((work.call.stream.payload.drop work.call.stream.offset).drop 0) ∧ ∀ context ∈ contexts, context.Sized :=
    ndrReadContexts_at whole multiple (by decide) collected
  rw [order, payload, offset, List.drop_zero] at found
  have sameCount : (work.channel.dce.req.biReq machine).numContexts = request.numContexts := by rw [parses.request]
  have sameFlags : (work.channel.dce.req.biReq machine).flags = request.flags := by rw [parses.request]
  refine ⟨?_, found ▸ sized, sameCount, sameFlags⟩
  show (if (work.channel.dce.req.biReq machine).numContexts = 0 then some [] else
    ((work.store.contexts.alloc contexts).1.get? (work.store.contexts.alloc contexts).2).bind fun contexts =>
      if (work.channel.dce.req.biReq machine).numContexts ≤ contexts.length then
        some (contexts.take (work.channel.dce.req.biReq machine).numContexts) else none) = _
  have length : contexts.length = count := by rw [found, length_pduContexts]
  rw [sameCount, counted, Heap.get?_alloc_new, ← found]
  split
  next none =>
    subst none
    rw [List.eq_nil_of_length_eq_zero length]
  next => simp [length]

private theorem dcerpcParseBindReq_ok {flags : UInt32} (start : work.At bytes headerSize)
    (order : work.channel.dce.stream.littleEndian = pduLittle bytes) (noted : work.channel.dce.rpcFlags = flags)
    (ran : dcerpcParseBindReq machine work = (.ok (), after)) : after.Bound machine bytes flags := by
  obtain ⟨_, _, got, ran⟩ := bind_eq_ok.mp ran
  cases got
  have parses : Parses machine bytes 16 (work.channel.dce.req.biReq machine) work := ⟨start, order, rfl⟩
  obtain ⟨_, _, assigned, ran⟩ := bind_eq_ok.mp ran
  have parses := parses.assign ({ · with flags := work.channel.dce.rpcFlags })
  rw [show (modifyBiReq machine _ work).2 = _ from (Prod.ext_iff.mp assigned).2] at parses
  obtain ⟨_, _, -, parses, ran⟩ := parses.readField int16_takes (by decide) ran
  obtain ⟨_, _, -, parses, ran⟩ := parses.readField int16_takes (by decide) ran
  obtain ⟨_, _, -, parses, ran⟩ := parses.readField int32_takes (by decide) ran
  obtain ⟨count, _, counted, parses, ran⟩ := parses.readField int8_takes (by decide) ran
  rw [decode_byte] at counted
  have many : count.toNat = pduContextCount bytes := congrArg UInt8.toNat counted
  obtain ⟨_, aligned, moved, ran⟩ := bind_eq_ok.mp ran
  have parses := parses.align moved
  split at ran
  next =>
    obtain ⟨contexts, sized, sameCount, sameFlags⟩ := readContexts_ok parses rfl ran
    rw [many] at contexts sized sameCount
    exact ⟨contexts, sized, sameCount, sameFlags.trans noted⟩
  next none =>
    have zero : count.toNat = 0 := by simpa using congrArg UInt8.toNat (show count = 0 by simpa using none)
    cases ran
    have counted : (after.channel.dce.req.biReq machine).numContexts = count.toNat := by rw [parses.request]
    have flagged : (after.channel.dce.req.biReq machine).flags = flags := by rw [parses.request]; exact noted
    have nothing : bindPduContexts bytes = [] := by rw [bindPduContexts, ← many, zero]; rfl
    refine ⟨?_, ?_, counted.trans many, flagged⟩
    · rw [bindContexts, if_pos (counted.trans zero), nothing]
    · rw [nothing]
      exact fun _ none => nomatch none

/-- What an accepted bind PDU leaves on the pipe. The first context bound to the dssetup
interface, if there is one, is remembered instead of the last one. -/
theorem invokeHandler_bound {flags : UInt32} (start : work.At bytes 0) (noted : work.channel.dce.rpcFlags = flags)
    (bind : isBind (pduHeader bytes).ptype = true) (ran : invokeHandler machine work = (.ok (), after)) :
    after.Bound machine bytes flags ∧ after.channel.dce.dssetupContextId =
      (((bindPduContexts bytes).find? fun context => isDssetupInterface context.abstractSyntax).map (·.id)).or
        work.channel.dce.dssetupContextId := by
  obtain ⟨_, headed, read, rest⟩ := bind_eq_ok.mp ran
  obtain ⟨header, ordered, reached⟩ := dcerpcHdrRead_ok start read
  have order : headed.channel.dce.stream.littleEndian = pduLittle bytes := by
    rw [← pduHeader_little, ← header]
    exact ordered
  have headedMarks : headed.channel.dce.marks = work.channel.dce.marks := (marks_apart.dcerpcHdrRead _).along read rfl
  obtain ⟨_, _, got, rest⟩ := bind_eq_ok.mp rest
  cases got
  rw [header, if_pos bind] at rest
  obtain ⟨_, parsed, parse, rest⟩ := bind_eq_ok.mp rest
  have bound := dcerpcParseBindReq_ok reached order ((congrArg (·.1) headedMarks).trans noted) parse
  have remembered : parsed.channel.dce.dssetupContextId = work.channel.dce.dssetupContextId :=
    congrArg (·.2.2) (marks_apart.dcerpcParseBindReq.along parse headedMarks)
  obtain ⟨_, _, got, rest⟩ := bind_eq_ok.mp rest
  cases got
  rw [bound.contexts] at rest
  obtain ⟨_, _, got, rest⟩ := bind_eq_ok.mp rest
  cases got
  revert rest
  cases (bindPduContexts bytes).find? fun context => isDssetupInterface context.abstractSyntax with
  | none =>
    intro rest
    cases rest
    exact ⟨⟨bound.contexts, bound.sized, bound.count, bound.flags⟩, remembered⟩
  | some context =>
    intro rest
    cases rest
    exact ⟨⟨bound.contexts, bound.sized, bound.count, bound.flags⟩, rfl⟩

end

end KsmbdTools.Rpc
