import KsmbdTools.Rpc.Proofs.Headers
import KsmbdTools.Rpc.Proofs.Layout

/-! The header of a reply. It is written last, over the space left for it, from
what the pipe holds of the PDU: the reply carries the header of its PDU in its
first bytes, in the byte order that header names. -/

namespace KsmbdTools.Rpc
open Management Bytes Proc

def Header.puts (little : Bool) (hdr : Header) : List (Nat × List UInt8) :=
  [(1, encode little 1 hdr.rpcVers.toNat), (1, encode little 1 hdr.rpcVersMinor.toNat),
    (1, encode little 1 hdr.ptype.toNat), (1, encode little 1 hdr.pfcFlags.toNat), (2, hdr.packedDrep.toList),
    (2, encode little 2 hdr.fragLength.toNat), (2, encode little 2 hdr.authLength.toNat),
    (4, encode little 4 hdr.callId.toNat)]

def Header.bytes (little : Bool) (hdr : Header) : List UInt8 := (hdr.puts little).flatMap (·.2)

theorem Header.length_bytes (little : Bool) (hdr : Header) : (hdr.bytes little).length = headerSize := by
  simp [Header.bytes, Header.puts, headerSize]

theorem Header.contiguous (little : Bool) (hdr : Header) : Contiguous 0 (hdr.puts little) := by
  simp only [Header.puts, Contiguous, length_encode, Vector.length_toList]
  decide

theorem encode_one (little : Bool) (value : Nat) : encode little 1 value = [UInt8.ofNat value] := by
  cases little <;> rfl

private theorem ofNat_decode_encode (little : Bool) (value : UInt16) :
    UInt16.ofNat (decode little (encode little 2 value.toNat)) = value := by
  rw [decode_encode little (show value.toNat < 256 ^ 2 from value.toNat_lt), UInt16.ofNat_toNat]

theorem pduHeader_of_front {hdr : Header} {payload : List UInt8} (front : payload.take headerSize = hdr.bytes hdr.little) :
    pduHeader payload = hdr := by
  have byte : ∀ place, place < headerSize → payload.getD place 0 = (hdr.bytes hdr.little).getD place 0 := by
    intro place inside
    rw [← front]
    simp [List.getD, inside]
  have part : ∀ place size, place + size ≤ headerSize →
      (payload.drop place).take size = ((hdr.bytes hdr.little).drop place).take size := by
    intro place size inside
    rw [← front, List.drop_take, List.take_take, Nat.min_eq_left (by omega)]
  have named : pduLittle payload = hdr.little := by
    rw [pduLittle, byte 4 (by decide)]
    simp [Header.bytes, Header.puts, encode_one, Header.little]
  have drep : (Vector.ofFn fun index : Fin 4 => payload.getD (4 + index) 0) = hdr.packedDrep := by
    apply Vector.ext
    intro index inside
    have within : index < hdr.packedDrep.toList.length := by simpa using inside
    rw [Vector.getElem_ofFn, byte _ (show 4 + index < 16 by omega)]
    simp only [Header.bytes, Header.puts, encode_one, List.flatMap_cons, List.cons_append, List.nil_append, List.getD,
      Nat.add_comm 4 index, List.getElem?_cons_succ, List.getElem?_append_left within]
    simp [inside]
  have frag : (payload.drop 8).take 2 = encode hdr.little 2 hdr.fragLength.toNat := by
    rw [part 8 2 (by decide)]
    simp [Header.bytes, Header.puts, encode_one]
  have auth : (payload.drop 10).take 2 = encode hdr.little 2 hdr.authLength.toNat := by
    rw [part 10 2 (by decide)]
    simp [Header.bytes, Header.puts, encode_one, List.drop_append, List.take_append, List.take_of_length_le]
  have call : (payload.drop 12).take 4 = encode hdr.little 4 hdr.callId.toNat := by
    rw [part 12 4 (by decide)]
    have drep : hdr.packedDrep.toList.drop 8 = [] := List.drop_of_length_le (by simp)
    have frag : (encode hdr.little 2 hdr.fragLength.toNat).drop 4 = [] := List.drop_of_length_le (by simp)
    simp [Header.bytes, Header.puts, encode_one, List.drop_append, List.take_of_length_le, drep, frag]
  have callId : pduCallId payload = hdr.callId := by
    rw [pduCallId, named, call, decode_encode hdr.little (show hdr.callId.toNat < 256 ^ 4 from hdr.callId.toNat_lt),
      UInt32.ofNat_toNat]
  simp only [pduHeader, named, drep, frag, auth, callId, ofNat_decode_encode, byte 0 (by decide), byte 1 (by decide),
    byte 2 (by decide), byte 3 (by decide)]
  simp [Header.bytes, Header.puts, encode_one]

/-- The payload starts with these bytes, and writing goes on behind them. -/
structure Stream.Behind (front : List UInt8) (stream : Stream) : Prop where
  starts : stream.payload.take front.length = front
  offset : stream.offset = front.length

theorem Stream.Behind.puts {front : List UInt8} {stream after : Stream} {list : List (Nat × List UInt8)}
    (behind : stream.Behind front) (contiguous : Contiguous front.length list)
    (ran : Proc.each (list.map fun put => Piece.put put.1 put.2) Piece.write stream = (.ok (), after)) :
    after.Behind (front ++ list.flatMap (·.2)) ∧ after.payload.drop after.offset = stream.payload.drop after.offset := by
  have inside : stream.offset ≤ stream.payload.length := by
    have length := congrArg List.length behind.starts
    rw [List.length_take] at length
    rw [behind.offset]
    omega
  obtain ⟨taken, offset, left⟩ := puts_ok (behind.offset ▸ contiguous) inside ran
  rw [behind.offset, behind.starts] at taken
  rw [behind.offset, ← List.length_append] at offset
  exact ⟨⟨offset ▸ taken, offset⟩, left⟩

def Header.reply (hdr : Header) (ptype : UInt8) (size : Nat) : Header :=
  { hdr with ptype, pfcFlags := Pfc.firstFrag ||| Pfc.lastFrag, fragLength := UInt16.ofNat size }

theorem pduHeader_of_reply {hdr : Header} {ptype : UInt8} {size : Nat} {payload : List UInt8}
    (front : payload.take headerSize = (hdr.reply ptype size).bytes hdr.little) :
    pduHeader payload = hdr.reply ptype size := pduHeader_of_front front

def responsePuts (little : Bool) (size : Nat) (contextId : UInt16) : List (Nat × List UInt8) :=
  [(4, encode little 4 (UInt32.ofNat size).toNat), (2, encode little 2 contextId.toNat), (1, encode little 1 0),
    (1, encode little 1 0)]

def responseBytes (little : Bool) (size : Nat) (contextId : UInt16) : List UInt8 :=
  (responsePuts little size contextId).flatMap (·.2)

theorem length_responseBytes (little : Bool) (size : Nat) (contextId : UInt16) :
    (responseBytes little size contextId).length = responseHeaderSize := by
  simp [responseBytes, responsePuts, responseHeaderSize]

theorem responsePuts_contiguous (little : Bool) (size : Nat) (contextId : UInt16) :
    Contiguous headerSize (responsePuts little size contextId) := by
  simp only [responsePuts, Contiguous, length_encode]
  decide

inductive AnsweredBy : UInt8 → UInt8 → Prop where
  | bindAck : AnsweredBy Ptype.bind Ptype.bindAck
  | bindNack : AnsweredBy Ptype.bind Ptype.bindNack
  | altContResp : AnsweredBy Ptype.altCont Ptype.altContResp
  | altContNack : AnsweredBy Ptype.altCont Ptype.bindNack
  | response : AnsweredBy Ptype.request Ptype.response

/-- The pipe holds this header and context, in the header's byte order, and its stream
ends at the limit or before it. -/
structure Dce.Awaits (hdr : Header) (contextId : UInt16) (limit : Nat) (dce : Dce) : Prop where
  header : dce.hdr = hdr
  contextId : dce.reqHdr.contextId = contextId
  order : dce.stream.littleEndian = hdr.little
  room : dce.stream.payloadSz ≤ limit

/-- The reply to a PDU with this header and context. -/
inductive Work.Replies (hdr : Header) (contextId : UInt16) (limit : Nat) (work : Work) : Prop where
  | mk (ptype : UInt8) (type : AnsweredBy hdr.ptype ptype) (size : work.payloadSz ≤ limit)
      (front : work.channel.dce.stream.payload.take headerSize = (hdr.reply ptype work.payloadSz).bytes hdr.little)
      (behind : hdr.ptype = Ptype.request → (work.channel.dce.stream.payload.drop headerSize).take responseHeaderSize =
        responseBytes hdr.little work.payloadSz contextId)

section
variable {machine : Machine} {hdr : Header} {contextId : UInt16} {limit : Nat} {work after : Work}

theorem Dce.Awaits.handled {α : Type} {handler : Proc Call Status α} {outcome : Outcome Status α}
    (ran : Work.handle handler work = (outcome, after)) (awaits : work.channel.dce.Awaits hdr contextId limit)
    (moves : ∀ call : Call, call.stream.Moved (handler call).2.stream) : after.channel.dce.Awaits hdr contextId limit := by
  obtain ⟨call, handled, rfl⟩ := Work.handle_ran ran
  have moved := moves work.call
  rw [handled] at moved
  exact ⟨awaits.header, awaits.contextId, (congrArg NdrFlags.littleEndian moved.flags).trans awaits.order,
    moved.payloadSz.trans_le awaits.room⟩

theorem Call.write_moves (items : List Item) (call : Call) : call.stream.Moved (Call.write machine items call).2.stream := by
  obtain ⟨stream, moved, ran | ran⟩ := Call.write_cases machine items call <;> rw [ran] <;> exact moved

theorem Call.seek_moves (offset : Nat) (call : Call) : call.stream.Moved (Call.seek offset call).2.stream := ⟨rfl, rfl⟩

private theorem write_puts {front : List UInt8} {items : List Item} {list : List (Nat × List UInt8)}
    (ran : Work.write machine items work = (.ok (), after)) (behind : work.channel.dce.stream.Behind front)
    (pieces : items.flatMap (Item.pieces machine.toPlatform work.channel.dce.stream.flags) =
      list.map fun put => Piece.put put.1 put.2) (contiguous : Contiguous front.length list) :
    after.channel.dce.stream.Behind (front ++ list.flatMap (·.2)) ∧
      after.channel.dce.stream.payload.drop after.channel.dce.stream.offset =
        work.channel.dce.stream.payload.drop after.channel.dce.stream.offset := by
  obtain ⟨call, written, rfl⟩ := Work.handle_ran ran
  obtain ⟨stream, put, rfl⟩ := Call.write_ran written
  rw [ndrWrite, show work.call.stream.flags = work.channel.dce.stream.flags from rfl, pieces] at put
  exact behind.puts contiguous put

theorem writeHdr_ok {ptype : UInt8} (awaits : work.channel.dce.Awaits hdr contextId limit)
    (ran : writeHdr machine ptype (Pfc.firstFrag ||| Pfc.lastFrag) work = (.ok (), after)) :
    after.channel.dce.stream.Behind ((hdr.reply ptype work.channel.dce.stream.offset).bytes hdr.little) ∧
      after.channel.dce.stream.payload.drop headerSize = work.channel.dce.stream.payload.drop headerSize ∧
      after.channel.dce.Awaits (hdr.reply ptype work.channel.dce.stream.offset) contextId limit := by
  have moved : writeHdr machine ptype (Pfc.firstFrag ||| Pfc.lastFrag) work =
      Work.write machine (hdr.reply ptype work.channel.dce.stream.offset).items
        { work with channel := { work.channel with dce := { work.channel.dce with
          hdr := hdr.reply ptype work.channel.dce.stream.offset
          stream := { work.channel.dce.stream with offset := 0 } } } } := by
    rw [← awaits.header]
    rfl
  rw [moved] at ran
  have start : Stream.Behind [] { work.channel.dce.stream with offset := 0 } := ⟨by simp, rfl⟩
  have kept : after.channel.dce.Awaits (hdr.reply ptype work.channel.dce.stream.offset) contextId limit :=
    Dce.Awaits.handled ran ⟨rfl, awaits.contextId, awaits.order, awaits.room⟩ (Call.write_moves _)
  have pieces : (hdr.reply ptype work.channel.dce.stream.offset).items.flatMap
      (Item.pieces machine.toPlatform work.channel.dce.stream.flags) =
      ((hdr.reply ptype work.channel.dce.stream.offset).puts hdr.little).map fun put => Piece.put put.1 put.2 := by
    rw [← awaits.order]
    rfl
  obtain ⟨behind, left⟩ := write_puts ran start pieces (Header.contiguous _ _)
  have size : after.channel.dce.stream.offset = headerSize :=
    behind.offset.trans (Header.length_bytes hdr.little (hdr.reply ptype work.channel.dce.stream.offset))
  exact ⟨behind, size ▸ left, kept⟩

theorem sendResponse_ok {status : Status} (awaits : work.channel.dce.Awaits hdr contextId limit)
    (request : hdr.ptype = Ptype.request) (whole : status ≠ .moreData)
    (ran : sendResponse machine status work = (.ok (), after)) :
    after.Replies hdr contextId limit ∧ ∃ coded : Work, Work.write machine [.int32 status.toUInt32] work = (.ok (), coded) ∧
      after.channel.dce.stream.payload.drop (headerSize + responseHeaderSize) =
        coded.channel.dce.stream.payload.drop (headerSize + responseHeaderSize) ∧
      after.payloadSz = coded.channel.dce.stream.offset := by
  obtain ⟨_, coded, coding, ran⟩ := bind_eq_ok.mp ran
  have size : coded.channel.dce.stream.offset ≤ limit := by
    obtain ⟨call, written, rfl⟩ := Work.handle_ran coding
    have last : (Item.int32 status.toUInt32).pieces machine.toPlatform work.call.stream.flags = [.put 4 _] := rfl
    exact Nat.le_trans (Call.write_last last (show Call.write machine ([] ++ _) _ = _ from written)) awaits.room
  have awaits := awaits.handled coding (Call.write_moves _)
  obtain ⟨_, sent, headers, ran⟩ := bind_eq_ok.mp ran
  cases ran
  obtain ⟨_, _, got, headers⟩ := bind_eq_ok.mp headers
  cases got
  rw [if_neg whole] at headers
  obtain ⟨_, headed, wrote, headers⟩ := bind_eq_ok.mp headers
  obtain ⟨behind, body, kept⟩ := writeHdr_ok awaits wrote
  obtain ⟨_, changed, assigned, headers⟩ := bind_eq_ok.mp headers
  have same : changed.channel.dce.stream = headed.channel.dce.stream := by
    cases assigned
    rfl
  obtain ⟨_, written, wrote, headers⟩ := bind_eq_ok.mp headers
  have pieces : List.flatMap (Item.pieces machine.toPlatform changed.channel.dce.stream.flags)
      [.int32 (UInt32.ofNat coded.channel.dce.stream.offset), .int16 coded.channel.dce.reqHdr.contextId, .int8 0, .int8 0] =
      (responsePuts hdr.little coded.channel.dce.stream.offset contextId).map fun put => Piece.put put.1 put.2 := by
    rw [same, ← awaits.contextId, show hdr.little = _ from kept.order.symm]
    rfl
  obtain ⟨behind, left⟩ := write_puts wrote (same ▸ behind) pieces
    (by rw [Header.length_bytes]; exact responsePuts_contiguous _ _ _)
  cases headers
  have starts := behind.starts
  have offset := behind.offset
  rw [List.length_append, Header.length_bytes, show List.length (List.flatMap _ _) = _ from length_responseBytes _ _ _]
    at starts offset
  rw [offset, same] at left
  refine ⟨⟨Ptype.response, request ▸ .response, size, ?_, fun _ => ?_⟩, coded, coding, ?_, rfl⟩
  · have cut := congrArg (List.take headerSize) starts
    rwa [List.take_take, Nat.min_eq_left (Nat.le_add_right _ _), List.take_left' (Header.length_bytes _ _)] at cut
  · have cut := congrArg (List.drop headerSize) starts
    rwa [List.drop_take, Nat.add_sub_cancel_left, List.drop_left' (Header.length_bytes _ _)] at cut
  · have cut := congrArg (List.drop responseHeaderSize) body
    rw [List.drop_drop, List.drop_drop] at cut
    exact left.trans cut

private theorem answer_state {σ : Type} {status : Status} {before last : σ}
    (ran : answer status before = ((.ok () : Outcome Status Unit), last)) : last = before ∧ status = .ok := by
  simp only [answer] at ran
  split at ran
  next same =>
    cases ran
    exact ⟨rfl, same⟩
  next => cases ran

private theorem answered_replies {body : Proc Call Status Status}
    (moves : ∀ call : Call, call.stream.Moved (body call).2.stream)
    (awaits : work.channel.dce.Awaits hdr contextId limit) (request : hdr.ptype = Ptype.request)
      (ran : (Work.handle body >>= fun status => sendResponse machine status >>= fun _ => answer status) work =
      (.ok (), after)) : after.Replies hdr contextId limit := by
  obtain ⟨status, answered, handled, ran⟩ := bind_eq_ok.mp ran
  obtain ⟨_, sent, ran, ended⟩ := bind_eq_ok.mp ran
  obtain ⟨rfl, rfl⟩ := answer_state ended
  exact (sendResponse_ok (awaits.handled handled moves) request (by decide) ran).1

private theorem limited_replies {body : Proc Call Status Status} {size : Nat} (within : size ≤ limit)
    (moves : ∀ call : Call, call.stream.Moved (body call).2.stream) (whole : Yields (· ≠ Status.moreData) body)
    (awaits : work.channel.dce.Awaits hdr contextId limit) (request : hdr.ptype = Ptype.request)
    (ran : (setRespPayload size >>= fun _ => Work.handle body >>= sendResponse machine) work = (.ok (), after)) :
    after.Replies hdr contextId limit := by
  obtain ⟨_, limited, set, ran⟩ := bind_eq_ok.mp ran
  have awaits : limited.channel.dce.Awaits hdr contextId limit := by
    cases set
    exact ⟨awaits.header, awaits.contextId, awaits.order, within⟩
  obtain ⟨status, answered, handled, ran⟩ := bind_eq_ok.mp ran
  obtain ⟨call, body, -⟩ := Work.handle_ran handled
  exact (sendResponse_ok (awaits.handled handled moves) request (whole _ _ _ body) ran).1

theorem serviceReadRequest_replies {maxRespSz : Nat} {service : Service} (within : maxRespSz ≤ limit)
    (awaits : work.channel.dce.Awaits hdr contextId limit) (request : hdr.ptype = Ptype.request)
    (ran : serviceReadRequest machine maxRespSz service work = (.ok (), after)) : after.Replies hdr contextId limit := by
  cases service with
  | srvsvc =>
    obtain ⟨_, _, got, ran⟩ := bind_eq_ok.mp ran
    cases got
    split at ran
    next =>
      refine limited_replies ?_ ?_ (srvsvcShareInfoReturn_whole _ _) awaits request ran
      · split
        next => exact Nat.le_trans (Nat.min_le_left _ _) within
        next => exact within
      · exact fun call => srvsvcShareInfoReturn_keeps (.moved _) _ _ call ⟨rfl, rfl⟩
    next => cases ran
  | wkssvc =>
    obtain ⟨_, _, got, ran⟩ := bind_eq_ok.mp ran
    cases got
    split at ran
    next =>
      refine limited_replies within ?_ (wkssvcNetwkstaInfoReturn_whole _) awaits request ran
      exact fun call => wkssvcNetwkstaInfoReturn_keeps (Call.Kept.moved _).replies _ call ⟨rfl, rfl⟩
    next => cases ran
  | samr =>
    obtain ⟨_, _, got, ran⟩ := bind_eq_ok.mp ran
    cases got
    exact answered_replies (fun call => samrReturn_keeps (.moved _) (fun _ => Call.modify_keeps fun _ => rfl) _ _ call
      ⟨rfl, rfl⟩) awaits request ran
  | lsarpc =>
    obtain ⟨_, _, got, ran⟩ := bind_eq_ok.mp ran
    cases got
    exact answered_replies (fun call => lsarpcReturn_keeps (Call.Kept.moved _).replies
      (fun _ => Call.modify_keeps fun _ => rfl) _ _ call ⟨rfl, rfl⟩) awaits request ran

private theorem work_write_avoids (items : List Item) : Avoids .ok (Work.write machine items) := fun work =>
  Call.write_avoids (by decide) items work.call

private theorem sendBindReply_avoids (ptype : UInt8) : Avoids .ok (sendBindReply machine ptype) :=
  .bind .get fun _ => .bind (.bind .get fun _ => .bind (.modify _) fun _ => .bind (.modify _) fun _ =>
    .bind .get fun _ => work_write_avoids _) fun _ => .bind (.modify _) fun _ => .modify _

private theorem sendBindReply_replies {ptype : UInt8} (awaits : work.channel.dce.Awaits hdr contextId limit)
    (type : AnsweredBy hdr.ptype ptype) (bind : hdr.ptype ≠ Ptype.request)
    (size : work.channel.dce.stream.offset ≤ limit)
    (ran : sendBindReply machine ptype work = (.ok (), after)) : after.Replies hdr contextId limit := by
  obtain ⟨_, _, got, ran⟩ := bind_eq_ok.mp ran
  cases got
  obtain ⟨_, headed, wrote, ran⟩ := bind_eq_ok.mp ran
  have front := (writeHdr_ok awaits wrote).1.starts
  rw [Header.length_bytes] at front
  cases ran
  exact ⟨ptype, type, size, front, fun request => absurd request bind⟩

private theorem written_bind_replies {items : List Item} {item : Item} {ptype : UInt8} {width : Nat} {data : List UInt8}
    (last : item.pieces machine.toPlatform work.channel.dce.stream.flags = [.put width data])
    (awaits : work.channel.dce.Awaits hdr contextId limit) (type : AnsweredBy hdr.ptype ptype)
    (bind : hdr.ptype ≠ Ptype.request)
    (ran : (Work.write machine (items ++ [item]) >>= fun _ => sendBindReply machine ptype) work = (.ok (), after)) :
    after.Replies hdr contextId limit := by
  obtain ⟨_, written, wrote, ran⟩ := bind_eq_ok.mp ran
  refine sendBindReply_replies (awaits.handled wrote (Call.write_moves _)) type bind ?_ ran
  obtain ⟨call, ended, rfl⟩ := Work.handle_ran wrote
  exact Nat.le_trans (Call.write_last last ended) awaits.room

private theorem isBind_cases {ptype : UInt8} (bind : isBind ptype = true) :
    ptype ≠ Ptype.request ∧ AnsweredBy ptype Ptype.bindNack ∧
      AnsweredBy ptype (if ptype == Ptype.altCont then Ptype.altContResp else Ptype.bindAck) := by
  simp only [isBind, Bool.or_eq_true, beq_iff_eq] at bind
  rcases bind with rfl | rfl
  · exact ⟨by decide, .bindNack, .bindAck⟩
  · exact ⟨by decide, .altContNack, .altContResp⟩

private theorem ackItems_last (context : DcerpcContext) :
    ∃ items value, context.ackItems = items ++ [.int16 value] := by
  have syntaxLast : ∀ (items : List Item) (syn : DcerpcSyntax), ∃ rest value, items ++ syn.items = rest ++ [.int16 value] :=
    fun items syn => ⟨items ++ syn.items.dropLast, syn.verMinor, by simp [DcerpcSyntax.items]⟩
  rw [DcerpcContext.ackItems]
  split
  next => exact syntaxLast _ _
  next =>
    split
    next => exact syntaxLast _ _
    next => exact syntaxLast _ _

theorem flatMap_ackItems_last {contexts : List DcerpcContext} (some : contexts ≠ []) :
    ∃ items value, contexts.flatMap DcerpcContext.ackItems = items ++ [.int16 value] := by
  obtain ⟨init, context, rfl⟩ := List.eq_nil_or_concat contexts |>.resolve_left some
  obtain ⟨items, value, last⟩ := ackItems_last context
  exact ⟨init.flatMap DcerpcContext.ackItems ++ items, value, by simp [last]⟩

private theorem dcerpcBindNackReturn_replies (awaits : work.channel.dce.Awaits hdr contextId limit)
    (bind : isBind hdr.ptype = true) (ran : dcerpcBindNackReturn machine work = (.ok (), after)) :
    after.Replies hdr contextId limit := by
  obtain ⟨other, nack, -⟩ := isBind_cases bind
  obtain ⟨_, _, sought, ran⟩ := bind_eq_ok.mp ran
  have items : nackItems = nackItems.dropLast ++ [.int8 0] := rfl
  rw [items] at ran
  exact written_bind_replies rfl (awaits.handled sought (Call.seek_moves _)) nack other ran

private theorem dcerpcBindAckReturn_replies {contexts : List DcerpcContext} (some : contexts ≠ [])
    (awaits : work.channel.dce.Awaits hdr contextId limit) (bind : isBind hdr.ptype = true)
    (ran : dcerpcBindAckReturn machine contexts work = (.ok (), after)) : after.Replies hdr contextId limit := by
  obtain ⟨other, -, ack⟩ := isBind_cases bind
  obtain ⟨_, _, sought, ran⟩ := bind_eq_ok.mp ran
  have awaits := awaits.handled sought (Call.seek_moves _)
  obtain ⟨_, grouped, assigned, ran⟩ := bind_eq_ok.mp ran
  have awaits : grouped.channel.dce.Awaits hdr contextId limit := by
    cases assigned
    exact ⟨awaits.header, awaits.contextId, awaits.order, awaits.room⟩
  obtain ⟨_, _, got, ran⟩ := bind_eq_ok.mp ran
  cases got
  obtain ⟨_, _, wrote, ran⟩ := bind_eq_ok.mp ran
  have kept := awaits.handled wrote (Call.write_moves _)
  simp only [awaits.header] at ran
  obtain ⟨items, value, last⟩ := flatMap_ackItems_last some
  revert ran
  generalize pipeAddr _ = addr
  intro ran
  cases addr with
  | none => cases ran
  | some addr =>
    dsimp only at ran
    rw [last, ← List.append_assoc] at ran
    exact written_bind_replies rfl kept ack other ran

private theorem dcerpcBindReturn_avoids (contexts : List DcerpcContext) (ack : Bool) :
    Avoids .ok (if ack then dcerpcBindAckReturn machine contexts else dcerpcBindNackReturn machine) := by
  cases ack with
  | false => exact .bind (.modify _) fun _ => .bind (work_write_avoids _) fun _ => sendBindReply_avoids _
  | true =>
    refine .bind (.modify _) fun _ => .bind (.modify _) fun _ => .bind .get fun work =>
      .bind (work_write_avoids _) fun _ => ?_
    split
    next => exact .stop (by decide)
    next => exact .bind (work_write_avoids _) fun _ => sendBindReply_avoids _

/-- What a bind reply is made of, when it is sent: the acknowledgement or the refusal of
the contexts. Freeing them leaves the reply alone. -/
theorem dcerpcBindReturn_sends (ran : dcerpcBindReturn machine work = (.ok (), after)) :
    ∃ contexts sent, bindContexts work.store (work.channel.dce.req.biReq machine) = some contexts ∧
      (if contexts.any fun context => context.transferSyntaxes.any fun syn => (dcerpcSyntaxSupported syn).isSome
        then dcerpcBindAckReturn machine contexts else dcerpcBindNackReturn machine) work = (.ok (), sent) ∧
      after.channel.dce.stream = sent.channel.dce.stream ∧ after.payloadSz = sent.payloadSz := by
  obtain ⟨_, _, got, ran⟩ := bind_eq_ok.mp ran
  cases got
  cases found : bindContexts work.store (work.channel.dce.req.biReq machine) with
  | none =>
    rw [found] at ran
    cases ran
  | some contexts =>
    rw [found] at ran
    obtain ⟨_, _, got, ran⟩ := bind_eq_ok.mp ran
    cases got
    obtain ⟨status, replied, coded, ran⟩ := bind_eq_ok.mp ran
    obtain ⟨_, freed, free, ran⟩ := bind_eq_ok.mp ran
    obtain ⟨rfl, rfl⟩ := answer_state ran
    have keeps : Preserves (fun last : Work => last.channel.dce.stream = replied.channel.dce.stream ∧
        last.payloadSz = replied.payloadSz) (dcerpcBindReqFree machine) := by
      refine .bind .get fun work => .bind (.deref _) fun _ => ?_
      dsimp only
      split
      next => exact .modify fun _ same => same
      next => exact .bind (.deref _) fun _ => .bind (.modify fun _ same => same) fun _ => .modify fun _ same => same
    have same := keeps.along free ⟨rfl, rfl⟩
    exact ⟨contexts, replied, rfl, (dcerpcBindReturn_avoids contexts _).code_eq_ok coded, same.1, same.2⟩

theorem dcerpcBindReturn_replies (awaits : work.channel.dce.Awaits hdr contextId limit) (bind : isBind hdr.ptype = true)
    (ran : dcerpcBindReturn machine work = (.ok (), after)) : after.Replies hdr contextId limit := by
  obtain ⟨contexts, sent, -, ran, stream, size⟩ := dcerpcBindReturn_sends ran
  have replies : sent.Replies hdr contextId limit := by
    split at ran
    next ack =>
      refine dcerpcBindAckReturn_replies ?_ awaits bind ran
      rintro rfl
      cases ack
    next => exact dcerpcBindNackReturn_replies awaits bind ran
  obtain ⟨ptype, type, within, front, behind⟩ := replies
  rw [← size] at within front behind
  rw [← stream] at front behind
  exact ⟨ptype, type, within, front, behind⟩

theorem returnHandler_replies {maxRespSz : Nat} (within : maxRespSz ≤ limit)
    (awaits : work.channel.dce.Awaits hdr contextId limit)
    (ran : returnHandler machine maxRespSz work = (.ok (), after)) : after.Replies hdr contextId limit := by
  obtain ⟨_, _, got, ran⟩ := bind_eq_ok.mp ran
  cases got
  rw [awaits.header] at ran
  split at ran
  next bind => exact dcerpcBindReturn_replies awaits bind ran
  split at ran
  next request =>
    revert ran
    generalize service? _ = service
    intro ran
    cases service with
    | none => cases ran
    | some service => exact serviceReadRequest_replies within awaits request ran
  next => cases ran

end

/-- The payload starts with a header of this call id, in the byte order the header names. -/
def Work.Carries (callId : UInt32) (work : Work) : Prop :=
  ∃ (hdr : Header) (little : Bool), hdr.callId = callId ∧ little = hdr.little ∧
    work.channel.dce.stream.payload.take headerSize = hdr.bytes little

namespace Work.Carries
variable {callId : UInt32} {work : Work}

theorem pduCallId_eq (carries : work.Carries callId) : pduCallId work.channel.dce.stream.payload = callId := by
  obtain ⟨hdr, _, same, rfl, front⟩ := carries
  exact (congrArg Header.callId (pduHeader_of_front front)).trans same

theorem payload_ne_nil (carries : work.Carries callId) : work.channel.dce.stream.payload ≠ [] := by
  obtain ⟨hdr, little, -, -, front⟩ := carries
  intro empty
  have length := hdr.length_bytes little
  rw [← front, empty] at length
  exact absurd length (by decide)

end Work.Carries

/-- The header on the pipe has this call id, and the byte order in use is its own. -/
def Dce.Holds (callId : UInt32) (dce : Dce) : Prop := dce.hdr.callId = callId ∧ dce.Ordered

theorem returnHandler_carries {machine : Machine} {callId : UInt32} {maxRespSz : Nat} {work after : Work}
    (holds : work.channel.dce.Holds callId) (ran : returnHandler machine maxRespSz work = (.ok (), after)) :
    after.Carries callId := by
  have awaits : work.channel.dce.Awaits work.channel.dce.hdr work.channel.dce.reqHdr.contextId
      (max work.channel.dce.stream.payloadSz maxRespSz) := ⟨rfl, rfl, holds.2, Nat.le_max_left _ _⟩
  obtain ⟨ptype, -, -, front, -⟩ := returnHandler_replies (Nat.le_max_right _ _) awaits ran
  exact ⟨work.channel.dce.hdr.reply ptype after.payloadSz, _, holds.1, rfl, front⟩

/-- What the header of a reply has to be, each decoded in the byte order of its own. -/
structure HeaderLaw (request : List UInt8) (reply : Response) : Prop where
  version : (pduHeader reply.payload).rpcVers = (pduHeader request).rpcVers
  minorVersion : (pduHeader reply.payload).rpcVersMinor = (pduHeader request).rpcVersMinor
  drep : (pduHeader reply.payload).packedDrep = (pduHeader request).packedDrep
  callId : (pduHeader reply.payload).callId = (pduHeader request).callId
  ptype : AnsweredBy (pduHeader request).ptype (pduHeader reply.payload).ptype
  fragLength : (pduHeader reply.payload).fragLength.toNat = reply.payloadSz
  flags : (pduHeader reply.payload).pfcFlags = Pfc.firstFrag ||| Pfc.lastFrag
  contextId : (pduHeader request).ptype = Ptype.request → pduContextId reply.payload = pduContextId request
  allocHint : (pduHeader request).ptype = Ptype.request →
    (pduAllocHint reply.payload).toNat = (pduHeader reply.payload).fragLength.toNat

private theorem response_decoded {payload : List UInt8} {size : Nat} {contextId : UInt16} (small : size < 2 ^ 16)
    (behind : (payload.drop headerSize).take responseHeaderSize = responseBytes (pduLittle payload) size contextId) :
    pduContextId payload = contextId ∧ (pduAllocHint payload).toNat = size := by
  have part : ∀ place count, place + count ≤ responseHeaderSize → (payload.drop (headerSize + place)).take count =
      ((responseBytes (pduLittle payload) size contextId).drop place).take count := by
    intro place count inside
    rw [← behind, List.drop_take, List.take_take, Nat.min_eq_left (by omega), List.drop_drop]
  have hint : (payload.drop 16).take 4 = encode (pduLittle payload) 4 (UInt32.ofNat size).toNat := by
    rw [show (16 : Nat) = headerSize + 0 from rfl, part 0 4 (by decide)]
    simp [responseBytes, responsePuts]
  have context : (payload.drop 20).take 2 = encode (pduLittle payload) 2 contextId.toNat := by
    rw [show (20 : Nat) = headerSize + 4 from rfl, part 4 2 (by decide)]
    simp [responseBytes, responsePuts]
  constructor
  · rw [pduContextId, context, ofNat_decode_encode]
  · have fits : (UInt32.ofNat size).toNat < 256 ^ 4 := UInt32.toNat_lt _
    rw [pduAllocHint, hint, decode_encode _ fits, UInt32.ofNat_toNat, UInt32.toNat_ofNat']
    omega

private theorem Work.Replies.law {bytes : List UInt8} {limit : Nat} {work : Work} (small : limit < 2 ^ 16)
    (replies : work.Replies (pduHeader bytes) (pduContextId bytes) limit) :
    HeaderLaw bytes ⟨work.channel.dce.stream.payload, work.payloadSz⟩ := by
  obtain ⟨ptype, type, size, front, behind⟩ := replies
  have header : pduHeader work.channel.dce.stream.payload = (pduHeader bytes).reply ptype work.payloadSz :=
    pduHeader_of_front front
  have fragLength : (UInt16.ofNat work.payloadSz).toNat = work.payloadSz := by
    rw [UInt16.toNat_ofNat']
    omega
  have little : pduLittle work.channel.dce.stream.payload = (pduHeader bytes).little := by
    rw [← pduHeader_little, header]
    rfl
  have response : (pduHeader bytes).ptype = Ptype.request →
      pduContextId work.channel.dce.stream.payload = pduContextId bytes ∧
        (pduAllocHint work.channel.dce.stream.payload).toNat = work.payloadSz := by
    intro request
    exact response_decoded (by omega) (little ▸ behind request)
  constructor <;> simp only [header]
  case ptype => exact type
  case fragLength => exact fragLength
  case flags => rfl
  case contextId => exact fun request => (response request).1
  case allocHint => exact fun request => (response request).2.trans fragLength.symm
  all_goals rfl

section
variable {machine : Machine} {marks : UInt32 × Bool × Option UInt16}

private theorem serviceReadRequest_marks (maxRespSz : Nat) (service : Service) :
    Preserves (Work.OnDce (·.marks = marks)) (serviceReadRequest machine maxRespSz service) := by
  have sent : ∀ status, Preserves (Work.OnDce (·.marks = marks)) (sendResponse machine status) := marks_apart.sendResponse
  cases service with
  | srvsvc =>
    exact .bind .get fun _ => .ite (.bind (.modify fun _ same => same) fun _ => .bind (fun _ same => same) sent) (.stop _)
  | wkssvc =>
    exact .bind .get fun _ => .ite (.bind (.modify fun _ same => same) fun _ => .bind (fun _ same => same) sent) (.stop _)
  | samr => exact .bind .get fun _ => marks_apart.respond fun _ same => same
  | lsarpc => exact .bind .get fun _ => marks_apart.respond fun _ same => same

theorem returnHandler_marks (maxRespSz : Nat) :
    Preserves (Work.OnDce (·.marks = marks)) (returnHandler machine maxRespSz) := by
  refine .bind .get fun work => .ite marks_apart.dcerpcBindReturn (.ite ?_ (.stop _))
  split
  next => exact .stop _
  next => exact serviceReadRequest_marks maxRespSz _

end

/-- A read that replies to a PDU accepted before it runs the return handler on what the
invoke handler left. -/
theorem reply_of_read {machine : Machine} {server written : Server} {channel : Channel} {write read : Command}
    {maxRespSz : Nat} {exchange : Exchange} (found : server.pipes.lookup write.handle = some channel)
    (idle : channel.dce.returnReady = false)
    (accepted : rpcWriteRequest machine write ⟨server, {}⟩ = (.ok (), ⟨written, {}⟩)) (same : read.handle = write.handle)
    (answered : rpcReadRequest machine read maxRespSz ⟨written, {}⟩ = (.ok (), exchange))
    (replied : exchange.resp.payloadSz ≠ 0) :
    ∃ parsed last : Work, invokeHandler machine (Exchange.writing ⟨server, {}⟩ channel write) = (.ok (), parsed) ∧
      returnHandler machine maxRespSz ⟨parsed.store, parsed.channel.startRead read {} maxRespSz, 0⟩ = (.ok (), last) ∧
      exchange.resp = ⟨last.channel.dce.stream.payload, last.payloadSz⟩ := by
  rw [rpcWriteRequest_idle found idle] at accepted
  obtain ⟨ended, finished⟩ := Prod.mk.inj accepted
  obtain ⟨parsed, ran⟩ := exists_of_ok ended
  obtain rfl : server.finish write.handle parsed = written := by
    rw [ran] at finished
    exact congrArg Exchange.server finished
  have lookup := Server.lookup_finish found parsed
  rw [← same] at lookup answered
  refine ⟨parsed, ?_⟩
  cases consumed : parsed.channel.pipe.ioctlReplyConsumed with
  | true =>
    rw [rpcReadRequest_consumed lookup consumed] at answered
    cases answered
    exact absurd rfl replied
  | false =>
    cases ready : parsed.channel.dce.returnReady with
    | false =>
      rw [rpcReadRequest_idle lookup consumed ready] at answered
      cases answered
      exact absurd rfl replied
    | true =>
      rw [rpcReadRequest_pending lookup consumed ready] at answered
      obtain ⟨ended, rfl⟩ := Prod.mk.inj answered
      obtain ⟨last, handled⟩ := exists_of_ok ended
      exact ⟨last, ran, handled, by rw [handled]⟩

/-- Whatever PDU is accepted on a pipe without a pending reply, and in whatever byte
order, the read behind it replies with a header that obeys the law. -/
theorem reply_header_law (machine : Machine) (server written : Server) (channel : Channel) (write read : Command)
    (maxRespSz : Nat) (exchange : Exchange) (found : server.pipes.lookup write.handle = some channel)
    (idle : channel.dce.returnReady = false)
    (accepted : rpcWriteRequest machine write ⟨server, {}⟩ = (.ok (), ⟨written, {}⟩))
    (same : read.handle = write.handle) (limit : maxRespSz ≤ 4080)
    (answered : rpcReadRequest machine read maxRespSz ⟨written, {}⟩ = (.ok (), exchange))
    (replied : exchange.resp.payloadSz ≠ 0) : HeaderLaw write.payload exchange.resp := by
  obtain ⟨parsed, last, ran, handled, resp⟩ := reply_of_read found idle accepted same answered replied
  obtain ⟨header, ordered⟩ := invokeHandler_ok ⟨rfl, rfl, rfl⟩ ran
  have awaits : (parsed.channel.startRead read {} maxRespSz).dce.Awaits parsed.channel.dce.hdr
      parsed.channel.dce.reqHdr.contextId 4080 := ⟨rfl, rfl, ordered, limit⟩
  have replies := returnHandler_replies limit awaits handled
  rw [header] at replies
  obtain ⟨ptype, type, size, front, behind⟩ := replies
  rw [resp]
  refine Work.Replies.law (show 4080 < 2 ^ 16 by decide) ⟨ptype, type, size, front, fun request => ?_⟩
  have context : parsed.channel.dce.reqHdr.contextId = pduContextId write.payload :=
    congrArg RequestHeader.contextId (invokeHandler_reqHdr ⟨rfl, rfl, rfl⟩ request ran).1
  exact context ▸ behind request

/-- The read of an enumeration of shares. -/
theorem reply_header_law_shareEnum : ∃ exchange,
    rpcReadRequest Scenario.machine Scenario.read 4080 ⟨Scenario.pending, {}⟩ = (.ok (), exchange) ∧
      HeaderLaw (Scenario.shareEnum 1 4000) exchange.resp := by
  obtain ⟨channel, found⟩ := Option.isSome_iff_exists.mp
    (show (Scenario.server.pipes.lookup Scenario.pipe).isSome by decide +kernel)
  have idle : ∀ channel ∈ Scenario.server.pipes.lookup Scenario.pipe, channel.dce.returnReady = false := by decide +kernel
  have accepted : (rpcWriteRequest Scenario.machine (Scenario.write (Scenario.shareEnum 1 4000)) ⟨Scenario.server, {}⟩).1 =
      .ok () := by decide +kernel
  have unwritten : (rpcWriteRequest Scenario.machine (Scenario.write (Scenario.shareEnum 1 4000))
      ⟨Scenario.server, {}⟩).2.resp = {} := by decide +kernel
  obtain ⟨⟨written, resp⟩, wrote⟩ := exists_of_ok accepted
  obtain ⟨exchange, answered⟩ := exists_of_ok
    (show (rpcReadRequest Scenario.machine Scenario.read 4080 ⟨Scenario.pending, {}⟩).1 = .ok () by decide +kernel)
  have replied : (rpcReadRequest Scenario.machine Scenario.read 4080 ⟨Scenario.pending, {}⟩).2.resp.payloadSz ≠ 0 := by
    decide +kernel
  rw [wrote] at unwritten
  obtain rfl : resp = {} := unwritten
  refine ⟨exchange, answered, ?_⟩
  rw [answered] at replied
  rw [Scenario.pending, wrote] at answered
  exact reply_header_law Scenario.machine Scenario.server written channel (Scenario.write (Scenario.shareEnum 1 4000))
    Scenario.read 4080 exchange found (idle channel found) wrote rfl (Nat.le_refl _) answered replied

end KsmbdTools.Rpc
