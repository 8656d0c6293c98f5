import KsmbdTools.Rpc.Proofs.BindParsing
import KsmbdTools.Rpc.Proofs.ReplyHeaders

/-! What a bind PDU is answered. The records of an acknowledgement are written with
the alignment of NDR and read by their places. The two agree but for the first
record, whose result is read where its reason was written. -/

namespace KsmbdTools.Rpc
open Management Bytes Proc

structure AckRecord where
  result : UInt16
  reason : UInt16
  transfer : DcerpcSyntax
  deriving DecidableEq

def ackRecordSize : Nat := 24

def ackRecords (little : Bool) : Nat → List UInt8 → List AckRecord
  | 0, _ => []
  | count + 1, bytes =>
    { result := UInt16.ofNat (decode little (bytes.take 2))
      reason := UInt16.ofNat (decode little ((bytes.drop 2).take 2))
      transfer := pduSyntax little (bytes.drop 4) } :: ackRecords little count (bytes.drop ackRecordSize)

/-- Where the count of records stands: behind the secondary address, aligned to four. -/
def ackStart (bytes : List UInt8) : Nat := alignUp (26 + decode (pduLittle bytes) ((bytes.drop 24).take 2)) 4

/-- The records of an acknowledgement: one byte counts them, three are reserved. -/
def pduAck (bytes : List UInt8) : List AckRecord :=
  ackRecords (pduLittle bytes) (bytes.getD (ackStart bytes) 0).toNat (bytes.drop (ackStart bytes + 4))

/-- The first transfer syntax of the context that the daemon knows. -/
def DcerpcContext.chosen (context : DcerpcContext) : Option DcerpcSyntax :=
  context.transferSyntaxes.find? fun syn => (dcerpcSyntaxSupported syn).isSome

def providerReject : UInt16 := 2

def AckResult.code : AckResult → UInt16
  | .accept => 0
  | .negotiateAck => 3

def AckRecord.Answers (context : DcerpcContext) (record : AckRecord) : Prop :=
  match context.chosen with
  | none => record.result = providerReject
  | some syn =>
    match dcerpcSyntaxSupported syn with
    | some .negotiateAck => record.result = AckResult.negotiateAck.code ∧ record.transfer = negotiateAckPnio
    | _ => record.result = AckResult.accept.code ∧ record.transfer = syn

/-- A bind with these contexts is refused if the daemon knows none of their syntaxes, and
otherwise answered record by record. -/
structure Negotiated (contexts : List DcerpcContext) (reply : Response) : Prop where
  refused : (pduHeader reply.payload).ptype = Ptype.bindNack ↔ ∀ context ∈ contexts, context.chosen = none
  records : (∃ context ∈ contexts, context.chosen ≠ none) →
    List.Forall₂ AckRecord.Answers contexts (pduAck reply.payload)
  size : (∃ context ∈ contexts, context.chosen ≠ none) →
    reply.payloadSz = ackStart reply.payload + 4 + ackRecordSize * contexts.length

/-! The bytes that are written. -/

def DcerpcSyntax.puts (little : Bool) (syn : DcerpcSyntax) : List (Nat × List UInt8) :=
  [(4, encode little 4 syn.timeLow.toNat), (2, encode little 2 syn.timeMid.toNat),
    (2, encode little 2 syn.timeHiAndVersion.toNat), (2, syn.clockSeq), (2, syn.node),
    (2, encode little 2 syn.verMajor.toNat), (2, encode little 2 syn.verMinor.toNat)]

def DcerpcSyntax.bytes (little : Bool) (syn : DcerpcSyntax) : List UInt8 := (syn.puts little).flatMap (·.2)

namespace DcerpcSyntax
variable {syn : DcerpcSyntax}

theorem Sized.length_bytes (sized : syn.Sized) (little : Bool) : (syn.bytes little).length = syntaxSize := by
  simp [bytes, puts, syntaxSize, sized.1, sized.2]

private theorem Sized.contiguous (sized : syn.Sized) (little : Bool) {place : Nat} (multiple : 4 ∣ place) :
    Contiguous place (syn.puts little) := by
  have even : ∀ count, 2 ∣ count → alignUp (place + count) 2 = place + count := fun count two =>
    alignUp_of_dvd (Nat.dvd_add (Nat.dvd_trans (by decide) multiple) two)
  simp only [puts, Contiguous, length_encode, sized.1, sized.2, alignUp_of_dvd multiple, Nat.add_assoc, Nat.reduceAdd,
    even 4 (by decide), even 6 (by decide), even 8 (by decide), even 10 (by decide), even 16 (by decide),
    even 18 (by decide), and_self]

theorem Sized.decoded (sized : syn.Sized) (little : Bool) (rest : List UInt8) :
    pduSyntax little (syn.bytes little ++ rest) = syn := by
  obtain ⟨timeLow, timeMid, timeHi, clockSeq, node, verMajor, verMinor⟩ := syn
  obtain ⟨clock, nodes⟩ := sized
  simp only at clock nodes
  have int16 : ∀ value : UInt16, UInt16.ofNat (decode little (encode little 2 value.toNat)) = value := fun value => by
    rw [decode_encode little (show value.toNat < 256 ^ 2 from value.toNat_lt), UInt16.ofNat_toNat]
  have int32 : ∀ value : UInt32, UInt32.ofNat (decode little (encode little 4 value.toNat)) = value := fun value => by
    rw [decode_encode little (show value.toNat < 256 ^ 4 from value.toNat_lt), UInt32.ofNat_toNat]
  simp [pduSyntax, bytes, puts, List.drop_append, clock, nodes, int16, int32, List.drop_of_length_le]

end DcerpcSyntax

section
variable {platform : Platform} {flags : NdrFlags}

private theorem syntax_appended {syn : DcerpcSyntax} (sized : syn.Sized) (text : List UInt8) :
    (syn.items.flatMap (Item.pieces platform flags)).foldl Piece.append text =
      padTo text 4 ++ syn.bytes flags.littleEndian := by
  have multiple : 4 ∣ (padTo text 4).length := by
    rw [length_padTo]
    exact dvd_alignUp (by decide) _
  have padded := foldl_puts (sized.contiguous flags.littleEndian multiple)
  have first : Piece.append text (.put 4 (encode flags.littleEndian 4 syn.timeLow.toNat)) =
      Piece.append (padTo text 4) (.put 4 (encode flags.littleEndian 4 syn.timeLow.toNat)) := by
    rw [Piece.append, Piece.append, padTo_of_dvd multiple]
  have items : syn.items.flatMap (Item.pieces platform flags) =
      (syn.puts flags.littleEndian).map fun put => Piece.put put.1 put.2 := rfl
  rw [items, ← DcerpcSyntax.bytes] at *
  rw [← padded, DcerpcSyntax.puts, List.map_cons, List.foldl_cons, List.foldl_cons, first]

/-- The result and the reason of a context's record as they are written, and its syntax. -/
def DcerpcContext.ackParts (context : DcerpcContext) : UInt16 × UInt16 × DcerpcSyntax :=
  match context.chosen with
  | none => (providerReject, providerReject, context.firstTransfer)
  | some syn =>
    match dcerpcSyntaxSupported syn with
    | some .negotiateAck => (AckResult.negotiateAck.code, 0, negotiateAckPnio)
    | _ => (AckResult.accept.code, AckResult.accept.code, syn)

theorem DcerpcContext.ackItems_eq (context : DcerpcContext) :
    context.ackItems = [.int16 context.ackParts.1, .int16 context.ackParts.2.1] ++ context.ackParts.2.2.items := by
  rw [ackItems, ackParts]
  change (match context.chosen with | none => _ | some syn => _) = _
  cases context.chosen with
  | none => rfl
  | some syn =>
    dsimp only
    rcases dcerpcSyntaxSupported syn with _ | _ | _ <;> rfl

theorem DcerpcContext.Sized.ackParts {context : DcerpcContext} (sized : context.Sized) : context.ackParts.2.2.Sized := by
  simp only [DcerpcContext.ackParts]
  split
  next => exact sized _ (List.mem_cons_self ..)
  next syn found =>
    split
    next => exact ⟨rfl, rfl⟩
    next => exact sized _ (List.mem_of_find?_eq_some found)

def DcerpcContext.ackInts (little : Bool) (context : DcerpcContext) : List UInt8 :=
  encode little 2 context.ackParts.1.toNat ++ encode little 2 context.ackParts.2.1.toNat

private theorem ackInts_length (little : Bool) (context : DcerpcContext) : (context.ackInts little).length = 4 := by
  simp [DcerpcContext.ackInts]

private theorem context_appended {context : DcerpcContext} (sized : context.Sized) {text : List UInt8}
    (even : 2 ∣ text.length) : (context.ackItems.flatMap (Item.pieces platform flags)).foldl Piece.append text =
      padTo (text ++ context.ackInts flags.littleEndian) 4 ++ context.ackParts.2.2.bytes flags.littleEndian := by
  have ints : Contiguous text.length [(2, encode flags.littleEndian 2 context.ackParts.1.toNat),
      (2, encode flags.littleEndian 2 context.ackParts.2.1.toNat)] := by
    simp only [Contiguous, length_encode, alignUp_of_dvd even, alignUp_of_dvd (Nat.dvd_add even (Nat.dvd_refl 2)), and_self]
  have start : List.foldl Piece.append text
      (List.flatMap (Item.pieces platform flags) [.int16 context.ackParts.1, .int16 context.ackParts.2.1]) =
      text ++ context.ackInts flags.littleEndian := (foldl_puts ints).trans (by simp [DcerpcContext.ackInts])
  rw [context.ackItems_eq, List.flatMap_append, List.foldl_append, syntax_appended sized.ackParts, start]

def DcerpcContext.ackBytes (little : Bool) (context : DcerpcContext) : List UInt8 :=
  context.ackInts little ++ context.ackParts.2.2.bytes little

private theorem contexts_appended {contexts : List DcerpcContext} (sized : ∀ context ∈ contexts, context.Sized)
    {text : List UInt8} (multiple : 4 ∣ text.length) :
    ((contexts.flatMap DcerpcContext.ackItems).flatMap (Item.pieces platform flags)).foldl Piece.append text =
      text ++ contexts.flatMap (DcerpcContext.ackBytes flags.littleEndian) := by
  induction contexts generalizing text with
  | nil => simp
  | cons context rest ih =>
    obtain ⟨first, others⟩ := List.forall_mem_cons.mp sized
    have whole : 4 ∣ (text ++ context.ackInts flags.littleEndian).length := by
      rw [List.length_append, ackInts_length]
      exact Nat.dvd_add multiple (by decide)
    have next : 4 ∣ (text ++ context.ackInts flags.littleEndian ++ context.ackParts.2.2.bytes
        flags.littleEndian).length := by
      rw [List.length_append, first.ackParts.length_bytes]
      exact Nat.dvd_add whole (by decide)
    rw [List.flatMap_cons, List.flatMap_append, List.foldl_append,
      context_appended first (Nat.dvd_trans (by decide) multiple), padTo_of_dvd whole, ih others next]
    simp [DcerpcContext.ackBytes]

/-- The text from the count of records on, written behind a front that ends at a multiple
of four. The first record has its two integers before that of the layout, and two zeros
behind them. -/
def ackTail (little : Bool) (first : DcerpcContext) (rest : List DcerpcContext) : List UInt8 :=
  [UInt8.ofNat (rest.length + 1), 0] ++ first.ackInts little ++ [0, 0] ++ first.ackParts.2.2.bytes little ++
    rest.flatMap (DcerpcContext.ackBytes little)

private theorem alignUp_four {offset count : Nat} (multiple : 4 ∣ offset) (some : 0 < count) (few : count ≤ 4) :
    alignUp (offset + count) 4 = offset + 4 := by
  obtain ⟨times, rfl⟩ := multiple
  rw [alignUp, if_neg (by decide)]
  omega

private theorem alignUp_two {offset : Nat} (multiple : 4 ∣ offset) : alignUp (offset + 1) 2 = offset + 2 := by
  obtain ⟨times, rfl⟩ := multiple
  rw [alignUp, if_neg (by decide)]
  omega

private theorem tail_appended {first : DcerpcContext} {rest : List DcerpcContext}
    (sized : ∀ context ∈ first :: rest, context.Sized) {text : List UInt8} (multiple : 4 ∣ text.length) :
    (List.flatMap (Item.pieces platform flags) ([.int8 (UInt8.ofNat (rest.length + 1)), .align 2] ++
      (first :: rest).flatMap DcerpcContext.ackItems)).foldl Piece.append text =
      text ++ ackTail flags.littleEndian first rest := by
  obtain ⟨here, others⟩ := List.forall_mem_cons.mp sized
  have byte : encode flags.littleEndian 1 (UInt8.ofNat (rest.length + 1)).toNat = [UInt8.ofNat (rest.length + 1)] := by
    rw [encode_one, UInt8.ofNat_toNat]
  have count : List.foldl Piece.append text
      (List.flatMap (Item.pieces platform flags) [.int8 (UInt8.ofNat (rest.length + 1)), .align 2]) =
      text ++ [UInt8.ofNat (rest.length + 1), 0] := by
    show padTo (padTo text 1 ++ encode flags.littleEndian 1 (UInt8.ofNat (rest.length + 1)).toNat) 2 = _
    rw [byte, padTo_of_dvd (Nat.one_dvd _), padTo, List.length_append, List.length_singleton, alignUp_two multiple]
    simp
  have even : 2 ∣ (text ++ [UInt8.ofNat (rest.length + 1), 0]).length := by
    rw [List.length_append]
    exact Nat.dvd_add (Nat.dvd_trans (by decide) multiple) (Nat.dvd_refl 2)
  have gap : padTo (text ++ [UInt8.ofNat (rest.length + 1), 0] ++ first.ackInts flags.littleEndian) 4 =
      text ++ [UInt8.ofNat (rest.length + 1), 0] ++ first.ackInts flags.littleEndian ++ [0, 0] := by
    have length : (text ++ [UInt8.ofNat (rest.length + 1), 0] ++ first.ackInts flags.littleEndian).length =
        text.length + 4 + 2 := by simp [ackInts_length]
    rw [padTo, length, alignUp_four (Nat.dvd_add multiple (Nat.dvd_refl 4)) (by decide) (by decide)]
    congr 1
    simp [show text.length + 4 + 4 - (text.length + 4 + 2) = 2 by omega, List.replicate]
  have next : 4 ∣ (text ++ [UInt8.ofNat (rest.length + 1), 0] ++ first.ackInts flags.littleEndian ++ [0, 0] ++
      first.ackParts.2.2.bytes flags.littleEndian).length := by
    simp only [List.length_append, ackInts_length, here.ackParts.length_bytes, List.length_cons, List.length_nil, syntaxSize]
    omega
  rw [List.flatMap_append, List.foldl_append, count, List.flatMap_cons, List.flatMap_append, List.foldl_append,
    context_appended here even, gap, contexts_appended others next]
  simp [ackTail]

end

/-! The records that are read. -/

private theorem ackRecords_cons {syn : DcerpcSyntax} (sized : syn.Sized) (little : Bool)
    (result reason : UInt16) (count : Nat) (rest : List UInt8) :
    ackRecords little (count + 1)
      (encode little 2 result.toNat ++ encode little 2 reason.toNat ++ syn.bytes little ++ rest) =
      ⟨result, reason, syn⟩ :: ackRecords little count rest := by
  have int16 : ∀ value : UInt16, UInt16.ofNat (decode little (encode little 2 value.toNat)) = value := fun value => by
    rw [decode_encode little (show value.toNat < 256 ^ 2 from value.toNat_lt), UInt16.ofNat_toNat]
  have first : (encode little 2 result.toNat ++ encode little 2 reason.toNat ++ syn.bytes little ++ rest).take 2 =
      encode little 2 result.toNat := by
    rw [List.append_assoc, List.append_assoc, List.take_left' (length_encode _ _ _)]
  have second : ((encode little 2 result.toNat ++ encode little 2 reason.toNat ++ syn.bytes little ++ rest).drop 2).take 2 =
      encode little 2 reason.toNat := by
    rw [List.append_assoc, List.append_assoc, List.drop_left' (length_encode _ _ _), List.take_left' (length_encode _ _ _)]
  have third : (encode little 2 result.toNat ++ encode little 2 reason.toNat ++ syn.bytes little ++ rest).drop 4 =
      syn.bytes little ++ rest := by
    rw [List.append_assoc, List.drop_left' (by simp)]
  have last : (encode little 2 result.toNat ++ encode little 2 reason.toNat ++ syn.bytes little ++ rest).drop ackRecordSize =
      rest := List.drop_left' (by simp [sized.length_bytes, syntaxSize, ackRecordSize])
  rw [ackRecords, first, second, third, last, int16, int16, sized.decoded]

private theorem ackRecords_contexts {contexts : List DcerpcContext} (sized : ∀ context ∈ contexts, context.Sized)
    (little : Bool) :
    ackRecords little contexts.length (contexts.flatMap (DcerpcContext.ackBytes little)) =
      contexts.map fun context => ⟨context.ackParts.1, context.ackParts.2.1, context.ackParts.2.2⟩ := by
  induction contexts with
  | nil => rfl
  | cons context rest ih =>
    obtain ⟨here, others⟩ := List.forall_mem_cons.mp sized
    rw [List.flatMap_cons, DcerpcContext.ackBytes, DcerpcContext.ackInts, List.length_cons,
      ackRecords_cons here.ackParts, ih others, List.map_cons]

private theorem pduAck_of_tail {payload front : List UInt8} {first : DcerpcContext} {rest : List DcerpcContext}
    (sized : ∀ context ∈ first :: rest, context.Sized) (few : rest.length + 1 < 256)
    (shape : payload = front ++ ackTail (pduLittle payload) first rest) (start : ackStart payload = front.length) :
    pduAck payload = ⟨first.ackParts.2.1, 0, first.ackParts.2.2⟩ ::
      rest.map fun context => ⟨context.ackParts.1, context.ackParts.2.1, context.ackParts.2.2⟩ := by
  obtain ⟨here, others⟩ := List.forall_mem_cons.mp sized
  have count : payload.getD front.length 0 = UInt8.ofNat (rest.length + 1) := by
    rw [shape]
    simp [ackTail, List.getD]
  have records : payload.drop (front.length + 4) = encode (pduLittle payload) 2 first.ackParts.2.1.toNat ++
      encode (pduLittle payload) 2 (0 : UInt16).toNat ++ first.ackParts.2.2.bytes (pduLittle payload) ++
        rest.flatMap (DcerpcContext.ackBytes (pduLittle payload)) := by
    have zeros : ∀ little, encode little 2 (0 : UInt16).toNat = [0, 0] := by decide
    conv_lhs => rw [shape]
    rw [zeros, List.drop_append, List.drop_of_length_le (by omega), Nat.add_sub_cancel_left]
    simp [ackTail, DcerpcContext.ackInts]
  rw [pduAck, start, count, records, UInt8.toNat_ofNat_of_lt' few, ackRecords_cons here.ackParts, ackRecords_contexts others]

/-! The reply. -/

section
variable {machine : Machine} {hdr : Header} {contextId : UInt16} {limit : Nat} {work after : Work}

private theorem write_fills {items : List Item} {text : List UInt8} (ran : Work.write machine items work = (.ok (), after))
    (filled : work.channel.dce.stream.Filled text)
    (plain : items.all Item.plain = true) :
    after.channel.dce.stream.Filled
      ((items.flatMap (Item.pieces machine.toPlatform work.channel.dce.stream.flags)).foldl Piece.append text) := by
  obtain ⟨call, written, rfl⟩ := Work.handle_ran ran
  obtain ⟨stream, put, rfl⟩ := Call.write_ran written
  exact filled.pieces (Item.plain_pieces plain _ _) put

private def ackFirst (little : Bool) (request : DcerpcBindRequest) : List UInt8 :=
  encode little 2 request.maxXmitFragSz.toNat ++ encode little 2 request.maxRecvFragSz.toNat ++
    encode little 4 request.assocGroupId.toNat

private def ackAddr (little altCont : Bool) (addr : CStr) : List UInt8 :=
  if altCont then encode little 2 0 ++ encode little 2 0 else encode little 2 addr.length ++ addr

private theorem pipeAddr_short {flags : UInt32} {addr : CStr} (named : pipeAddr flags = some addr) :
    addr.length < 2 ^ 16 := by
  simp only [pipeAddr] at named
  split at named
  next => cases named; decide
  split at named
  next => cases named; decide
  split at named
  next => cases named; decide
  split at named
  next => cases named; decide
  next => cases named

private theorem sendBindReply_text {ptype : UInt8} {text : List UInt8} (awaits : work.channel.dce.Awaits hdr contextId limit)
    (payload : work.channel.dce.stream.payload = text) (offset : work.channel.dce.stream.offset = text.length)
    (ran : sendBindReply machine ptype work = (.ok (), after)) :
    after.channel.dce.stream.payload = (hdr.reply ptype text.length).bytes hdr.little ++ text.drop headerSize ∧
      after.payloadSz = text.length := by
  obtain ⟨_, _, got, ran⟩ := bind_eq_ok.mp ran
  cases got
  obtain ⟨_, headed, wrote, ran⟩ := bind_eq_ok.mp ran
  obtain ⟨behind, left, -⟩ := writeHdr_ok awaits wrote
  have starts := behind.starts
  rw [Header.length_bytes, offset] at starts
  rw [payload] at left
  cases ran
  exact ⟨by rw [← starts, ← left]; exact (List.take_append_drop _ _).symm, offset⟩

private def ackText (little altCont : Bool) (request : DcerpcBindRequest) (addr : CStr) (first : DcerpcContext)
    (rest : List DcerpcContext) : List UInt8 :=
  padTo (List.replicate headerSize 0 ++ ackFirst little request ++ ackAddr little altCont addr) 4 ++
    ackTail little first rest

private theorem ackItems_plain (contexts : List DcerpcContext) :
    (contexts.flatMap DcerpcContext.ackItems).all Item.plain = true := by
  rw [List.all_flatMap, List.all_eq_true]
  intro context _
  rw [context.ackItems_eq]
  rfl

private theorem write_ends {items : List Item} {value : UInt16} {text : List UInt8}
    (ran : Work.write machine (items ++ [.int16 value]) work = (.ok (), after))
    (filled : work.channel.dce.stream.Filled text) (plain : items.all Item.plain = true) :
    after.channel.dce.stream.payload = List.foldl Piece.append text
        ((items ++ [Item.int16 value]).flatMap (Item.pieces machine.toPlatform work.channel.dce.stream.flags)) ∧
      after.channel.dce.stream.offset = after.channel.dce.stream.payload.length := by
  obtain ⟨call, written, rfl⟩ := Work.handle_ran ran
  obtain ⟨stream, put, rfl⟩ := Call.write_ran written
  rw [ndrWrite, List.flatMap_append] at put
  rw [List.flatMap_append]
  exact filled.ended (Item.plain_pieces plain _ _) put

private theorem first_appended (platform : Platform) (flags : NdrFlags) (request : DcerpcBindRequest) :
    List.foldl Piece.append (List.replicate headerSize 0) (List.flatMap (Item.pieces platform flags)
      [.int16 request.maxXmitFragSz, .int16 request.maxRecvFragSz, .int32 request.assocGroupId]) =
      List.replicate headerSize 0 ++ ackFirst flags.littleEndian request := by
  have contiguous : Contiguous (List.replicate headerSize (0 : UInt8)).length
      [(2, encode flags.littleEndian 2 request.maxXmitFragSz.toNat),
        (2, encode flags.littleEndian 2 request.maxRecvFragSz.toNat),
          (4, encode flags.littleEndian 4 request.assocGroupId.toNat)] := by
    simp only [Contiguous, length_encode, List.length_replicate]
    decide
  exact (foldl_puts contiguous).trans (by simp [ackFirst])

private def addrItems (altCont : Bool) (addr : CStr) : List Item :=
  if altCont then [.int16 0, .int16 0] else [.int16 (UInt16.ofNat addr.length), .bytes addr]

private theorem addr_appended (platform : Platform) (flags : NdrFlags) (altCont : Bool) {addr : CStr}
    (short : addr.length < 2 ^ 16) {text : List UInt8} (even : 2 ∣ text.length) :
    List.foldl Piece.append text ((addrItems altCont addr).flatMap (Item.pieces platform flags)) =
      text ++ ackAddr flags.littleEndian altCont addr := by
  have next : 2 ∣ text.length + 2 := Nat.dvd_add even (Nat.dvd_refl 2)
  have length : (UInt16.ofNat addr.length).toNat = addr.length := UInt16.toNat_ofNat_of_lt' short
  cases altCont with
  | true =>
    have contiguous : Contiguous text.length [(2, encode flags.littleEndian 2 0), (2, encode flags.littleEndian 2 0)] := by
      simp only [Contiguous, length_encode, alignUp_of_dvd even, alignUp_of_dvd next, and_self]
    exact (foldl_puts contiguous).trans (by simp [ackAddr])
  | false =>
    have contiguous : Contiguous text.length
        [(2, encode flags.littleEndian 2 (UInt16.ofNat addr.length).toNat), (2, addr)] := by
      simp only [Contiguous, length_encode, alignUp_of_dvd even, alignUp_of_dvd next, and_self]
    exact (foldl_puts contiguous).trans (by simp only [length]; simp [ackAddr])

theorem dcerpcBindAckReturn_text {first : DcerpcContext} {rest : List DcerpcContext}
    (sized : ∀ context ∈ first :: rest, context.Sized) (awaits : work.channel.dce.Awaits hdr contextId limit)
    (counted : (work.channel.dce.req.biReq machine).numContexts = rest.length + 1)
    (empty : work.channel.dce.stream.payload = [])
    (ran : dcerpcBindAckReturn machine (first :: rest) work = (.ok (), after)) :
    ∃ request addr, addr.length < 2 ^ 16 ∧
      let text := ackText hdr.little (hdr.ptype == Ptype.altCont) request addr first rest
      let ptype := if hdr.ptype == Ptype.altCont then Ptype.altContResp else Ptype.bindAck
      after.channel.dce.stream.payload = (hdr.reply ptype text.length).bytes hdr.little ++ text.drop headerSize ∧
        after.payloadSz = text.length := by
  obtain ⟨_, sought, seek, ran⟩ := bind_eq_ok.mp ran
  have awaits := awaits.handled seek (Call.seek_moves _)
  have filled : sought.channel.dce.stream.Filled (List.replicate headerSize 0) := by
    cases seek
    exact .gap (show ({ work.channel.dce.stream with offset := headerSize } : Stream).payload = [] from empty)
  have counted : (sought.channel.dce.req.biReq machine).numContexts = rest.length + 1 := by
    cases seek
    exact counted
  obtain ⟨_, grouped, assigned, ran⟩ := bind_eq_ok.mp ran
  have awaits : grouped.channel.dce.Awaits hdr contextId limit := by
    cases assigned
    exact ⟨awaits.header, awaits.contextId, awaits.order, awaits.room⟩
  have filled : grouped.channel.dce.stream.Filled (List.replicate headerSize 0) := by
    cases assigned
    exact filled
  have counted : (grouped.channel.dce.req.biReq machine).numContexts = rest.length + 1 := by
    cases assigned
    show (if _ = _ then _ else _ : DcerpcBindRequest).numContexts = _
    split <;> exact counted
  clear assigned
  obtain ⟨_, _, got, ran⟩ := bind_eq_ok.mp ran
  cases got
  obtain ⟨_, written, wrote, ran⟩ := bind_eq_ok.mp ran
  have filled := write_fills wrote filled rfl
  have kept := awaits.handled wrote (Call.write_moves _)
  rw [first_appended, show grouped.channel.dce.stream.flags.littleEndian = _ from awaits.order] at filled
  simp only [awaits.header] at ran
  generalize (grouped.channel.dce.req.biReq machine) = request at *
  cases named : pipeAddr request.flags with
  | none =>
    rw [named] at ran
    cases ran
  | some addr =>
    have short := pipeAddr_short named
    obtain ⟨items, value, last⟩ := flatMap_ackItems_last (List.cons_ne_nil first rest)
    have plain : items.all Item.plain = true := by
      have all := ackItems_plain (first :: rest)
      rw [last, List.all_append, Bool.and_eq_true] at all
      exact all.1
    rw [named] at ran
    dsimp only at ran
    obtain ⟨_, sent, wrote, ran⟩ := bind_eq_ok.mp ran
    have sentAwaits := kept.handled wrote (Call.write_moves _)
    rw [counted, last, ← List.append_assoc] at wrote
    obtain ⟨payload, offset⟩ := write_ends wrote filled (by
      rw [List.all_append, List.all_append, plain]
      split <;> rfl)
    have text : sent.channel.dce.stream.payload =
        ackText hdr.little (hdr.ptype == Ptype.altCont) request addr first rest := by
      have split : (if (hdr.ptype == Ptype.altCont) = true then [Item.int16 0, Item.int16 0]
          else [.int16 (UInt16.ofNat addr.length), .bytes addr]) ++
          [.align 4, .int8 (UInt8.ofNat (rest.length + 1)), .align 2] ++ items ++ [.int16 value] =
          addrItems (hdr.ptype == Ptype.altCont) addr ++ ([.align 4] ++
            ([.int8 (UInt8.ofNat (rest.length + 1)), .align 2] ++ (first :: rest).flatMap DcerpcContext.ackItems)) := by
        rw [last]
        simp [addrItems]
      have even : 2 ∣ (List.replicate headerSize 0 ++ ackFirst hdr.little request).length := by
        simp only [ackFirst, List.length_append, List.length_replicate, length_encode]
        decide
      have multiple : 4 ∣ (padTo (List.replicate headerSize 0 ++ ackFirst hdr.little request ++
          ackAddr hdr.little (hdr.ptype == Ptype.altCont) addr) 4).length := by
        rw [length_padTo]
        exact dvd_alignUp (by decide) _
      rw [payload, split, List.flatMap_append, List.foldl_append, addr_appended _ _ _ short even, List.flatMap_append,
        List.foldl_append]
      rw [show written.channel.dce.stream.flags.littleEndian = hdr.little from kept.order]
      exact (tail_appended sized multiple).trans (by
        rw [show written.channel.dce.stream.flags.littleEndian = hdr.little from kept.order]; rfl)
    refine ⟨request, addr, short, ?_⟩
    exact sendBindReply_text sentAwaits text (text ▸ offset) ran

private def addrLength (altCont : Bool) (addr : CStr) : Nat := if altCont then 0 else addr.length

private theorem alignUp_addr (little altCont : Bool) (addr : CStr) :
    alignUp (24 + (ackAddr little altCont addr).length) 4 = alignUp (26 + addrLength altCont addr) 4 := by
  cases altCont with
  | true => simp [ackAddr, addrLength, alignUp]
  | false =>
    simp only [ackAddr, addrLength, Bool.false_eq_true, ↓reduceIte, List.length_append, length_encode]
    congr 1
    omega

private theorem ackAddr_take (little altCont : Bool) (addr : CStr) (rest : List UInt8) :
    (ackAddr little altCont addr ++ rest).take 2 = encode little 2 (addrLength altCont addr) := by
  cases altCont <;>
    simp only [ackAddr, addrLength, Bool.false_eq_true, ↓reduceIte, List.append_assoc,
      List.take_left' (length_encode _ _ _)]

private theorem ackTail_length {first : DcerpcContext} {rest : List DcerpcContext}
    (sized : ∀ context ∈ first :: rest, context.Sized) (little : Bool) :
    (ackTail little first rest).length = 4 + ackRecordSize * (rest.length + 1) := by
  obtain ⟨here, others⟩ := List.forall_mem_cons.mp sized
  have records : (rest.flatMap (DcerpcContext.ackBytes little)).length = ackRecordSize * rest.length := by
    clear sized
    induction rest with
    | nil => rfl
    | cons context rest ih =>
      obtain ⟨next, others⟩ := List.forall_mem_cons.mp others
      rw [List.flatMap_cons, List.length_append, ih others, DcerpcContext.ackBytes, List.length_append, ackInts_length,
        next.ackParts.length_bytes, List.length_cons, syntaxSize, ackRecordSize]
      omega
  simp only [ackTail, List.length_append, List.length_cons, List.length_nil, ackInts_length, here.ackParts.length_bytes,
    records, syntaxSize, ackRecordSize]
  omega

private theorem ackText_front (little altCont : Bool) (request : DcerpcBindRequest) (addr : CStr) (first : DcerpcContext)
    (rest : List DcerpcContext) :
    ∃ padding, ackText little altCont request addr first rest = List.replicate headerSize 0 ++ (ackFirst little request ++
        (ackAddr little altCont addr ++ (padding ++ ackTail little first rest))) ∧
      headerSize + (ackFirst little request ++ (ackAddr little altCont addr ++ padding)).length =
        alignUp (26 + addrLength altCont addr) 4 := by
  have length : (List.replicate headerSize 0 ++ ackFirst little request ++ ackAddr little altCont addr).length =
      24 + (ackAddr little altCont addr).length := by
    simp only [ackFirst, headerSize, List.length_append, List.length_replicate, length_encode]
  obtain ⟨padding, padded⟩ :=
    exists_padding (List.replicate headerSize 0 ++ ackFirst little request ++ ackAddr little altCont addr) 4
  refine ⟨padding, ?_, ?_⟩
  · rw [ackText, padded]
    simp only [List.append_assoc]
  · rw [← alignUp_addr little, ← length, ← length_padTo, padded]
    simp only [List.length_append, List.length_replicate, Nat.add_assoc]

private theorem ackText_decoded {altCont : Bool} {request : DcerpcBindRequest} {addr : CStr} {first : DcerpcContext}
    {rest : List DcerpcContext} {ptype : UInt8} {size : Nat} {payload : List UInt8} (short : addr.length < 2 ^ 16)
    (sized : ∀ context ∈ first :: rest, context.Sized) (few : rest.length + 1 < 256)
    (shape : payload = (hdr.reply ptype size).bytes hdr.little ++
      (ackText hdr.little altCont request addr first rest).drop headerSize) :
    pduAck payload = ⟨first.ackParts.2.1, 0, first.ackParts.2.2⟩ ::
        (rest.map fun context => ⟨context.ackParts.1, context.ackParts.2.1, context.ackParts.2.2⟩) ∧
      (ackText hdr.little altCont request addr first rest).length =
        ackStart payload + 4 + ackRecordSize * (rest.length + 1) := by
  have order : pduLittle payload = hdr.little := by
    rw [← pduHeader_little, pduHeader_of_reply (by rw [shape, List.take_left' (Header.length_bytes _ _)])]
    rfl
  obtain ⟨padding, text, length⟩ := ackText_front hdr.little altCont request addr first rest
  rw [text, List.drop_left' List.length_replicate] at shape
  have named : (payload.drop 24).take 2 = encode hdr.little 2 (addrLength altCont addr) := by
    rw [shape, ← List.append_assoc, List.drop_left' (by simp [Header.length_bytes, ackFirst, headerSize]), ackAddr_take]
  have few16 : addrLength altCont addr < 256 ^ 2 := by
    cases altCont with
    | true => exact Nat.pow_pos (by decide)
    | false => exact short
  have start : ackStart payload = alignUp (26 + addrLength altCont addr) 4 := by
    rw [ackStart, order, named, decode_encode _ few16]
  constructor
  · have split : payload = ((hdr.reply ptype size).bytes hdr.little ++ (ackFirst hdr.little request ++
        (ackAddr hdr.little altCont addr ++ padding))) ++ ackTail (pduLittle payload) first rest := by
      rw [order]
      conv_lhs => rw [shape]
      simp only [List.append_assoc]
    refine pduAck_of_tail sized few split ?_
    rw [start, ← length]
    simp only [List.length_append, Header.length_bytes]
  · rw [start, ← length, text]
    simp only [List.length_append, List.length_replicate, ackTail_length sized, Nat.add_assoc]

private theorem dcerpcBindNackReturn_ptype (awaits : work.channel.dce.Awaits hdr contextId limit)
    (ran : dcerpcBindNackReturn machine work = (.ok (), after)) :
    (pduHeader after.channel.dce.stream.payload).ptype = Ptype.bindNack := by
  obtain ⟨_, sought, seek, ran⟩ := bind_eq_ok.mp ran
  have awaits := awaits.handled seek (Call.seek_moves _)
  obtain ⟨_, written, wrote, ran⟩ := bind_eq_ok.mp ran
  have awaits := awaits.handled wrote (Call.write_moves _)
  obtain ⟨_, _, got, ran⟩ := bind_eq_ok.mp ran
  cases got
  obtain ⟨_, headed, wrote, ran⟩ := bind_eq_ok.mp ran
  obtain ⟨behind, -, -⟩ := writeHdr_ok awaits wrote
  have front := behind.starts
  rw [Header.length_bytes] at front
  have payload : after.channel.dce.stream.payload = headed.channel.dce.stream.payload := by
    cases ran
    rfl
  rw [payload, pduHeader_of_reply front]
  rfl

end

/-! The answers. -/

/-- A record with the parts of its context, its first integer read from this place, answers
the context unless the two integers differ. -/
private theorem answers_of_parts {context : DcerpcContext} {result reason : UInt16}
    (same : result = context.ackParts.1) :
    AckRecord.Answers context ⟨result, reason, context.ackParts.2.2⟩ := by
  subst same
  simp only [AckRecord.Answers, DcerpcContext.ackParts]
  cases context.chosen with
  | none => rfl
  | some syn =>
    dsimp only
    rcases dcerpcSyntaxSupported syn with _ | _ | _ <;> exact ⟨rfl, rfl⟩

private theorem first_answers_iff (context : DcerpcContext) :
    AckRecord.Answers context ⟨context.ackParts.2.1, 0, context.ackParts.2.2⟩ ↔
      context.chosen.bind dcerpcSyntaxSupported ≠ some .negotiateAck := by
  simp only [AckRecord.Answers, DcerpcContext.ackParts]
  cases context.chosen with
  | none => simp
  | some syn =>
    dsimp only [Option.bind_some]
    rcases dcerpcSyntaxSupported syn with _ | _ | _ <;> simp [AckResult.code]

private theorem answers_iff (first : DcerpcContext) (rest : List DcerpcContext) :
    List.Forall₂ AckRecord.Answers (first :: rest) (⟨first.ackParts.2.1, 0, first.ackParts.2.2⟩ ::
        rest.map fun context => ⟨context.ackParts.1, context.ackParts.2.1, context.ackParts.2.2⟩) ↔
      first.chosen.bind dcerpcSyntaxSupported ≠ some .negotiateAck := by
  rw [List.forall₂_cons, first_answers_iff, List.forall₂_map_right_iff, List.forall₂_same]
  exact and_iff_left fun context _ => answers_of_parts rfl

private theorem any_supported_iff (contexts : List DcerpcContext) :
    (contexts.any fun context => context.transferSyntaxes.any fun syn => (dcerpcSyntaxSupported syn).isSome) = true ↔
      ∃ context ∈ contexts, context.chosen ≠ none := by
  simp [DcerpcContext.chosen, Option.isSome_iff_ne_none]

section
variable {machine : Machine} {hdr : Header} {contextId : UInt16} {limit : Nat} {work after : Work}
  {first : DcerpcContext} {rest : List DcerpcContext}

private theorem nack_negotiated {reply : Response} (none : ¬ ∃ context ∈ first :: rest, context.chosen ≠ none)
    (refused : (pduHeader reply.payload).ptype = Ptype.bindNack) :
    Negotiated (first :: rest) reply ↔ first.chosen.bind dcerpcSyntaxSupported ≠ some .negotiateAck := by
  have all : ∀ context ∈ first :: rest, context.chosen = .none := fun context member => by
    by_contra known
    exact none ⟨context, member, known⟩
  refine ⟨fun _ => ?_, fun _ => ⟨iff_of_true refused all, fun known => absurd known none, fun known => absurd known none⟩⟩
  rw [all first List.mem_cons_self]
  simp

private theorem ack_negotiated {reply : Response} (known : ∃ context ∈ first :: rest, context.chosen ≠ none)
    (accepted : (pduHeader reply.payload).ptype ≠ Ptype.bindNack)
    (records : pduAck reply.payload = ⟨first.ackParts.2.1, 0, first.ackParts.2.2⟩ ::
      (rest.map fun context => ⟨context.ackParts.1, context.ackParts.2.1, context.ackParts.2.2⟩))
    (size : reply.payloadSz = ackStart reply.payload + 4 + ackRecordSize * (rest.length + 1)) :
    Negotiated (first :: rest) reply ↔ first.chosen.bind dcerpcSyntaxSupported ≠ some .negotiateAck := by
  rw [← answers_iff first rest, ← records]
  refine ⟨fun negotiated => negotiated.records known, fun answers => ⟨?_, fun _ => answers, fun _ => size⟩⟩
  refine iff_of_false accepted fun all => ?_
  obtain ⟨context, member, chosen⟩ := known
  exact chosen (all context member)

private theorem dcerpcBindReturn_negotiated {bytes : List UInt8} {flags : UInt32} (bound : work.Bound machine bytes flags)
    (contexts : bindPduContexts bytes = first :: rest) (awaits : work.channel.dce.Awaits hdr contextId limit)
    (empty : work.channel.dce.stream.payload = []) (ran : dcerpcBindReturn machine work = (.ok (), after)) :
    Negotiated (first :: rest) ⟨after.channel.dce.stream.payload, after.payloadSz⟩ ↔
      first.chosen.bind dcerpcSyntaxSupported ≠ some .negotiateAck := by
  have length : pduContextCount bytes = rest.length + 1 := by
    rw [← length_pduContexts (pduLittle bytes) (pduContextCount bytes) (bytes.drop 28), ← bindPduContexts, contexts,
      List.length_cons]
  have few : rest.length + 1 < 256 := length ▸ UInt8.toNat_lt _
  have sized := bound.sized
  rw [contexts] at sized
  obtain ⟨listed, sent, found, ran, stream, size⟩ := dcerpcBindReturn_sends ran
  obtain rfl : first :: rest = listed := by
    rw [bound.contexts, contexts] at found
    exact Option.some.inj found
  rw [stream, size]
  split at ran
  next known =>
    obtain ⟨request, addr, short, payload, size⟩ :=
      dcerpcBindAckReturn_text sized awaits (bound.count.trans length) empty ran
    obtain ⟨records, whole⟩ := ackText_decoded short sized few payload
    refine ack_negotiated ((any_supported_iff _).mp known) ?_ records (size.trans whole)
    rw [pduHeader_of_reply (by rw [payload, List.take_left' (Header.length_bytes _ _)])]
    show (if _ then _ else _ : UInt8) ≠ _
    split <;> decide
  next unknown =>
    exact nack_negotiated (fun known => unknown ((any_supported_iff _).mpr known)) (dcerpcBindNackReturn_ptype awaits ran)

end

/-- The reply to an accepted bind negotiates its contexts if and only if the first of them
is not answered with `NEGOTIATE_ACK`. -/
theorem bind_negotiated_iff (machine : Machine) (server written : Server) (channel : Channel) (write read : Command)
    (maxRespSz : Nat) (exchange : Exchange) (found : server.pipes.lookup write.handle = some channel)
    (idle : channel.dce.returnReady = false) (bind : isBind (pduHeader write.payload).ptype = true)
    (some : bindPduContexts write.payload ≠ [])
    (accepted : rpcWriteRequest machine write ⟨server, {}⟩ = (.ok (), ⟨written, {}⟩)) (same : read.handle = write.handle)
    (answered : rpcReadRequest machine read maxRespSz ⟨written, {}⟩ = (.ok (), exchange))
    (replied : exchange.resp.payloadSz ≠ 0) :
    Negotiated (bindPduContexts write.payload) exchange.resp ↔
      ∀ first ∈ (bindPduContexts write.payload).head?, first.chosen.bind dcerpcSyntaxSupported ≠ .some .negotiateAck := by
  obtain ⟨parsed, last, ran, handled, resp⟩ := reply_of_read found idle accepted same answered replied
  obtain ⟨header, ordered⟩ := invokeHandler_ok ⟨rfl, rfl, rfl⟩ ran
  obtain ⟨parsedBound, -⟩ := invokeHandler_bound ⟨rfl, rfl, rfl⟩ rfl bind ran
  have bound : Work.Bound machine write.payload write.flags ⟨parsed.store, parsed.channel.startRead read {} maxRespSz, 0⟩ :=
    ⟨parsedBound.contexts, parsedBound.sized, parsedBound.count, parsedBound.flags⟩
  have awaits : (parsed.channel.startRead read {} maxRespSz).dce.Awaits (pduHeader write.payload)
      parsed.channel.dce.reqHdr.contextId maxRespSz := ⟨header, rfl, header ▸ ordered, Nat.le_refl _⟩
  have returned : dcerpcBindReturn machine ⟨parsed.store, parsed.channel.startRead read {} maxRespSz, 0⟩ =
      (.ok (), last) := by
    obtain ⟨_, _, got, handled⟩ := bind_eq_ok.mp handled
    cases got
    rw [awaits.header, if_pos bind] at handled
    exact handled
  obtain ⟨first, rest, contexts⟩ := List.exists_cons_of_ne_nil some
  rw [resp, contexts]
  simpa using dcerpcBindReturn_negotiated bound contexts awaits rfl returned

namespace Scenario

def context (id : UInt8) (interface transfer : DcerpcSyntax) : List UInt8 :=
  [id, 0, 1, 0] ++ interface.bytes true ++ transfer.bytes true

def bind (contexts : List (List UInt8)) : List UInt8 :=
  pdu Ptype.bind 1 ([0xb8, 0x10, 0xb8, 0x10] ++ int32 0 ++ [UInt8.ofNat contexts.length, 0, 0, 0] ++ contexts.flatten)

def altCont (contexts : List (List UInt8)) : List UInt8 :=
  pdu Ptype.altCont 2 ([0xb8, 0x10, 0xb8, 0x10] ++ int32 0 ++ [UInt8.ofNat contexts.length, 0, 0, 0] ++ contexts.flatten)

def ndrSyntax : DcerpcSyntax := (knownSyntaxes.getD 0 (negotiateAckPnio, .accept)).1

def featureSyntax : DcerpcSyntax := (knownSyntaxes.getD 1 (negotiateAckPnio, .accept)).1

/-- A known syntax, one that is not known, and the negotiation of features. -/
def threeContexts : List UInt8 :=
  bind [context 0 negotiateAckPnio ndrSyntax, context 1 negotiateAckPnio negotiateAckPnio,
    context 2 negotiateAckPnio featureSyntax]

def features : List UInt8 := bind [context 0 negotiateAckPnio featureSyntax]

def bound (payload : List UInt8) : Server := (rpcWriteRequest machine (write payload) ⟨server, {}⟩).2.server

end Scenario

theorem bind_negotiated_threeContexts : ∃ exchange,
    rpcReadRequest Scenario.machine Scenario.read 4080 ⟨Scenario.bound Scenario.threeContexts, {}⟩ = (.ok (), exchange) ∧
      Negotiated (bindPduContexts Scenario.threeContexts) exchange.resp := by
  obtain ⟨channel, found⟩ := Option.isSome_iff_exists.mp
    (show (Scenario.server.pipes.lookup Scenario.pipe).isSome by decide +kernel)
  have idle : ∀ channel ∈ Scenario.server.pipes.lookup Scenario.pipe, channel.dce.returnReady = false := by decide +kernel
  have accepted : (rpcWriteRequest Scenario.machine (Scenario.write Scenario.threeContexts) ⟨Scenario.server, {}⟩).1 =
      .ok () := by decide +kernel
  have unwritten : (rpcWriteRequest Scenario.machine (Scenario.write Scenario.threeContexts) ⟨Scenario.server, {}⟩).2.resp =
      {} := by decide +kernel
  have answered : (rpcReadRequest Scenario.machine Scenario.read 4080 ⟨Scenario.bound Scenario.threeContexts, {}⟩).1 =
      .ok () := by decide +kernel
  have replied : (rpcReadRequest Scenario.machine Scenario.read 4080
      ⟨Scenario.bound Scenario.threeContexts, {}⟩).2.resp.payloadSz ≠ 0 := by decide +kernel
  have known : ∀ first ∈ (bindPduContexts Scenario.threeContexts).head?,
      first.chosen.bind dcerpcSyntaxSupported ≠ some .negotiateAck := by decide +kernel
  obtain ⟨⟨written, resp⟩, wrote⟩ := exists_of_ok accepted
  obtain ⟨exchange, read⟩ := exists_of_ok answered
  rw [wrote] at unwritten
  obtain rfl : resp = {} := unwritten
  refine ⟨exchange, read, ?_⟩
  rw [read] at replied
  rw [Scenario.bound, wrote] at read
  exact (bind_negotiated_iff Scenario.machine Scenario.server written channel (Scenario.write Scenario.threeContexts)
    Scenario.read 4080 exchange found (idle channel found) (by decide +kernel)
      (by decide +kernel) wrote rfl read replied).mpr known

/-- A client that only negotiates features is told that its syntax was accepted. -/
theorem bind_features_accepted :
    isBind (pduHeader Scenario.features).ptype = true ∧ (bindPduContexts Scenario.features).length = 1 ∧
      (rpcWriteRequest Scenario.machine (Scenario.write Scenario.features) ⟨Scenario.server, {}⟩).1 = .ok () ∧
      (rpcReadRequest Scenario.machine Scenario.read 4080 ⟨Scenario.bound Scenario.features, {}⟩).1 = .ok () ∧
      ¬ Negotiated (bindPduContexts Scenario.features)
        (rpcReadRequest Scenario.machine Scenario.read 4080 ⟨Scenario.bound Scenario.features, {}⟩).2.resp := by
  refine ⟨by decide +kernel, by decide +kernel, by decide +kernel, by decide +kernel, fun negotiated => ?_⟩
  have contexts : bindPduContexts Scenario.features = [⟨0, negotiateAckPnio, Scenario.featureSyntax, []⟩] := by
    decide +kernel
  have told : pduAck (rpcReadRequest Scenario.machine Scenario.read 4080
      ⟨Scenario.bound Scenario.features, {}⟩).2.resp.payload = [⟨0, 0, negotiateAckPnio⟩] := by decide +kernel
  have records := negotiated.records (by decide +kernel)
  rw [contexts, told] at records
  cases records with
  | cons answers _ =>
    have chosen : DcerpcContext.chosen ⟨0, negotiateAckPnio, Scenario.featureSyntax, []⟩ = some Scenario.featureSyntax := by
      decide
    have ack : dcerpcSyntaxSupported Scenario.featureSyntax = some .negotiateAck := by decide
    rw [AckRecord.Answers, chosen] at answers
    simp only [ack] at answers
    exact absurd answers.1 (by decide)

end KsmbdTools.Rpc
