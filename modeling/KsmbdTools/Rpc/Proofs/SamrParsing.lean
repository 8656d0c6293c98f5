import KsmbdTools.Rpc.Proofs.ReplyHeaders

/-! What a SAMR request leaves in its pipe. Parsing stops where the PDU ends, and what it did not come to is still what an
earlier request left there. -/

namespace KsmbdTools.Rpc
open Management Bytes Proc

def Call.aside (call : Call) : State × HashTable Handle ConnectHandle × HashTable Handle Unit × Pipe :=
  (call.store.management, call.store.chTable, call.store.phTable, call.pipe)

section
variable {machine : Machine} {aside : State × HashTable Handle ConnectHandle × HashTable Handle Unit × Pipe}

theorem samrInvoke_aside (opnum : UInt16) : Preserves (·.aside = aside) (samrInvoke machine opnum) :=
  samrInvoke_keeps (.ofTables (fun _ _ same => same) (fun _ _ same => same) fun _ _ same => same) opnum

theorem aside_apart : Work.Apart fun work => work.call.aside = aside :=
  ⟨fun _ _ _ _ _ _ same => same, fun _ _ _ same => same⟩

theorem requestHeaders_aside : Preserves (fun work : Work => work.call.aside = aside) requestHeaders :=
  .bind (aside_apart.dcerpcHdrRead _) fun _ => aside_apart.dcerpcRequestHdrRead _ fun _ _ same => same

end

/-! What is read of a request. -/

/-- The stream of a handler has been read up to this place. -/
structure Stream.At (bytes : List UInt8) (place : Nat) (stream : Stream) : Prop where
  payload : stream.payload = bytes
  whole : stream.payloadSz = bytes.length
  offset : stream.offset = place
  order : stream.littleEndian = pduLittle bytes

def samrHandle (bytes : List UInt8) : Handle := (bytes.drop (headerSize + responseHeaderSize)).take handleSize

theorem samrHandle_length {bytes : List UInt8} (long : 44 ≤ bytes.length) : (samrHandle bytes).length = handleSize := by
  simp only [samrHandle, List.length_take, List.length_drop]
  simp only [headerSize, responseHeaderSize, handleSize]
  omega

def samrRid (bytes : List UInt8) : UInt32 := UInt32.ofNat (decode (pduLittle bytes) ((bytes.drop 48).take 4))

def nameRefId (place : Nat) (bytes : List UInt8) : UInt32 :=
  UInt32.ofNat (decode (pduLittle bytes) ((bytes.drop (place + 4)).take 4))

/-- The program ends as soon as it is known whether there is room for what it reads. -/
structure Gives {α : Type} (program : Ndr α) (width size : Nat) : Prop where
  ok : ∀ stream, alignUp stream.offset width + size ≤ stream.payloadSz → ∃ result after, program stream = (.ok result, after)
  stop : ∀ stream, stream.payloadSz < alignUp stream.offset width + size → ∃ after, program stream = (.stop (), after)

namespace Gives

theorem aligned (width size : Nat) : Gives (ndrReadAligned width size) width size :=
  ⟨fun _ room => ⟨_, _, if_neg (Nat.not_lt.mpr room)⟩, fun _ short => ⟨_, if_pos short⟩⟩

theorem int {α : Type} {program : Ndr α} (width : Nat) (wrap : Nat → α)
    (defined : program = do return wrap (← ndrReadInt width)) : Gives program width width := by
  have unfolded : program = ndrReadAligned width width >>= fun bytes => Proc.get >>= fun stream =>
      pure (wrap (decode stream.littleEndian bytes)) := by
    rw [defined, ndrReadInt, bind_assoc]
    rfl
  rw [unfolded]
  refine ⟨fun stream room => ?_, fun stream short => ?_⟩
  · obtain ⟨bytes, after, taken⟩ := (aligned width width).ok stream room
    exact ⟨_, after, bind_ok taken⟩
  · obtain ⟨after, refused⟩ := (aligned width width).stop stream short
    exact ⟨after, bind_stop refused⟩

theorem defined {α : Type} {program : Ndr α} {width size : Nat} (gives : Gives program width size) : Defined program := by
  intro stream
  rcases Nat.lt_or_ge stream.payloadSz (alignUp stream.offset width + size) with short | room
  · obtain ⟨after, ran⟩ := gives.stop stream short
    rw [ran]
    exact Defined.stop () stream
  · obtain ⟨result, after, ran⟩ := gives.ok stream room
    rw [ran]
    exact Defined.pure result stream

end Gives

theorem int8_gives : Gives ndrReadInt8 1 1 := .int 1 _ rfl

theorem int16_gives : Gives ndrReadInt16 2 2 := .int 2 _ rfl

theorem int32_gives : Gives ndrReadInt32 4 4 := .int 4 _ rfl

def Call.moved (call : Call) (offset : Nat) : Call := { call with stream := { call.stream with offset } }

section
variable {α β : Type} {bytes : List UInt8} {program : Ndr α} {width size place : Nat} {value : Bool → List UInt8 → α}

namespace Stream.At
variable {stream after : Stream} {result : α} (reached : stream.At bytes place)
include reached

theorem ahead (offset : Nat) : ({ stream with offset } : Stream).At bytes offset :=
  ⟨reached.payload, reached.whole, rfl, reached.order⟩

theorem took (takes : Takes program width size value) (aligned : alignUp place width = place)
    (ran : program stream = (.ok result, after)) :
    result = value (pduLittle bytes) ((bytes.drop place).take size) ∧ place + size ≤ bytes.length ∧
      after = { stream with offset := place + size } := by
  obtain ⟨room, rfl, rfl⟩ := takes _ _ _ ran
  rw [reached.offset, aligned, reached.whole] at room
  rw [reached.offset, aligned, reached.payload, reached.order]
  exact ⟨rfl, room, rfl⟩

theorem read (takes : Takes program width size value) (gives : Gives program width size)
    (aligned : alignUp place width = place) (room : place + size ≤ bytes.length) :
    program stream = (.ok (value (pduLittle bytes) ((bytes.drop place).take size)),
      { stream with offset := place + size }) := by
  obtain ⟨result, after, ran⟩ := gives.ok stream (by rw [reached.offset, aligned, reached.whole]; exact room)
  obtain ⟨same, -, there⟩ := reached.took takes aligned ran
  rw [ran, same, there]

end Stream.At

variable {call after : Call} {code : Status}

theorem Call.ndr_ok {result : α} (ran : Call.ndr code program call = (.ok result, after)) :
    ∃ stream, program call.stream = (.ok result, stream) ∧ after = { call with stream } := by
  simp only [Call.ndr, Proc.zoom, Proc.orStop] at ran
  rcases done : program call.stream with ⟨value | code | _, stream⟩ <;> rw [done] at ran <;> cases ran
  exact ⟨stream, rfl, rfl⟩

theorem Call.ndr_state (code : Status) (program : Ndr α) (call : Call) :
    (Call.ndr code program call).2 = { call with stream := (program call.stream).2 } := by
  simp only [Call.ndr, Proc.zoom, Proc.orStop]
  rcases program call.stream with ⟨_ | _ | _, stream⟩ <;> rfl

theorem Stream.At.moved (reached : call.stream.At bytes place) (offset : Nat) : (call.moved offset).stream.At bytes offset :=
  reached.ahead offset

theorem Stream.At.take {result : α} (reached : call.stream.At bytes place) (takes : Takes program width size value)
    (aligned : alignUp place width = place) (ran : Call.ndr code program call = (.ok result, after)) :
    result = value (pduLittle bytes) ((bytes.drop place).take size) ∧ place + size ≤ bytes.length ∧
      after = call.moved (place + size) := by
  obtain ⟨stream, read, rfl⟩ := Call.ndr_ok ran
  obtain ⟨same, room, rfl⟩ := reached.took takes aligned read
  exact ⟨same, room, rfl⟩

/-- What is true wherever the PDU can end is true of a read, if it is of what follows. -/
theorem Stream.At.leaves {next : α → Proc Call Status β} {post : Outcome Status β × Call → Prop}
    (reached : call.stream.At bytes place) (takes : Takes program width size value) (gives : Gives program width size)
    (aligned : alignUp place width = place)
    (short : bytes.length < place + size → ∀ stream, post (.stop code, { call with stream }))
    (rest : place + size ≤ bytes.length →
      post (next (value (pduLittle bytes) ((bytes.drop place).take size)) (call.moved (place + size)))) :
    post ((Call.ndr code program >>= next) call) := by
  rcases Nat.lt_or_ge bytes.length (place + size) with ends | room
  · obtain ⟨stream, ran⟩ := gives.stop call.stream (by rw [reached.offset, aligned, reached.whole]; exact ends)
    have read : Call.ndr code program call = (.stop code, { call with stream }) := by
      simp only [Call.ndr, Proc.orStop, Proc.zoom, ran]
    rw [bind_stop read]
    exact short ends stream
  · have read : Call.ndr code program call = (.ok (value (pduLittle bytes) ((bytes.drop place).take size)),
        call.moved (place + size)) := by
      simp only [Call.ndr, Proc.orStop, Proc.zoom, reached.read takes gives aligned room]
      rfl
    rw [bind_ok read]
    exact rest room

end

/-! A string. -/

/-- The counts of a string agree, it is all there, and it can be converted. -/
def StringAt (platform : Platform) (asciiString : Bool) (place : Nat) (bytes : List UInt8) : Prop :=
  let flags : NdrFlags := { littleEndian := pduLittle bytes, asciiString }
  let maximum := decode flags.littleEndian ((bytes.drop place).take 4)
  let actual := decode flags.littleEndian ((bytes.drop (place + 8)).take 4)
  let text := (bytes.drop (place + 12)).take (flags.charWidth * actual)
  place + 12 ≤ bytes.length ∧ actual ≤ maximum ∧ (actual = 0 ∨ place + 12 + flags.charWidth * actual ≤ bytes.length ∧
    (platform.gconvert .utf8 flags.charset text).isSome = true)

instance StringAt.decidable (platform : Platform) (asciiString : Bool) (place : Nat) (bytes : List UInt8) :
    Decidable (StringAt platform asciiString place bytes) := inferInstanceAs (Decidable (_ ∧ _ ∧ (_ ∨ _ ∧ _)))

section
variable {platform : Platform} {bytes : List UInt8} {place : Nat} {stream : Stream}

private theorem word_takes : Takes (ndrReadInt 4) 4 4 decode := .int 4 id (bind_pure (ndrReadInt 4)).symm

private theorem word_gives : Gives (ndrReadInt 4) 4 4 := .int 4 id (bind_pure (ndrReadInt 4)).symm

private theorem chars_fit (flags : NdrFlags) {place size : Nat} (room : place ≤ size) (count : Nat) :
    ¬(size - place) / flags.charWidth < count ↔ place + flags.charWidth * count ≤ size := by
  have width : 0 < flags.charWidth := by
    rw [NdrFlags.charWidth]
    split <;> decide
  rw [Nat.div_lt_iff_lt_mul width, Nat.not_lt, Nat.mul_comm]
  omega

/-- The three counts in front of a string that was read are there. -/
private theorem ndrReadVstring_counts {str : CStr} {after : Stream} (reached : stream.At bytes place) (multiple : 4 ∣ place)
    (ran : ndrReadVstring platform stream = (.ok str, after)) : place + 12 ≤ bytes.length := by
  have second : 4 ∣ place + 4 := Nat.dvd_add multiple (by decide)
  have third : 4 ∣ place + 8 := Nat.dvd_add multiple (by decide)
  obtain ⟨_, _, first, ran⟩ := bind_eq_ok.mp ran
  obtain ⟨-, -, rfl⟩ := reached.took word_takes (alignUp_of_dvd multiple) first
  obtain ⟨_, _, next, ran⟩ := bind_eq_ok.mp ran
  obtain ⟨-, -, rfl⟩ := (reached.ahead (place + 4)).took word_takes (alignUp_of_dvd second) next
  obtain ⟨_, _, last, -⟩ := bind_eq_ok.mp ran
  exact ((reached.ahead (place + 8)).took word_takes (alignUp_of_dvd third) last).2.1

theorem ndrReadVstring_iff (platform : Platform) (reached : stream.At bytes place) (multiple : 4 ∣ place) :
    (∃ str after, ndrReadVstring platform stream = (.ok str, after)) ↔
    StringAt platform stream.flags.asciiString place bytes := by
  have second : 4 ∣ place + 4 := Nat.dvd_add multiple (by decide)
  have third : 4 ∣ place + 8 := Nat.dvd_add multiple (by decide)
  have ahead := reached.ahead
  by_cases room : place + 12 ≤ bytes.length
  · rw [ndrReadVstring, bind_ok (reached.read word_takes word_gives (alignUp_of_dvd multiple) (by omega)),
      bind_ok ((ahead (place + 4)).read word_takes word_gives (alignUp_of_dvd second) (by omega)),
      bind_ok ((ahead (place + 8)).read word_takes word_gives (alignUp_of_dvd third) room)]
    have charset : stream.flags.charset = ({ littleEndian := pduLittle bytes, asciiString := stream.flags.asciiString } :
        NdrFlags).charset := by
      simp only [NdrFlags.charset, ← reached.order]
    have chars : ({ littleEndian := pduLittle bytes, asciiString := stream.flags.asciiString } : NdrFlags).charWidth =
      stream.flags.charWidth := rfl
    simp only [StringAt, room, ← charset, chars, true_and]
    generalize decode (pduLittle bytes) ((bytes.drop place).take 4) = maximum
    generalize decode (pduLittle bytes) ((bytes.drop (place + 8)).take 4) = actual
    by_cases exceeds : maximum < actual
    · rw [if_pos exceeds]
      refine iff_of_false ?_ fun there => Nat.not_lt.mpr there.1 exceeds
      rintro ⟨_, _, ran⟩
      cases ran
    rw [if_neg exceeds]
    by_cases none : actual = 0
    · rw [if_pos none]
      exact iff_of_true ⟨_, _, rfl⟩ ⟨Nat.not_lt.mp exceeds, .inl none⟩
    rw [if_neg none, bind_ok (get_apply _)]
    have fits := chars_fit stream.flags room actual
    simp only [reached.whole, reached.payload]
    rw [if_neg (Nat.not_lt.mpr room)]
    by_cases cut : (bytes.length - (place + 12)) / stream.flags.charWidth < actual
    · rw [if_pos cut]
      refine iff_of_false ?_ fun there => ?_
      · rintro ⟨_, _, ran⟩
        cases ran
      · rcases there.2 with zero | ⟨behind, -⟩
        · exact none zero
        · exact fits.mpr behind cut
    rw [if_neg cut]
    have there := fits.mp cut
    cases platform.gconvert .utf8 stream.flags.charset
      ((bytes.drop (place + 12)).take (stream.flags.charWidth * actual)) with
    | none => simp [none]
    | some out => simpa [there, bind_apply] using Nat.not_lt.mp exceeds
  · refine iff_of_false ?_ fun there => room there.1
    rintro ⟨_, _, ran⟩
    exact room (ndrReadVstring_counts reached multiple ran)

end

/-! What a method finds of its request. -/

inductive NameSeen where
  | live
  | null
  | freed
  deriving DecidableEq

def nameState (strings : Heap CStr) : Option (Ref CStr) → NameSeen
  | none => .null
  | some ref => if (strings.get? ref).isSome then .live else .freed

/-- The handle of a request that holds one, and else the one that is still in the pipe. -/
def seenHandle (machine : Machine) (req : Req) (bytes : List UInt8) : Handle :=
  if 44 ≤ bytes.length then samrHandle bytes else (req.smReq machine).handle

/-- The name of a request that comes to the referent id. The pointer of before is lost then, also if the string behind the
id cannot be read. -/
def nameSeen (machine : Machine) (strings : Heap CStr) (req : Req) (asciiString : Bool) (place : Nat) (bytes : List UInt8) :
    NameSeen :=
  if place + 8 ≤ bytes.length then
    if nameRefId place bytes ≠ 0 ∧ StringAt machine.toPlatform asciiString (place + 8) bytes then .live else .null
  else nameState strings (req.smReq machine).name.ptr

structure Call.Left (machine : Machine) (handle : Handle) (name : NameSeen) (call : Call) : Prop where
  handle : (call.req.smReq machine).handle = handle
  name : nameState call.store.strings (call.req.smReq machine).name.ptr = name

section
variable {β : Type} {machine : Machine} {bytes : List UInt8} {call after : Call} {code : Status}

def Call.handled (machine : Machine) (bytes : List UInt8) (call : Call) : Call :=
  { call.moved 44 with req := .samr { call.req.smReq machine with handle := samrHandle bytes } }

theorem Stream.At.handled (reached : call.stream.At bytes (headerSize + responseHeaderSize)) :
    (call.handled machine bytes).stream.At bytes 44 := reached.ahead 44

theorem samrReadHandle_leaves {next : Unit → Proc Call Status β} {post : Outcome Status β × Call → Prop}
    (reached : call.stream.At bytes (headerSize + responseHeaderSize))
    (short : bytes.length < 44 → ∀ stream, post (.stop code, { call with stream }))
    (rest : 44 ≤ bytes.length → post (next () (call.handled machine bytes))) :
    post ((samrReadHandle machine code >>= next) call) := by
  rw [samrReadHandle, bind_assoc]
  exact reached.leaves (Takes.aligned 2 handleSize) (.aligned 2 handleSize) (by decide) short rest

private theorem readString_left {place : Nat} {refId : UInt32} (reached : call.stream.At bytes place) (multiple : 4 ∣ place)
    (null : (call.req.smReq machine).name.ptr = none) :
    ((do
      let str ← Call.ndr .invalidParameter (ndrReadVstring machine.toPlatform)
      let ref ← Call.newString str
      Proc.modify fun call => { call with req := .samr { call.req.smReq machine with name := ⟨refId, some ref⟩ } } :
        Proc Call Status Unit) call).2.Left machine (call.req.smReq machine).handle
      (if StringAt machine.toPlatform call.stream.flags.asciiString place bytes then .live else .null) := by
  have readable := ndrReadVstring_iff machine.toPlatform reached multiple
  by_cases there : StringAt machine.toPlatform call.stream.flags.asciiString place bytes
  · obtain ⟨str, stream, ran⟩ := readable.mpr there
    have read : Call.ndr .invalidParameter (ndrReadVstring machine.toPlatform) call = (.ok str, { call with stream }) := by
      simp only [Call.ndr, Proc.orStop, Proc.zoom, ran]
    have stored : (call.store.strings.alloc str).1.get? (call.store.strings.alloc str).2 = some str :=
      Heap.get?_alloc_new _ _
    rw [bind_ok read, if_pos there]
    refine ⟨rfl, ?_⟩
    show (if ((call.store.strings.alloc str).1.get? (call.store.strings.alloc str).2).isSome = true then NameSeen.live
      else .freed) = .live
    rw [if_pos (stored ▸ rfl)]
  · have state := Call.ndr_state .invalidParameter (ndrReadVstring machine.toPlatform) call
    have kept : ∀ stream, ({ call with stream } : Call).Left machine (call.req.smReq machine).handle .null := fun _ =>
      ⟨rfl, congrArg (nameState _) null⟩
    rw [if_neg there]
    rcases read : Call.ndr .invalidParameter (ndrReadVstring machine.toPlatform) call with ⟨str | _ | _, after⟩ <;>
      rw [read] at state
    · obtain ⟨stream, ran, -⟩ := Call.ndr_ok read
      exact absurd (readable.mp ⟨str, stream, ran⟩) there
    · rw [bind_stop read]
      exact state ▸ kept _
    · rw [bind_fault read]
      exact state ▸ kept _

/-- What a method with a name finds, and how long its request is if it was accepted. -/
def LeftNamed (machine : Machine) (strings : Heap CStr) (handle : Handle) (req : Req) (asciiString : Bool) (place : Nat)
    (bytes : List UInt8) (result : Outcome Status Unit × Call) : Prop :=
  result.2.Left machine handle (nameSeen machine strings req asciiString place bytes) ∧
    (result.1 = .ok () → place + 8 ≤ bytes.length)

theorem LeftNamed.cut {place : Nat} (short : bytes.length < place + 8) (stream : Stream) :
    LeftNamed machine call.store.strings (call.req.smReq machine).handle call.req call.stream.flags.asciiString place bytes
      (.stop code, { call with stream }) := by
  refine ⟨?_, fun ended => nomatch ended⟩
  rw [nameSeen, if_neg (Nat.not_le.mpr short)]
  exact ⟨rfl, rfl⟩

theorem samrReadName_left {place : Nat} (reached : call.stream.At bytes place) (multiple : 4 ∣ place) :
    LeftNamed machine call.store.strings (call.req.smReq machine).handle call.req call.stream.flags.asciiString place bytes
      (samrReadName machine call) := by
  have even : 2 ∣ place := Nat.dvd_trans (by decide) multiple
  refine reached.leaves int16_takes int16_gives (alignUp_of_dvd even) (fun short => .cut (by omega)) fun _ => ?_
  refine (reached.moved (place + 2)).leaves int16_takes int16_gives (alignUp_of_dvd (Nat.dvd_add even (Nat.dvd_refl 2)))
    (fun short => .cut (by omega)) fun _ => ?_
  refine (reached.moved (place + 4)).leaves int32_takes int32_gives
    (alignUp_of_dvd (Nat.dvd_add multiple (Nat.dvd_refl 4))) .cut fun long => ?_
  have behind : place + 8 ≤ bytes.length := long
  refine ⟨?_, fun _ => behind⟩
  rw [bind_ok (modify_apply _ _), nameSeen, if_pos behind]
  by_cases zero : nameRefId place bytes = 0
  · have absent : ¬(nameRefId place bytes != 0) = true := by simp [zero]
    rw [if_neg (show ¬(UInt32.ofNat _ != 0) = true from absent), if_neg fun there => there.1 zero]
    exact ⟨rfl, rfl⟩
  · have present : (nameRefId place bytes != 0) = true := by simpa using zero
    rw [if_pos (show (UInt32.ofNat _ != 0) = true from present)]
    simp only [ne_eq, zero, not_false_eq_true, true_and]
    have ahead : ({ call.moved (place + 8) with
        req := .samr { call.req.smReq machine with name := ⟨nameRefId place bytes, none⟩ } } : Call).stream.At bytes
          (place + 8) :=
      reached.moved (place + 8)
    exact readString_left ahead (Nat.dvd_add multiple (by decide)) rfl

private theorem samrLookupDomainInvoke_left (reached : call.stream.At bytes (headerSize + responseHeaderSize)) :
    LeftNamed machine call.store.strings (seenHandle machine call.req bytes) call.req call.stream.flags.asciiString 44 bytes
      (samrLookupDomainInvoke machine call) := by
  refine samrReadHandle_leaves reached (fun short => ?_) fun long => ?_
  · rw [seenHandle, if_neg (Nat.not_le.mpr short)]
    exact .cut (by omega)
  · rw [seenHandle, if_pos long]
    exact samrReadName_left reached.handled (by decide)

private theorem samrLookupNamesInvoke_left (reached : call.stream.At bytes (headerSize + responseHeaderSize)) :
    LeftNamed machine call.store.strings (seenHandle machine call.req bytes) call.req call.stream.flags.asciiString 60 bytes
      (samrLookupNamesInvoke machine call) := by
  refine samrReadHandle_leaves reached (fun short => ?_) fun long => ?_
  · rw [seenHandle, if_neg (Nat.not_le.mpr short)]
    exact .cut (by omega)
  · have before : bytes.length < 60 → ∀ stream, LeftNamed machine call.store.strings (samrHandle bytes) call.req
        call.stream.flags.asciiString 60 bytes (.stop .invalidParameter, { call.handled machine bytes with stream }) :=
      fun short => @LeftNamed.cut machine bytes (call.handled machine bytes) .invalidParameter 60 (by omega)
    rw [seenHandle, if_pos long]
    refine reached.handled.leaves int32_takes int32_gives (by decide) (fun short => before (by omega)) fun _ => ?_
    refine (reached.handled.moved 48).leaves int32_takes int32_gives (by decide) (fun short => before (by omega)) fun _ => ?_
    refine (reached.handled.moved 52).leaves int32_takes int32_gives (by decide) (fun short => before (by omega)) fun _ => ?_
    refine (reached.handled.moved 56).leaves int32_takes int32_gives (by decide) before fun _ => ?_
    exact samrReadName_left (reached.handled.moved 60) (by decide)

open Samr in
/-- What the methods that can miss something find in the pipe of their request, whether it was accepted or not. -/
structure SamrLeft (machine : Machine) (strings : Heap CStr) (req : Req) (asciiString : Bool) (bytes : List UInt8)
    (result : Outcome Status Unit × Call) : Prop where
  domain : (pduReqHdr bytes).opnum = lookupDomain →
    LeftNamed machine strings (seenHandle machine req bytes) req asciiString 44 bytes result
  names : (pduReqHdr bytes).opnum = lookupNames →
    LeftNamed machine strings (seenHandle machine req bytes) req asciiString 60 bytes result
  info : (pduReqHdr bytes).opnum = queryUserInfo → (result.2.req.smReq machine).handle = seenHandle machine req bytes

theorem samrInvoke_left (reached : call.stream.At bytes (headerSize + responseHeaderSize)) :
    SamrLeft machine call.store.strings call.req call.stream.flags.asciiString bytes
      (samrInvoke machine (pduReqHdr bytes).opnum call) := by
  refine ⟨fun domain => ?_, fun names => ?_, fun info => ?_⟩
  · rw [domain]
    exact samrLookupDomainInvoke_left reached
  · rw [names]
    exact samrLookupNamesInvoke_left reached
  · have read : samrInvoke machine Samr.queryUserInfo = samrReadHandle machine .invalidParameter >>= pure :=
      (bind_pure _).symm
    rw [info, read]
    let post : Outcome Status Unit × Call → Prop := fun result =>
      (result.2.req.smReq machine).handle = seenHandle machine call.req bytes
    show post _
    refine samrReadHandle_leaves reached (fun short stream => ?_) fun long => ?_
    · exact (if_neg (Nat.not_le.mpr short)).symm
    · exact (if_pos long).symm

/-! What is told by a request that was accepted. -/

theorem samrReadHandle_ok (reached : call.stream.At bytes (headerSize + responseHeaderSize))
    (ran : samrReadHandle machine code call = (.ok (), after)) :
    44 ≤ bytes.length ∧ after = call.handled machine bytes := by
  obtain ⟨_, middle, read, ran⟩ := bind_eq_ok.mp ran
  obtain ⟨rfl, room, rfl⟩ := reached.take (Takes.aligned 2 handleSize) (by decide) read
  cases ran
  exact ⟨room, rfl⟩

open Samr in
structure SamrParsed (machine : Machine) (bytes : List UInt8) (call : Call) : Prop where
  handle : (pduReqHdr bytes).opnum ≠ connect5 → (call.req.smReq machine).handle = samrHandle bytes ∧ 44 ≤ bytes.length
  rid : (pduReqHdr bytes).opnum = openUser → (call.req.smReq machine).rid = samrRid bytes

private theorem samrOpenUserInvoke_ok (reached : call.stream.At bytes (headerSize + responseHeaderSize))
    (ran : samrOpenUserInvoke machine call = (.ok (), after)) :
    (after.req.smReq machine).handle = samrHandle bytes ∧ 44 ≤ bytes.length ∧ (after.req.smReq machine).rid =
    samrRid bytes := by
  obtain ⟨_, _, read, ran⟩ := bind_eq_ok.mp ran
  obtain ⟨long, rfl⟩ := samrReadHandle_ok reached read
  obtain ⟨_, _, read, ran⟩ := bind_eq_ok.mp ran
  obtain ⟨-, -, rfl⟩ := reached.handled.take int32_takes (by decide) read
  obtain ⟨_, _, read, ran⟩ := bind_eq_ok.mp ran
  obtain ⟨rfl, -, rfl⟩ := (reached.handled.moved 48).take int32_takes (by decide) read
  cases ran
  exact ⟨rfl, long, rfl⟩

theorem of_branch {α : Type} {post : α → Prop} {condition : Prop} [Decidable condition] {yes no : α}
    (here : condition → post yes) (other : post no) : post (if condition then yes else no) := by
  split
  next holds => exact here holds
  next => exact other

theorem samrInvoke_ok (reached : call.stream.At bytes (headerSize + responseHeaderSize)) :
    ∀ after, samrInvoke machine (pduReqHdr bytes).opnum call = (.ok (), after) → SamrParsed machine bytes after := by
  generalize opnum : (pduReqHdr bytes).opnum = number
  have plain : ∀ method code, number = method → method ≠ Samr.openUser → ∀ after,
      samrReadHandle machine code call = (.ok (), after) → SamrParsed machine bytes after := by
    rintro _ code rfl notUser after ran
    obtain ⟨long, rfl⟩ := samrReadHandle_ok reached ran
    exact ⟨fun _ => ⟨rfl, long⟩, fun user => absurd (opnum.symm.trans user) notUser⟩
  have connected : number = Samr.connect5 → ∀ after, SamrParsed machine bytes after := fun same after =>
    ⟨fun other => absurd (opnum.trans same) other, fun user => absurd (same.symm.trans (opnum.symm.trans user)) (by decide)⟩
  have named : ∀ method strings place, number = method → method ≠ Samr.openUser → 44 ≤ place + 8 → ∀ after,
      LeftNamed machine strings (seenHandle machine call.req bytes) call.req call.stream.flags.asciiString place bytes
        (.ok (), after) → SamrParsed machine bytes after := by
    rintro _ strings place rfl notUser behind after ⟨left, long⟩
    have holds : 44 ≤ bytes.length := Nat.le_trans behind (long rfl)
    exact ⟨fun _ => ⟨left.handle.trans (if_pos holds), holds⟩, fun user => absurd (opnum.symm.trans user) notUser⟩
  have domain : number = Samr.lookupDomain → ∀ after, samrLookupDomainInvoke machine call = (.ok (), after) →
      SamrParsed machine bytes after := fun same after ran =>
    named _ _ 44 same (by decide) (by decide) after (ran ▸ samrLookupDomainInvoke_left reached)
  have names : number = Samr.lookupNames → ∀ after, samrLookupNamesInvoke machine call = (.ok (), after) →
      SamrParsed machine bytes after := fun same after ran =>
    named _ _ 60 same (by decide) (by decide) after (ran ▸ samrLookupNamesInvoke_left reached)
  have user : number = Samr.openUser → ∀ after, samrOpenUserInvoke machine call = (.ok (), after) →
      SamrParsed machine bytes after := by
    intro same after ran
    obtain ⟨handle, long, rid⟩ := samrOpenUserInvoke_ok reached ran
    exact ⟨fun _ => ⟨handle, long⟩, fun _ => rid⟩
  let post : Proc Call Status Unit → Prop := fun program =>
    ∀ after, program call = (.ok (), after) → SamrParsed machine bytes after
  show post (samrInvoke machine number)
  exact of_branch (fun same after _ => connected same after) <| of_branch (fun same => plain _ _ same (by decide)) <|
    of_branch domain <| of_branch (fun same => plain _ _ same (by decide)) <| of_branch names <| of_branch user <|
    of_branch (fun same => plain _ _ same (by decide)) <| of_branch (fun same => plain _ _ same (by decide)) <|
    of_branch (fun same => plain _ _ same (by decide)) <| of_branch (fun same => plain _ _ same (by decide)) <|
    of_branch (fun same => plain _ _ same (by decide)) fun _ ran => nomatch ran

end

/-! Parsing ends with a status. -/

section
variable {machine : Machine}

private theorem readVstring_defined (platform : Platform) : Defined (ndrReadVstring platform) := by
  refine .bind word_gives.defined fun _ => .bind word_gives.defined fun _ => .bind word_gives.defined fun _ => .guard ?_
  refine .ite (.pure _) (.bind .get fun stream => .guard (.guard ?_))
  split
  next => exact .stop _
  next => exact .bind (.modify _) fun _ => .pure _

private theorem ndr_defined {α : Type} {code : Status} {program : Ndr α} (defined : Defined program) :
    Defined (Call.ndr code program) := by
  intro call
  have ends := defined call.stream
  simp only [Call.ndr, Proc.orStop, Proc.zoom]
  revert ends
  rcases program call.stream with ⟨value | _ | _, stream⟩ <;> intro ends
  · exact Defined.pure value call
  · exact Defined.stop code call
  · exact absurd rfl ends

private theorem read16_defined : Defined (Call.ndr .invalidParameter ndrReadInt16) :=
  ndr_defined int16_gives.defined

private theorem read32_defined {code : Status} : Defined (Call.ndr code ndrReadInt32) :=
  ndr_defined int32_gives.defined

private theorem samrReadHandle_defined (code : Status) : Defined (samrReadHandle machine code) :=
  .bind (ndr_defined (Gives.aligned _ _).defined) fun _ => .modify _

private theorem samrReadName_defined : Defined (samrReadName machine) :=
  .bind read16_defined fun _ => .bind read16_defined fun _ => .bind read32_defined fun _ => .bind (.modify _) fun _ =>
    .ite (.bind (ndr_defined (readVstring_defined _)) fun _ => .bind (fun _ ended => nomatch ended) fun _ =>
      .modify _) (.pure ())

theorem samrInvoke_defined (opnum : UInt16) : Defined (samrInvoke machine opnum) := by
  have handle : ∀ code, Defined (samrReadHandle machine code) := samrReadHandle_defined
  have connect : Defined (samrConnect5Invoke machine) := by
    refine .bind read32_defined fun _ => .ite (.bind (ndr_defined (readVstring_defined _)) fun _ => ?_) ?_ <;>
    exact .bind read32_defined fun _ => .bind read32_defined fun _ => .guard <| .bind (.modify _) fun _ =>
      .bind read32_defined fun _ => .bind read32_defined fun _ => .guard (.modify _)
  exact .ite connect <| .ite (handle _) <| .ite (.bind (handle _) fun _ => samrReadName_defined) <|
    .ite (handle _) <| .ite (.bind (handle _) fun _ => .bind read32_defined fun _ => .bind read32_defined fun _ =>
      .bind read32_defined fun _ => .bind read32_defined fun _ => samrReadName_defined) <|
    .ite (.bind (handle _) fun _ => .bind read32_defined fun _ => .bind read32_defined fun _ => .modify _) <|
    .ite (handle _) <| .ite (handle _) <| .ite (handle _) <| .ite (handle _) <| .ite (handle _) (.stop _)

end

/-! The headers in front of it. -/

section
variable {α : Type} {program : Ndr α} {width size place : Nat} {value : Bool → List UInt8 → α} {code : Status}
  {bytes : List UInt8}

theorem Work.At.gives (takes : Takes program width size value) (gives : Gives program width size)
    (aligned : alignUp place width = place) (room : place + size ≤ bytes.length) :
    Completes (Work.At bytes place) (Work.At bytes (place + size)) (Work.ndr code program) := by
  intro work reached
  have start : work.call.stream.offset = place := reached.offset
  have whole : work.call.stream.payloadSz = bytes.length := reached.whole
  obtain ⟨result, stream, ran⟩ := gives.ok work.call.stream (by rw [start, aligned, whole]; exact room)
  have read : Work.ndr code program work = (.ok result, work.setCall { work.call with stream }) := by
    simp only [Work.ndr, Work.handle, Call.ndr, Proc.orStop, Proc.zoom, ran]
  obtain ⟨-, -, rfl⟩ := takes _ _ _ ran
  rw [start, aligned] at read
  exact ⟨result, _, read, reached.payload, whole, rfl⟩

theorem requestHeaders_completes (long : headerSize + responseHeaderSize ≤ bytes.length) :
    Completes (Work.At bytes 0) (Work.At bytes (headerSize + responseHeaderSize)) requestHeaders := by
  have within : ∀ {end_ : Nat}, end_ ≤ 24 → end_ ≤ bytes.length := fun small => Nat.le_trans small long
  have assign : ∀ place f, Completes (Work.At bytes place) (Work.At bytes place) (Work.modifyHdr f) := fun _ _ =>
    .modify fun _ reached => ⟨reached.payload, reached.whole, reached.offset⟩
  have hdr : Completes (Work.At bytes 0) (Work.At bytes 16) (dcerpcHdrRead .badData) :=
    .bind (Work.At.gives int8_takes int8_gives (by decide) (within (by decide))) fun _ => .bind (assign 1 _) fun _ =>
    .bind (Work.At.gives int8_takes int8_gives (by decide) (within (by decide))) fun _ => .bind (assign 2 _) fun _ =>
    .bind (Work.At.gives int8_takes int8_gives (by decide) (within (by decide))) fun _ => .bind (assign 3 _) fun _ =>
    .bind (Work.At.gives int8_takes int8_gives (by decide) (within (by decide))) fun _ => .bind (assign 4 _) fun _ =>
    .bind (Work.At.gives (.aligned 2 4) (.aligned 2 4) (by decide) (within (by decide))) fun _ =>
    .bind (.modify fun _ reached => ⟨reached.payload, reached.whole, reached.offset⟩) fun _ =>
    .bind (Work.At.gives int16_takes int16_gives (by decide) (within (by decide))) fun _ =>
    .bind (Work.At.gives int16_takes int16_gives (by decide) (within (by decide))) fun _ =>
    .bind (Work.At.gives int32_takes int32_gives (by decide) (within (by decide))) fun _ => assign 16 _
  have request : Completes (Work.At bytes 16) (Work.At bytes 24) (dcerpcRequestHdrRead .badData) :=
    .bind (Work.At.gives int32_takes int32_gives (by decide) (within (by decide))) fun _ =>
    .bind (Work.At.gives int16_takes int16_gives (by decide) (within (by decide))) fun _ =>
    .bind (Work.At.gives int16_takes int16_gives (by decide) (within (by decide))) fun _ =>
    .modify fun _ reached => ⟨reached.payload, reached.whole, reached.offset⟩
  exact .bind hdr fun _ => request

end

section
variable {kept : Store × Pipe × Req × Bool}

/-- What the headers have no part in. -/
def Work.besides (work : Work) : Store × Pipe × Req × Bool :=
  (work.store, work.channel.pipe, work.channel.dce.req, work.channel.dce.stream.flags.asciiString)

private theorem ndr_besides {α : Type} {code : Status} {program : Ndr α}
    (flags : ∀ flags, Preserves (·.flags = flags) program) : Preserves (·.besides = kept) (Work.ndr code program) := by
  intro work same
  have state := Call.ndr_state code program work.call
  have steady : (program work.call.stream).2.flags = work.call.stream.flags := flags _ _ rfl
  show (work.setCall (Call.ndr code program work.call).2).besides = kept
  rw [state, ← same]
  simp only [Work.besides, Work.setCall, steady]
  rfl

theorem requestHeaders_besides : Preserves (·.besides = kept) requestHeaders := by
  have steady : ∀ flags, Stream.Steady (·.flags = flags) := fun _ _ _ same => same
  have byte : Preserves (·.besides = kept) (Work.ndr .badData ndrReadInt8) :=
    ndr_besides fun flags => Stream.ndrReadInt8_keeps (steady flags)
  have short : Preserves (·.besides = kept) (Work.ndr .badData ndrReadInt16) :=
    ndr_besides fun flags => Stream.ndrReadInt16_keeps (steady flags)
  have word : Preserves (·.besides = kept) (Work.ndr .badData ndrReadInt32) :=
    ndr_besides fun flags => Stream.ndrReadInt32_keeps (steady flags)
  have drep : Preserves (·.besides = kept) (Work.ndr .badData (ndrReadBytes 4)) :=
    ndr_besides fun flags => Stream.ndrReadAligned_keeps (steady flags) _ _
  have assign : ∀ f, Preserves (·.besides = kept) (Work.modifyHdr f) := fun _ => .modify fun _ same => same
  exact .bind (.bind byte fun _ => .bind (assign _) fun _ => .bind byte fun _ => .bind (assign _) fun _ =>
    .bind byte fun _ =>
    .bind (assign _) fun _ => .bind byte fun _ => .bind (assign _) fun _ => .bind drep fun _ =>
    .bind (.modify fun _ same => same) fun _ => .bind short fun _ => .bind short fun _ => .bind word fun _ =>
      assign _) fun _ =>
    .bind word fun _ => .bind short fun _ => .bind short fun _ => .modify fun _ same => same

end

/-- The headers of a request were read, and nothing else of it. -/
structure SamrHeaded (bytes : List UInt8) (work headed : Work) : Prop where
  hdr : headed.channel.dce.hdr = pduHeader bytes
  reqHdr : headed.channel.dce.reqHdr = pduReqHdr bytes
  marks : headed.channel.dce.marks = work.channel.dce.marks
  store : headed.store = work.store
  pipe : headed.channel.pipe = work.channel.pipe
  req : headed.channel.dce.req = work.channel.dce.req
  asciiString : headed.channel.dce.stream.flags.asciiString = work.channel.dce.stream.flags.asciiString
  reached : headed.call.stream.At bytes (headerSize + responseHeaderSize)

section
variable {machine : Machine} {bytes : List UInt8} {work : Work}

theorem invokeHandler_headed (machine : Machine) (start : work.At bytes 0)
    (request : (pduHeader bytes).ptype = Ptype.request) (samr : service? work.channel.dce.rpcFlags = some .samr)
    (whole : headerSize + responseHeaderSize ≤ bytes.length) :
    ∃ headed, SamrHeaded bytes work headed ∧ invokeHandler machine work =
      ((samrInvoke machine (pduReqHdr bytes).opnum headed.call).1,
        headed.setCall (samrInvoke machine (pduReqHdr bytes).opnum headed.call).2) := by
  obtain ⟨_, headed, headers, -⟩ := requestHeaders_completes whole work start
  obtain ⟨reqHdr, marks, reached, order⟩ := requestHeaders_ok start headers
  obtain ⟨_, middle, read, rest⟩ := bind_eq_ok.mp headers
  have frame : Dce.Frame (·.hdr = pduHeader bytes) := ⟨fun _ _ _ _ same => same, fun _ _ same => same, fun _ _ same => same⟩
  have keeps : Preserves (Work.OnDce (·.hdr = pduHeader bytes)) (dcerpcRequestHdrRead .badData) :=
    .bind (Work.readInt32_keeps frame) fun _ => .bind (Work.readInt16_keeps frame) fun _ =>
      .bind (Work.readInt16_keeps frame) fun _ => .modify fun _ same => same
  have hdr : headed.channel.dce.hdr = pduHeader bytes := keeps.along rest (dcerpcHdrRead_ok start read).1
  have kept : headed.besides = work.besides := requestHeaders_besides.along headers rfl
  simp only [Work.besides, Prod.mk.injEq] at kept
  obtain ⟨store, pipe, req, ascii⟩ := kept
  refine ⟨headed, ⟨hdr, reqHdr, marks, store, pipe, req, ascii, reached.payload, reached.whole, reached.offset, order⟩, ?_⟩
  rw [invokeHandler_request start request, bind_ok headers, samr, ← reqHdr]
  rfl

theorem invokeHandler_whole {parsed : Work} (start : work.At bytes 0) (request : (pduHeader bytes).ptype = Ptype.request)
    (ran : invokeHandler machine work = (.ok (), parsed)) : headerSize + responseHeaderSize ≤ bytes.length := by
  rw [invokeHandler_request start request] at ran
  obtain ⟨_, headed, headers, -⟩ := bind_eq_ok.mp ran
  obtain ⟨_, middle, read, rest⟩ := bind_eq_ok.mp headers
  obtain ⟨-, -, reached⟩ := dcerpcHdrRead_ok start read
  obtain ⟨_, reached, -, -, rest⟩ := reached.read int32_takes (by decide) rest
  obtain ⟨last, reached, -, -, rest⟩ := reached.read int16_takes (by decide) rest
  obtain ⟨_, _, read, -⟩ := bind_eq_ok.mp rest
  obtain ⟨stream, done, -⟩ := Work.ndr_ok read
  obtain ⟨room, -, -⟩ := int16_takes _ _ _ done
  have offset : last.call.stream.offset = 22 := reached.offset
  have size : last.call.stream.payloadSz = bytes.length := reached.whole
  rw [offset, size] at room
  exact room

end

end KsmbdTools.Rpc
