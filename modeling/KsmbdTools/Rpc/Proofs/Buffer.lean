import KsmbdTools.Management.Proofs.Histories
import KsmbdTools.Rpc.Buffer

/-! How far the offset drifts past the end of the payload: alignment moves it to the next multiple of eight at most, and
every call that succeeds ends inside. So no sum wraps around, as long as the calls are not given a size that makes one
wrap, and the offset fits in an `int` where the headers are written. -/

namespace KsmbdTools.Rpc.Buffer
open Bytes

/-- The payload keeps its size, and the offset stays below the limit. -/
structure Within (size limit : Nat) (buffer : Buffer) : Prop where
  size : buffer.payload.length = size
  offset : buffer.offset ≤ limit

/-- A limit that alignment does not pass, with room for an integer behind it. -/
structure Limit (size limit : Nat) : Prop where
  whole : 8 ∣ limit
  covers : size ≤ limit
  small : limit + 8 < 2 ^ 64

theorem sizeT_of_lt {sum : Nat} (small : sum < 2 ^ 64) : sizeT sum = sum := Nat.mod_eq_of_lt small

theorem alignUp_le {offset width limit : Nat} (reach : offset ≤ limit) (divides : width ∣ limit) :
    alignUp offset width ≤ limit := by
  rcases Nat.eq_zero_or_pos width with rfl | positive
  · exact reach
  · obtain ⟨count, rfl⟩ := divides
    rw [alignUp, if_neg (by omega), Nat.mul_comm]
    refine Nat.mul_le_mul_left width ?_
    have bound : offset + width - 1 < width * (count + 1) := by
      rw [Nat.mul_add]
      omega
    exact Nat.lt_succ_iff.mp (Nat.div_lt_of_lt_mul bound)

theorem IntType.size_dvd (type : IntType) : type.size ∣ 8 := by
  cases type <;> decide

theorem overlay_nil {memory : List UInt8} {offset : Nat} (inside : offset ≤ memory.length) :
    overlay memory offset [] = memory := by
  simp only [overlay, Nat.sub_eq_zero_of_le inside, List.replicate_zero, List.append_nil, List.length_nil, Nat.add_zero,
    List.take_append_drop]

theorem autoAlign_dvd (flags : NdrFlags) : flags.autoAlign ∣ 8 := by
  unfold NdrFlags.autoAlign
  split
  · decide
  · split <;> decide

section Calls
variable {size limit : Nat} (limits : Limit size limit)
include limits

theorem alignOffset_within {buffer : Buffer} (reach : Within size limit buffer) {width : Nat} (divides : width ∣ 8) :
    alignOffset width buffer = (.ok (), { buffer with offset := alignUp buffer.offset width }) ∧
      Within size limit { buffer with offset := alignUp buffer.offset width } := by
  have aligned := alignUp_le reach.offset (divides.trans limits.whole)
  have small := limits.small
  refine ⟨?_, reach.size, aligned⟩
  rw [alignOffset, Proc.modify_apply, sizeT_of_lt (by omega)]

theorem alignOffset_safe {width : Nat} (divides : width ∣ 8) : Proc.Safe (Within size limit) (alignOffset width) := by
  intro buffer reach
  obtain ⟨moved, aligned⟩ := alignOffset_within limits reach divides
  rw [moved]
  exact ⟨nofun, aligned⟩

theorem autoAlignOffset_safe : Proc.Safe (Within size limit) autoAlignOffset :=
  .bind .get fun buffer => alignOffset_safe limits (autoAlign_dvd buffer.flags)

omit limits in
theorem load_inside {buffer : Buffer} {count : Nat} (inside : buffer.offset + count ≤ buffer.payload.length) :
    load count buffer = (.ok ((buffer.payload.drop buffer.offset).take count), buffer) := by
  unfold load
  split
  next none => rw [none, List.take_zero]
  · rfl

omit limits in
theorem store_inside {buffer : Buffer} {data : List UInt8} (inside : buffer.offset + data.length ≤ buffer.payload.length) :
    store data buffer = (.ok (), { buffer with payload := overlay buffer.payload buffer.offset data }) := by
  unfold store
  split
  next none =>
    obtain rfl := List.isEmpty_iff.mp none
    rw [overlay_nil (by simpa using inside)]
  · rfl

/-- A read whose sum can be formed fails where alignment has left the offset, or takes what is there. -/
theorem readAligned_eq {buffer : Buffer} (reach : Within size limit buffer) {width count : Nat} (divides : width ∣ 8)
    (formed : alignUp buffer.offset width + count < 2 ^ 64) :
    readAligned width count buffer =
      if size < alignUp buffer.offset width + count then (.stop (), { buffer with offset := alignUp buffer.offset width })
      else (.ok ((buffer.payload.drop (alignUp buffer.offset width)).take count),
        { buffer with offset := alignUp buffer.offset width + count }) := by
  obtain ⟨moved, aligned⟩ := alignOffset_within limits reach divides
  have sum := sizeT_of_lt formed
  simp only [readAligned, Proc.bind_apply, moved, Proc.get_apply, sum, aligned.size]
  by_cases long : size < alignUp buffer.offset width + count
  · simp only [if_pos long, Proc.bind_apply, Proc.stop_apply]
  · have inside : alignUp buffer.offset width + count ≤ buffer.payload.length := by
      rw [reach.size]
      exact Nat.le_of_not_lt long
    have loaded := @load_inside { buffer with offset := alignUp buffer.offset width } count inside
    simp only [if_neg long, Proc.bind_apply, loaded, advance, Proc.modify_apply, sum, Proc.pure_apply]

theorem writeAligned_eq {buffer : Buffer} (reach : Within size limit buffer) {width : Nat} (divides : width ∣ 8)
    (data : List UInt8) :
    writeAligned width data buffer =
      if size < alignUp buffer.offset width + data.length then
        (.stop (), { buffer with offset := alignUp buffer.offset width })
      else (.ok (), { buffer with
        payload := overlay buffer.payload (alignUp buffer.offset width) data,
        offset := alignUp buffer.offset width + data.length }) := by
  obtain ⟨moved, aligned⟩ := alignOffset_within limits reach divides
  have covers := limits.covers
  have small := limits.small
  have reached : alignUp buffer.offset width ≤ limit := aligned.offset
  simp only [writeAligned, Proc.bind_apply, moved, tryReallocPayload, Proc.get_apply]
  by_cases wraps : 2 ^ 64 - 1 - alignUp buffer.offset width < data.length
  · rw [if_pos (show size < alignUp buffer.offset width + data.length by omega)]
    simp only [if_pos wraps, Proc.bind_apply, Proc.stop_apply]
  · have sum : sizeT (alignUp buffer.offset width + data.length) = alignUp buffer.offset width + data.length :=
      sizeT_of_lt (by omega)
    by_cases long : size < alignUp buffer.offset width + data.length
    · simp only [if_neg wraps, sum, reach.size, if_pos long, Proc.stop_apply]
    · have inside : alignUp buffer.offset width + data.length ≤ buffer.payload.length := by
        rw [reach.size]
        exact Nat.le_of_not_lt long
      have stored := @store_inside { buffer with offset := alignUp buffer.offset width } data inside
      simp only [if_neg wraps, sum, reach.size, if_neg long, Proc.pure_apply, stored, advance, Proc.modify_apply]

def stream (buffer : Buffer) (numPointers : UInt32) : Stream :=
  { payload := buffer.payload, payloadSz := buffer.payload.length, offset := buffer.offset, numPointers,
    flags := buffer.flags }

theorem readAligned_stream {buffer : Buffer} (reach : Within size limit buffer) {width count : Nat} (divides : width ∣ 8)
    (formed : alignUp buffer.offset width + count < 2 ^ 64) (numPointers : UInt32) :
    ndrReadAligned width count (buffer.stream numPointers) =
      ((readAligned width count buffer).1, (readAligned width count buffer).2.stream numPointers) := by
  rw [readAligned_eq limits reach divides formed, ← reach.size]
  unfold ndrReadAligned
  dsimp only [stream, Stream.alignOffset]
  split <;> rfl

theorem writeAligned_stream {buffer : Buffer} (reach : Within size limit buffer) {width : Nat} (divides : width ∣ 8)
    (data : List UInt8) (numPointers : UInt32) :
    ndrPut width data (buffer.stream numPointers) =
      ((writeAligned width data buffer).1, (writeAligned width data buffer).2.stream numPointers) := by
  rw [writeAligned_eq limits reach divides, ← reach.size]
  unfold ndrPut
  dsimp only [stream, Stream.alignOffset]
  by_cases inside : alignUp buffer.offset width + data.length ≤ buffer.payload.length
  · rw [if_pos inside, if_neg (Nat.not_lt.mpr inside), length_overlay, Nat.max_eq_left inside]
  · rw [if_neg inside, if_pos (Nat.lt_of_not_le inside)]

theorem readAligned_cases {buffer : Buffer} (reach : Within size limit buffer) {width count : Nat} (divides : width ∣ 8)
    (formed : alignUp buffer.offset width + count < 2 ^ 64) :
    (readAligned width count buffer = (.stop (), { buffer with offset := alignUp buffer.offset width })) ∨
      ∃ raw after, readAligned width count buffer = (.ok raw, after) ∧ Within size limit after ∧ after.offset ≤ size := by
  rw [readAligned_eq limits reach divides formed]
  split
  · exact .inl rfl
  next long =>
    have inside := Nat.le_of_not_lt long
    exact .inr ⟨_, _, rfl, ⟨reach.size, inside.trans limits.covers⟩, inside⟩

theorem writeAligned_cases {buffer : Buffer} (reach : Within size limit buffer) {width : Nat} (divides : width ∣ 8)
    (data : List UInt8) :
    (writeAligned width data buffer = (.stop (), { buffer with offset := alignUp buffer.offset width })) ∨
      ∃ after, writeAligned width data buffer = (.ok (), after) ∧ Within size limit after ∧ after.offset ≤ size := by
  rw [writeAligned_eq limits reach divides]
  split
  · exact .inl rfl
  next long =>
    have inside := Nat.le_of_not_lt long
    refine .inr ⟨_, rfl, ⟨?_, inside.trans limits.covers⟩, inside⟩
    rw [length_overlay, reach.size, Nat.max_eq_left inside]

theorem writeAligned_safe {width : Nat} (divides : width ∣ 8) (data : List UInt8) :
    Proc.Safe (Within size limit) (writeAligned width data) := by
  intro buffer reach
  rcases writeAligned_cases limits reach divides data with failed | ⟨after, done, kept, -⟩
  · rw [failed]
    exact ⟨nofun, (alignOffset_within limits reach divides).2⟩
  · rw [done]
    exact ⟨nofun, kept⟩

theorem ndrWriteInt_safe (type : IntType) (value : Nat) : Proc.Safe (Within size limit) (ndrWriteInt type value) :=
  .bind .get fun _ => writeAligned_safe limits type.size_dvd _

theorem ndrWriteBytes_safe (value : List UInt8) : Proc.Safe (Within size limit) (ndrWriteBytes value) :=
  writeAligned_safe limits (by decide) value

theorem readAligned_safe {width sz : Nat} (divides : width ∣ 8) {buffer : Buffer} (reach : Within size limit buffer)
    (formed : alignUp buffer.offset width + sz < 2 ^ 64) :
    (readAligned width sz buffer).1 ≠ .fault ∧ Within size limit (readAligned width sz buffer).2 := by
  rcases readAligned_cases limits reach divides formed with failed | ⟨raw, after, done, kept, -⟩
  · rw [failed]
    exact ⟨nofun, (alignOffset_within limits reach divides).2⟩
  · rw [done]
    exact ⟨nofun, kept⟩

theorem int_formed {buffer : Buffer} (reach : Within size limit buffer) (type : IntType) :
    alignUp buffer.offset type.size + type.size < 2 ^ 64 := by
  have aligned := alignUp_le reach.offset (type.size_dvd.trans limits.whole)
  have small := limits.small
  have width := Nat.le_of_dvd (by decide) type.size_dvd
  omega

theorem ndrReadInt_safe (type : IntType) : Proc.Safe (Within size limit) (ndrReadInt type) :=
  .bind (fun _ reach => readAligned_safe limits type.size_dvd reach (int_formed limits reach type))
    fun _ => .bind .get fun _ => .pure _

theorem writeCounts_safe (maximum actual : Nat) : Proc.Safe (Within size limit) (writeCounts maximum actual) :=
  .bind (ndrWriteInt_safe limits _ _) fun _ => .bind (ndrWriteInt_safe limits _ _) fun _ => ndrWriteInt_safe limits _ _

theorem writeText_safe (out : List UInt8) : Proc.Safe (Within size limit) (writeText out) := by
  intro buffer reach
  obtain ⟨defined, written⟩ := ndrWriteBytes_safe limits out buffer reach
  exact ⟨defined, (autoAlignOffset_safe limits _ written).2⟩

section Strings
variable (platform : Platform)

theorem ndrWriteVstring_safe (value : Option CStr) : Proc.Safe (Within size limit) (ndrWriteVstring platform value) := by
  refine .bind .get fun buffer => ?_
  dsimp only
  split
  · exact .stop ()
  · exact .bind (writeCounts_safe limits _ _) fun _ => .bind (ndrWriteBytes_safe limits _) fun _ =>
      autoAlignOffset_safe limits

theorem ndrWriteString_safe (str : Option CStr) : Proc.Safe (Within size limit) (ndrWriteString platform str) := by
  refine .bind .get fun buffer => ?_
  dsimp only
  split
  · exact .stop ()
  · exact .bind (writeCounts_safe limits _ _) fun _ => writeText_safe limits _

theorem ndrWriteLsaString_safe (str : Option CStr) : Proc.Safe (Within size limit) (ndrWriteLsaString platform str) := by
  refine .bind .get fun buffer => ?_
  dsimp only
  split
  · exact .stop ()
  · exact .bind (writeCounts_safe limits _ _) fun _ => writeText_safe limits _

theorem ndrReadVstring_safe : Proc.Safe (Within size limit) (ndrReadVstring platform) := by
  refine .bind (ndrReadInt_safe limits _) fun rawLen => .bind (ndrReadInt_safe limits _) fun _ =>
    .bind (ndrReadInt_safe limits _) fun actualLen => .guard ?_
  refine .ite (.pure _) ?_
  intro buffer reach
  rw [Proc.bind_apply, Proc.get_apply]
  dsimp only
  split
  · exact ⟨nofun, reach⟩
  · split
    · exact ⟨nofun, reach⟩
    next started long =>
      have covers := limits.covers
      have small := limits.small
      have width : buffer.flags.charWidth * actualLen ≤ buffer.payload.length - buffer.offset :=
        (Nat.mul_le_mul_left _ (Nat.le_of_not_lt long)).trans (Nat.mul_div_le _ _)
      have inside : buffer.offset + buffer.flags.charWidth * actualLen ≤ size := by
        rw [← reach.size]
        omega
      have loaded := @load_inside buffer (buffer.flags.charWidth * actualLen) (by rw [reach.size]; exact inside)
      rw [Proc.bind_ok loaded]
      cases platform.gconvert .utf8 buffer.flags.charset _ with
      | none => exact ⟨nofun, reach⟩
      | some out =>
        dsimp only
        rw [Proc.bind_apply, advance, Proc.modify_apply, sizeT_of_lt (by omega)]
        exact Proc.Safe.bind (autoAlignOffset_safe limits) (fun _ => .pure _) _ ⟨reach.size, inside.trans covers⟩

theorem ndrReadUniqVstringPtr_safe : Proc.Safe (Within size limit) (ndrReadUniqVstringPtr platform) :=
  .bind (ndrReadInt_safe limits _) fun _ => .ite (.pure _) (.bind (ndrReadVstring_safe limits platform) fun _ => .pure _)

end Strings

theorem ndrReadUniqPtr_safe : Proc.Safe (Within size limit) ndrReadUniqPtr :=
  .bind (ndrReadInt_safe limits _) fun _ => .ite (.pure _) (ndrReadInt_safe limits _)

theorem ndrReadUnionInt32_safe : Proc.Safe (Within size limit) ndrReadUnionInt32 :=
  .bind (ndrReadInt_safe limits _) fun _ => .bind (ndrReadInt_safe limits _) fun _ => .guard (.pure _)

theorem ndrWriteUnion_safe (type : IntType) (value : Nat) : Proc.Safe (Within size limit) (ndrWriteUnion type value) :=
  .bind (ndrWriteInt_safe limits _ _) fun _ => ndrWriteInt_safe limits _ _

theorem smbReadSid_safe : Proc.Safe (Within size limit) smbReadSid :=
  .bind (ndrReadInt_safe limits _) fun _ => .bind (ndrReadInt_safe limits _) fun _ =>
    .guard (.bind (.collect (ndrReadInt_safe limits _)) fun _ =>
      .bind (.collect (ndrReadInt_safe limits _)) fun _ => .pure _)

theorem smbWriteSid_safe (src : RawSid) : Proc.Safe (Within size limit) (smbWriteSid src) :=
  .guard (.bind (ndrWriteInt_safe limits _ _) fun _ => .bind (ndrWriteInt_safe limits _ _) fun _ =>
    .bind (.each fun _ => ndrWriteInt_safe limits _ _) fun _ => .each fun _ => ndrWriteInt_safe limits _ _)

theorem dcerpcHdrWrite_safe (hdr : Header) : Proc.Safe (Within size limit) (dcerpcHdrWrite hdr) := by
  have int (type : IntType) (value : Nat) : Proc.Safe (Within size limit) (ndrWriteInt type value) :=
    ndrWriteInt_safe limits type value
  exact .bind (int _ _) fun _ => .bind (int _ _) fun _ => .bind (int _ _) fun _ => .bind (int _ _) fun _ =>
    .bind (ndrWriteBytes_safe limits _) fun _ => .bind (int _ _) fun _ => .bind (int _ _) fun _ => int _ _

theorem dcerpcResponseHdrWrite_safe (allocHint : UInt32) (contextId : UInt16) :
    Proc.Safe (Within size limit) (dcerpcResponseHdrWrite allocHint contextId) := by
  have int (type : IntType) (value : Nat) : Proc.Safe (Within size limit) (ndrWriteInt type value) :=
    ndrWriteInt_safe limits type value
  exact .bind (int _ _) fun _ => .bind (int _ _) fun _ => .bind (int _ _) fun _ => int _ _

theorem dcerpcWriteHeaders_safe {buffer : Buffer} (reach : Within size limit buffer) (fits : buffer.offset < 2 ^ 31)
    (moreData : Bool) : (dcerpcWriteHeaders moreData buffer).1 ≠ .fault ∧
    Within size limit (dcerpcWriteHeaders moreData buffer).2 := by
  have back : sizeTOfInt (toInt32 buffer.offset) = buffer.offset := by
    rw [sizeTOfInt, toInt32]
    omega
  have seeks {offset : Nat} (near : offset ≤ limit) : Proc.Safe (Within size limit) (seek offset) :=
    .modify fun _ reach => ⟨reach.size, near⟩
  rw [dcerpcWriteHeaders, Proc.bind_apply, Proc.get_apply]
  dsimp only
  rw [back]
  refine Proc.Safe.bind (seeks (Nat.zero_le _)) (fun _ => ?_) buffer reach
  refine .bind (.modify fun _ reach => ⟨reach.size, reach.offset⟩) fun _ => .bind (dcerpcHdrWrite_safe limits _) fun _ => ?_
  refine .bind (.modify fun _ reach => ⟨reach.size, reach.offset⟩) fun _ => ?_
  exact .bind (dcerpcResponseHdrWrite_safe limits _ _) fun _ => seeks reach.offset

end Calls

/-- The words of the call hold what is put into them: a read is not given a size that makes the sum wrap around, and
the offset is an `int` where headers are written. -/
def FitsWords (buffer : Buffer) : Operation → Prop
  | .readBytes sz => alignUp buffer.offset 2 + sz < 2 ^ 64
  | .writeHeaders _ => buffer.offset < 2 ^ 31
  | _ => True

def AllFitWords (platform : Platform) : Buffer → List Operation → Prop
  | _, [] => True
  | buffer, operation :: operations =>
    FitsWords buffer operation ∧ AllFitWords platform (operation.run platform buffer).2 operations

section Operations
variable {platform : Platform} {size limit : Nat} {buffer : Buffer}

theorem Operation.run_safe (limits : Limit size limit) (reach : Within size limit buffer) {operation : Operation}
    (fits : FitsWords buffer operation) :
    (operation.run platform buffer).1 ≠ .fault ∧ Within size limit (operation.run platform buffer).2 := by
  -- The value of a read is dropped.
  have dropped {α : Type} {program : Program α} (safe : Proc.Safe (Within size limit) program) :
      Proc.Safe (Within size limit) (do let _ ← program) := .bind safe fun _ => .pure ()
  cases operation with
  | readInt type => exact dropped (ndrReadInt_safe limits type) buffer reach
  | readUnionInt32 => exact dropped (ndrReadUnionInt32_safe limits) buffer reach
  | readBytes sz =>
    rcases readAligned_cases limits reach (by decide) fits with failed | ⟨raw, after, done, kept, -⟩
    · rw [run, ndrReadBytes, Proc.bind_stop failed]
      exact ⟨nofun, (alignOffset_within limits reach (by decide)).2⟩
    · rw [run, ndrReadBytes, Proc.bind_ok done]
      exact ⟨nofun, kept⟩
  | readVstring => exact dropped (ndrReadVstring_safe limits platform) buffer reach
  | readUniqVstringPtr => exact dropped (ndrReadUniqVstringPtr_safe limits platform) buffer reach
  | readUniqPtr => exact dropped (ndrReadUniqPtr_safe limits) buffer reach
  | writeInt type value => exact ndrWriteInt_safe limits type value buffer reach
  | writeUnion type value => exact ndrWriteUnion_safe limits type value buffer reach
  | writeBytes value => exact ndrWriteBytes_safe limits value buffer reach
  | writeVstring value => exact ndrWriteVstring_safe limits platform value buffer reach
  | writeString str => exact ndrWriteString_safe limits platform str buffer reach
  | writeLsaString str => exact ndrWriteLsaString_safe limits platform str buffer reach
  | readSid => exact smbReadSid_safe limits buffer reach
  | writeSid src => exact smbWriteSid_safe limits src buffer reach
  | writeHeaders moreData => exact dcerpcWriteHeaders_safe limits reach fits moreData

theorem writeAligned_respects (limits : Limit size limit) (reach : Within size limit buffer) {width : Nat}
    (divides : width ∣ 8) (data : List UInt8) :
    ((writeAligned width data buffer).1 = .stop () → (writeAligned width data buffer).2.payload = buffer.payload) ∧
      ((writeAligned width data buffer).1 = .ok () → (writeAligned width data buffer).2.offset ≤ buffer.payload.length) := by
  rcases writeAligned_cases limits reach divides data with failed | ⟨after, done, -, inside⟩
  · rw [failed]
    exact ⟨fun _ => rfl, nofun⟩
  · rw [done]
    exact ⟨nofun, fun _ => reach.size ▸ inside⟩

theorem readAligned_respects (limits : Limit size limit) (reach : Within size limit buffer) {width sz : Nat}
    (divides : width ∣ 8) (formed : alignUp buffer.offset width + sz < 2 ^ 64) {α : Type} (next : List UInt8 → Program α)
    (still : ∀ raw state, (next raw state).2 = state) {value : α}
    (done : ((readAligned width sz >>= next) buffer).1 = .ok value) :
    ((readAligned width sz >>= next) buffer).2.offset ≤ buffer.payload.length := by
  rcases readAligned_cases limits reach divides formed with failed | ⟨raw, after, read, -, inside⟩
  · rw [Proc.bind_stop failed] at done
    cases done
  · rw [Proc.bind_ok read, still, reach.size]
    exact inside

theorem Operation.respects (limits : Limit size limit) (reach : Within size limit buffer) {operation : Operation}
    (fits : FitsWords buffer operation) : Respects platform buffer operation := by
  refine ⟨(run_safe limits reach fits).1, fun write failed => ?_, fun plain done => ?_⟩
  · cases operation with
    | writeInt type value => exact (writeAligned_respects limits reach type.size_dvd _).1 failed
    | writeBytes value => exact (writeAligned_respects limits reach (by decide) value).1 failed
    | _ => cases write
  · cases operation with
    | writeInt type value => exact (writeAligned_respects limits reach type.size_dvd _).2 done
    | writeBytes value => exact (writeAligned_respects limits reach (by decide) value).2 done
    | readBytes sz => exact readAligned_respects limits reach (by decide) fits _ (fun _ _ => rfl) done
    | readInt type =>
      have formed := int_formed limits reach type
      rw [run, ndrReadInt, bind_assoc] at done ⊢
      exact readAligned_respects limits reach type.size_dvd formed _ (fun _ _ => rfl) done
    | _ => cases plain

end Operations

theorem limit_of (length : Nat) (small : length < 2 ^ 63) : Limit length (max (2 ^ 32) (alignUp length 8)) := by
  have near : alignUp length 8 = (length + 7) / 8 * 8 := rfl
  refine ⟨?_, ?_, ?_⟩
  · rcases Nat.le_total (2 ^ 32) (alignUp length 8) with above | below
    · rw [Nat.max_eq_right above]
      exact dvd_alignUp (by decide) length
    · rw [Nat.max_eq_left below]
      decide
  · exact (le_alignUp length 8).trans (Nat.le_max_right _ _)
  · omega

/-- Every sequence of calls whose words hold what is put into them keeps to the payload. -/
theorem payload_respected (platform : Platform) (buffer : Buffer) (operations : List Operation)
    (size : buffer.payload.length < 2 ^ 63) (start : buffer.offset < 2 ^ 32)
    (fits : AllFitWords platform buffer operations) : AllRespect platform buffer operations := by
  have limits := limit_of buffer.payload.length size
  have reach : Within buffer.payload.length (max (2 ^ 32) (alignUp buffer.payload.length 8)) buffer :=
    ⟨rfl, start.le.trans (Nat.le_max_left _ _)⟩
  generalize buffer.payload.length = length at limits reach
  generalize max (2 ^ 32) (alignUp length 8) = limit at limits reach
  clear size start
  induction operations generalizing buffer with
  | nil => trivial
  | cons operation operations ih =>
    obtain ⟨here, later⟩ := fits
    exact ⟨Operation.respects limits reach here, ih _ later (Operation.run_safe limits reach here).2⟩

namespace Scenario
open Management.Scenario

/-- Thirty-two bytes, and an offset that is negative as an `int`. -/
def farOff : Buffer := { payload := List.replicate 32 0, offset := 2 ^ 32 - 4, flags := { littleEndian := true } }

def atFour : Buffer := { farOff with offset := 4 }

end Scenario

/-- The four bytes in front of the payload are read behind the headers; and so much that the sum wraps around. -/
theorem payload_left :
    ¬AllRespect Management.Scenario.plainPlatform Scenario.farOff [.writeHeaders false, .readInt .int32] ∧
      ¬AllRespect Management.Scenario.plainPlatform Scenario.atFour [.readBytes (2 ^ 64 - 4)] := by
  constructor
  · intro respected
    refine respected.2.1.inside ?_
    decide +kernel
  · intro respected
    refine respected.1.inside ?_
    decide +kernel

theorem payload_respected_short :
    AllRespect Management.Scenario.plainPlatform Scenario.atFour [.readBytes 40, .writeHeaders false, .readInt .int32] := by
  refine payload_respected _ _ _ (by decide +kernel) (by decide +kernel) ⟨?_, ?_, trivial, trivial⟩
  · show _ < _
    decide +kernel
  · show _ < _
    decide +kernel

end KsmbdTools.Rpc.Buffer
