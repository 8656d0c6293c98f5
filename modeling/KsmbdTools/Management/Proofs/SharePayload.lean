import KsmbdTools.Management.ShareConfig

/-! What the kernel side finds in the payload of a share configuration response. -/

namespace KsmbdTools.Management

def vetoFront (share : Share) : List UInt8 := if share.vetoList.isEmpty then [] else share.vetoList ++ [0]

theorem length_vetoFront (share : Share) :
    (vetoFront share).length = if share.vetoList.isEmpty then 0 else share.vetoList.length + 1 := by
  unfold vetoFront
  split <;> simp

variable {conf : SmbconfGlobal} {share : Share} {path : CStr}

/-- The bytes of veto list, delimiter and terminated path. -/
def neededSize (conf : SmbconfGlobal) (share : Share) (path : CStr) : Nat :=
  (vetoFront share).length + (rootedPath conf path).length + 1

theorem shmShareConfigPayloadSize_eq (drive : testFlag share.flags ShareFlag.pipe = false) (set : share.path = some path)
    (nonempty : path ≠ []) (bound : neededSize conf share path < 2 ^ 31) :
    shmShareConfigPayloadSize conf share = some (neededSize conf share path) := by
  have size : (if share.vetoList.isEmpty then 0 else share.vetoList.length + 1) + (rootedPath conf path).length + 1 =
      neededSize conf share path := by rw [neededSize, length_vetoFront]
  have given : path.isEmpty = false := List.isEmpty_eq_false_iff.mpr nonempty
  simp only [shmShareConfigPayloadSize, drive, set, size, given, Nat.not_le.mpr bound, Bool.false_eq_true, ↓reduceIte]

theorem shareConfigPayload_fits :
    shareConfigPayload conf share path (neededSize conf share path) =
      (vetoFront share ++ rootedPath conf path ++ [0], true) := by
  simp only [shareConfigPayload, ← vetoFront.eq_1, neededSize]
  rw [if_neg (by omega), if_neg (by omega), if_neg (by omega)]

theorem shmHandleShareConfigRequest_eq (drive : testFlag share.flags ShareFlag.pipe = false) (set : share.path = some path)
    (resp : ShareConfigResponse) :
    (shmHandleShareConfigRequest conf share resp).2 = (shareConfigPayload conf share path resp.payloadSz).2 ∧
      (shmHandleShareConfigRequest conf share resp).1.payload = (shareConfigPayload conf share path resp.payloadSz).1 ∧
      (shmHandleShareConfigRequest conf share resp).1.payloadSz = resp.payloadSz ∧
      (shmHandleShareConfigRequest conf share resp).1.vetoListSz = share.vetoList.length := by
  simp [shmHandleShareConfigRequest, drive, set]

theorem drop_vetoFront (share : Share) (text : List UInt8) :
    (if share.vetoList.length = 0 then vetoFront share ++ text
      else (vetoFront share ++ text).drop (share.vetoList.length + 1)) = text := by
  by_cases empty : share.vetoList = []
  · simp [vetoFront, empty]
  · have length : (vetoFront share).length = share.vetoList.length + 1 := by simp [length_vetoFront, empty]
    rw [if_neg (by simpa using empty), ← length, List.drop_left]

/-- What the kernel side reads off a response to a request for a share. -/
structure Recovers (conf : SmbconfGlobal) (share : Share) (path : CStr) (size : Nat) (resp : ShareConfigResponse) :
    Prop where
  payloadSz : resp.payloadSz = size
  payload : resp.payload.length = size
  vetoListSz : resp.vetoListSz = share.vetoList.length
  vetoList : resp.payload.take resp.vetoListSz = share.vetoList
  /-- The path starts where the kernel side looks for it and ends with the payload. -/
  behind : ksmbdShareConfigPath resp = rootedPath conf path ++ [0]
  terminated : (ksmbdShareConfigPath resp).takeWhile (· != 0) = rootedPath conf path

theorem shmHandleShareConfigRequest_recovers {resp : ShareConfigResponse}
    (drive : testFlag share.flags ShareFlag.pipe = false) (set : share.path = some path)
    (text : 0 ∉ rootedPath conf path) (room : resp.payloadSz = neededSize conf share path) :
    (shmHandleShareConfigRequest conf share resp).2 = true ∧
      Recovers conf share path (neededSize conf share path) (shmHandleShareConfigRequest conf share resp).1 := by
  obtain ⟨returned, written, kept, veto⟩ := shmHandleShareConfigRequest_eq drive set resp
  rw [room, shareConfigPayload_fits] at returned written
  have payload : (shmHandleShareConfigRequest conf share resp).1.payload =
      vetoFront share ++ (rootedPath conf path ++ [0]) := by
    rw [written, List.append_assoc]
  have path_eq : ksmbdShareConfigPath (shmHandleShareConfigRequest conf share resp).1 = rootedPath conf path ++ [0] := by
    rw [ksmbdShareConfigPath, payload, veto]
    exact drop_vetoFront share _
  refine ⟨returned, ⟨kept.trans room, ?_, veto, ?_, path_eq, ?_⟩⟩
  · rw [payload, neededSize]
    simp [Nat.add_assoc]
  · rw [veto, payload, vetoFront]
    split
    · rename_i empty
      simp [List.isEmpty_iff.mp empty]
    · rw [List.append_assoc, List.take_left']
      rfl
  · have inside : ∀ byte ∈ rootedPath conf path, (byte != 0) = true := by
      intro byte member
      rw [bne_iff_ne]
      rintro rfl
      exact text member
    rw [path_eq, List.takeWhile_append_of_pos inside]
    simp

/-- A share whose message has room for it is given a size. The handler writes a payload of that size, and the response
the worker sends is read back whole. -/
theorem share_payload_recovered (conf : SmbconfGlobal) (share : Share) (path : CStr)
    (drive : testFlag share.flags ShareFlag.pipe = false) (set : share.path = some path) (nonempty : path ≠ [])
    (text : 0 ∉ rootedPath conf path)
    (fits : ipcMsgAlloc true (shareConfigResponseSize + neededSize conf share path) = true) :
    ∃ size, shmShareConfigPayloadSize conf share = some size ∧
      (∀ resp : ShareConfigResponse, resp.payloadSz = size →
        (shmHandleShareConfigRequest conf share resp).2 = true ∧
          Recovers conf share path size (shmHandleShareConfigRequest conf share resp).1) ∧
      ∀ (platform : Platform) (state held : State) (name : CharArray 64) (ref : Ref Share), name.terminated = true →
        state.shmLookupShare platform name.str = (held, some ref) → held.shares.get? ref = some share →
        held.globalConf = conf →
        ∃ resp, (state.shareConfigRequest platform true name).2 = some resp ∧ Recovers conf share path size resp := by
  have limit : shareConfigResponseSize + neededSize conf share path + 8 + 1 ≤ 4096 := of_decide_eq_true fits
  have bound : neededSize conf share path < 2 ^ 31 := by omega
  have sized := shmShareConfigPayloadSize_eq drive set nonempty bound
  have handled : ∀ resp : ShareConfigResponse, resp.payloadSz = neededSize conf share path →
      (shmHandleShareConfigRequest conf share resp).2 = true ∧
        Recovers conf share path _ (shmHandleShareConfigRequest conf share resp).1 :=
    fun resp room => shmHandleShareConfigRequest_recovers drive set text room
  refine ⟨_, sized, handled, ?_⟩
  rintro platform state held name ref named found kept rfl
  obtain ⟨whole, recovers⟩ := handled { payloadSz := neededSize held.globalConf share path } rfl
  refine ⟨_, ?_, recovers⟩
  simp [State.shareConfigRequest, named, found, kept, sized, whole, fits]

/-- A share under a root directory, with a NUL in its veto list. -/
theorem share_payload_recovered_rooted :
    let conf : SmbconfGlobal := { rootDir := some [47, 114] }
    let share : Share := { name := [115], path := some [47, 120], vetoList := [97, 0, 98] }
    let answer := shmHandleShareConfigRequest conf share { payloadSz := 9 }
    shmShareConfigPayloadSize conf share = some 9 ∧ answer.2 = true ∧ Recovers conf share [47, 120] 9 answer.1 := by
  intro conf share answer
  obtain ⟨size, sized, handled, -⟩ := share_payload_recovered conf share [47, 120] (by decide) rfl (by decide) (by decide)
    (by decide)
  cases (show shmShareConfigPayloadSize conf share = some 9 by decide).symm.trans sized
  obtain ⟨whole, recovers⟩ := handled { payloadSz := 9 } rfl
  exact ⟨sized, whole, recovers⟩

end KsmbdTools.Management
