import KsmbdTools.Management.Share

/-! The share configuration request of the kernel server. -/

namespace KsmbdTools.Management

structure ShareConfigResponse where
  flags : UInt32 := 0
  createMask : UInt16 := 0
  directoryMask : UInt16 := 0
  forceCreateMode : UInt16 := 0
  forceDirectoryMode : UInt16 := 0
  forceUid : UInt16 := 0
  forceGid : UInt16 := 0
  shareName : CStr := []
  timeMachineMaxSize : UInt64 := 0
  payloadSz : Nat := 0
  vetoListSz : Nat := 0
  /-- The bytes written to the payload. -/
  payload : List UInt8 := []
  deriving DecidableEq

def rootedPath (conf : SmbconfGlobal) (path : CStr) : CStr := conf.rootDir.getD [] ++ path

/-- `none` is a negative answer. -/
def shmShareConfigPayloadSize (conf : SmbconfGlobal) (share : Share) : Option Nat :=
  if testFlag share.flags ShareFlag.pipe then some 0
  else match share.path with
    | none => none
    | some path =>
      if path.isEmpty then none
      else
        let size := (if share.vetoList.isEmpty then 0 else share.vetoList.length + 1) + (rootedPath conf path).length + 1
        if 2 ^ 31 ≤ size then none else some size

/-- Veto list, delimiter and path, as far as they go. The answer is whether all of it
fitted. -/
def shareConfigPayload (conf : SmbconfGlobal) (share : Share) (path : CStr) (payloadSz : Nat) : List UInt8 × Bool :=
  let front := if share.vetoList.isEmpty then [] else share.vetoList ++ [0]
  let text := rootedPath conf path
  if payloadSz = 0 ∨ payloadSz < front.length then ([], false)
  else
    let remaining := payloadSz - front.length
    if remaining = 0 then (front, false)
    else if remaining ≤ text.length then (front ++ text.take (remaining - 1) ++ [0], false)
    else (front ++ text ++ [0], true)

def shmHandleShareConfigRequest (conf : SmbconfGlobal) (share : Share) (resp : ShareConfigResponse) :
    ShareConfigResponse × Bool :=
  let resp := { resp with
    flags := share.flags, createMask := share.createMask, directoryMask := share.directoryMask
    forceCreateMode := share.forceCreateMode, forceDirectoryMode := share.forceDirectoryMode
    forceUid := share.forceUid, forceGid := share.forceGid, timeMachineMaxSize := share.timeMachineMaxSize
    shareName := share.name.take 63, vetoListSz := share.vetoList.length }
  if testFlag share.flags ShareFlag.pipe then (resp, true)
  else match share.path with
    | none => ({ resp with flags := 0, payloadSz := 0 }, false)
    | some path =>
      let (payload, whole) := shareConfigPayload conf share path resp.payloadSz
      ({ resp with payload }, whole)

/-- `sizeof (struct ksmbd_share_config_response)`. -/
def shareConfigResponseSize : Nat := 544

/-- `share_config_request` of the worker: the response, if there is memory for it. The share
is held while the response is built; one without a usable path is answered as if unknown. -/
def State.shareConfigRequest (platform : Platform) (memory : Bool) (state : State) (name : CharArray 64) :
    State × Option ShareConfigResponse :=
  let unknown := if ipcMsgAlloc memory shareConfigResponseSize then some {} else none
  match if name.terminated then state.shmLookupShare platform name.str else (state, none) with
  | (state, none) => (state, unknown)
  | (state, some share) =>
    match state.shares.get? share with
    | none => (state, none)
    | some record =>
      match shmShareConfigPayloadSize state.globalConf record with
      | none => (state.putShare platform share, unknown)
      | some size =>
        let (resp, whole) := shmHandleShareConfigRequest state.globalConf record { payloadSz := size }
        let resp := if whole then resp else { resp with flags := 0, vetoListSz := 0 }
        (state.putShare platform share, if ipcMsgAlloc memory (shareConfigResponseSize + size) then some resp else none)

/-- `ksmbd_share_config_path` of the kernel side: the payload from where the path starts. -/
def ksmbdShareConfigPath (resp : ShareConfigResponse) : List UInt8 :=
  if resp.vetoListSz = 0 then resp.payload else resp.payload.drop (resp.vetoListSz + 1)

end KsmbdTools.Management
