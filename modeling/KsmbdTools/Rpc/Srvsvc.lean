import KsmbdTools.Rpc.Dcerpc

/-! The server service: share enumeration and share information. The write
phase collects shares in the pipe's entries, the read phase encodes and drops
them. -/

namespace KsmbdTools.Rpc
open Management

namespace Srvsvc

def shareEnumAll : UInt16 := 15

def getShareInfo : UInt16 := 16

/-- The levels of share information that have entry functions. -/
inductive Level where
  | ctr0
  | ctr1
  | ctr2
  deriving DecidableEq

def level? (level : UInt32) : Option Level :=
  if level = 0 then some .ctr0 else if level = 1 then some .ctr1 else if level = 2 then some .ctr2 else none

/-- `SHARE_TYPE_IPC` or `SHARE_TYPE_DISKTREE`. -/
def shareType (share : Share) : UInt32 :=
  if testFlag share.flags ShareFlag.pipe then 3
  else if asciiStrdown (share.name.take 3) = [105, 112, 99] then 3
  else 0

def entryRep (level : Level) (share : Share) : List Item :=
  match level with
  | .ctr0 => [.ref]
  | .ctr1 => [.ref, .int32 (shareType share), .ref]
  | .ctr2 =>
    let maxUses := if 0 < share.maxConnections then UInt32.ofInt share.maxConnections else 0xFFFFFFFF
    [.ref, .int32 (shareType share), .ref, .int32 0, .int32 maxUses, .int32 (UInt32.ofInt share.numConnections),
      .ref, .ref]

def entryData (level : Level) (share : Share) : List Item :=
  match level with
  | .ctr0 => [.vstring share.name]
  | .ctr1 => [.vstring share.name, .vstring share.comment]
  | .ctr2 => [.vstring share.name, .vstring share.comment, .vstring (share.path.getD []), .vstring (some [])]

def entryNullRep : Level → List Item
  | .ctr0 => [.int32 0]
  | .ctr1 => List.replicate 3 (.int32 0)
  | .ctr2 => List.replicate 8 (.int32 0)

end Srvsvc

open Srvsvc
variable (machine : Machine)

def modifySiReq (f : SrvsvcShareInfoRequest → SrvsvcShareInfoRequest) : Proc Call Status Unit :=
  Proc.modify fun call => { call with req := .srvsvc (f (call.req.siReq machine)) }

def Call.addEntry (call : Call) (management : State) (entry : Entry) : Call :=
  { call with
    store := { call.store with management }
    pipe := { call.pipe with entries := call.pipe.entries ++ [entry], numEntries := call.pipe.numEntries + 1 } }

def Call.setManagement (call : Call) (management : State) : Call :=
  { call with store := { call.store with management } }

/-- `__enum_all_shares`: only shares that are browseable and available are listed. -/
def enumAllShares (call : Call) (share : Ref Share) : Call :=
  match call.store.management.getKsmbdShare share with
  | (_, none) => call
  | (management, some share) =>
    let flags := (management.shares.get? share).elim 0 (·.flags)
    if testFlag flags ShareFlag.browseable && testFlag flags ShareFlag.available then
      call.addEntry management (.share share)
    else call.setManagement (management.putKsmbdShare machine.toPlatform share)

def setEntryProcessed (processed : EntryProcessed) : Proc Call Status Unit :=
  Proc.modify fun call => { call with pipe := { call.pipe with entryProcessed := some processed } }

def srvsvcShareEnumAllInvoke : Proc Call Status Unit := do
  Proc.modify fun call => (HashTable.values call.store.management.sharesTable).foldl (enumAllShares machine) call
  setEntryProcessed .share

def lookupHosts (hosts : Option (List CStr)) (host : Option CStr) : Option MapAnswer :=
  match hosts, host with
  | some (_ :: _), none => none
  | hosts, host => some (shmLookupHostsMap machine.toPlatform hosts (host.getD []))

/-- May this host see the share? An allow list, if there is one, decides alone. -/
def hostAllowed (share : Share) (host : Option CStr) : Option Bool :=
  (lookupHosts machine share.hostsAllow host).bind fun
    | .missing => some false
    | .present => some true
    | .absent => (lookupHosts machine share.hostsDeny host).map (· != .present)

def srvsvcShareGetInfoInvoke : Proc Call Status Unit := do
  let call ← Proc.get
  let request := call.req.siReq machine
  let name ← Call.strVal request.shareName
  let name ← Proc.deref name
  match call.store.management.shmLookupShare machine.toPlatform name with
  | (_, none) => return
  | (management, some share) =>
    let record ← Proc.deref (management.shares.get? share)
    let put := Proc.modify fun call => call.setManagement (management.putKsmbdShare machine.toPlatform share)
    if !testFlag record.flags ShareFlag.available then put
    else
      let host ← Call.strVal request.serverName.ptr
      let allowed ← Proc.deref (hostAllowed machine record host)
      if allowed then
        Proc.modify fun call => call.addEntry management (.share share)
        setEntryProcessed .share
      else put

def intMax : UInt32 := 0x7FFFFFFF

def srvsvcParseShareInfoReq (opnum : UInt16) : Proc Call Status Unit := do
  Call.readUniqVstringPtr machine .badData fun serverName req => .srvsvc { req.siReq machine with serverName }
  if opnum = shareEnumAll then
    let level ← Call.ndr .badData ndrReadUnionInt32
    if intMax < level then Proc.stop .badData
    modifySiReq machine ({ · with level })
    let _ ← Call.ndr .badData ndrReadInt32
    let _ ← Call.ndr .badData ndrReadInt32
    let array ← Call.ndr .badData ndrReadInt32
    if array != 0 then Proc.stop .badData
    let maxSize ← Call.ndr .badData ndrReadInt32
    modifySiReq machine ({ · with maxSize := maxSize.toNat })
    let resume ← Call.ndr .badData ndrReadInt32
    if resume != 0 then
      let _ ← Call.ndr .badData ndrReadInt32
  else if opnum = getShareInfo then
    modifySiReq machine ({ · with shareName := none })
    let str ← Call.ndr .badData (ndrReadVstring machine.toPlatform)
    let ref ← Call.newString str
    modifySiReq machine ({ · with shareName := some ref })
    let level ← Call.ndr .badData ndrReadInt32
    if intMax < level then Proc.stop .badData
    modifySiReq machine ({ · with level })
  else Proc.stop .badData

def srvsvcShareInfoInvoke (opnum : UInt16) (restricted : Bool) : Proc Call Status Unit := do
  srvsvcParseShareInfoReq machine opnum
  setEntryProcessed .share
  if restricted && opnum != shareEnumAll then return
  if opnum = getShareInfo then srvsvcShareGetInfoInvoke machine
  else if opnum = shareEnumAll then srvsvcShareEnumAllInvoke machine
  else Proc.stop .notImplemented

def Entry.share? (entry : Entry) : Proc Call Status Share := do
  let call ← Proc.get
  match entry with
  | .share ref => Proc.deref (call.store.management.shares.get? ref)
  | .names _ => Proc.fault

/-- `__ndr_write_array_of_structs` with the entry functions of the level. -/
def ndrWriteArrayOfStructs (level : Level) (maxEntryNr : Nat) : Proc Call Status Unit := do
  let call ← Proc.get
  Call.eachEntry call.pipe.entries maxEntryNr fun entry => do
    let share ← entry.share?
    Call.write machine (entryRep level share)
  Call.eachEntry call.pipe.entries maxEntryNr fun entry => do
    let share ← entry.share?
    Call.write machine (entryData level share)
  Call.processEntries machine maxEntryNr

/-- The array writer answers success or `KSMBD_RPC_EBAD_DATA` only, so the branch of the
source for `KSMBD_RPC_EMORE_DATA` is not reached and not here. -/
def srvsvcShareEnumAllReturn : Proc Call Status Unit := do
  let call ← Proc.get
  let nr := call.pipe.numEntries
  let level := (call.req.siReq machine).level
  Call.write machine [.int32 level, .int32 level, .ref, .int32 (UInt32.ofInt nr)]
  if nr = 0 then Call.write machine [.int32 0]
  else
    Call.write machine [.ref, .int32 (UInt32.ofInt nr)]
    let level ← Proc.deref (level? level)
    ndrWriteArrayOfStructs machine level nr.toNat
  let call ← Proc.get
  Call.write machine [.int32 (UInt32.ofInt call.pipe.numProcessed), .ref, .int32 0]

def srvsvcShareGetInfoReturn (restricted : Bool) : Proc Call Status Unit := do
  let call ← Proc.get
  let level := (call.req.siReq machine).level
  Call.write machine [.int32 level, .int32 level]
  if call.pipe.numEntries != 0 then
    let level ← Proc.deref (level? level)
    ndrWriteArrayOfStructs machine level call.pipe.numEntries.toNat
  else
    match level? level with
    | none => Proc.stop .invalidLevel
    | some level =>
      Call.write machine (entryNullRep level)
      Proc.stop (if restricted then .accessDenied else .invalidParameter)

def srvsvcClearHeaders (opnum : UInt16) (status : Status) : Proc Call Status Unit := do
  if status = .moreData then return
  let call ← Proc.get
  Call.freeString (call.req.siReq machine).serverName.ptr
  modifySiReq machine ({ · with serverName := {} })
  if opnum = getShareInfo then
    let call ← Proc.get
    Call.freeString (call.req.siReq machine).shareName
    modifySiReq machine ({ · with shareName := none })

def srvsvcShareInfoReturn (opnum : UInt16) (restricted : Bool) : Proc Call Status Status := do
  Call.seek (headerSize + responseHeaderSize)
  Proc.modify fun call => { call with pipe := { call.pipe with numProcessed := 0 } }
  let call ← Proc.get
  if (level? (call.req.siReq machine).level).isNone then Call.rpcPipeReset machine
  let status ← Proc.code .ok <|
    if opnum = getShareInfo then srvsvcShareGetInfoReturn machine restricted
    else if opnum = shareEnumAll then srvsvcShareEnumAllReturn machine
    else Proc.stop .notImplemented
  let status := if restricted && opnum != shareEnumAll then .accessDenied else status
  srvsvcClearHeaders machine opnum status
  return status

def rpcSrvsvcWriteRequest : Proc Work Status Unit := do
  let work ← Proc.get
  let opnum := work.channel.dce.reqHdr.opnum
  if opnum = shareEnumAll ∨ opnum = getShareInfo then
    Work.handle (srvsvcShareInfoInvoke machine opnum
      (rpcRestrictedContext work.store.management.globalConf work.channel.dce.rpcFlags))
  else Proc.stop .notImplemented

/-- The payload of the reply is limited anew, to what the client takes when it
enumerates. -/
def setRespPayload (payloadSz : Nat) : Proc Work Status Unit :=
  Work.modifyDce fun dce => { dce with stream := dce.stream.setExtPayload dce.stream.payload payloadSz }

def rpcSrvsvcReadRequest (maxRespSz : Nat) : Proc Work Status Unit := do
  let work ← Proc.get
  let opnum := work.channel.dce.reqHdr.opnum
  if opnum = shareEnumAll ∨ opnum = getShareInfo then
    setRespPayload (if opnum = shareEnumAll then min maxRespSz (work.channel.dce.req.siReq machine).maxSize else maxRespSz)
    let status ← Work.handle (srvsvcShareInfoReturn machine opnum
      (rpcRestrictedContext work.store.management.globalConf work.channel.dce.rpcFlags))
    sendResponse machine status
  else Proc.stop .badFunc

end KsmbdTools.Rpc
