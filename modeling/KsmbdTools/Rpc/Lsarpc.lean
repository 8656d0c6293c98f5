import KsmbdTools.Rpc.Samr

/-! The local security authority: policy handles, and names for security
identifiers and back. The lookups collect entries like the server service. -/

namespace KsmbdTools.Rpc
open Management

namespace Lsarpc
/-- `DS_ROLE_GET_PRIMARY_DOMAIN_INFO` and `CLOSE`, told apart by the bound interface. -/
def primaryDomainOrClose : UInt16 := 0
def queryInfoPolicy : UInt16 := 7
def openPolicy2 : UInt16 := 44
def lookupSid2 : UInt16 := 57
def lookupNames3 : UInt16 := 68
end Lsarpc

variable (machine : Machine)

def modifyLrReq (f : LsarpcInfoRequest → LsarpcInfoRequest) : Proc Call Status Unit :=
  Proc.modify fun call => { call with req := .lsarpc (f (call.req.lrReq machine)) }

def modifyPhTable (f : HashTable Handle Unit → HashTable Handle Unit) : Proc Call Status Unit :=
  Proc.modify fun call => { call with store := { call.store with phTable := f call.store.phTable } }

def lsarpcPhAlloc : Proc Call Status Handle := do
  let call ← Proc.get
  if !machine.mallocPolicyHandle call.store call.pipe.id then Proc.stop .noMem
  let handle := newHandle call.pipe.id
  let (table, new) := HashTable.add call.store.phTable handle ()
  modifyPhTable fun _ => table
  if !new then
    modifyPhTable fun table => (HashTable.drop table handle).1
    Proc.stop .noMem
  return handle

def lsarpcPhLookup : Proc Call Status Handle := do
  let call ← Proc.get
  let handle := (call.req.lrReq machine).handle
  if handle ∈ call.store.phTable then return handle else Proc.stop .badFid

def lsarpcReadHandle : Proc Call Status Unit := do
  let handle ← Call.ndr .invalidParameter (ndrReadBytes handleSize)
  modifyLrReq machine ({ · with handle })

def lsarpcReadLevel : Proc Call Status Unit := do
  let level ← Call.ndr .invalidParameter ndrReadInt16
  modifyLrReq machine ({ · with level := UInt32.ofNat level.toNat })

/-- The calls of `lsa_domain_account_rep`. -/
def domainAccountRep (domain : CStr) : List Item :=
  [.int16 (UInt16.ofNat (domain.length * 2)), .int16 (UInt16.ofNat ((domain.length + 1) * 2)), .ref, .ref]

/-- The calls of `lsa_domain_account_data`. -/
def domainAccountData (domain : CStr) (sid : SmbSid) : List Item :=
  [.lsaString domain, .int32 (UInt32.ofNat sid.numSubauth)] ++ sid.items

def lsarpcGetPrimaryDomainInfoInvoke : Proc Call Status Unit := lsarpcReadLevel machine

def primaryDomainInfoItems (domain : CStr) : List Item :=
  [.ref, .int16 1, .int16 0, .int16 2, .int16 0, .int32 0, .ref, .int32 0, .int32 0] ++
    List.replicate 16 (.int8 0) ++ [.vstring domain]

def lsarpcGetPrimaryDomainInfoReturn : Proc Call Status Unit := do
  let call ← Proc.get
  if (call.req.lrReq machine).level != 1 then Proc.stop .badFunc
  Call.write machine (primaryDomainInfoItems (domainName machine))

def lsarpcOpenPolicy2Return : Proc Call Status Unit := do
  let handle ← lsarpcPhAlloc machine
  Call.write machine [.bytes handle]

def lsarpcQueryInfoPolicyInvoke : Proc Call Status Unit := do
  lsarpcReadHandle machine
  lsarpcReadLevel machine

def queryInfoPolicyItems (domain : CStr) (sid : SmbSid) : List Item :=
  [.ref, .int16 5, .int16 0] ++ domainAccountRep domain ++ domainAccountData domain sid

def lsarpcQueryInfoPolicyReturn : Proc Call Status Unit := do
  let _ ← lsarpcPhLookup machine
  let call ← Proc.get
  if (call.req.lrReq machine).level != 5 then Proc.stop .badFunc
  Call.write machine (queryInfoPolicyItems (domainName machine) (smbInitDomainSid call.store.management.globalConf))

/-- The entry for an identifier: its last sub-authority is looked up as a user id. -/
def sidEntry (management : State) (index : Nat) (sid : SmbSid) : State × LsarpcNamesInfo :=
  let domain := { sid with numSubauth := sid.numSubauth - 1 }
  let rid := sid.subAuth[(sid.numSubauth - 1).val]?.getD 0
  let (management, user) := management.usmLookupUser (machine.getpwuid rid)
  let info : LsarpcNamesInfo := { index := UInt32.ofNat (index + 1), sid := domain, user }
  (management, info.report (setDomainName machine management.globalConf domain))

/-- An identifier that can be read has a sub-authority, so the loop takes all of them. -/
def lsarpcLookupSid2Invoke : Proc Call Status Unit := do
  lsarpcReadHandle machine
  let numSid ← Call.ndr .invalidParameter ndrReadInt32
  if 256 < numSid then Proc.stop .invalidParameter
  let _ ← Call.ndr .invalidParameter ndrReadInt32
  let _ ← Call.ndr .invalidParameter ndrReadInt32
  Proc.each (List.range numSid.toNat) fun _ => do
    let _ ← Call.ndr .invalidParameter ndrReadInt32
  Proc.each (List.range numSid.toNat) fun index => do
    let _ ← Call.ndr .invalidParameter ndrReadInt32
    let sid ← Call.ndr .invalidParameter smbReadSid
    Proc.modify fun call =>
      let (management, info) := sidEntry machine call.store.management index sid
      call.addEntry management (.names info)
  setEntryProcessed .names

def Entry.names? : Entry → Proc Call Status LsarpcNamesInfo
  | .names info => pure info
  | .share _ => Proc.fault

/-- The name of the entry's user, or `None`. -/
def userName (info : LsarpcNamesInfo) : Proc Call Status CStr := do
  let call ← Proc.get
  match info.user with
  | none => return [78, 111, 110, 101]
  | some user =>
    let record ← Proc.deref (call.store.management.users.get? user)
    return record.name

def sid2NameRep (info : LsarpcNamesInfo) (name : CStr) : List Item :=
  let nameLen := UInt16.ofNat (name.length * 2)
  [.int16 (UInt16.ofNat info.type.toNat), .int16 0, .int16 nameLen, .int16 nameLen, .ref, .int32 info.index, .int32 0]

/-- The entries dropped behind a reply that was written to its end. -/
def lsarpcDropEntries : Proc Call Status Unit := do
  let call ← Proc.get
  if call.pipe.entryProcessed.isSome then
    Call.processEntries machine call.pipe.numEntries.toNat
    Proc.modify fun call => { call with pipe := { call.pipe with numEntries := 0 } }

def Entry.unmapped : Entry → Bool
  | .names info => info.type == 0xFFFFFFFF
  | .share _ => false

def lsarpcLookupSid2Return : Proc Call Status Unit := do
  let _ ← lsarpcPhLookup machine
  let call ← Proc.get
  let entries := call.pipe.entries
  let nr := call.pipe.numEntries.toNat
  let count := UInt32.ofInt call.pipe.numEntries
  Call.write machine [.ref, .int32 count, .ref, .int32 32, .int32 count]
  Call.eachEntry entries nr fun entry => do
    let info ← entry.names?
    Call.write machine (domainAccountRep info.domainStr)
  Call.eachEntry entries nr fun entry => do
    let info ← entry.names?
    Call.write machine (domainAccountData info.domainStr info.sid)
  Call.write machine [.int32 count, .ref, .int32 count]
  Call.eachEntry entries nr fun entry => do
    let info ← entry.names?
    let name ← userName info
    Call.write machine (sid2NameRep info name)
  Call.eachEntry entries nr fun entry => do
    let info ← entry.names?
    let name ← userName info
    Call.write machine [.string name]
  Call.write machine [.int32 count]
  lsarpcDropEntries machine
  if (entries.take nr).any Entry.unmapped then Proc.stop .someNotMapped

/-- What `strtok_r` finds behind the first token, when there is a backslash at all. -/
def accountName (username : CStr) : Option CStr :=
  let behind := (username.dropWhile (· == 92)).dropWhile (· != 92)
  let name := (behind.dropWhile (· == 92)).takeWhile (· != 92)
  if 92 ∈ username ∧ name ≠ [] then some name else none

def lookupNames3Loop : Nat → Proc Call Status Unit
  | 0 => pure ()
  | count + 1 => do
    let _ ← Call.ndr .invalidParameter ndrReadInt16
    let _ ← Call.ndr .invalidParameter ndrReadInt16
    let refId ← Call.ndr .invalidParameter ndrReadInt32
    let username ← if refId = 0 then pure none else do
      let str ← Call.ndr .invalidParameter (ndrReadVstring machine.toPlatform)
      pure (some str)
    let call ← Proc.get
    match call.store.management.usmLookupUser (username.bind accountName) with
    | (_, none) => return
    | (management, some user) =>
      Proc.modify fun call => call.addEntry management (.names { machine.mallocNamesInfo with
        user := some user, sid := smbInitDomainSid management.globalConf })
      lookupNames3Loop count

def lsarpcLookupNames3Invoke : Proc Call Status Unit := do
  lsarpcReadHandle machine
  let numNames ← Call.ndr .invalidParameter ndrReadInt32
  let call ← Proc.get
  if intMax < numNames ∨ call.stream.payloadSz / 4 < numNames.toNat then Proc.stop .invalidParameter
  let _ ← Call.ndr .invalidParameter ndrReadInt32
  lookupNames3Loop machine numNames.toNat
  setEntryProcessed .names

def names3Rep (index : Nat) : List Item :=
  [.int16 1, .int16 0, .ref, .int32 (UInt32.ofNat index), .int32 0]

def names3Items (domain : CStr) (sid : SmbSid) (count : UInt32) : List Item :=
  [.ref, .int32 1, .ref, .int32 32, .int32 1] ++ domainAccountRep domain ++ domainAccountData domain sid ++
    [.int32 count, .ref, .int32 count]

def names3Sid (index : Nat) : Proc Call Status Unit := do
  let call ← Proc.get
  let entry ← Proc.deref call.pipe.entries[index]?
  let info ← entry.names?
  if sidMaxSubAuthorities ≤ info.sid.numSubauth then return
  let user ← Proc.deref info.user
  let record ← Proc.deref (call.store.management.users.get? user)
  let sid := info.sid.push record.uid
  Proc.modify fun call => { call with
    pipe := { call.pipe with entries := call.pipe.entries.set index (.names { info with sid }) } }
  Call.write machine (.int32 (UInt32.ofNat sid.numSubauth) :: sid.items)

def lsarpcLookupNames3Return : Proc Call Status Unit := do
  let _ ← lsarpcPhLookup machine
  let call ← Proc.get
  let nr := call.pipe.numEntries.toNat
  let count := UInt32.ofInt call.pipe.numEntries
  Call.write machine (names3Items (domainName machine) (smbInitDomainSid call.store.management.globalConf) count)
  Proc.each (List.range nr) fun index => Call.write machine (names3Rep index)
  Proc.each (List.range nr) fun index => names3Sid machine index
  Call.write machine [.int32 count]
  lsarpcDropEntries machine

def lsarpcCloseInvoke : Proc Call Status Unit := lsarpcReadHandle machine

def lsarpcCloseReturn : Proc Call Status Unit := do
  let handle ← lsarpcPhLookup machine
  modifyPhTable (·.erase handle)
  Call.write machine [.int64 0, .int64 0, .int32 0]

/-- Was the request made in the context bound to the dssetup interface? -/
def Dce.dssetup (dce : Dce) : Bool := dce.dssetupContextId == some dce.reqHdr.contextId

open Lsarpc

def lsarpcInvoke (opnum : UInt16) (dssetup : Bool) : Proc Call Status Unit :=
  if opnum = primaryDomainOrClose then
    if dssetup then lsarpcGetPrimaryDomainInfoInvoke machine else lsarpcCloseInvoke machine
  else if opnum = openPolicy2 then pure ()
  else if opnum = queryInfoPolicy then lsarpcQueryInfoPolicyInvoke machine
  else if opnum = lookupSid2 then lsarpcLookupSid2Invoke machine
  else if opnum = lookupNames3 then lsarpcLookupNames3Invoke machine
  else Proc.stop .notImplemented

def lsarpcMethodReturn (opnum : UInt16) (dssetup : Bool) : Proc Call Status Unit :=
  if opnum = primaryDomainOrClose then
    if dssetup then lsarpcGetPrimaryDomainInfoReturn machine else lsarpcCloseReturn machine
  else if opnum = openPolicy2 then lsarpcOpenPolicy2Return machine
  else if opnum = queryInfoPolicy then lsarpcQueryInfoPolicyReturn machine
  else if opnum = lookupSid2 then lsarpcLookupSid2Return machine
  else if opnum = lookupNames3 then lsarpcLookupNames3Return machine
  else Proc.stop .badFunc

def lsarpcReturn (opnum : UInt16) (dssetup : Bool) : Proc Call Status Status := do
  Call.seek (headerSize + responseHeaderSize)
  Proc.code .ok (lsarpcMethodReturn machine opnum dssetup)

def rpcLsarpcWriteRequest : Proc Work Status Unit := do
  let work ← Proc.get
  Work.handle (lsarpcInvoke machine work.channel.dce.reqHdr.opnum work.channel.dce.dssetup)

def rpcLsarpcReadRequest : Proc Work Status Unit := do
  let work ← Proc.get
  let status ← Work.handle (lsarpcReturn machine work.channel.dce.reqHdr.opnum work.channel.dce.dssetup)
  sendResponse machine status
  answer status

end KsmbdTools.Rpc
