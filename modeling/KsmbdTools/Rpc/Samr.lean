import KsmbdTools.Rpc.SmbAcl
import KsmbdTools.Rpc.Wkssvc

/-! The security account manager: connect handles and what they tell about
users. Handles live in a table of their own, keyed by their bytes. -/

namespace KsmbdTools.Rpc
open Management

namespace Samr
def close : UInt16 := 1
def querySecurity : UInt16 := 3
def lookupDomain : UInt16 := 5
def enumDomain : UInt16 := 6
def openDomain : UInt16 := 7
def getAliasMembership : UInt16 := 16
def lookupNames : UInt16 := 17
def openUser : UInt16 := 34
def queryUserInfo : UInt16 := 36
def getGroupForUser : UInt16 := 39
def connect5 : UInt16 := 64
end Samr

open Samr
variable (machine : Machine)

def domainName : CStr := asciiStrup (machine.gethostname.getD [])

def domainEntries : List CStr := [domainName machine, [66, 117, 105, 108, 116, 105, 110]]

def newHandle (id : UInt32) : Handle := Bytes.encodeLittle 4 (id + 1).toNat ++ List.replicate 16 0

def modifySmReq (f : SamrInfoRequest → SamrInfoRequest) : Proc Call Status Unit :=
  Proc.modify fun call => { call with req := .samr (f (call.req.smReq machine)) }

def modifyChTable (f : HashTable Handle ConnectHandle → HashTable Handle ConnectHandle) : Proc Call Status Unit :=
  Proc.modify fun call => { call with store := { call.store with chTable := f call.store.chTable } }

/-- NULL is what its caller answers with `KSMBD_RPC_ENOMEM`. -/
def samrChAlloc : Proc Call Status Handle := do
  let call ← Proc.get
  if !machine.mallocConnectHandle call.store call.pipe.id then Proc.stop .noMem
  let handle := newHandle call.pipe.id
  let (table, new) := HashTable.add call.store.chTable handle ⟨1, none⟩
  modifyChTable fun _ => table
  if !new then
    -- `samr_ch_free` removes by the key, which the record of before has as well.
    modifyChTable fun table => (HashTable.drop table handle).1
    Proc.stop .noMem
  return handle

def samrChLookup : Proc Call Status (Handle × ConnectHandle) := do
  let call ← Proc.get
  let handle := (call.req.smReq machine).handle
  match call.store.chTable.lookup handle with
  | none => Proc.stop .badFid
  | some ch => return (handle, ch)

/-- The invoke function of the methods that take a handle and nothing else. -/
def samrReadHandle (code : Status) : Proc Call Status Unit := do
  let handle ← Call.ndr code (ndrReadBytes handleSize)
  modifySmReq machine ({ · with handle })

def samrConnect5Invoke : Proc Call Status Unit := do
  let refId ← Call.ndr .invalidParameter ndrReadInt32
  if refId != 0 then
    let _ ← Call.ndr .invalidParameter (ndrReadVstring machine.toPlatform)
  let _ ← Call.ndr .invalidParameter ndrReadInt32
  let level ← Call.ndr .invalidParameter ndrReadInt32
  if intMax < level then Proc.stop .invalidParameter
  modifySmReq machine ({ · with level })
  let _ ← Call.ndr .invalidParameter ndrReadInt32
  let clientVersion ← Call.ndr .invalidParameter ndrReadInt32
  if intMax < clientVersion then Proc.stop .invalidParameter
  modifySmReq machine ({ · with clientVersion })

def samrConnect5Return : Proc Call Status Unit := do
  let call ← Proc.get
  let request := call.req.smReq machine
  Call.write machine [.int32 request.level, .int32 request.level, .int32 request.clientVersion, .int32 0]
  let handle ← samrChAlloc machine
  Call.write machine [.bytes handle]

def samrEnumDomainInvoke : Proc Call Status Unit := samrReadHandle machine .invalidParameter

def domainArrayItems (entries : List CStr) : List Item :=
  (entries.zipIdx.flatMap fun (entry, index) =>
    let nameLen := UInt16.ofNat (entry.length * 2)
    [.int32 (UInt32.ofNat index), .int16 nameLen, .int16 nameLen, .ref]) ++ entries.map .string

def enumDomainItems (entries : List CStr) : List Item :=
  let count := UInt32.ofNat entries.length
  [.int32 0, .ref, .int32 count, .ref, .int32 count] ++ domainArrayItems entries ++ [.int32 count]

def samrEnumDomainReturn : Proc Call Status Unit := do
  let _ ← samrChLookup machine
  Call.write machine (enumDomainItems (domainEntries machine))

def samrReadName : Proc Call Status Unit := do
  let _ ← Call.ndr .invalidParameter ndrReadInt16
  let _ ← Call.ndr .invalidParameter ndrReadInt16
  Call.readUniqVstringPtr machine .invalidParameter fun name req => .samr { req.smReq machine with name }

def samrLookupDomainInvoke : Proc Call Status Unit := do
  samrReadHandle machine .invalidParameter
  samrReadName machine

def samrLookupDomainReturn : Proc Call Status Unit := do
  let _ ← samrChLookup machine
  Call.write machine [.ref, .int32 4]
  let call ← Proc.get
  let ptr := (call.req.smReq machine).name.ptr
  let name ← Call.strVal ptr
  let name ← Proc.deref name
  Proc.each (domainEntries machine) fun entry =>
    if name = entry then Call.write machine (smbInitDomainSid call.store.management.globalConf).items else pure ()
  Call.freeString ptr
  modifySmReq machine ({ · with name := {} })

def samrOpenDomainInvoke : Proc Call Status Unit := samrReadHandle machine .invalidParameter

def samrOpenDomainReturn : Proc Call Status Unit := do
  let (handle, ch) ← samrChLookup machine
  modifyChTable (·.replace handle { ch with refcount := ch.refcount + 1 })
  Call.write machine [.bytes handle]

def samrLookupNamesInvoke : Proc Call Status Unit := do
  samrReadHandle machine .invalidParameter
  let _ ← Call.ndr .invalidParameter ndrReadInt32
  let _ ← Call.ndr .invalidParameter ndrReadInt32
  let _ ← Call.ndr .invalidParameter ndrReadInt32
  let _ ← Call.ndr .invalidParameter ndrReadInt32
  samrReadName machine

def lookupNamesItems (uid : UInt32) : List Item :=
  [.int32 1, .ref, .int32 1, .int32 uid, .int32 1, .ref, .int32 1, .int32 1]

/-- The handle keeps the reference to the user that the lookup takes. -/
def samrLookupNamesReturn : Proc Call Status Unit := do
  let (handle, ch) ← samrChLookup machine
  let call ← Proc.get
  let name ← Call.strVal (call.req.smReq machine).name.ptr
  let (management, user) := call.store.management.usmLookupUser name
  Proc.modify (·.setManagement management)
  modifyChTable (·.replace handle { ch with user })
  match user with
  | none => Proc.stop .accessDenied
  | some user =>
    let record ← Proc.deref (management.users.get? user)
    Call.write machine (lookupNamesItems record.uid)

def samrOpenUserInvoke : Proc Call Status Unit := do
  samrReadHandle machine .invalidParameter
  let _ ← Call.ndr .invalidParameter ndrReadInt32
  let rid ← Call.ndr .invalidParameter ndrReadInt32
  modifySmReq machine ({ · with rid })

def samrOpenUserReturn : Proc Call Status Unit := do
  let (handle, ch) ← samrChLookup machine
  modifyChTable (·.replace handle { ch with refcount := ch.refcount + 1 })
  match ch.user with
  | none => Proc.stop .badFid
  | some user =>
    let call ← Proc.get
    let record ← Proc.deref (call.store.management.users.get? user)
    if (call.req.smReq machine).rid != record.uid then Proc.stop .badFid
    Call.write machine [.bytes handle]

def samrQueryUserInfoInvoke : Proc Call Status Unit := samrReadHandle machine .invalidParameter

def queryUserInfoItems (hostname name : CStr) (uid : UInt32) : List Item :=
  let homeDir := [92, 92] ++ hostname ++ [92] ++ name
  let profilePath := homeDir ++ [92, 112, 114, 111, 102, 105, 108, 101]
  let nameLen := UInt16.ofNat (name.length * 2)
  let homeLen := UInt16.ofNat (homeDir.length * 2)
  let profileLen := UInt16.ofNat (profilePath.length * 2)
  let empty : List Item := [.ref, .int16 0, .int16 0]
  List.flatten [
    [.ref, .int16 0x15, .int16 0], List.replicate 6 (.int64 0),
    [.int16 nameLen, .int16 nameLen, .ref, .int16 nameLen, .int16 nameLen, .ref, .int16 homeLen, .int16 homeLen],
    empty, empty, [.ref, .int16 profileLen, .int16 profileLen], empty, empty, empty, empty, [.ref],
    (List.replicate 3 [.int16 0, .int16 0, .int32 0]).flatten,
    [.int32 0, .int32 0, .int32 uid, .int32 513, .int32 0x10, .int32 0x00FFFFFF, .int16 168, .int16 0, .ref],
    List.replicate 4 (.int16 0), List.replicate 4 (.int8 0), [.string name, .string name, .string homeDir],
    List.replicate 6 (.int32 0), [.string profilePath], List.replicate 12 (.int32 0),
    [.int32 1260, .int32 0, .int32 21], List.replicate 21 (.int8 0xff)]

def samrQueryUserInfoReturn : Proc Call Status Unit := do
  let (_, ch) ← samrChLookup machine
  match machine.gethostname with
  | none => Proc.stop .noMem
  | some hostname =>
    let user ← Proc.deref ch.user
    let call ← Proc.get
    let record ← Proc.deref (call.store.management.users.get? user)
    Call.write machine (queryUserInfoItems hostname record.name record.uid)

def samrQuerySecurityInvoke : Proc Call Status Unit := samrReadHandle machine .invalidParameter

def samrQuerySecurityReturn : Proc Call Status Unit := do
  let (_, ch) ← samrChLookup machine
  match ch.user with
  | none => Proc.stop .badFid
  | some user =>
    let call ← Proc.get
    let record ← Proc.deref (call.store.management.users.get? user)
    let currOffset ← Call.tell
    Call.write machine [.skip 16]
    let secDescLen ← buildSecDesc machine call.store.management.globalConf record.uid
    let payloadOffset ← Call.tell
    Call.seek currOffset
    Call.write machine [.ref, .int32 (UInt32.ofNat secDescLen), .ref, .int32 (UInt32.ofNat secDescLen)]
    Call.seek payloadOffset

def samrGetGroupForUserInvoke : Proc Call Status Unit := samrReadHandle machine .invalidParameter

def getGroupForUserItems : List Item := [.ref, .int32 1, .ref, .int32 1, .int32 513, .int32 7]

def samrGetGroupForUserReturn : Proc Call Status Unit := do
  let _ ← samrChLookup machine
  Call.write machine getGroupForUserItems

def samrGetAliasMembershipInvoke : Proc Call Status Unit := samrReadHandle machine .accessDenied

def getAliasMembershipItems : List Item := [.int32 0, .ref, .int32 0]

def samrGetAliasMembershipReturn : Proc Call Status Unit := do
  let _ ← samrChLookup machine
  Call.write machine getAliasMembershipItems

def samrCloseInvoke : Proc Call Status Unit := samrReadHandle machine .accessDenied

def samrCloseReturn : Proc Call Status Unit := do
  let (handle, ch) ← samrChLookup machine
  modifyChTable fun table =>
    if 1 < ch.refcount then table.replace handle { ch with refcount := ch.refcount - 1 } else table.erase handle
  Call.write machine [.int64 0, .int64 0, .int32 0]

def samrInvoke (opnum : UInt16) : Proc Call Status Unit :=
  if opnum = connect5 then samrConnect5Invoke machine
  else if opnum = enumDomain then samrEnumDomainInvoke machine
  else if opnum = lookupDomain then samrLookupDomainInvoke machine
  else if opnum = openDomain then samrOpenDomainInvoke machine
  else if opnum = lookupNames then samrLookupNamesInvoke machine
  else if opnum = openUser then samrOpenUserInvoke machine
  else if opnum = queryUserInfo then samrQueryUserInfoInvoke machine
  else if opnum = querySecurity then samrQuerySecurityInvoke machine
  else if opnum = getGroupForUser then samrGetGroupForUserInvoke machine
  else if opnum = getAliasMembership then samrGetAliasMembershipInvoke machine
  else if opnum = close then samrCloseInvoke machine
  else Proc.stop .notImplemented

def samrMethodReturn (opnum : UInt16) : Proc Call Status Unit :=
  if opnum = connect5 then samrConnect5Return machine
  else if opnum = enumDomain then samrEnumDomainReturn machine
  else if opnum = lookupDomain then samrLookupDomainReturn machine
  else if opnum = openDomain then samrOpenDomainReturn machine
  else if opnum = lookupNames then samrLookupNamesReturn machine
  else if opnum = openUser then samrOpenUserReturn machine
  else if opnum = queryUserInfo then samrQueryUserInfoReturn machine
  else if opnum = querySecurity then samrQuerySecurityReturn machine
  else if opnum = getGroupForUser then samrGetGroupForUserReturn machine
  else if opnum = getAliasMembership then samrGetAliasMembershipReturn machine
  else if opnum = close then samrCloseReturn machine
  else Proc.stop .badFunc

def samrReturn (opnum : UInt16) (restricted : Bool) : Proc Call Status Status := do
  Call.seek (headerSize + responseHeaderSize)
  let status ← Proc.code .ok (samrMethodReturn machine opnum)
  return if restricted then .accessDenied else status

def rpcSamrWriteRequest : Proc Work Status Unit := do
  let work ← Proc.get
  Work.handle (samrInvoke machine work.channel.dce.reqHdr.opnum)

def rpcSamrReadRequest : Proc Work Status Unit := do
  let work ← Proc.get
  let status ← Work.handle (samrReturn machine work.channel.dce.reqHdr.opnum
    (rpcRestrictedContext work.store.management.globalConf work.channel.dce.rpcFlags))
  sendResponse machine status
  answer status

end KsmbdTools.Rpc
