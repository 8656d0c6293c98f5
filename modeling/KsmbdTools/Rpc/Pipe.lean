import KsmbdTools.Management.Share
import KsmbdTools.Rpc.Ndr

/-! Open pipes, the requests parsed on them, and the tables the RPC services
work on. -/

namespace KsmbdTools.Rpc
open Management

/-- The `KSMBD_RPC_` codes, and the `-EEXIST` of `rpc_open_request`. -/
inductive Status where
  | ok
  | badFunc
  | accessDenied
  | badFid
  | noMem
  | badData
  | notImplemented
  | invalidParameter
  | invalidLevel
  | moreData
  | someNotMapped
  | exists
  deriving DecidableEq, Repr

namespace Status

def toUInt32 : Status → UInt32
  | .ok => 0
  | .badFunc => 0x01
  | .accessDenied => 0x05
  | .badFid => 0x06
  | .noMem => 0x08
  | .badData => 0x0D
  | .notImplemented => 0x40
  | .invalidParameter => 0x57
  | .invalidLevel => 0x7C
  | .moreData => 0xEA
  | .someNotMapped => 0x107
  | .exists => 0xFFFFFFEF

end Status

namespace Method
def methodReturn : UInt32 := 0x0001
def srvsvcInvoke : UInt32 := 0x0002
def wkssvcInvoke : UInt32 := 0x0004
def ioctl : UInt32 := 0x0009
def openPipe : UInt32 := 0x0010
def write : UInt32 := 0x0020
def read : UInt32 := 0x0041
def close : UInt32 := 0x0080
def rap : UInt32 := 0x0101
def restrictedContext : UInt32 := 0x0200
def samrInvoke : UInt32 := 0x0400
def lsarpcInvoke : UInt32 := 0x0800
def query : UInt32 := 0x1001
end Method

namespace Ptype
def request : UInt8 := 0x00
def response : UInt8 := 0x02
def bind : UInt8 := 0x0B
def bindAck : UInt8 := 0x0C
def bindNack : UInt8 := 0x0D
def altCont : UInt8 := 0x0E
def altContResp : UInt8 := 0x0F
end Ptype

structure Header where
  rpcVers : UInt8 := 0
  rpcVersMinor : UInt8 := 0
  ptype : UInt8 := 0
  pfcFlags : UInt8 := 0
  packedDrep : Vector UInt8 4 := Vector.replicate 4 0
  fragLength : UInt16 := 0
  authLength : UInt16 := 0
  callId : UInt32 := 0
  deriving DecidableEq

/-- `struct dcerpc_request_header`; the response header lies over it. -/
structure RequestHeader where
  allocHint : UInt32 := 0
  contextId : UInt16 := 0
  opnum : UInt16 := 0
  deriving DecidableEq

abbrev Handle := List UInt8

def handleSize : Nat := 20

structure UniqCharPtr where
  refId : UInt32 := 0
  ptr : Option (Ref CStr) := none
  deriving DecidableEq

structure SrvsvcShareInfoRequest where
  level : UInt32 := 0
  maxSize : Nat := 0
  serverName : UniqCharPtr := {}
  shareName : Option (Ref CStr) := none
  deriving DecidableEq

structure WkssvcNetwkstaInfoRequest where
  serverName : UniqCharPtr := {}
  level : UInt32 := 0
  deriving DecidableEq

structure SamrInfoRequest where
  level : UInt32 := 0
  clientVersion : UInt32 := 0
  name : UniqCharPtr := {}
  handle : Handle := List.replicate handleSize 0
  rid : UInt32 := 0
  deriving DecidableEq

structure LsarpcInfoRequest where
  handle : Handle := List.replicate handleSize 0
  level : UInt32 := 0
  deriving DecidableEq

structure DcerpcSyntax where
  timeLow : UInt32
  timeMid : UInt16
  timeHiAndVersion : UInt16
  clockSeq : List UInt8
  node : List UInt8
  verMajor : UInt16
  verMinor : UInt16
  deriving DecidableEq

/-- A parsed context has at least one transfer syntax. -/
structure DcerpcContext where
  id : UInt16
  abstractSyntax : DcerpcSyntax
  firstTransfer : DcerpcSyntax
  moreTransfers : List DcerpcSyntax
  deriving DecidableEq

def DcerpcContext.transferSyntaxes (context : DcerpcContext) : List DcerpcSyntax :=
  context.firstTransfer :: context.moreTransfers

structure DcerpcBindRequest where
  flags : UInt32 := 0
  maxXmitFragSz : UInt16 := 0
  maxRecvFragSz : UInt16 := 0
  assocGroupId : UInt32 := 0
  numContexts : Nat := 0
  list : Option (Ref (List DcerpcContext)) := none
  deriving DecidableEq

/-- The union of parsed requests in a `ksmbd_dcerpc`, by the member written last.
A new `ksmbd_dcerpc` is zeroed. -/
inductive Req where
  | zero
  | srvsvc (request : SrvsvcShareInfoRequest)
  | bind (request : DcerpcBindRequest)
  | wkssvc (request : WkssvcNetwkstaInfoRequest)
  | samr (request : SamrInfoRequest)
  | lsarpc (request : LsarpcInfoRequest)
  deriving DecidableEq

instance neZero_sixteen : NeZero 16 := ⟨by decide⟩

/-- `struct smb_sid`, its arrays as long as the source has them and never counted as
longer. -/
structure SmbSid where
  revision : UInt8 := 0
  numSubauth : Fin 16 := 0
  authority : Vector UInt8 6 := Vector.replicate 6 0
  subAuth : Vector UInt32 15 := Vector.replicate 15 0
  deriving DecidableEq

def SmbSid.genSubauth (sid : SmbSid) : UInt32 × UInt32 × UInt32 := (sid.subAuth[1], sid.subAuth[2], sid.subAuth[3])

structure LsarpcNamesInfo where
  index : UInt32 := 0
  type : UInt32 := 0
  domainStr : CStr := []
  sid : SmbSid := {}
  user : Option (Ref User) := none
  deriving DecidableEq

inductive Entry where
  | share (share : Ref Share)
  | names (info : LsarpcNamesInfo)
  deriving DecidableEq

/-- The functions `pipe->entry_processed` is set to. -/
inductive EntryProcessed where
  | share
  | names
  deriving DecidableEq

/-- `struct ksmbd_rpc_pipe`, its `dce` kept beside it. -/
structure Pipe where
  id : UInt32
  ioctlReplyConsumed : Bool := false
  numEntries : Int := 0
  numProcessed : Int := 0
  entries : List Entry := []
  entryProcessed : Option EntryProcessed := none
  deriving DecidableEq

/-- `struct ksmbd_dcerpc`. `rpcFlags` are the flags of the command `rpc_req` points at, kept
by value: once it is answered the worker frees the command, and `rpc_req` dangles. The entry
functions are those of the requested level and not kept here. -/
structure Dce where
  stream : Stream
  dssetupContextId : Option UInt16 := none
  hdr : Header := {}
  reqHdr : RequestHeader := {}
  req : Req := .zero
  rpcFlags : UInt32 := 0
  /-- `KSMBD_DCERPC_RETURN_READY`. -/
  returnReady : Bool := false
  deriving DecidableEq

structure Channel where
  pipe : Pipe
  dce : Dce
  deriving DecidableEq

structure ConnectHandle where
  refcount : UInt32
  user : Option (Ref User) := none
  deriving DecidableEq

/-- What the services share. Nothing of a policy handle is used but its key. -/
structure Store where
  management : State
  chTable : HashTable Handle ConnectHandle := ∅
  phTable : HashTable Handle Unit := ∅
  strings : Heap CStr := .empty
  contexts : Heap (List DcerpcContext) := .empty
  deriving DecidableEq

/-- The daemon on one machine: besides the platform, what its memory shows through
the other members of the union of requests and in a block fresh from `malloc`, and whether
there is memory for the record of a handle that the pipe with this id asks for. -/
structure Machine extends Platform where
  asSrvsvc : Req → SrvsvcShareInfoRequest
  asBind : Req → DcerpcBindRequest
  asWkssvc : Req → WkssvcNetwkstaInfoRequest
  asSamr : Req → SamrInfoRequest
  asLsarpc : Req → LsarpcInfoRequest
  mallocNamesInfo : LsarpcNamesInfo
  mallocConnectHandle : Store → UInt32 → Bool
  mallocPolicyHandle : Store → UInt32 → Bool

namespace Req
variable (machine : Machine)

def siReq : Req → SrvsvcShareInfoRequest
  | .zero => {}
  | .srvsvc request => request
  | other => machine.asSrvsvc other

def biReq : Req → DcerpcBindRequest
  | .zero => {}
  | .bind request => request
  | other => machine.asBind other

def wiReq : Req → WkssvcNetwkstaInfoRequest
  | .zero => {}
  | .wkssvc request => request
  | other => machine.asWkssvc other

def smReq : Req → SamrInfoRequest
  | .zero => {}
  | .samr request => request
  | other => machine.asSamr other

def lrReq : Req → LsarpcInfoRequest
  | .zero => {}
  | .lsarpc request => request
  | other => machine.asLsarpc other

end Req

/-- The open pipes by their ids. `dangling` says that the pipe with the id -1 was freed and
not taken from the table of the source, which does that for every other id. -/
structure Server where
  store : Store
  pipes : HashTable UInt32 Channel := ∅
  dangling : Bool := false
  deriving DecidableEq

/-- What the handlers of one method work on. The header and the ready flag of the
pipe are out of their reach. -/
structure Call where
  store : Store
  pipe : Pipe
  stream : Stream
  req : Req
  deriving DecidableEq

/-- What the read and write functions of a service work on. `payloadSz` is that of
the response command. -/
structure Work where
  store : Store
  channel : Channel
  payloadSz : Nat := 0
  deriving DecidableEq

namespace Work

def call (work : Work) : Call :=
  ⟨work.store, work.channel.pipe, work.channel.dce.stream, work.channel.dce.req⟩

def setCall (work : Work) (call : Call) : Work :=
  { work with
    store := call.store
    channel := { pipe := call.pipe, dce := { work.channel.dce with stream := call.stream, req := call.req } } }

def handle {ε α : Type} (handler : Proc Call ε α) : Proc Work ε α := handler.zoom call setCall

end Work

def rpcRestrictedContext (conf : SmbconfGlobal) (flags : UInt32) : Bool :=
  conf.restrictAnon != 0 && testFlag flags Method.restrictedContext

def answer {σ : Type} (status : Status) : Proc σ Status Unit :=
  if status = .ok then pure () else Proc.stop status

namespace Call
variable (machine : Machine)

/-- An NDR function called from a handler that answers its error with the code. -/
def ndr {α : Type} (code : Status) (program : Ndr α) : Proc Call Status α :=
  Proc.orStop code (program.zoom (·.stream) fun call stream => { call with stream })

def write (items : List Item) : Proc Call Status Unit := ndr .badData (ndrWrite machine.toPlatform items)

def tell : Proc Call Status Nat := do return (← Proc.get).stream.offset

def seek (offset : Nat) : Proc Call Status Unit :=
  Proc.modify fun call => { call with stream := { call.stream with offset } }

/-- `g_strdup` or `ndr_read_vstring` handing out a new string. -/
def newString (str : CStr) : Proc Call Status (Ref CStr) := fun call =>
  let (strings, ref) := call.store.strings.alloc str
  (.ok ref, { call with store := { call.store with strings } })

/-- `g_free` of a string. -/
def freeString : Option (Ref CStr) → Proc Call Status Unit
  | none => pure ()
  | some ref => fun call =>
    match call.store.strings.get? ref with
    | none => (.fault, call)
    | some _ => (.ok (), { call with store := { call.store with strings := call.store.strings.free ref } })

def strVal : Option (Ref CStr) → Proc Call Status (Option CStr)
  | none => pure none
  | some ref => do
    let call ← Proc.get
    let str ← Proc.deref (call.store.strings.get? ref)
    return some str

/-- `ndr_read_uniq_vstring_ptr` into the place the setter writes. The pointer is NULL
when the string cannot be read. -/
def readUniqVstringPtr (code : Status) (assign : UniqCharPtr → Req → Req) : Proc Call Status Unit := do
  let refId ← ndr code ndrReadInt32
  Proc.modify fun call => { call with req := assign ⟨refId, none⟩ call.req }
  if refId != 0 then
    let str ← ndr code (ndrReadVstring machine.toPlatform)
    let ref ← newString str
    Proc.modify fun call => { call with req := assign ⟨refId, some ref⟩ call.req }

/-- `__share_entry_processed(pipe, 0)`. Nothing is removed from an empty array. -/
def shareEntryProcessed : Proc Call Status Unit := do
  let call ← Proc.get
  let counted := { call.pipe with
    numEntries := call.pipe.numEntries - 1, numProcessed := call.pipe.numProcessed + 1 }
  match call.pipe.entries with
  | [] => Proc.modify fun call => { call with pipe := counted }
  | .names _ :: _ => Proc.fault
  | .share share :: entries =>
    let _ ← Proc.deref (call.store.management.shares.get? share)
    Proc.modify fun call => { call with
      store := { call.store with management := call.store.management.putKsmbdShare machine.toPlatform share }
      pipe := { counted with entries } }

/-- `__lsarpc_entry_processed(pipe, 0)`. -/
def namesEntryProcessed : Proc Call Status Unit := do
  let call ← Proc.get
  match call.pipe.entries with
  | .names info :: entries =>
    match info.user with
    | none => Proc.modify fun call => { call with pipe := { call.pipe with entries } }
    | some user =>
      let _ ← Proc.deref (call.store.management.users.get? user)
      Proc.modify fun call => { call with
        store := { call.store with management := call.store.management.putKsmbdUser user }
        pipe := { call.pipe with entries } }
  | _ => Proc.fault

def processEntries (count : Nat) : Proc Call Status Unit := do
  let call ← Proc.get
  match call.pipe.entryProcessed with
  | none => return
  | some .share => Proc.each (List.range count) fun _ => shareEntryProcessed machine
  | some .names => Proc.each (List.range count) fun _ => namesEntryProcessed

def rpcPipeReset : Proc Call Status Unit := do
  let call ← Proc.get
  processEntries machine call.pipe.numEntries.toNat
  Proc.modify fun call => { call with pipe := { call.pipe with numEntries := 0, ioctlReplyConsumed := false } }

/-- A loop over the first entries of the array; reading past its end is undefined. -/
def eachEntry : List Entry → Nat → (Entry → Proc Call Status Unit) → Proc Call Status Unit
  | _, 0, _ => pure ()
  | [], _ + 1, _ => Proc.fault
  | entry :: entries, count + 1, body => do
    body entry
    eachEntry entries count body

end Call
end KsmbdTools.Rpc
