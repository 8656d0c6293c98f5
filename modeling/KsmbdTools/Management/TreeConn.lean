import KsmbdTools.Management.Session

/-! Tree connect and tree disconnect requests. A refused connect leaves through
one exit, which undoes what the attempt holds at that point. -/

namespace KsmbdTools.Management

variable (platform : Platform)

structure TreeConnectRequest where
  accountFlags : UInt16 := 0
  sessionId : UInt64
  connectId : UInt64
  account : CharArray 256
  share : CharArray 64
  peerAddr : CharArray 64

inductive TreeConnStatus where
  | ok
  | nomem
  | noShare
  | noUser
  | invalidUser
  | hostDenied
  | connExist
  | tooManyConns
  | tooManySessions
  | error
  deriving DecidableEq, Repr

structure TreeConnectResponse where
  status : TreeConnStatus
  connectionFlags : UInt16 := 0
  deriving DecidableEq

def refuseRequest (conf : SmbconfGlobal) (req : TreeConnectRequest) : Option TreeConnStatus :=
  if !req.share.terminated || !req.account.terminated || !req.peerAddr.terminated then some .error
  else if conf.mapToGuest == 0 && testFlag req.accountFlags.toUInt32 UserFlag.badPassword then some .invalidUser
  else none

/-- `hosts deny` is consulted only when the share has no `hosts allow`. -/
def hostDenied (share : Share) (peerAddr : CStr) : Bool :=
  match shmLookupHostsMap platform share.hostsAllow peerAddr with
  | .missing => true
  | .present => false
  | .absent => shmLookupHostsMap platform share.hostsDeny peerAddr == .present

def guestRequested (req : TreeConnectRequest) : Bool := testFlag req.accountFlags.toUInt32 UserFlag.guestAccount

def guestDenied (conf : SmbconfGlobal) (share : Share) (req : TreeConnectRequest) : Bool :=
  let guestOk := testFlag share.flags ShareFlag.guestOk
  guestRequested req && (1 ≤ conf.restrictAnon && (!guestOk || testFlag share.flags ShareFlag.pipe) || !guestOk)

def refusePeer (conf : SmbconfGlobal) (share : Share) (req : TreeConnectRequest) : Option TreeConnStatus :=
  if hostDenied platform share req.peerAddr.str then some .hostDenied
  else if guestDenied conf share req then some .error
  else none

def shareConnFlags (share : Share) : UInt32 :=
  let flags := if testFlag share.flags ShareFlag.writeable then TreeConnFlag.writable else 0
  let flags := if testFlag share.flags ShareFlag.readonly then setFlag flags TreeConnFlag.readOnly else flags
  if testFlag share.flags ShareFlag.update then setFlag flags TreeConnFlag.update else flags

/-- How the user maps answer: refuse, bind at once, or bind when a session may
still be opened. -/
inductive Admission where
  | refuse
  | bind (flags : UInt32)
  | bindWithinCapacity (flags : UInt32)
  deriving DecidableEq, Repr

def admitUser (share : Share) (account : CStr) (flags : UInt32) : Admission :=
  if shmLookupUsersMap share .adminUsers account = .present then .bind (setFlag flags TreeConnFlag.adminAccount)
  else if shmLookupUsersMap share .invalidUsers account = .present then .refuse
  else if shmLookupUsersMap share .readList account = .present then
    .bind (clearFlag (setFlag flags TreeConnFlag.readOnly) TreeConnFlag.writable)
  else if shmLookupUsersMap share .writeList account = .present then .bind (setFlag flags TreeConnFlag.writable)
  else match shmLookupUsersMap share .validUsers account with
    | .present => .bind flags
    | .missing => .refuse
    | .absent => .bindWithinCapacity flags

/-- What an attempt holds when it reaches `out_error`. -/
structure Attempt where
  conn : TreeConn := {}
  share : Option (Ref Share) := none
  user : Option (Ref User) := none

namespace State

def outError (state : State) (attempt : Attempt) : State :=
  let state := state.tcmTreeConnFree platform attempt.conn
  let state := state.shmCloseConnection attempt.share
  let state := state.putKsmbdShare platform attempt.share
  state.putKsmbdUser attempt.user

def refuse (state : State) (attempt : Attempt) (status : TreeConnStatus) : Option (State × TreeConnectResponse) :=
  some (state.outError platform attempt, { status })

def clearShareUpdate (state : State) (share : Ref Share) : State :=
  { state with shares := state.shares.modify share fun record =>
    { record with flags := clearFlag record.flags ShareFlag.update } }

/-- From the `bind` label on. The connection refers to the share before it is
known whether a session takes it. -/
def bindTreeConn (state : State) (memory : Memory) (retries : Nat) (req : TreeConnectRequest)
    (share : Ref Share) (user : Ref User) (flags : UInt32) : Option (State × TreeConnectResponse) := do
  let conn : TreeConn := { id := req.connectId, share := some share, flags }
  let (state, bound) ← state.smHandleTreeConnect platform memory req.sessionId (some user) conn retries
  if bound then some (state.clearShareUpdate share, { status := .ok, connectionFlags := flags.toUInt16 })
  else some (state.outError platform { conn, share, user }, { status := .error, connectionFlags := flags.toUInt16 })

def resetFailedLogins (state : State) (user : Ref User) : State :=
  { state with users := state.users.modify user fun record =>
    { record with failedLoginCount := 0, flags := clearFlag record.flags UserFlag.delaySession } }

def connectAccount (state : State) (memory : Memory) (retries : Nat) (req : TreeConnectRequest)
    (share : Ref Share) (record : Share) : Option (State × TreeConnectResponse) :=
  match state.usmLookupUser (some req.account.str) with
  | (state, none) => state.refuse platform { share } .noUser
  | (state, some user) =>
    let state := state.resetFailedLogins user
    let guest := ((state.users.get? user).map fun record => testFlag record.flags UserFlag.guestAccount).getD false
    let flags := if guest then setFlag (shareConnFlags record) TreeConnFlag.guestAccount else shareConnFlags record
    match admitUser record req.account.str flags with
    | .refuse => state.refuse platform { share, user } .invalidUser
    | .bind flags => state.bindTreeConn platform memory retries req share user flags
    | .bindWithinCapacity flags => do
      let (state, room) ← state.smCheckSessionsCapacity platform req.sessionId
      if room then state.bindTreeConn platform memory retries req share user flags
      else state.refuse platform { share, user } .tooManySessions

def lookupGuest (state : State) (record : Share) : State × Option (Ref User) :=
  match state.usmLookupUser record.guestAccount with
  | (state, some user) => (state, some user)
  | (state, none) => state.usmLookupUser state.globalConf.guestAccount

/-- The connection has been counted; `record` is the share's configuration. -/
def connectShare (state : State) (memory : Memory) (retries : Nat) (req : TreeConnectRequest)
    (share : Ref Share) (record : Share) : Option (State × TreeConnectResponse) :=
  match refusePeer platform state.globalConf record req with
  | some status => state.refuse platform { share } status
  | none =>
    if guestRequested req then
      match state.lookupGuest record with
      | (state, some user) =>
        state.bindTreeConn platform memory retries req share user (setFlag (shareConnFlags record) TreeConnFlag.guestAccount)
      | (state, none) => state.connectAccount platform memory retries req share record
    else state.connectAccount platform memory retries req share record

def tcmHandleTreeConnect (state : State) (memory : Memory) (retries : Nat) (req : TreeConnectRequest) :
    Option (State × TreeConnectResponse) :=
  if !memory.conn then some (state, { status := .nomem })
  else match refuseRequest state.globalConf req with
    | some status => state.refuse platform {} status
    | none =>
      match state.shmLookupShare platform req.share.str with
      | (state, none) => state.refuse platform {} .noShare
      | (state, some share) =>
        match state.shares.get? share with
        | none => none
        | some record =>
          match state.shmOpenConnection share with
          | (state, false) => state.refuse platform { share } .tooManyConns
          | (state, true) => state.connectShare platform memory retries req share record

def tcmHandleTreeDisconnect (state : State) (sessId connId : UInt64) : Option State :=
  state.smHandleTreeDisconnect platform sessId connId

end State
end KsmbdTools.Management
