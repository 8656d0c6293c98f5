import KsmbdTools.Management.State

/-! The user table: reference counting, loading of accounts, and the login and
logout requests of the kernel server. -/

namespace KsmbdTools.Management

variable (platform : Platform)

/-- `KSMBD_SHARE_INVALID_GID`, also the base gid given to `getgrouplist`. -/
def invalidGid : UInt32 := 65535

namespace State

/-- `explicit_bzero` takes a negative `pass_sz` for a size beyond all memory. -/
def clearsBeyond (state : State) (user : Ref User) : Bool := (state.users.get? user).any (·.passSz < 0)

def killKsmbdUser (state : State) (user : Ref User) : State :=
  { state with users := state.users.free user, faulted := state.faulted || state.clearsBeyond user }

def usmRemoveUser (state : State) (user : Ref User) : State :=
  match state.users.get? user with
  | none => state
  | some record =>
    if record.freeing then state.killKsmbdUser user
    else if record.name ∈ state.usersTable then
      { state with usersTable := state.usersTable.erase record.name }.killKsmbdUser user
    else state

def getKsmbdUser (state : State) (user : Ref User) : State × Option (Ref User) :=
  match state.users.get? user with
  | none => (state, none)
  | some record =>
    if record.refCount ≠ 0 then
      ({ state with users := state.users.modify user fun record => { record with refCount := record.refCount + 1 } },
        some user)
    else (state, none)

def putUser (state : State) (user : Ref User) : State :=
  let state := { state with users := state.users.modify user fun record => { record with refCount := record.refCount - 1 } }
  match state.users.get? user with
  | none => state
  | some record => if record.refCount = 0 then state.usmRemoveUser user else state

def putKsmbdUser (state : State) (user : Option (Ref User)) : State :=
  user.elim state state.putUser

def usmLookupUser (state : State) (name : Option CStr) : State × Option (Ref User) :=
  match name.bind (AList.lookup · state.usersTable) with
  | none => (state, none)
  | some user => state.getKsmbdUser user

def usmRemoveAllUsers (state : State) : State :=
  let state := state.usersTable.values.foldl (fun state user =>
    { state with users := state.users.modify user fun record => { record with freeing := true } }.putUser user) state
  { state with usersTable := ∅ }

end State

/-- The loop over `sgid` steps past the element that `memmove` puts in place of
a removed one. -/
def dropInvalidGid : List UInt32 → List UInt32
  | [] => []
  | gid :: rest =>
    if gid = invalidGid then
      match rest with
      | [] => []
      | next :: rest => next :: dropInvalidGid rest
    else gid :: dropInvalidGid rest

def newKsmbdUser (name pwd : CStr) : Option User :=
  match platform.base64Decode pwd with
  | none => none
  | some pass =>
    if 2 ^ 31 ≤ pass.length then none
    else match platform.getpwnam name with
      | none => some { name, passB64 := pwd, pass, passSz := pass.length, refCount := 1 }
      | some (uid, gid) =>
        let sgid := dropInvalidGid (platform.getgrouplist name)
        some { name, passB64 := pwd, pass, passSz := pass.length, refCount := 1, uid, gid, sgid }

namespace State

/-- A name already in the table keeps its record, and the call still succeeds. Without a
record, `kill_ksmbd_user` has freed name and password when they are freed here. -/
def usmAddNewUser (state : State) (name pwd : CStr) : State × Bool :=
  match newKsmbdUser platform name pwd with
  | none => ({ state with faulted := true }, false)
  | some user =>
    if name ∈ state.usersTable then (state, true)
    else
      let (users, ref) := state.users.alloc user
      ({ state with users, usersTable := state.usersTable.insert name ref }, true)

/-- The password text `"NULL"` of guest accounts. -/
def guestPassword : CStr := [78, 85, 76, 76]

def usmAddGuestAccount (state : State) (name : CStr) : State × Bool :=
  match state.usmAddNewUser platform name guestPassword with
  | (state, false) => (state, false)
  | (state, true) =>
    match state.usmLookupUser (some name) with
    | (state, none) => (state, false)
    | (state, some user) =>
      ({ state with users := state.users.modify user fun record =>
          { record with flags := setFlag record.flags UserFlag.guestAccount } }.putUser user, true)

def usmUpdateUserPassword (state : State) (user : Ref User) (pwd : CStr) : State :=
  match platform.base64Decode pwd with
  | none => state
  | some pass =>
    { state with
      users := state.users.modify user fun record => { record with passB64 := pwd, pass, passSz := toInt32 pass.length }
      faulted := state.faulted || state.clearsBeyond user }

/-- `add_user_password`: a later line for the same name replaces the password. -/
def addUserPassword (state : State) (name pwd : CStr) : State :=
  match state.usmLookupUser (some name) with
  | (state, some user) => (state.usmUpdateUserPassword platform user pwd).putUser user
  | (state, none) => (state.usmAddNewUser platform name pwd).1

end State

structure LoginRequest where
  account : CharArray 256
  flags : UInt32 := 0

structure LoginResponse where
  gid : UInt32 := 0
  uid : UInt32 := 0
  account : CStr := []
  status : UInt16 := 0
  hash : List UInt8 := []
  deriving DecidableEq

/-- `KSMBD_LOGIN_FLAG_IGNORE_MAP_TO_GUEST`. -/
def ignoreMapToGuest : UInt32 := 1

/-- `KSMBD_CONF_MAP_TO_GUEST_BAD_USER`. -/
def mapToGuestBadUser : UInt32 := 1

def User.passHash (user : User) : List UInt8 := user.pass.take user.passSz.toNat

/-- A stored hash longer than the field, or a name longer than the field, makes
the answer invalid. A negative size is compared as a `size_t`. -/
def handleLoginRequest (user : User) : LoginResponse :=
  let status := setFlag user.flags UserFlag.ok
  let status := if user.sgid.isEmpty then status else setFlag status UserFlag.extension
  let resp : LoginResponse := { gid := user.gid, uid := user.uid, status := status.toUInt16 }
  if testFlag user.flags UserFlag.guestAccount then resp
  else if user.passSz < 0 ∨ 18 < user.passSz then { resp with status := 0 }
  else if 256 < user.name.length then { resp with hash := user.passHash, status := 0 }
  else { resp with hash := user.passHash, account := user.name }

structure LogoutRequest where
  account : CharArray 256
  accountFlags : UInt32 := 0

namespace State

/-- Answer from the looked up record and drop the reference the lookup took. -/
def answerLogin (state : State) (user : Ref User) : State × LoginResponse :=
  (state.putUser user, ((state.users.get? user).map handleLoginRequest).getD {})

def usmHandleLoginRequest (state : State) (req : LoginRequest) : State × LoginResponse :=
  if !req.account.terminated then (state, { status := 0 })
  else
    let nullSession := req.account.bytes.head? == some 0
    let (state, user) := if nullSession then (state, none) else state.usmLookupUser (some req.account.str)
    match user with
    | some user => state.answerLogin user
    | none =>
      if !nullSession && (testFlag req.flags ignoreMapToGuest || state.globalConf.mapToGuest == 0) then
        (state, { status := UserFlag.badUser.toUInt16 })
      else if nullSession || state.globalConf.mapToGuest == mapToGuestBadUser then
        match state.usmLookupUser state.globalConf.guestAccount with
        | (state, none) => (state, { status := UserFlag.badUser.toUInt16 })
        | (state, some user) => state.answerLogin user
      else (state, { status := UserFlag.badUser.toUInt16 })

/-- What `usm_handle_logout_request` does to the record under its lock. -/
def countLogout (accountFlags : UInt32) (record : User) : User :=
  if testFlag accountFlags UserFlag.badPassword then
    if record.failedLoginCount < 10 then { record with failedLoginCount := record.failedLoginCount + 1 }
    else { record with flags := setFlag record.flags UserFlag.delaySession }
  else { record with failedLoginCount := 0, flags := clearFlag record.flags UserFlag.delaySession }

def usmHandleLogoutRequest (state : State) (req : LogoutRequest) : State :=
  if !req.account.terminated then state
  else match state.usmLookupUser (some req.account.str) with
    | (state, none) => state
    | (state, some user) =>
      { state with users := state.users.modify user (countLogout req.accountFlags) }.putUser user

end State
end KsmbdTools.Management
