import KsmbdTools.Management.User

/-! The share table: reference and connection counts, the user and host maps,
and how shares enter and leave the table. -/

namespace KsmbdTools.Management

variable (platform : Platform)

/-- Names are looked up by their case-folded canonical decomposition. -/
def shmCasefoldShareName (name : CStr) : CStr :=
  match platform.utf8Normalize name with
  | none => asciiStrdown name
  | some name => platform.utf8Casefold name

namespace State

/-- Drop the references of the user maps, one map after the other. -/
def freeUserMaps (state : State) (maps : ShareMaps) : State := maps.holders.foldl putUser state

def killKsmbdShare (state : State) (share : Ref Share) : State :=
  match state.shares.get? share with
  | none => state
  | some record =>
    let state := state.freeUserMaps record.maps
    { state with shares := state.shares.free share }

/-- `__shm_remove_share`: a share taken out by a reload is no longer looked for
in the table. -/
def shmRemoveShare (state : State) (share : Ref Share) : State :=
  match state.shares.get? share with
  | none => state
  | some record =>
    if record.freeing then state.killKsmbdShare share
    else
      let key := shmCasefoldShareName platform record.name
      if key ∈ state.sharesTable then
        { state with sharesTable := state.sharesTable.erase key }.killKsmbdShare share
      else state

def getKsmbdShare (state : State) (share : Ref Share) : State × Option (Ref Share) :=
  match state.shares.get? share with
  | none => (state, none)
  | some record =>
    if record.refCount ≠ 0 then
      ({ state with shares := state.shares.modify share fun record => { record with refCount := record.refCount + 1 } },
        some share)
    else (state, none)

def putShare (state : State) (share : Ref Share) : State :=
  let state :=
    { state with shares := state.shares.modify share fun record => { record with refCount := record.refCount - 1 } }
  match state.shares.get? share with
  | none => state
  | some record => if record.refCount = 0 then state.shmRemoveShare platform share else state

def putKsmbdShare (state : State) (share : Option (Ref Share)) : State :=
  share.elim state (state.putShare platform)

def shmLookupShare (state : State) (name : CStr) : State × Option (Ref Share) :=
  match state.sharesTable.lookup (shmCasefoldShareName platform name) with
  | none => (state, none)
  | some share => state.getKsmbdShare share

/-- The writer lock is held throughout; a share with open connections leaves the
table but keeps its record. -/
def shmRemoveAllShares (state : State) : State :=
  let state := state.sharesTable.values.foldl (fun state share =>
    { state with shares := state.shares.modify share fun record => { record with freeing := true } }.putShare
      platform share) state
  { state with sharesTable := ∅ }

/-- One name of a user list. A user already in the map is not held twice. -/
def addMapUser (entry : State × HashTable CStr (Ref User)) (name : CStr) : State × HashTable CStr (Ref User) :=
  let (state, map) := entry
  if name.isEmpty then (state, map)
  else match state.usmLookupUser (some name) with
    | (state, none) => (state, map)
    | (state, some user) =>
      match state.users.get? user with
      | none => (state, map)
      | some record =>
        if record.name ∈ map then (state.putUser user, map)
        else (state, map.insert record.name user)

/-- `@group` stands for the group's members. -/
def expandNames (names : List CStr) : List CStr :=
  names.flatMap fun name =>
    match name with
    | 64 :: group => (platform.getgrnam group).elim [] (·.2)
    | _ => [name]

def addUsersMap (state : State) (names : List CStr) : State × HashTable CStr (Ref User) :=
  (expandNames platform names).foldl addMapUser (state, ∅)

end State

/-- A share section after its values have been read from the configuration. -/
structure ShareGroup where
  name : CStr
  pipe : Bool := false
  path : Option CStr := none
  comment : Option CStr := none
  flags : UInt32 := 0
  guestAccount : Option CStr := none
  maxConnections : Int := 0
  createMask : UInt16 := 0
  directoryMask : UInt16 := 0
  forceCreateMode : UInt16 := 0
  forceDirectoryMode : UInt16 := 0
  forceGroup : Option CStr := none
  forceUser : Option CStr := none
  timeMachineMaxSize : UInt64 := 0
  vetoFiles : Option CStr := none
  validUsers : Option (List CStr) := none
  invalidUsers : Option (List CStr) := none
  readList : Option (List CStr) := none
  writeList : Option (List CStr) := none
  hostsAllow : Option (List CStr) := none
  hostsDeny : Option (List CStr) := none

/-- `share->force_uid` and `share->force_gid`, two unsigned short. -/
structure ForcedIds where
  forceUid : UInt16 := 65535
  forceGid : UInt16 := 65535
  deriving DecidableEq

def forceGroup (ids : ForcedIds) (name : CStr) : Option ForcedIds :=
  match platform.getgrnam name with
  | none => none
  | some (gid, _) =>
    let ids := { ids with forceGid := gid.toUInt16 }
    if ids.forceGid = 65535 then none else some ids

/-- `force group` has precedence. -/
def forceUser (ids : ForcedIds) (name : CStr) : Option ForcedIds :=
  match platform.getpwnam name with
  | none => none
  | some (uid, gid) =>
    let ids := { ids with forceUid := uid.toUInt16 }
    if ids.forceUid = 65535 then none
    else if ids.forceGid = 65535 then
      let ids := { ids with forceGid := gid.toUInt16 }
      if ids.forceGid = 65535 then none else some ids
    else some ids

def forcedIds (group : ShareGroup) : Option ForcedIds := do
  let ids ← group.forceGroup.elim (some {}) (forceGroup platform {})
  group.forceUser.elim (some ids) (forceUser platform ids)

/-- One slash in front is skipped; the others separate. A pipe has no veto list. -/
def makeVetoList (group : ShareGroup) : List UInt8 :=
  if group.pipe then []
  else
    let veto := group.vetoFiles.getD []
    (if veto.head? == some 47 then veto.tail else veto).map fun byte => if byte = 47 then 0 else byte

namespace State

def shareFlags (state : State) (group : ShareGroup) : UInt32 :=
  let flags := setFlag group.flags ShareFlag.available
  let flags := if group.pipe then setFlag flags ShareFlag.pipe else flags
  if state.reloading then setFlag flags ShareFlag.update else flags

def addGroupMap (entry : State × ShareMaps) (list : ShareUsers × Option (List CStr)) : State × ShareMaps :=
  match list.2 with
  | none => entry
  | some names =>
    let (state, users) := entry.1.addUsersMap platform names
    (state, entry.2.set list.1 users)

/-- `init_share_from_group`. The values that can be refused come before the user
maps, so a refused share holds no user yet. `admin users` is marked broken and
never read. -/
def initShareFromGroup (state : State) (group : ShareGroup) : State × Option Share :=
  if !(group.comment.elim true platform.utf8Validate) then (state, none)
  else
    let (state, guest) := group.guestAccount.elim (state, true) (state.usmAddGuestAccount platform ·)
    if !guest then (state, none)
    else match forcedIds platform group with
      | none => (state, none)
      | some ids =>
        let (state, maps) := [(ShareUsers.validUsers, group.validUsers), (.invalidUsers, group.invalidUsers),
          (.readList, group.readList), (.writeList, group.writeList)].foldl (addGroupMap platform) (state, {})
        (state, some {
          name := group.name, path := group.path, comment := group.comment, flags := state.shareFlags group,
          guestAccount := group.guestAccount, maxConnections := group.maxConnections, maps,
          createMask := group.createMask, directoryMask := group.directoryMask,
          forceCreateMode := group.forceCreateMode, forceDirectoryMode := group.forceDirectoryMode,
          forceUid := ids.forceUid, forceGid := ids.forceGid, timeMachineMaxSize := group.timeMachineMaxSize,
          vetoList := makeVetoList group, hostsAllow := group.hostsAllow, hostsDeny := group.hostsDeny })

def shmAddNewShare (state : State) (group : ShareGroup) : State × Bool :=
  match state.initShareFromGroup platform group with
  | (state, none) => (state, !group.pipe)
  | (state, some share) =>
    let key := shmCasefoldShareName platform share.name
    if key ∈ state.sharesTable then (state.freeUserMaps share.maps, true)
    else
      let (shares, ref) := state.shares.alloc share
      ({ state with shares, sharesTable := state.sharesTable.insert key ref }, true)

end State

/-- Answers of the map lookups: `-EINVAL`, `-ENOENT` and `0`. -/
inductive MapAnswer where
  | absent
  | missing
  | present
  deriving DecidableEq, Repr

def shmLookupUsersMap (share : Share) (map : ShareUsers) (name : CStr) : MapAnswer :=
  match share.maps.get map with
  | none => .absent
  | some users => if name ∈ users then .present else .missing

/-- Do the first `prefixLen` bits of the two addresses agree? -/
def samePrefix (net host : List UInt8) (prefixLen : Nat) : Bool :=
  let fullBytes := prefixLen / 8
  let remainingBits := prefixLen % 8
  if net.take fullBytes != host.take fullBytes then false
  else if remainingBits = 0 then true
  else
    let mask := (UInt8.ofNat (255 * 2 ^ (8 - remainingBits)))
    net.getD fullBytes 0 &&& mask == host.getD fullBytes 0 &&& mask

def matchHostCidr (pattern addr : CStr) : Bool :=
  let exact := pattern == addr
  let network := pattern.takeWhile (· != 47)
  if network.length = pattern.length then exact
  else if network.length = 0 ∨ 47 ≤ network.length then exact
  else
    let parsed := Strtol.strtol (pattern.drop (network.length + 1))
    let prefixLen := toInt32 parsed.number
    if parsed.erange ∨ !parsed.consumed ∨ !parsed.rest.isEmpty ∨ prefixLen < 0 then exact
    else
      let family := if 58 ∈ network then AddressFamily.inet6 else .inet
      match platform.inetPton family network, platform.inetPton family addr with
      | some net, some host =>
        let addrLen := if family = .inet6 then 16 else 4
        if addrLen * 8 < prefixLen then exact else samePrefix net host prefixLen.toNat
      | _, _ => exact

def shmLookupHostsMap (hosts : Option (List CStr)) (host : CStr) : MapAnswer :=
  match hosts with
  | none => .absent
  | some patterns => if patterns.any (matchHostCidr platform · host) then .present else .missing

namespace State

def shmOpenConnection (state : State) (share : Ref Share) : State × Bool :=
  match state.shares.get? share with
  | none => (state, false)
  | some record =>
    if record.maxConnections ≠ 0 ∧ record.maxConnections ≤ record.numConnections then (state, false)
    else
      ({ state with shares := state.shares.modify share fun record =>
          { record with numConnections := record.numConnections + 1 } }, true)

def closeConnection (record : Share) : Share :=
  if 0 < record.numConnections then { record with numConnections := record.numConnections - 1 } else record

def shmCloseConnection (state : State) (share : Option (Ref Share)) : State :=
  share.elim state fun share => { state with shares := state.shares.modify share closeConnection }

end State
end KsmbdTools.Management
