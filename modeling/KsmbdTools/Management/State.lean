import KsmbdTools.Heap
import KsmbdTools.Platform
import Mathlib.Data.List.AList

/-! The records behind the user, share and session tables. A table holds
references: the record lives on when it leaves the table with holders left. The counters are
`int` in the source and not bounded here: each unit is a holder, a connection or a session of
its own, and a process has no room for `2 ^ 31` of them. -/

namespace KsmbdTools.Management

/-- A `GHashTable` with at most one entry for each key. -/
abbrev HashTable (κ ν : Type) := AList (fun _ : κ => ν)

namespace HashTable
variable {κ ν : Type} [DecidableEq κ]

def values (table : HashTable κ ν) : List ν := table.entries.map (·.2)

def size (table : HashTable κ ν) : Nat := table.entries.length

/-- `g_hash_table_insert`: an equal key keeps its place and gets the new value,
and the answer tells whether the key was new. -/
def add (table : HashTable κ ν) (key : κ) (value : ν) : HashTable κ ν × Bool :=
  (table.insert key value, key ∉ table)

/-- `g_hash_table_remove`. -/
def drop (table : HashTable κ ν) (key : κ) : HashTable κ ν × Bool :=
  (table.erase key, key ∈ table)

theorem drop_add (table : HashTable κ ν) (key : κ) (value : ν) : (drop (add table key value).1 key).1 = table.erase key :=
  AList.ext (List.kerase_cons_eq rfl)

theorem mem_values {table : HashTable κ ν} {value : ν} :
    value ∈ values table ↔ ∃ key, table.lookup key = some value := by
  simp only [values, List.mem_map]
  constructor
  · rintro ⟨⟨key, held⟩, member, rfl⟩
    exact ⟨key, AList.mem_lookup_iff.mpr member⟩
  · rintro ⟨key, found⟩
    exact ⟨⟨key, value⟩, AList.mem_lookup_iff.mp found, rfl⟩

end HashTable

structure User where
  name : CStr
  passB64 : CStr := []
  pass : List UInt8 := []
  /-- An `int`: an update stores what is left of the length in it. -/
  passSz : Int := 0
  uid : UInt32 := 65535
  gid : UInt32 := 65535
  refCount : Int
  flags : UInt32 := 0
  /-- `state == KSMBD_USER_STATE_FREEING`: already out of the table. -/
  freeing : Bool := false
  failedLoginCount : Nat := 0
  sgid : List UInt32 := []
  deriving DecidableEq

namespace UserFlag
def ok : UInt32 := 0x01
def badPassword : UInt32 := 0x02
def badUid : UInt32 := 0x04
def badUser : UInt32 := 0x08
def guestAccount : UInt32 := 0x10
def delaySession : UInt32 := 0x20
def extension : UInt32 := 0x40
end UserFlag

namespace ShareFlag
def available : UInt32 := 0x0001
def browseable : UInt32 := 0x0002
def writeable : UInt32 := 0x0004
def readonly : UInt32 := 0x0008
def guestOk : UInt32 := 0x0010
def storeDosAttrs : UInt32 := 0x0040
def oplocks : UInt32 := 0x0080
def pipe : UInt32 := 0x0100
def hideDotFiles : UInt32 := 0x0200
def inheritOwner : UInt32 := 0x0400
def streams : UInt32 := 0x0800
def followSymlinks : UInt32 := 0x1000
def aclXattr : UInt32 := 0x2000
def update : UInt32 := 0x4000
def crossmnt : UInt32 := 0x8000
def continuousAvailability : UInt32 := 0x10000
def fruitTimeMachine : UInt32 := 0x20000
def fruitFinderInfo : UInt32 := 0x40000
def fruitRforkSize : UInt32 := 0x80000
def fruitMaxAccess : UInt32 := 0x100000
def streamsDisabled : UInt32 := 0x800000
end ShareFlag

namespace TreeConnFlag
def guestAccount : UInt32 := 0x01
def readOnly : UInt32 := 0x02
def writable : UInt32 := 0x04
def adminAccount : UInt32 := 0x08
def update : UInt32 := 0x10
end TreeConnFlag

inductive ShareUsers where
  | adminUsers
  | validUsers
  | invalidUsers
  | readList
  | writeList
  deriving DecidableEq, Repr

namespace ShareUsers
/-- The maps in the order `kill_ksmbd_share` frees them. -/
def all : List ShareUsers := [.adminUsers, .validUsers, .invalidUsers, .readList, .writeList]
end ShareUsers

/-- Absent unless the share section sets the key. -/
structure ShareMaps where
  adminUsers : Option (HashTable CStr (Ref User)) := none
  validUsers : Option (HashTable CStr (Ref User)) := none
  invalidUsers : Option (HashTable CStr (Ref User)) := none
  readList : Option (HashTable CStr (Ref User)) := none
  writeList : Option (HashTable CStr (Ref User)) := none
  deriving DecidableEq

namespace ShareMaps

def get (maps : ShareMaps) : ShareUsers → Option (HashTable CStr (Ref User))
  | .adminUsers => maps.adminUsers
  | .validUsers => maps.validUsers
  | .invalidUsers => maps.invalidUsers
  | .readList => maps.readList
  | .writeList => maps.writeList

def set (maps : ShareMaps) (map : ShareUsers) (users : HashTable CStr (Ref User)) : ShareMaps :=
  match map with
  | .adminUsers => { maps with adminUsers := some users }
  | .validUsers => { maps with validUsers := some users }
  | .invalidUsers => { maps with invalidUsers := some users }
  | .readList => { maps with readList := some users }
  | .writeList => { maps with writeList := some users }

/-- The users held by one map, in the order its entries are freed. -/
def users (maps : ShareMaps) (map : ShareUsers) : List (Ref User) :=
  (maps.get map).elim [] HashTable.values

def holders (maps : ShareMaps) : List (Ref User) := ShareUsers.all.flatMap maps.users

end ShareMaps

structure Share where
  name : CStr
  path : Option CStr := none
  comment : Option CStr := none
  maxConnections : Int := 0
  numConnections : Int := 0
  refCount : Int := 1
  flags : UInt32 := 0
  /-- `state == KSMBD_SHARE_STATE_FREEING`: already out of the table. -/
  freeing : Bool := false
  guestAccount : Option CStr := none
  createMask : UInt16 := 0
  directoryMask : UInt16 := 0
  forceCreateMode : UInt16 := 0
  forceDirectoryMode : UInt16 := 0
  /-- `KSMBD_SHARE_INVALID_UID` and `KSMBD_SHARE_INVALID_GID` unless forced. -/
  forceUid : UInt16 := 65535
  forceGid : UInt16 := 65535
  timeMachineMaxSize : UInt64 := 0
  /-- The veto list with its separators turned to NUL; empty without one. -/
  vetoList : List UInt8 := []
  maps : ShareMaps := {}
  hostsAllow : Option (List CStr) := none
  hostsDeny : Option (List CStr) := none
  deriving DecidableEq

structure TreeConn where
  id : UInt64 := 0
  share : Option (Ref Share) := none
  flags : UInt32 := 0
  deriving DecidableEq

structure Session where
  id : UInt64
  user : Option (Ref User)
  treeConns : List TreeConn := []
  refCounter : Int
  deriving DecidableEq

/-- `KSMBD_CONF_MAP_TO_GUEST_NEVER` is zero; the other settings are bits. -/
structure SmbconfGlobal where
  mapToGuest : UInt32 := 0
  guestAccount : Option CStr := none
  workGroup : Option CStr := none
  rootDir : Option CStr := none
  sessionsCap : Int := 65536
  restrictAnon : Int := 0
  genSubauth : UInt32 × UInt32 × UInt32 := (0, 0, 0)
  deriving DecidableEq

structure State where
  globalConf : SmbconfGlobal := {}
  /-- `ksmbd_health_status & KSMBD_SHOULD_RELOAD_CONFIG`. -/
  reloading : Bool := false
  users : Heap User := .empty
  usersTable : HashTable CStr (Ref User) := ∅
  shares : Heap Share := .empty
  sharesTable : HashTable CStr (Ref Share) := ∅
  sessions : Heap Session := .empty
  sessionsTable : HashTable UInt64 (Ref Session) := ∅
  /-- A block was freed twice, or memory cleared that is not the daemon's. What the functions
  compute behind that says nothing about the daemon. -/
  faulted : Bool := false
  deriving DecidableEq

/-- Message header and a spare byte have to fit in `KSMBD_IPC_MAX_MESSAGE_SIZE`. -/
def ipcMsgAlloc (memory : Bool) (size : Nat) : Bool := memory && decide (size + 8 + 1 ≤ 4096)

end KsmbdTools.Management
