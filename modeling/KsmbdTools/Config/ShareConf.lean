import KsmbdTools.Platform
import Mathlib.Data.List.Nodup

/-! The keys of a share section, their defaults, and what marks some of them. -/

namespace KsmbdTools.Config

def ascii (text : String) : CStr := text.toList.map fun char => UInt8.ofNat char.toNat

inductive ShareConf where
  | comment | path | guestOk | guestAccount | readOnly
  | browseable | writeOk | writeable | storeDosAttributes | oplocks
  | createMask | directoryMask | forceCreateMode | forceDirectoryMode | forceGroup
  | forceUser | hideDotFiles | validUsers | invalidUsers | readList
  | writeList | adminUsers | hostsAllow | hostsDeny | maxConnections
  | vetoFiles | inheritOwner | followSymlinks | vfsObjects | writable
  | crossmnt | fruitTimeMachine | fruitTimeMachineMaxSize | fruitFinderInfo | fruitRforkSize
  | fruitMaxAccess | continuousAvailability | streams | aclXattr
  deriving DecidableEq, Repr

namespace ShareConf

def all : List ShareConf := [
  .comment, .path, .guestOk, .guestAccount, .readOnly,
  .browseable, .writeOk, .writeable, .storeDosAttributes, .oplocks,
  .createMask, .directoryMask, .forceCreateMode, .forceDirectoryMode, .forceGroup,
  .forceUser, .hideDotFiles, .validUsers, .invalidUsers, .readList,
  .writeList, .adminUsers, .hostsAllow, .hostsDeny, .maxConnections,
  .vetoFiles, .inheritOwner, .followSymlinks, .vfsObjects, .writable,
  .crossmnt, .fruitTimeMachine, .fruitTimeMachineMaxSize, .fruitFinderInfo, .fruitRforkSize,
  .fruitMaxAccess, .continuousAvailability, .streams, .aclXattr]

/-- `KSMBD_SHARE_CONF`. -/
def key : ShareConf → CStr
  | .comment => ascii "comment"
  | .path => ascii "path"
  | .guestOk => ascii "guest ok"
  | .guestAccount => ascii "guest account"
  | .readOnly => ascii "read only"
  | .browseable => ascii "browseable"
  | .writeOk => ascii "write ok"
  | .writeable => ascii "writeable"
  | .storeDosAttributes => ascii "store dos attributes"
  | .oplocks => ascii "oplocks"
  | .createMask => ascii "create mask"
  | .directoryMask => ascii "directory mask"
  | .forceCreateMode => ascii "force create mode"
  | .forceDirectoryMode => ascii "force directory mode"
  | .forceGroup => ascii "force group"
  | .forceUser => ascii "force user"
  | .hideDotFiles => ascii "hide dot files"
  | .validUsers => ascii "valid users"
  | .invalidUsers => ascii "invalid users"
  | .readList => ascii "read list"
  | .writeList => ascii "write list"
  | .adminUsers => ascii "admin users"
  | .hostsAllow => ascii "hosts allow"
  | .hostsDeny => ascii "hosts deny"
  | .maxConnections => ascii "max connections"
  | .vetoFiles => ascii "veto files"
  | .inheritOwner => ascii "inherit owner"
  | .followSymlinks => ascii "follow symlinks"
  | .vfsObjects => ascii "vfs objects"
  | .writable => ascii "writable"
  | .crossmnt => ascii "crossmnt"
  | .fruitTimeMachine => ascii "fruit time machine"
  | .fruitTimeMachineMaxSize => ascii "fruit time machine max size"
  | .fruitFinderInfo => ascii "fruit finder info"
  | .fruitRforkSize => ascii "fruit resource fork size"
  | .fruitMaxAccess => ascii "fruit max access"
  | .continuousAvailability => ascii "continuous availability"
  | .streams => ascii "streams"
  | .aclXattr => ascii "acl xattr"

/-- `KSMBD_SHARE_DEFCONF`: an empty text, or a comment, is no value. -/
def defconf : ShareConf → CStr
  | .guestOk | .inheritOwner | .followSymlinks | .fruitTimeMachine | .fruitRforkSize | .continuousAvailability
  | .streams | .aclXattr => ascii "no"
  | .readOnly => ascii "; yes"
  | .browseable | .storeDosAttributes | .oplocks | .hideDotFiles | .crossmnt | .fruitFinderInfo
  | .fruitMaxAccess => ascii "yes"
  | .createMask => ascii "0744"
  | .directoryMask => ascii "0755"
  | .forceCreateMode | .forceDirectoryMode => ascii "0000"
  | .maxConnections => ascii "128"
  | .fruitTimeMachineMaxSize => ascii "0"
  | .comment | .path | .guestAccount | .writeOk | .writeable | .forceGroup | .forceUser | .validUsers
  | .invalidUsers | .readList | .writeList | .adminUsers | .hostsAllow | .hostsDeny | .vetoFiles | .vfsObjects
  | .writable => []

/-- `KSMBD_SHARE_CONF_IS_GLOBAL`: in `[global]` the key is a global parameter. -/
def isGlobal (conf : ShareConf) : Bool := conf == .guestAccount || conf == .maxConnections

/-- `KSMBD_SHARE_CONF_IS_BROKEN`. -/
def isBroken (conf : ShareConf) : Bool := conf == .adminUsers

theorem mem_all (conf : ShareConf) : conf ∈ all := by
  cases conf <;> decide

theorem nodup_keys : (all.map key).Nodup := by
  decide +kernel

theorem key_injective : Function.Injective key := by
  intro conf other same
  exact List.inj_on_of_nodup_map nodup_keys (mem_all conf) (mem_all other) same

theorem asciiStrdown_key (conf : ShareConf) : asciiStrdown conf.key = conf.key := by
  cases conf <;> decide +kernel

end ShareConf

/-- `shm_share_config`. -/
def shmShareConfig (k : CStr) (conf : ShareConf) : Bool :=
  !conf.isBroken && asciiStrdown k == asciiStrdown conf.key

end KsmbdTools.Config
