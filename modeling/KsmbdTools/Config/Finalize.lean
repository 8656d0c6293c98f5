import KsmbdTools.Config.Values
import KsmbdTools.Table

/-! From the parsed groups to the global settings and the shares: defaults are filled in,
share keys are inherited from `[global]`, and each section is read. -/

namespace KsmbdTools.Config
open Management

variable (platform : Platform)

/-- What `add_group_global_conf` adds to `[global]`. -/
def globalDefaults : List CStr := [
  ascii "guest account = nobody",
  ascii "max active sessions = 1024",
  ascii "max connections = 256",
  ascii "max ip connections = 32",
  ascii "max open files = 10000",
  ascii "netbios name = KSMBD SERVER",
  ascii "server string = SMB SERVER",
  ascii "share:fake_fscaps = 64",
  ascii "tcp port = 445",
  ascii "workgroup = WORKGROUP",
  ascii "fruit extensions = yes",
  ascii "fruit model = Xserve",
  ascii "fruit zero file id = yes",
  ascii "max worker threads = 4",
  ascii "server signing = auto"]

/-- What `add_group_ipc_share_conf` adds to `[ipc$]`. -/
def ipcShareConf : List CStr := [ascii "comment = IPC share", ascii "guest ok = yes"]

namespace SmbconfParser

/-- The table of the group `parser.global` points to. -/
def globalKv (parser : SmbconfParser) : HashTable CStr KeyValue :=
  ((parser.global.bind parser.groups.lookup).map (·.kv)).getD ∅

/-- The table of `[global]`, changed. -/
def setGlobalKv (parser : SmbconfParser) (kv : HashTable CStr KeyValue) : SmbconfParser :=
  match parser.global with
  | none => parser
  | some key =>
    match parser.groups.lookup key with
    | none => parser
    | some group => { parser with groups := parser.groups.insert key { group with kv } }

/-- `add_group("[global]")` and its defaults, which a reload does not need. -/
def addGlobal (reloading : Bool) (parser : SmbconfParser) : SmbconfParser :=
  let parser := parser.addGroup platform globalName
  if reloading then parser else globalDefaults.foldl addGroupKeyValue parser

def addIpc (parser : SmbconfParser) : SmbconfParser :=
  ipcShareConf.foldl addGroupKeyValue (parser.addGroup platform ipcName)

/-- `add_group_key_value` for every group but `[global]`. -/
def offerEntry (parser : SmbconfParser) (entry : CStr) : SmbconfParser :=
  { parser with groups := Table.mapValues (fun key group =>
      if parser.global == some key then group else { group with kv := addKeyValue group.kv entry }) parser.groups }

/-- One round of `steal_global_share_conf_kv`: the value of `[global]` or the default goes
to every other group. -/
def stealShareConf (parser : SmbconfParser) (conf : ShareConf) : SmbconfParser :=
  if conf.isBroken then parser
  else
    let stolen := if conf.isGlobal then none else parser.globalKv.lookup conf.key
    let parser := if conf.isGlobal then parser else parser.setGlobalKv (parser.globalKv.erase conf.key)
    parser.offerEntry ((stolen.map (·.key)).getD conf.key ++ ascii " = " ++ (stolen.map (·.value)).getD conf.defconf)

/-- `finalize_smbconf_parser` up to the shares: the global settings, and the groups as
`shm_add_new_share` gets them. -/
def finalized (reloading : Bool) (guest : Option CStr → Bool) (conf : GlobalConf) (parser : SmbconfParser) :
    Option (GlobalConf × SmbconfParser) := do
  let parser := parser.addGlobal platform reloading
  let (kv, conf) ← processGlobalConfKv reloading guest parser.globalKv conf
  some (conf, ShareConf.all.foldl stealShareConf ((parser.setGlobalKv kv).addIpc platform))

end SmbconfParser

/-- `cp_parse_smbconf` on the contents of the file, with a parser of its own. -/
def cpParseSmbconf (reloading : Bool) (guest : Option CStr → Bool) (conf : GlobalConf) (file : List UInt8) :
    Option (GlobalConf × SmbconfParser) :=
  match SmbconfParser.parseFile platform file with
  | (_, false) => none
  | (parser, true) => parser.finalized platform reloading guest conf

def boolFlag (flag : UInt32) (value : Option CStr) (flags : UInt32) : UInt32 :=
  match value with
  | none => flags
  | some v => if cpGetGroupKvBool v then setFlag flags flag else clearFlag flags flag

/-- Two flags of which a boolean sets the one and clears the other. -/
def eitherFlag (yes no : UInt32) (value : Option CStr) (flags : UInt32) : UInt32 :=
  match value with
  | none => flags
  | some v => if cpGetGroupKvBool v then clearFlag (setFlag flags yes) no else setFlag (clearFlag flags yes) no

/-- The list replaces what was set; only the two objects are known. -/
def vfsFlags (value : Option CStr) (flags : UInt32) : UInt32 :=
  match value with
  | none => flags
  | some v =>
    (cpGetGroupKvList v).foldl (fun flags object =>
      if object = ascii "acl_xattr" then setFlag flags ShareFlag.aclXattr
      else if object = ascii "streams_xattr" then setFlag flags ShareFlag.streams
      else flags) (clearFlag (clearFlag flags ShareFlag.aclXattr) ShareFlag.streams)

/-- The flags of a section, in the order `process_share_conf_kv` reads its keys. -/
def shareConfFlags (value : ShareConf → Option CStr) : UInt32 :=
  let flags := boolFlag ShareFlag.guestOk (value .guestOk) 0
  let flags := eitherFlag ShareFlag.readonly ShareFlag.writeable (value .readOnly) flags
  let flags := boolFlag ShareFlag.browseable (value .browseable) flags
  let flags := if (value .readOnly).isSome then flags
    else eitherFlag ShareFlag.writeable ShareFlag.readonly
      ((value .writable).or ((value .writeable).or (value .writeOk))) flags
  let flags := boolFlag ShareFlag.storeDosAttrs (value .storeDosAttributes) flags
  let flags := boolFlag ShareFlag.oplocks (value .oplocks) flags
  let flags := boolFlag ShareFlag.hideDotFiles (value .hideDotFiles) flags
  let flags := boolFlag ShareFlag.inheritOwner (value .inheritOwner) flags
  let flags := boolFlag ShareFlag.followSymlinks (value .followSymlinks) flags
  let flags := vfsFlags (value .vfsObjects) flags
  let flags := eitherFlag ShareFlag.streams ShareFlag.streamsDisabled (value .streams) flags
  let flags := boolFlag ShareFlag.aclXattr (value .aclXattr) flags
  let flags := boolFlag ShareFlag.crossmnt (value .crossmnt) flags
  let flags := boolFlag ShareFlag.fruitTimeMachine (value .fruitTimeMachine) flags
  let flags := boolFlag ShareFlag.fruitFinderInfo (value .fruitFinderInfo) flags
  let flags := boolFlag ShareFlag.fruitRforkSize (value .fruitRforkSize) flags
  let flags := boolFlag ShareFlag.fruitMaxAccess (value .fruitMaxAccess) flags
  boolFlag ShareFlag.continuousAvailability (value .continuousAvailability) flags

/-- The value in its `int`, then checked. -/
def limitShareConnections (number : Nat) : Int :=
  let field := toInt32 number
  if field ≤ 0 ∨ 65536 < field then 65536 else field

/-- `share->create_mask` and the like, four unsigned short. -/
def modeValue (value : Option CStr) : UInt16 := (value.map fun v => UInt16.ofNat (cpGetGroupKvLongBase 8 v)).getD 0

def hostsList (value : Option CStr) : Option (List CStr) :=
  value.map fun v => ((cpGetGroupKvList v).filter (!·.isEmpty)).dedup

/-- `process_share_conf_kv` as far as it only reads the values of a section. -/
def shareGroup (name : CStr) (pipe : Bool) (value : ShareConf → Option CStr) : ShareGroup where
  name
  pipe
  comment := value .comment
  path := value .path
  guestAccount := value .guestAccount
  flags := shareConfFlags value
  createMask := modeValue (value .createMask)
  directoryMask := modeValue (value .directoryMask)
  forceCreateMode := modeValue (value .forceCreateMode)
  forceDirectoryMode := modeValue (value .forceDirectoryMode)
  forceGroup := value .forceGroup
  forceUser := value .forceUser
  validUsers := (value .validUsers).map cpGetGroupKvList
  invalidUsers := (value .invalidUsers).map cpGetGroupKvList
  readList := (value .readList).map cpGetGroupKvList
  writeList := (value .writeList).map cpGetGroupKvList
  hostsAllow := hostsList (value .hostsAllow)
  hostsDeny := hostsList (value .hostsDeny)
  maxConnections := ((value .maxConnections).map fun v => limitShareConnections (cpMemparse v)).getD 0
  vetoFiles := value .vetoFiles
  timeMachineMaxSize := ((value .fruitTimeMachineMaxSize).map fun v => UInt64.ofNat (cpMemparse v)).getD 0

namespace SmbconfParser

def shareValue (group : SmbconfGroup) (conf : ShareConf) : Option CStr := (group.kv.lookup conf.key).map (·.value)

/-- What `shm_add_new_share` reads from the groups other than `[global]`. -/
def shareGroups (parser : SmbconfParser) : List ShareGroup :=
  (parser.groups.entries.filter fun entry => parser.global != some entry.1).map fun entry =>
    shareGroup entry.2.name (parser.ipc == some entry.1) (shareValue entry.2)

end SmbconfParser

/-- A configuration file that was read and finalised, as the daemon goes on with it. -/
def loadedConfig (conf : GlobalConf) (parser : SmbconfParser) : Management.Config :=
  { globalConf := conf.toSmbconfGlobal, shares := parser.shareGroups }

end KsmbdTools.Config
