import KsmbdTools.Config.Smbconf

/-! How values are read, and what the parameters of `[global]` set. -/

namespace KsmbdTools.Config
open Management

namespace Strtoul

structure Result where
  number : Nat
  rest : CStr
  consumed : Bool
  erange : Bool

def digit? (base : Nat) (byte : UInt8) : Option Nat :=
  let value := if Strtol.isDigit byte then some (byte.toNat - 48)
    else if 97 ≤ asciiLower byte && asciiLower byte ≤ 122 then some ((asciiLower byte).toNat - 87)
    else none
  value.filter (· < base)

/-- Base zero is told by the text: `0x` and a digit, or a zero. -/
def detectBase (base : Nat) (text : CStr) : Nat × CStr :=
  if base ≠ 0 then (base, text)
  else match text with
    | 48 :: mark :: byte :: rest =>
      if asciiLower mark == 120 && (digit? 16 byte).isSome then (16, byte :: rest) else (8, text)
    | 48 :: _ => (8, text)
    | _ => (10, text)

def value (base : Nat) (digits : CStr) : Nat :=
  digits.foldl (fun total byte => base * total + (digit? base byte).getD 0) 0

/-- `strtoul` and `strtoull` on a 64-bit target. A minus negates modulo 2 ^ 64. -/
def strtoul (base : Nat) (text : CStr) : Result :=
  let body := text.dropWhile Strtol.isSpace
  let negative := body.head? == some 45
  let unsigned := if negative || body.head? == some 43 then body.tail else body
  let (base, unsigned) := detectBase base unsigned
  let digits := unsigned.takeWhile fun byte => (digit? base byte).isSome
  if digits.isEmpty then ⟨0, text, false, false⟩
  else
    let magnitude := value base digits
    let rest := unsigned.drop digits.length
    if 2 ^ 64 ≤ magnitude then ⟨2 ^ 64 - 1, rest, true, true⟩
    else ⟨if negative then (2 ^ 64 - magnitude) % 2 ^ 64 else magnitude, rest, true, false⟩

end Strtoul

def cpGetGroupKvLongBase (base : Nat) (v : CStr) : Nat :=
  let parsed := Strtoul.strtoul base v
  if parsed.erange || !parsed.consumed then 0 else parsed.number

def cpGetGroupKvLong (v : CStr) : Nat := cpGetGroupKvLongBase 10 v

/-- Times 1024 so many times, or `ULLONG_MAX` when that does not fit. -/
def shiftSuffix : Nat → Nat → Nat
  | 0, number => number
  | steps + 1, number => if (2 ^ 64 - 1) / 2 ^ 10 < number then 2 ^ 64 - 1 else shiftSuffix steps (number * 2 ^ 10)

/-- `E` down to `K`. -/
def suffixSteps (byte : UInt8) : Nat :=
  match asciiLower byte with
  | 101 => 6
  | 112 => 5
  | 116 => 4
  | 103 => 3
  | 109 => 2
  | 107 => 1
  | _ => 0

def cpMemparse (v : CStr) : Nat :=
  let parsed := Strtoul.strtoul 0 v
  if parsed.erange || !parsed.consumed then 0
  else shiftSuffix ((parsed.rest.head?.map suffixSteps).getD 0) parsed.number

/-- `!cp_key_cmp`. -/
def sameKey (left right : CStr) : Bool := asciiStrdown left == asciiStrdown right

def cpGetGroupKvBool (v : CStr) : Bool :=
  sameKey v (ascii "yes") || sameKey v (ascii "1") || sameKey v (ascii "true") || sameKey v (ascii "enable")

inductive ConfigOpt where
  | disabled
  | enabled
  | auto
  | mandatory
  deriving DecidableEq, Repr

def cpGetGroupKvConfigOpt (v : CStr) : ConfigOpt :=
  if sameKey v (ascii "enabled") then .enabled
  else if sameKey v (ascii "auto") then .auto
  else if sameKey v (ascii "mandatory") then .mandatory
  else .disabled

def cpGetGroupKvList : CStr → List CStr
  | [] => [[]]
  | byte :: rest =>
    if isAsciiSpaceTab byte || byte == 44 then [] :: cpGetGroupKvList rest
    else match cpGetGroupKvList rest with
      | [] => [[byte]]
      | field :: fields => (byte :: field) :: fields

namespace GlobalFlag
def smb2Leases : UInt32 := 0x001
def smb2Encryption : UInt32 := 0x002
def smb3Multichannel : UInt32 := 0x004
def smb2EncryptionOff : UInt32 := 0x008
def durableHandle : UInt32 := 0x010
def fruitExtensions : UInt32 := 0x020
def fruitZeroFileid : UInt32 := 0x040
def fruitNfsAces : UInt32 := 0x080
def fruitCopyfile : UInt32 := 0x100
end GlobalFlag

/-- `struct smbconf_global`, as far as the file sets it, with the fields the daemon's tables use first. -/
structure GlobalConf extends SmbconfGlobal where
  flags : UInt32 := 0
  serverString : Option CStr := none
  netbiosName : Option CStr := none
  serverMinProtocol : Option CStr := none
  serverMaxProtocol : Option CStr := none
  serverSigning : ConfigOpt := .disabled
  tcpPort : UInt16 := 0
  ipcTimeout : UInt16 := 0
  deadtime : UInt32 := 0
  bindInterfacesOnly : Bool := false
  interfaces : Option (List CStr) := none
  fileMax : UInt64 := 0
  smb2MaxRead : UInt32 := 0
  smb2MaxWrite : UInt32 := 0
  smb2MaxTrans : UInt32 := 0
  smb2MaxCredits : UInt32 := 0
  smbdMaxIoSize : UInt32 := 0
  maxConnections : UInt32 := 0
  maxIpConnections : UInt32 := 0
  shareFakeFscaps : UInt32 := 0
  krb5KeytabFile : Option CStr := none
  krb5ServiceName : Option CStr := none
  krb5Support : Bool := false
  fruitModel : Option CStr := none
  maxWorkerThreads : Int := 0
  tcpRecvTimeout : UInt32 := 0
  tcpSendTimeout : UInt32 := 0
  quicRecvTimeout : UInt32 := 0
  quicSendTimeout : UInt32 := 0
  quicHandshakeDelegate : Bool := false
  quicTlsCert : Option CStr := none
  quicTlsKey : Option CStr := none
  maxLockCount : UInt32 := 0
  maxBufferSize : UInt32 := 0
  sessionTimeout : UInt32 := 0
  durableHandleTimeout : UInt32 := 0
  maxInflightReq : UInt32 := 0
  maxAsyncCredits : UInt32 := 0
  maxSessions : UInt32 := 0
  smb1MaxMpx : UInt32 := 0

/-- A parameter of `[global]`: its key, and what its value sets. -/
structure GlobalParam where
  key : CStr
  set : CStr → GlobalConf → GlobalConf

def stringParam (key : String) (set : Option CStr → GlobalConf → GlobalConf) : GlobalParam :=
  ⟨ascii key, fun v => set (some v)⟩

/-- A number by `cp_get_group_kv_long`. -/
def longParam (key : String) (set : Nat → GlobalConf → GlobalConf) : GlobalParam :=
  ⟨ascii key, fun v => set (cpGetGroupKvLong v)⟩

/-- A size by `cp_memparse`. -/
def sizeParam (key : String) (set : Nat → GlobalConf → GlobalConf) : GlobalParam := ⟨ascii key, fun v => set (cpMemparse v)⟩

def boolParam (key : String) (set : Bool → GlobalConf → GlobalConf) : GlobalParam :=
  ⟨ascii key, fun v => set (cpGetGroupKvBool v)⟩

def optParam (key : String) (set : ConfigOpt → GlobalConf → GlobalConf) : GlobalParam :=
  ⟨ascii key, fun v => set (cpGetGroupKvConfigOpt v)⟩

def flagParam (key : String) (flag : UInt32) : GlobalParam :=
  boolParam key fun yes conf => { conf with flags := if yes then setFlag conf.flags flag else clearFlag conf.flags flag }

/-- The value in its field, then checked: what is not in `1..65536` becomes the maximum. -/
def limitConnections (number : Nat) : UInt32 :=
  let field := UInt32.ofNat number
  if field = 0 ∨ 65536 < field then 65536 else field

/-- The parameters up to the guest account, which has to exist before the others are read. -/
def leadingParams : List GlobalParam := [
  stringParam "server string" fun text conf => { conf with serverString := text },
  stringParam "workgroup" fun text conf => { conf with workGroup := text },
  stringParam "netbios name" fun text conf => { conf with netbiosName := text },
  stringParam "server min protocol" fun text conf => { conf with serverMinProtocol := text },
  optParam "server signing" fun opt conf => { conf with serverSigning := opt },
  stringParam "server max protocol" fun text conf => { conf with serverMaxProtocol := text },
  stringParam "guest account" fun text conf => { conf with guestAccount := text }]

def setSessionsCap (number : Nat) (conf : GlobalConf) : GlobalConf :=
  let cap := toInt32 number
  { conf with sessionsCap := if cap ≤ 0 ∨ 65536 < cap then 65536 else cap }

def setTcpPort (number : Nat) (conf : GlobalConf) : GlobalConf :=
  if conf.tcpPort ≠ 0 then conf
  else
    let port := UInt16.ofNat number
    { conf with tcpPort := if 65535 < port.toNat then 445 else port }

def setIpcTimeout (number : Nat) (conf : GlobalConf) : GlobalConf :=
  let timeout := UInt16.ofNat number
  { conf with ipcTimeout := if 65535 < timeout.toNat then 0 else timeout }

def setFileMax (number : Nat) (conf : GlobalConf) : GlobalConf :=
  let max := UInt64.ofNat number
  { conf with fileMax := if max = 0 ∨ 65536 < max then 65536 else max }

def setRestrictAnon (number : Nat) (conf : GlobalConf) : GlobalConf :=
  let anon := toInt32 number
  { conf with restrictAnon := if anon ≠ 1 ∧ anon ≠ 2 then 0 else anon }

def setEncryption (opt : ConfigOpt) (conf : GlobalConf) : GlobalConf :=
  { conf with flags := match opt with
    | .disabled => clearFlag (setFlag conf.flags GlobalFlag.smb2EncryptionOff) GlobalFlag.smb2Encryption
    | .mandatory => clearFlag (setFlag conf.flags GlobalFlag.smb2Encryption) GlobalFlag.smb2EncryptionOff
    | _ => clearFlag (clearFlag conf.flags GlobalFlag.smb2Encryption) GlobalFlag.smb2EncryptionOff }

def setMaxWorkerThreads (number : Nat) (conf : GlobalConf) : GlobalConf :=
  let threads := toInt32 number
  let threads := if threads < 1 then 4 else threads
  { conf with maxWorkerThreads := if 64 < threads then 64 else threads }

def sessionParams : List GlobalParam := [
  longParam "max active sessions" setSessionsCap,
  longParam "tcp port" setTcpPort,
  longParam "ipc timeout" setIpcTimeout,
  longParam "max open files" setFileMax,
  longParam "restrict anonymous" setRestrictAnon,
  ⟨ascii "map to guest", fun v conf => { conf with mapToGuest := if sameKey v (ascii "bad user") then 1 else 0 }⟩,
  boolParam "bind interfaces only" fun yes conf => { conf with bindInterfacesOnly := yes },
  ⟨ascii "interfaces", fun v conf => { conf with interfaces := some (cpGetGroupKvList v) }⟩,
  longParam "deadtime" fun number conf => { conf with deadtime := .ofNat number }]

def protocolParams : List GlobalParam := [
  flagParam "smb2 leases" GlobalFlag.smb2Leases,
  stringParam "root directory" fun text conf => { conf with rootDir := text },
  sizeParam "smb2 max read" fun size conf => { conf with smb2MaxRead := .ofNat size },
  sizeParam "smb2 max write" fun size conf => { conf with smb2MaxWrite := .ofNat size },
  sizeParam "smb2 max trans" fun size conf => { conf with smb2MaxTrans := .ofNat size },
  optParam "smb3 encryption" setEncryption,
  longParam "share:fake_fscaps" fun number conf => { conf with shareFakeFscaps := .ofNat number },
  stringParam "kerberos service name" fun text conf => { conf with krb5ServiceName := text },
  stringParam "kerberos keytab file" fun text conf => { conf with krb5KeytabFile := text },
  boolParam "kerberos support" fun yes conf => { conf with krb5Support := yes },
  flagParam "server multi channel support" GlobalFlag.smb3Multichannel,
  sizeParam "smb2 max credits" fun size conf => { conf with smb2MaxCredits := .ofNat size },
  sizeParam "smbd max io size" fun size conf => { conf with smbdMaxIoSize := .ofNat size }]

def connectionParams : List GlobalParam := [
  sizeParam "max connections" fun size conf => { conf with maxConnections := limitConnections size },
  flagParam "durable handles" GlobalFlag.durableHandle,
  flagParam "fruit extensions" GlobalFlag.fruitExtensions,
  stringParam "fruit model" fun text conf => { conf with fruitModel := text },
  flagParam "fruit zero file id" GlobalFlag.fruitZeroFileid,
  flagParam "fruit nfs aces" GlobalFlag.fruitNfsAces,
  flagParam "fruit copyfile" GlobalFlag.fruitCopyfile,
  sizeParam "max ip connections" fun size conf => { conf with maxIpConnections := limitConnections size },
  longParam "max worker threads" setMaxWorkerThreads]

def serverLimitParams : List GlobalParam := [
  longParam "tcp recv timeout" fun number conf => { conf with tcpRecvTimeout := .ofNat number },
  longParam "tcp send timeout" fun number conf => { conf with tcpSendTimeout := .ofNat number },
  longParam "quic recv timeout" fun number conf => { conf with quicRecvTimeout := .ofNat number },
  longParam "quic send timeout" fun number conf => { conf with quicSendTimeout := .ofNat number },
  boolParam "quic handshake delegate" fun yes conf => { conf with quicHandshakeDelegate := yes },
  stringParam "quic tls cert" fun text conf => { conf with quicTlsCert := text },
  stringParam "quic tls key" fun text conf => { conf with quicTlsKey := text },
  longParam "max lock count" fun number conf => { conf with maxLockCount := .ofNat number },
  sizeParam "max buffer size" fun size conf => { conf with maxBufferSize := .ofNat size },
  longParam "session timeout" fun number conf => { conf with sessionTimeout := .ofNat number },
  longParam "durable handle timeout" fun number conf => { conf with durableHandleTimeout := .ofNat number },
  longParam "max inflight requests" fun number conf => { conf with maxInflightReq := .ofNat number },
  longParam "max async credits" fun number conf => { conf with maxAsyncCredits := .ofNat number },
  longParam "max sessions" fun number conf => { conf with maxSessions := .ofNat number },
  longParam "smb1 max mpx" fun number conf => { conf with smb1MaxMpx := .ofNat number }]

/-- The parameters behind the guest account, in the order they are read. -/
def trailingParams : List GlobalParam := sessionParams ++ protocolParams ++ connectionParams ++ serverLimitParams

/-- `group_kv_steal`: the pair leaves the table in any case, but a reload does not read it. -/
def stealParam (reloading : Bool) (state : HashTable CStr KeyValue × GlobalConf) (param : GlobalParam) :
    HashTable CStr KeyValue × GlobalConf :=
  let (kv, conf) := state
  match kv.lookup param.key with
  | none => (kv, conf)
  | some pair => (kv.erase param.key, if reloading then conf else param.set pair.value conf)

/-- `process_global_conf_kv` on the table of `[global]`, with `guest` for `usm_add_guest_account`. -/
def processGlobalConfKv (reloading : Bool) (guest : Option CStr → Bool) (kv : HashTable CStr KeyValue)
    (conf : GlobalConf) : Option (HashTable CStr KeyValue × GlobalConf) :=
  let (kv, conf) := leadingParams.foldl (stealParam reloading) (kv, conf)
  if guest conf.guestAccount then some (trailingParams.foldl (stealParam reloading) (kv, conf)) else none

end KsmbdTools.Config
