import KsmbdTools.Rpc.Pipe

/-! Security identifiers and the security descriptor of a user. -/

namespace KsmbdTools.Rpc
open Management

def sidMaxSubAuthorities : Nat := 15

def lowAuthority (authority : UInt8) : Vector UInt8 6 := (Vector.replicate 6 0).set 5 authority

/-- An identifier of revision 1 under one of the authorities that fit in a byte. -/
def smbSid (authority : UInt8) (subs : List UInt32) : SmbSid where
  revision := 1
  numSubauth := Fin.ofNat 16 subs.length
  authority := lowAuthority authority
  subAuth := Vector.ofFn fun index : Fin 15 => subs.getD index 0

def sidDomain : SmbSid := smbSid 5 [21]

def sidEveryone : SmbSid := smbSid 1 [0]

def sidUnixUsers : SmbSid := smbSid 22 [1]

def sidUnixGroups : SmbSid := smbSid 22 [2]

def sidLocalGroup : SmbSid := smbSid 5 [32]

def smbInitDomainSid (conf : SmbconfGlobal) : SmbSid :=
  smbSid 5 [21, conf.genSubauth.1, conf.genSubauth.2.1, conf.genSubauth.2.2]

namespace SmbSid

/-- One more sub-authority, for an identifier that has room for it. -/
def push (sid : SmbSid) (auth : UInt32) : SmbSid :=
  { sid with numSubauth := sid.numSubauth + 1, subAuth := sid.subAuth.setIfInBounds sid.numSubauth auth }

/-- The calls of `smb_write_sid`. -/
def items (sid : SmbSid) : List Item :=
  [.int8 sid.revision, .int8 (UInt8.ofNat sid.numSubauth)] ++ sid.authority.toList.map .int8 ++
    (sid.subAuth.toList.take sid.numSubauth).map .int32

end SmbSid

def smbReadSid : Ndr SmbSid := do
  let revision ← ndrReadInt8
  let numSubauth ← ndrReadInt8
  if numSubauth = 0 ∨ sidMaxSubAuthorities < numSubauth.toNat then Proc.stop ()
  let authority ← Proc.collect 6 ndrReadInt8
  let subs ← Proc.collect numSubauth.toNat ndrReadInt32
  return {
    revision
    numSubauth := Fin.ofNat 16 numSubauth.toNat
    authority := Vector.ofFn fun index : Fin 6 => authority.getD index 0
    subAuth := Vector.ofFn fun index : Fin 15 => subs.getD index 0 }

/-- `smb_compare_sids` answers zero: the shorter identifier is a start of the longer one. -/
def smbSameSids (first second : SmbSid) : Bool :=
  let count := min first.numSubauth.val second.numSubauth.val
  first.revision == second.revision && first.authority == second.authority &&
    first.subAuth.toList.take count == second.subAuth.toList.take count

def decimal (value : Nat) : CStr := (Nat.toDigits 10 value).map fun digit => UInt8.ofNat digit.toNat

/-- `S-` and the numbers, joined by dashes. -/
def smbSidToString (sid : SmbSid) : CStr :=
  83 :: 45 :: decimal sid.revision.toNat ++ 45 :: decimal sid.authority[5].toNat ++
    (sid.subAuth.toList.take sid.numSubauth).flatMap fun auth => 45 :: decimal auth.toNat

namespace SidType
def user : UInt32 := 1
def group : UInt32 := 2
def unknown : UInt32 := 8
end SidType

/-- What `set_domain_name` answers: the name and the type it has set by then, and its return value. -/
structure DomainReport where
  domain : Option CStr := none
  type : Option UInt32 := none
  result : Int
  deriving DecidableEq

/-- For a buffer of `DOMAIN_STR_SIZE` bytes. -/
def setDomainName (machine : Machine) (conf : SmbconfGlobal) (sid : SmbSid) : DomainReport :=
  let enomem : Int := -12
  let enoent : Int := -2
  if smbSameSids sid sidDomain && sid.genSubauth == conf.genSubauth then
    match machine.gethostname with
    | none => { result := enomem }
    | some hostname =>
      let domain := (asciiStrup hostname).take 256
      if 257 ≤ hostname.length then { domain, result := enomem }
      else { domain, type := SidType.user, result := hostname.length }
  else if smbSameSids sid sidUnixUsers then
    { domain := some [85, 110, 105, 120, 32, 85, 115, 101, 114], type := SidType.user, result := 9 }
  else if smbSameSids sid sidUnixGroups then
    { domain := some [85, 110, 105, 120, 32, 71, 114, 111, 117, 112], type := SidType.group, result := 10 }
  else { domain := smbSidToString sid, type := SidType.unknown, result := enoent }

/-- Every result but zero, so also the number of characters printed, is an error to the
caller, which gives the entry the index -1 then. -/
def LsarpcNamesInfo.report (info : LsarpcNamesInfo) (report : DomainReport) : LsarpcNamesInfo :=
  { info with
    domainStr := report.domain.getD info.domainStr
    type := report.type.getD info.type
    index := if report.result = 0 then info.index else 0xFFFFFFFF }

/-- The calls of `smb_set_ace` and the size it returns. -/
def smbSetAce (accessReq rid : UInt32) (sid : SmbSid) : List Item × Nat :=
  let size := 1 + 1 + 2 + 4 + 1 + 1 + 6 + sid.numSubauth.val * 4 + if rid = 0 then 0 else 4
  ([.int8 0, .int8 0, .int16 (UInt16.ofNat size), .int32 accessReq] ++
    (if rid = 0 then sid else sid.push rid).items, size)

/-- The four entries of `set_dacl`. -/
def setDacl (conf : SmbconfGlobal) (rid : UInt32) : List (List Item × Nat) :=
  [smbSetAce 0x0002035b 0 sidEveryone, smbSetAce 0x000f07ff 544 sidLocalGroup, smbSetAce 0x000f07ff 548 sidLocalGroup,
    smbSetAce 0x00020044 rid (smbInitDomainSid conf)]

variable (machine : Machine)

/-- The length of the descriptor. The size of the access list is filled in behind it. -/
def buildSecDesc (conf : SmbconfGlobal) (rid : UInt32) : Proc Call Status Nat := do
  let aces := setDacl conf rid
  let aclSize := (aces.map (·.2)).sum + 8
  Call.write machine [.int16 1, .int16 0x8004, .int32 0, .int32 0, .int32 0, .int32 20, .int16 2]
  let aclSizeOffset ← Call.tell
  Call.write machine ([.skip 2, .int32 4] ++ aces.flatMap (·.1))
  let offset ← Call.tell
  Call.seek aclSizeOffset
  Call.write machine [.int16 (UInt16.ofNat aclSize)]
  Call.seek offset
  return 20 + aclSize

end KsmbdTools.Rpc
