import KsmbdTools.Spnego.Asn1

/-! The SPNEGO tokens: `negTokenInit` from the client, `negTokenTarg` to it. -/

namespace KsmbdTools.Spnego

def spnegoOid : List Nat := [1, 3, 6, 1, 5, 5, 2]

def krb5Oid : List Nat := [1, 2, 840, 113554, 1, 2, 2]

def mskrb5Oid : List Nat := [1, 2, 840, 48018, 1, 2, 2]

inductive Mech where
  | mskrb5
  | krb5
  deriving DecidableEq, Repr

namespace Mech

def oid : Mech → List Nat
  | .mskrb5 => mskrb5Oid
  | .krb5 => krb5Oid

end Mech

def isSupportedMech (oid : List Nat) : Option Mech :=
  if oid = mskrb5Oid then some .mskrb5 else if oid = krb5Oid then some .krb5 else none

/-- Every early return of the token decoder is `-EINVAL`, as is an unexpected header. -/
def decodeAsn1Header (id : Asn1Id) : Asn1 (Option Nat) := do
  let (eoc, found) ← asn1HeaderDecode
  if found ≠ id then Proc.stop () else return eoc

namespace Asn1Id
/-- `ASN1_APL, ASN1_CON, ASN1_EOC`. -/
def application : Asn1Id := { cls := 1, con := 1, tag := 0 }
/-- `ASN1_UNI, ASN1_PRI, ASN1_OJI`. -/
def objectId : Asn1Id := { cls := 0, con := 0, tag := 6 }
/-- `ASN1_UNI, ASN1_CON, ASN1_SEQ`. -/
def sequence : Asn1Id := { cls := 0, con := 1, tag := 16 }
/-- `ASN1_UNI, ASN1_PRI, ASN1_OTS`. -/
def octetString : Asn1Id := { cls := 0, con := 0, tag := 4 }
/-- `ASN1_UNI, ASN1_PRI, ASN1_ENUM`. -/
def enumerated : Asn1Id := { cls := 0, con := 0, tag := 10 }
/-- `ASN1_CTX, ASN1_CON` and a number. -/
def context (tag : Nat) : Asn1Id := { cls := 2, con := 1, tag }
end Asn1Id

/-- `krb5_ap_req` as an offset into the token, and `req_len`. -/
structure ApReq where
  mech : Mech
  offset : Nat
  length : Nat
  deriving DecidableEq, Repr

def expectOid (oid : List Nat) : Asn1 Unit := do
  let eoc ← decodeAsn1Header .objectId
  let found ← asn1OidDecode eoc
  if found ≠ oid then Proc.stop () else return ()

/-- From the start of the token to the first mechanism, with the end of `mechTypes`. -/
def decodeMechTypes : Asn1 (Mech × Option Nat) := do
  let _ ← decodeAsn1Header .application
  expectOid spnegoOid
  -- negTokenInit
  let _ ← decodeAsn1Header (.context 0)
  let _ ← decodeAsn1Header .sequence
  -- mechTypes
  let _ ← decodeAsn1Header (.context 0)
  let mechTypesEnd ← decodeAsn1Header .sequence
  let eoc ← decodeAsn1Header .objectId
  let oid ← asn1OidDecode eoc
  match isSupportedMech oid with
  | none => Proc.stop ()
  | some mech => return (mech, mechTypesEnd)

/-- From the mechanism token on. What is left of the token is taken for the AP-REQ. -/
def decodeMechToken (mech : Mech) : Asn1 ApReq := do
  let _ ← decodeAsn1Header (.context 2)
  let _ ← decodeAsn1Header .octetString
  let _ ← decodeAsn1Header .application
  expectOid krb5Oid
  let id ← asn1Read 2
  if id ≠ [1, 0] then Proc.stop ()
  else
    let ctx ← Proc.get
    let offset ← Proc.deref ctx.pointer
    return { mech, offset, length := ctx.buffer.length - offset }

def decodeNegTokenInit : Asn1 ApReq := do
  let (mech, mechTypesEnd) ← decodeMechTypes
  Proc.modify (·.move mechTypesEnd)
  decodeMechToken mech

/-- The reply under construction: the buffer and the place the next byte goes to. -/
structure TargBuffer where
  memory : List UInt8
  position : Nat
  deriving DecidableEq

namespace TargBuffer

def put (buffer : TargBuffer) (bytes : List UInt8) : TargBuffer :=
  { memory := Bytes.overlay buffer.memory buffer.position bytes, position := buffer.position + bytes.length }

/-- Bytes that are copied to the place, which then moves by `len`. -/
def copy (buffer : TargBuffer) (bytes : List UInt8) (len : Nat) : TargBuffer :=
  { memory := Bytes.overlay buffer.memory buffer.position bytes, position := buffer.position + len }

/-- The answer of `asn1_header_encode` is not looked at: on an error nothing is written
and the length stays. -/
def header (buffer : TargBuffer) (id : Asn1Id) (len : Nat) : TargBuffer × Nat :=
  match asn1HeaderEncode id.cls id.con id.tag len with
  | none => (buffer, len)
  | some (bytes, left) => (buffer.put bytes, left)

end TargBuffer

/-- The buffer and `out_len`. -/
def encodeNegTokenTarg (blob : List UInt8) (oid : List Nat) : TargBuffer × Nat :=
  let supOid := asn1OidEncode oid
  let krb5 := asn1OidEncode krb5Oid
  let negResultLen := asn1HeaderLen 1 2
  let supMechLen := asn1HeaderLen supOid.length 2
  let repTokenLen := asn1HeaderLen ((asn1HeaderLen krb5.length 1 + 2 + blob.length) % 2 ^ 32) 3
  let outLen := asn1HeaderLen ((negResultLen + supMechLen + repTokenLen) % 2 ^ 32) 2
  let buffer : TargBuffer := { memory := List.replicate outLen 0, position := 0 }
  -- negTokenTarg
  let (buffer, len) := buffer.header (.context 1) outLen
  let (buffer, _) := buffer.header .sequence len
  -- negResult
  let (buffer, len) := buffer.header (.context 0) negResultLen
  let (buffer, _) := buffer.header .enumerated len
  let buffer := buffer.put [0]
  -- supportedMechType
  let (buffer, len) := buffer.header (.context 1) supMechLen
  let (buffer, len) := buffer.header .objectId len
  let buffer := buffer.copy supOid len
  -- responseToken
  let (buffer, len) := buffer.header (.context 2) repTokenLen
  let (buffer, len) := buffer.header .octetString len
  let (buffer, _) := buffer.header .application len
  let (buffer, len) := buffer.header .objectId (asn1HeaderLen krb5.length 1)
  let buffer := buffer.copy krb5 len
  -- AP-REP
  let buffer := buffer.put [2]
  let buffer := buffer.put [0]
  ({ buffer with memory := Bytes.overlay buffer.memory buffer.position blob }, outLen)

end KsmbdTools.Spnego
