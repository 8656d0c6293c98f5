import Mathlib.Data.List.Basic
import Mathlib.Algebra.GroupWithZero.Nat
import Mathlib.Algebra.Ring.Int.Defs

/-! What the daemon takes from libc and glib: C strings, fixed-size message
fields, bit flags, and the library calls whose answers come from outside. -/

namespace KsmbdTools

/-- The bytes of a C string up to, and without, its terminator. -/
abbrev CStr := List UInt8

/-- A `__s8 field[size]` of an IPC message, terminated or not. -/
structure CharArray (size : Nat) where
  bytes : List UInt8
  length_eq : bytes.length = size
  deriving DecidableEq

namespace CharArray
variable {size : Nat}

def str (field : CharArray size) : CStr := field.bytes.takeWhile (· != 0)

def strnlen (field : CharArray size) : Nat := field.str.length

def terminated (field : CharArray size) : Bool := field.strnlen < size

/-- The field holding a string, padded with zeros as the kernel sends it. -/
def ofStr (size : Nat) (str : CStr) : CharArray size :=
  ⟨(str ++ List.replicate size 0).take size, by simp⟩

/-- `g_strlcpy`: what lies behind the terminator stays as it was. -/
def strlcpy (field : CharArray size) (str : CStr) : CharArray size :=
  let copied := str.take (size - 1) ++ [0]
  ⟨(copied ++ field.bytes.drop copied.length).take size, by simp [field.length_eq]; omega⟩

end CharArray

def testFlag (flags flag : UInt32) : Bool := flags &&& flag != 0

def setFlag (flags flag : UInt32) : UInt32 := flags ||| flag

def clearFlag (flags flag : UInt32) : UInt32 := flags &&& ~~~flag

inductive AddressFamily where
  | inet
  | inet6
  deriving DecidableEq, Repr

inductive Charset where
  | utf8
  | utf16le
  | utf16be
  deriving DecidableEq, Repr

/-- Answers of the C library and of glib. Nothing here is modelled further;
results hold for every platform unless they name what they ask of it. -/
structure Platform where
  utf8Normalize : CStr → Option CStr
  utf8Casefold : CStr → CStr
  utf8Validate : CStr → Bool
  inetPton : AddressFamily → CStr → Option (List UInt8)
  getpwnam : CStr → Option (UInt32 × UInt32)
  getgrouplist : CStr → List UInt32
  /-- The gid; then the accounts whose primary group it is and the members the entry lists. -/
  getgrnam : CStr → Option (UInt32 × List CStr)
  getpwuid : UInt32 → Option CStr
  gethostname : Option CStr
  base64Decode : CStr → Option (List UInt8)
  /-- `ksmbd_gconvert`: target charset, source charset, bytes. -/
  gconvert : Charset → Charset → List UInt8 → Option (List UInt8)
  utf8Strlen : CStr → Nat

def asciiLower (byte : UInt8) : UInt8 := if 65 ≤ byte ∧ byte ≤ 90 then byte + 32 else byte

def asciiUpper (byte : UInt8) : UInt8 := if 97 ≤ byte ∧ byte ≤ 122 then byte - 32 else byte

def asciiStrdown (str : CStr) : CStr := str.map asciiLower

def asciiStrup (str : CStr) : CStr := str.map asciiUpper

namespace Strtol

def isSpace (byte : UInt8) : Bool := byte == 32 || (9 ≤ byte && byte ≤ 13)

def isDigit (byte : UInt8) : Bool := 48 ≤ byte && byte ≤ 57

def value (digits : List UInt8) : Nat := digits.foldl (fun total digit => 10 * total + (digit.toNat - 48)) 0

structure Result where
  number : Int
  rest : CStr
  consumed : Bool
  erange : Bool

/-- `strtol(str, &endp, 10)` on a 64-bit `long`. `rest` is where `endp` points;
without a digit nothing is consumed. -/
def strtol (str : CStr) : Result :=
  let body := str.dropWhile isSpace
  let negative := body.head? == some 45
  let unsigned := if negative || body.head? == some 43 then body.tail else body
  let digits := unsigned.takeWhile isDigit
  if digits.isEmpty then ⟨0, str, false, false⟩
  else
    let magnitude : Int := value digits
    let number := if negative then -magnitude else magnitude
    let rest := unsigned.dropWhile isDigit
    if number < -2 ^ 63 then ⟨-2 ^ 63, rest, true, true⟩
    else if 2 ^ 63 ≤ number then ⟨2 ^ 63 - 1, rest, true, true⟩
    else ⟨number, rest, true, false⟩

end Strtol

/-- Assignment of a `long` to an `int`. -/
def toInt32 (number : Int) : Int := (number + 2 ^ 31) % 2 ^ 32 - 2 ^ 31

end KsmbdTools
