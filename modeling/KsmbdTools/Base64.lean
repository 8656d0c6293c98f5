import Mathlib.Data.List.Basic

/-! Base64 as glib decodes it: what is not of the alphabet is skipped, and a last group that is not complete dropped. -/

namespace KsmbdTools.Base64

/-- The six bits of a character; padding counts as zeros. -/
def rank (byte : UInt8) : Option Nat :=
  if 65 ≤ byte ∧ byte ≤ 90 then some (byte.toNat - 65)
  else if 97 ≤ byte ∧ byte ≤ 122 then some (byte.toNat - 71)
  else if 48 ≤ byte ∧ byte ≤ 57 then some (byte.toNat + 4)
  else if byte = 43 then some 62
  else if byte = 47 then some 63
  else if byte = 61 then some 0 else none

def group (a b c d : UInt8) : List UInt8 :=
  let bits (byte : UInt8) : Nat := (rank byte).getD 0
  let value := ((bits a * 64 + bits b) * 64 + bits c) * 64 + bits d
  .ofNat (value / 65536) :: ((if c = 61 then [] else [.ofNat (value / 256)]) ++ if d = 61 then [] else [.ofNat value])

def groups : List UInt8 → List UInt8
  | a :: b :: c :: d :: rest => group a b c d ++ groups rest
  | _ => []

def decode (text : List UInt8) : List UInt8 := groups (text.filter fun byte => (rank byte).isSome)

theorem decode_zeros (count : Nat) : decode (List.replicate (4 * count) 65) = List.replicate (3 * count) 0 := by
  have ranked : (List.replicate (4 * count) (65 : UInt8)).filter (fun byte => (rank byte).isSome) =
      List.replicate (4 * count) 65 := List.filter_replicate_of_pos rfl
  rw [decode, ranked]
  induction count with
  | zero => rfl
  | succ count ih =>
    have step : List.replicate (4 * (count + 1)) (65 : UInt8) = 65 :: 65 :: 65 :: 65 :: List.replicate (4 * count) 65 := rfl
    rw [step, groups, ih (List.filter_replicate_of_pos rfl)]
    rfl

end KsmbdTools.Base64
