import Mathlib.Data.List.Basic
import Mathlib.Tactic.Ring

/-! Integers as bytes of either order, aligned offsets, and writing bytes into a
zeroed memory. -/

namespace KsmbdTools.Bytes

def alignUp (offset width : Nat) : Nat :=
  if width = 0 then offset else (offset + width - 1) / width * width

theorem le_alignUp (offset width : Nat) : offset ≤ alignUp offset width := by
  unfold alignUp
  split
  next => exact Nat.le_refl offset
  next nonzero =>
    have split := Nat.div_add_mod (offset + width - 1) width
    have bound := Nat.mod_lt (offset + width - 1) (Nat.pos_of_ne_zero nonzero)
    rw [Nat.mul_comm]
    omega

theorem dvd_alignUp {width : Nat} (some : width ≠ 0) (offset : Nat) : width ∣ alignUp offset width := by
  rw [alignUp, if_neg some]
  exact Nat.dvd_mul_left _ _

theorem alignUp_of_dvd {offset width : Nat} (multiple : width ∣ offset) : alignUp offset width = offset := by
  obtain ⟨count, rfl⟩ := multiple
  unfold alignUp
  split
  next => rfl
  next nonzero =>
    have whole : (width * count + (width - 1)) / width = count := by
      rw [Nat.mul_add_div (Nat.pos_of_ne_zero nonzero), Nat.div_eq_of_lt (by omega), Nat.add_zero]
    rw [Nat.add_sub_assoc (Nat.pos_of_ne_zero nonzero), whole, Nat.mul_comm]

def encodeLittle : Nat → Nat → List UInt8
  | 0, _ => []
  | width + 1, value => UInt8.ofNat value :: encodeLittle width (value / 256)

def decodeLittle : List UInt8 → Nat
  | [] => 0
  | byte :: rest => byte.toNat + 256 * decodeLittle rest

def encode (little : Bool) (width value : Nat) : List UInt8 :=
  if little then encodeLittle width value else (encodeLittle width value).reverse

def decode (little : Bool) (bytes : List UInt8) : Nat :=
  decodeLittle (if little then bytes else bytes.reverse)

@[simp] theorem length_encodeLittle (width value : Nat) : (encodeLittle width value).length = width := by
  induction width generalizing value with
  | zero => rfl
  | succ width ih => simp [encodeLittle, ih]

@[simp] theorem length_encode (little : Bool) (width value : Nat) : (encode little width value).length = width := by
  cases little <;> simp [encode]

theorem decodeLittle_encodeLittle {width value : Nat} (fits : value < 256 ^ width) :
    decodeLittle (encodeLittle width value) = value := by
  induction width generalizing value with
  | zero =>
    have : value = 0 := by simpa using fits
    simp [encodeLittle, decodeLittle, this]
  | succ width ih =>
    have high : value / 256 < 256 ^ width := Nat.div_lt_of_lt_mul (by rwa [pow_succ, Nat.mul_comm] at fits)
    simp only [encodeLittle, decodeLittle, ih high, UInt8.toNat_ofNat']
    omega

theorem encodeLittle_mod (width value : Nat) : encodeLittle width (value % 256 ^ width) = encodeLittle width value := by
  induction width generalizing value with
  | zero => rfl
  | succ width ih =>
    have low : UInt8.ofNat (value % 256 ^ (width + 1)) = UInt8.ofNat value := by
      apply UInt8.toNat_inj.mp
      rw [UInt8.toNat_ofNat', UInt8.toNat_ofNat', pow_succ, Nat.mod_mul_left_mod]
    have high : value % 256 ^ (width + 1) / 256 = value / 256 % 256 ^ width := by
      rw [pow_succ, Nat.mul_comm, Nat.mod_mul_right_div_self]
    rw [encodeLittle, encodeLittle, low, high, ih]

theorem encode_mod (little : Bool) (width value : Nat) :
    encode little width (value % 256 ^ width) = encode little width value := by
  simp only [encode, encodeLittle_mod]

theorem decode_encode {width value : Nat} (little : Bool) (fits : value < 256 ^ width) :
    decode little (encode little width value) = value := by
  cases little <;> simp [decode, encode, decodeLittle_encodeLittle fits]

theorem decode_encode_mod (little : Bool) (width value : Nat) :
    decode little (encode little width value) = value % 256 ^ width := by
  rw [← encode_mod, decode_encode little (Nat.mod_lt _ (Nat.pow_pos (by decide)))]

/-- The memory after a write of the bytes at the offset. Bytes skipped so far are zero. -/
def overlay (memory : List UInt8) (offset : Nat) (data : List UInt8) : List UInt8 :=
  (memory ++ List.replicate (offset - memory.length) 0).take offset ++ data ++ memory.drop (offset + data.length)

theorem length_overlay (memory : List UInt8) (offset : Nat) (data : List UInt8) :
    (overlay memory offset data).length = max memory.length (offset + data.length) := by
  simp only [overlay, List.length_append, List.length_take, List.length_replicate, List.length_drop]
  omega

/-- What stands before the write is what stood there; then come the bytes. -/
theorem take_overlay {memory : List UInt8} {offset : Nat} (data : List UInt8) (inside : offset ≤ memory.length) :
    (overlay memory offset data).take (offset + data.length) = memory.take offset ++ data := by
  have start : (memory.take offset ++ data).length = offset + data.length := by simp [inside]
  rw [overlay, Nat.sub_eq_zero_of_le inside, List.replicate_zero, List.append_nil, ← start]
  exact List.take_left

theorem take_overlay_before {memory : List UInt8} {offset count : Nat} (data : List UInt8)
    (before : count ≤ offset) (inside : count ≤ memory.length) :
    (overlay memory offset data).take count = memory.take count := by
  have start : count ≤ ((memory ++ List.replicate (offset - memory.length) 0).take offset).length := by
    simp only [List.length_take, List.length_append, List.length_replicate]
    omega
  rw [overlay, List.append_assoc, List.take_append_of_le_length start, List.take_take, Nat.min_eq_left before,
    List.take_append_of_le_length inside]

theorem drop_overlay (memory : List UInt8) (offset : Nat) (data : List UInt8) :
    ((overlay memory offset data).drop offset).take data.length = data := by
  have start : ((memory ++ List.replicate (offset - memory.length) 0).take offset).length = offset := by
    simp only [List.length_take, List.length_append, List.length_replicate]
    omega
  rw [overlay, List.append_assoc, List.drop_append_of_le_length (Nat.le_of_eq start.symm),
    List.drop_of_length_le (Nat.le_of_eq start), List.nil_append, List.take_left]

theorem drop_overlay_behind {memory data : List UInt8} {offset place : Nat} (behind : offset + data.length ≤ place) :
    (overlay memory offset data).drop place = memory.drop place := by
  have start : ((memory ++ List.replicate (offset - memory.length) 0).take offset ++ data).length =
      offset + data.length := by
    simp only [List.length_append, List.length_take, List.length_replicate]
    omega
  rw [overlay, List.drop_append, List.drop_of_length_le (start ▸ behind), List.nil_append, start, List.drop_drop]
  congr 1
  omega

/-- The bytes with zeros behind them, up to the next multiple of the width. -/
def padTo (bytes : List UInt8) (width : Nat) : List UInt8 :=
  bytes ++ List.replicate (alignUp bytes.length width - bytes.length) 0

@[simp] theorem length_padTo (bytes : List UInt8) (width : Nat) :
    (padTo bytes width).length = alignUp bytes.length width := by
  have bound := le_alignUp bytes.length width
  simp only [padTo, List.length_append, List.length_replicate]
  omega

theorem exists_padding (bytes : List UInt8) (width : Nat) : ∃ padding, padTo bytes width = bytes ++ padding := ⟨_, rfl⟩

theorem padTo_of_dvd {bytes : List UInt8} {width : Nat} (multiple : width ∣ bytes.length) : padTo bytes width = bytes := by
  rw [padTo, alignUp_of_dvd multiple, Nat.sub_self, List.replicate_zero, List.append_nil]

/-- Where blocks end that are put one after the other, each at the next multiple of its
width. -/
def laidEnd : Nat → List (Nat × List UInt8) → Nat
  | offset, [] => offset
  | offset, (width, data) :: rest => laidEnd (alignUp offset width + data.length) rest

/-- The blocks stand in memory where they were put, within the limit. -/
def Laid (memory : List UInt8) (limit : Nat) : Nat → List (Nat × List UInt8) → Prop
  | _, [] => True
  | offset, (width, data) :: rest =>
    alignUp offset width + data.length ≤ limit ∧ (memory.drop (alignUp offset width)).take data.length = data ∧
      Laid memory limit (alignUp offset width + data.length) rest

theorem laidEnd_append (offset : Nat) (first second : List (Nat × List UInt8)) :
    laidEnd offset (first ++ second) = laidEnd (laidEnd offset first) second := by
  induction first generalizing offset with
  | nil => rfl
  | cons block rest ih => exact ih _

theorem le_laidEnd (offset : Nat) (blocks : List (Nat × List UInt8)) : offset ≤ laidEnd offset blocks := by
  induction blocks generalizing offset with
  | nil => exact Nat.le_refl offset
  | cons block rest ih => exact Nat.le_trans (Nat.le_add_right_of_le (le_alignUp offset block.1)) (ih _)

namespace Laid
variable {memory other : List UInt8} {limit offset : Nat} {first second : List (Nat × List UInt8)}

theorem append_iff : Laid memory limit offset (first ++ second) ↔
    Laid memory limit offset first ∧ Laid memory limit (laidEnd offset first) second := by
  induction first generalizing offset with
  | nil => simp [Laid, laidEnd]
  | cons block rest ih =>
    simp only [List.cons_append, Laid, laidEnd, ih]
    tauto

theorem congr (same : other.take (laidEnd offset first) = memory.take (laidEnd offset first))
    (laid : Laid memory limit offset first) : Laid other limit offset first := by
  induction first generalizing offset with
  | nil => trivial
  | cons block rest ih =>
    obtain ⟨width, data⟩ := block
    obtain ⟨room, here, behind⟩ := laid
    have before : alignUp offset width + data.length ≤ laidEnd offset ((width, data) :: rest) := le_laidEnd _ rest
    have start : other.take (alignUp offset width + data.length) = memory.take (alignUp offset width + data.length) := by
      have cut := congrArg (List.take (alignUp offset width + data.length)) same
      simpa only [List.take_take, Nat.min_eq_left before] using cut
    refine ⟨room, ?_, ih same behind⟩
    rw [← here]
    have shifted := congrArg (List.drop (alignUp offset width)) start
    simpa only [List.drop_take, Nat.add_sub_cancel_left, here] using shifted

end Laid

end KsmbdTools.Bytes
