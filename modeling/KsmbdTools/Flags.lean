import KsmbdTools.Platform

/-! Flags that are set, cleared and tested one at a time. -/

namespace KsmbdTools

variable {flags flag other : UInt32}

@[simp] theorem testFlag_zero (flag : UInt32) : testFlag 0 flag = false := by simp [testFlag]

theorem testFlag_setFlag_self (nonzero : flag ≠ 0) : testFlag (setFlag flags flag) flag = true := by
  have kept : (flags ||| flag) &&& flag = flag := by
    apply UInt32.toBitVec_inj.mp
    ext index inside
    simp only [UInt32.toBitVec_and, UInt32.toBitVec_or, BitVec.getElem_and, BitVec.getElem_or]
    cases flags.toBitVec[index] <;> cases flag.toBitVec[index] <;> rfl
  simpa [testFlag, setFlag, kept] using nonzero

theorem testFlag_setFlag_other (apart : flag &&& other = 0) :
    testFlag (setFlag flags flag) other = testFlag flags other := by
  have kept : (flags ||| flag) &&& other = flags &&& other := by
    apply UInt32.toBitVec_inj.mp
    rw [UInt32.toBitVec_and, UInt32.toBitVec_or, BitVec.and_or_distrib_right, ← UInt32.toBitVec_and flag, apart,
      UInt32.toBitVec_zero, BitVec.or_zero, UInt32.toBitVec_and]
  rw [testFlag, testFlag, setFlag, kept]

theorem testFlag_clearFlag_self (flags flag : UInt32) : testFlag (clearFlag flags flag) flag = false := by
  have gone : (flags &&& ~~~flag) &&& flag = 0 := by
    rw [UInt32.and_assoc, UInt32.not_and_self, UInt32.and_zero]
  simp [testFlag, clearFlag, gone]

theorem testFlag_clearFlag_other (apart : flag &&& other = 0) :
    testFlag (clearFlag flags flag) other = testFlag flags other := by
  have kept : (flags &&& ~~~flag) &&& other = flags &&& other := by
    apply UInt32.toBitVec_inj.mp
    have bits := congrArg UInt32.toBitVec apart
    ext index inside
    have bit := congrArg (fun word : BitVec 32 => word[index]) bits
    simp only [UInt32.toBitVec_and, UInt32.toBitVec_not, BitVec.getElem_and, BitVec.getElem_not] at bit ⊢
    simp only [UInt32.toBitVec_zero, BitVec.getElem_zero] at bit
    revert bit
    cases flags.toBitVec[index] <;> cases flag.toBitVec[index] <;> cases other.toBitVec[index] <;> decide
  rw [testFlag, testFlag, clearFlag, kept]

/-- A flag of the lower half is kept in sixteen bits. -/
theorem testFlag_toUInt16 (low : flag.toNat < 2 ^ 16) : testFlag flags.toUInt16.toUInt32 flag = testFlag flags flag := by
  have kept : flags.toUInt16.toUInt32 &&& flag = flags &&& flag := by
    apply UInt32.toNat_inj.mp
    simp only [UInt32.toNat_and, UInt16.toNat_toUInt32, UInt32.toNat_toUInt16]
    apply Nat.eq_of_testBit_eq
    intro index
    rw [Nat.testBit_and, Nat.testBit_and, Nat.testBit_mod_two_pow]
    by_cases half : index < 16
    · simp [half]
    · have none : flag.toNat.testBit index = false :=
        Nat.testBit_lt_two_pow (Nat.lt_of_lt_of_le low (Nat.pow_le_pow_right (by decide) (by omega)))
      simp [none]
  rw [testFlag, testFlag, kept]

end KsmbdTools
