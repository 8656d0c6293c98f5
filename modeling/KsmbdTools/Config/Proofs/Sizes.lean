import KsmbdTools.Config.Proofs.Limits

/-! Sizes with a suffix. The guards before the single shifts together are the guard of the whole product. -/

namespace KsmbdTools.Config

def isAlnum (byte : UInt8) : Bool := Strtol.isDigit byte || (97 ≤ asciiLower byte && asciiLower byte ≤ 122)

def suffixLetters : List (UInt8 × UInt8) := [(75, 107), (77, 109), (71, 103), (84, 116), (80, 112), (69, 101)]

/-- What stands behind a numeral, and its power of 1024. -/
inductive SizeSuffix : CStr → Nat → Prop where
  | nothing : SizeSuffix [] 0
  | other {byte : UInt8} (rest : CStr) (apart : isAlnum byte = false) : SizeSuffix (byte :: rest) 0
  | upper {steps : Nat} {upper lower : UInt8} (rest : CStr) (listed : suffixLetters[steps]? = some (upper, lower)) :
    SizeSuffix (upper :: rest) (steps + 1)
  | lower {steps : Nat} {upper lower : UInt8} (rest : CStr) (listed : suffixLetters[steps]? = some (upper, lower)) :
    SizeSuffix (lower :: rest) (steps + 1)

theorem shiftSuffix_eq {number : Nat} (fits : number < 2 ^ 64) (steps : Nat) :
    shiftSuffix steps number = if number * 1024 ^ steps < 2 ^ 64 then number * 1024 ^ steps else 2 ^ 64 - 1 := by
  induction steps generalizing number with
  | zero => rw [shiftSuffix, Nat.pow_zero, Nat.mul_one, if_pos fits]
  | succ steps ih =>
    have grouped : number * 1024 ^ (steps + 1) = number * 2 ^ 10 * 1024 ^ steps := by
      rw [Nat.pow_succ, Nat.mul_comm (1024 ^ steps), ← Nat.mul_assoc]
      rfl
    rw [shiftSuffix, grouped]
    by_cases large : (2 ^ 64 - 1) / 2 ^ 10 < number
    · -- One shift alone is too much, and the others only add to it.
      have more : number * 2 ^ 10 * 1 ≤ number * 2 ^ 10 * 1024 ^ steps :=
        Nat.mul_le_mul_left _ (Nat.one_le_pow _ _ (by decide))
      rw [if_pos large, if_neg (by omega)]
    · rw [if_neg large, ih (by omega)]

theorem suffixLetters_read {steps : Nat} {upper lower : UInt8} (listed : suffixLetters[steps]? = some (upper, lower)) :
    ∀ byte, byte = upper ∨ byte = lower →
      (Strtoul.digit? 10 byte).isSome = false ∧ asciiLower byte ≠ 120 ∧ suffixSteps byte = steps + 1 := by
  have every : ∀ index : Fin 6, ∀ byte ∈ [suffixLetters[index].1, suffixLetters[index].2],
      (Strtoul.digit? 10 byte).isSome = false ∧ asciiLower byte ≠ 120 ∧ suffixSteps byte = index + 1 := by decide +kernel
  obtain ⟨inside, same⟩ := List.getElem?_eq_some_iff.mp listed
  intro byte either
  refine every ⟨steps, inside⟩ byte ?_
  simpa [same] using either

theorem other_read {byte : UInt8} (apart : isAlnum byte = false) :
    (Strtoul.digit? 10 byte).isSome = false ∧ asciiLower byte ≠ 120 ∧ suffixSteps byte = 0 := by
  obtain ⟨digit, letter⟩ := Bool.or_eq_false_iff.mp apart
  have outside (other : UInt8) (inside : (97 ≤ other && other ≤ 122) = true) : asciiLower byte ≠ other := by
    intro same
    rw [same, inside] at letter
    cases letter
  refine ⟨?_, outside 120 (by decide), ?_⟩
  · simp only [Strtoul.digit?, digit, letter, Bool.false_eq_true, if_false]
    rfl
  · unfold suffixSteps
    split
    · exact absurd ‹_› (outside 101 (by decide))
    · exact absurd ‹_› (outside 112 (by decide))
    · exact absurd ‹_› (outside 116 (by decide))
    · exact absurd ‹_› (outside 103 (by decide))
    · exact absurd ‹_› (outside 109 (by decide))
    · exact absurd ‹_› (outside 107 (by decide))
    · rfl

theorem SizeSuffix.reads {tail : CStr} {steps : Nat} (suffix : SizeSuffix tail steps) :
    (∀ byte ∈ tail.head?, (Strtoul.digit? 10 byte).isSome = false ∧ asciiLower byte ≠ 120) ∧
      (tail.head?.map suffixSteps).getD 0 = steps := by
  have starts {first : UInt8} {rest : CStr} {power : Nat} (read : (Strtoul.digit? 10 first).isSome = false ∧
      asciiLower first ≠ 120 ∧ suffixSteps first = power) :
      (∀ byte ∈ (first :: rest).head?, (Strtoul.digit? 10 byte).isSome = false ∧ asciiLower byte ≠ 120) ∧
        (((first :: rest).head?.map suffixSteps).getD 0 = power) := by
    obtain ⟨plain, unmarked, same⟩ := read
    refine ⟨fun byte head => ?_, same⟩
    cases head
    exact ⟨plain, unmarked⟩
  cases suffix with
  | nothing => exact ⟨fun byte none => (by cases none), rfl⟩
  | other rest apart => exact starts (other_read apart)
  | upper rest listed => exact starts (suffixLetters_read listed _ (.inl rfl))
  | lower rest listed => exact starts (suffixLetters_read listed _ (.inr rfl))

/-- A size is its product, or the largest number when that does not fit. -/
theorem memparse_saturates (text tail : CStr) (number steps : Nat) (numeral : Numeral text number) (fits : number < 2 ^ 64)
    (suffix : SizeSuffix tail steps) :
    cpMemparse (text ++ tail) = if number * 1024 ^ steps < 2 ^ 64 then number * 1024 ^ steps else 2 ^ 64 - 1 := by
  obtain ⟨stops, power⟩ := suffix.reads
  have read := numeral.strtoul_zero fits (fun byte first => (stops byte first).1) (fun byte first => (stops byte first).2)
  rw [cpMemparse, read]
  dsimp only
  rw [power, Bool.not_true, Bool.or_self, if_neg Bool.false_ne_true, shiftSuffix_eq fits]

theorem memparse_saturates_exbi : cpMemparse [49, 54, 69] = 2 ^ 64 - 1 ∧ cpMemparse [49, 53, 101, 98] = 15 * 1024 ^ 6 := by
  have sixteen : Numeral [49, 54] 16 := ⟨by decide, by decide +kernel, by decide +kernel, by decide +kernel⟩
  have fifteen : Numeral [49, 53] 15 := ⟨by decide, by decide +kernel, by decide +kernel, by decide +kernel⟩
  exact ⟨memparse_saturates [49, 54] [69] 16 6 sixteen (by decide) (.upper [] rfl),
    memparse_saturates [49, 53] [101, 98] 15 6 fifteen (by decide) (.lower [98] rfl)⟩

end KsmbdTools.Config
