import KsmbdTools.Adduser.Md4
import KsmbdTools.Rfc1320

/-! The MD4 of the user tool is the one of the standard, however the message is cut into chunks. The block holds the
bytes behind the last whole block of what was given so far; what else is in it does not matter. -/

namespace KsmbdTools.Adduser
open Bytes Blocks
open Rfc1320 (Words process)

section Transform

theorem lshift_eq (x s : UInt32) : lshift x s = Rfc1320.rotate x s.toNat := by
  have full (y : UInt32) : y &&& 0xFFFFFFFF = y := UInt32.toBitVec_inj.mp BitVec.and_allOnes
  have back : (32 - s).toNat % 32 = (32 - s.toNat % 32) % 32 := by
    have bound := s.toNat_lt
    rw [UInt32.toNat_sub]
    simp only [UInt32.reduceToNat]
    omega
  apply UInt32.toBitVec_inj.mp
  simp only [lshift, full, Rfc1320.rotate, UInt32.toBitVec_or, UInt32.toBitVec_shiftLeft, UInt32.toBitVec_shiftRight,
    BitVec.rotateLeft_def, BitVec.shiftLeft_eq', BitVec.ushiftRight_eq', BitVec.toNat_umod]
  show x.toBitVec <<< (s.toNat % 32) ||| x.toBitVec >>> ((32 - s).toNat % 32) = _
  rw [back]
  by_cases none : s.toNat % 32 = 0
  · -- Both shifts keep the word, where the standard's second one clears it.
    rw [none, Nat.sub_zero, Nat.mod_self, BitVec.ushiftRight_eq_zero (Nat.le_refl 32)]
    simp
  · rw [Nat.mod_eq_of_lt (show 32 - s.toNat % 32 < 32 by omega)]

theorem ROUND1_eq (a b c d k s : UInt32) :
    ROUND1 a b c d k s = Rfc1320.rotate (a + Rfc1320.f b c d + k + 0) s.toNat := by
  rw [ROUND1, lshift_eq, UInt32.add_zero]
  rfl

theorem ROUND2_eq (a b c d k s : UInt32) :
    ROUND2 a b c d k s = Rfc1320.rotate (a + Rfc1320.g b c d + k + 0x5A827999) s.toNat := lshift_eq _ _

theorem ROUND3_eq (a b c d k s : UInt32) :
    ROUND3 a b c d k s = Rfc1320.rotate (a + Rfc1320.h b c d + k + 0x6ED9EBA1) s.toNat := lshift_eq _ _

def Md4Hash.words (hash : Md4Hash) : Words := ⟨hash.h0, hash.h1, hash.h2, hash.h3⟩

set_option maxRecDepth 4000 in
/-- The unrolled steps, one after the other, are the entries of the standard's tables. -/
theorem md4Transform_words (hash : Md4Hash) (input : List UInt32) :
    (md4Transform hash input).words = Rfc1320.mixBlock input hash.words := by
  simp only [md4Transform, Id.run, pure, ROUND1_eq, ROUND2_eq, ROUND3_eq, UInt32.reduceToNat, Md4Hash.words,
    Rfc1320.mixBlock, Rfc1320.round1, Rfc1320.round2, Rfc1320.round3, Rfc1320.round, Rfc1320.operation, List.cons_append,
    List.nil_append, List.zip_cons_cons, List.zip_nil_left, List.foldl_cons, List.foldl_nil]

end Transform

section Host
variable {little : Bool}

theorem words_eq_hostWords (count : Nat) (memory : List UInt8) :
    Rfc1320.words count memory = hostWords true count memory := by
  induction count generalizing memory with
  | zero => rfl
  | succ count ih => rw [Rfc1320.words, hostWords, ih]

@[simp] theorem length_le32ToCpuArray (count : Nat) (memory : List UInt8) :
    (le32ToCpuArray little count memory).length = memory.length := by
  induction count generalizing memory with
  | zero => rfl
  | succ count ih =>
    rw [le32ToCpuArray, List.length_append, ih, List.length_drop]
    cases little <;> simp only [Bool.false_eq_true, if_false, if_true, List.length_reverse, List.length_take] <;> omega

theorem le32ToCpuArray_append {front : List UInt8} {count : Nat} (length : front.length = 4 * count) (back : List UInt8) :
    le32ToCpuArray little count (front ++ back) = le32ToCpuArray little count front ++ back := by
  induction count generalizing front with
  | zero =>
    rw [List.eq_nil_of_length_eq_zero length]
    rfl
  | succ count ih =>
    have word : 4 ≤ front.length := by omega
    rw [le32ToCpuArray, le32ToCpuArray, List.take_append_of_le_length word, List.drop_append_of_le_length word,
      ih (by rw [List.length_drop]; omega), List.append_assoc]

theorem hostWords_append {front : List UInt8} {first : Nat} (length : front.length = 4 * first) (second : Nat)
    (back : List UInt8) :
    hostWords little (first + second) (front ++ back) = hostWords little first front ++ hostWords little second back := by
  induction first generalizing front with
  | zero =>
    rw [List.eq_nil_of_length_eq_zero length, Nat.zero_add]
    rfl
  | succ first ih =>
    have word : 4 ≤ front.length := by omega
    rw [Nat.succ_add, hostWords, hostWords, List.take_append_of_le_length word, List.drop_append_of_le_length word,
      ih (by rw [List.length_drop]; omega), List.cons_append]

theorem hostWords_swapped {count : Nat} {memory : List UInt8} (length : memory.length = 4 * count) :
    hostWords little count (le32ToCpuArray little count memory) = Rfc1320.words count memory := by
  induction count generalizing memory with
  | zero => rfl
  | succ count ih =>
    have four : (if little then memory.take 4 else (memory.take 4).reverse).length = 4 := by
      cases little <;> simp only [Bool.false_eq_true, if_false, if_true, List.length_reverse, List.length_take] <;> omega
    have word : decode little (if little then memory.take 4 else (memory.take 4).reverse) = decode true (memory.take 4) := by
      cases little <;> simp [decode]
    rw [le32ToCpuArray, hostWords, Rfc1320.words, List.take_left' four, List.drop_left' four, word,
      ih (by rw [List.length_drop]; omega)]

@[simp] theorem md4TransformHelper_byteCount (mctx : Md4Ctx) :
    (md4TransformHelper little mctx).byteCount = mctx.byteCount := by
  rw [md4TransformHelper]

@[simp] theorem length_md4TransformHelper (mctx : Md4Ctx) :
    (md4TransformHelper little mctx).block.length = mctx.block.length := by
  rw [md4TransformHelper, length_le32ToCpuArray]

theorem md4TransformHelper_words {mctx : Md4Ctx} (size : mctx.block.length = 64) :
    (md4TransformHelper little mctx).hash.words = process mctx.hash.words mctx.block := by
  rw [md4TransformHelper, md4Transform_words, hostWords_swapped size, process]

end Host

/-- What the context stands for, after these bytes. -/
structure Holds (mctx : Md4Ctx) (seen pending : List UInt8) : Prop where
  count : mctx.byteCount = UInt64.ofNat seen.length
  size : mctx.block.length = 64
  absorbed : Absorbed process 64 Rfc1320.initial seen mctx.hash.words pending
  block : mctx.block.take pending.length = pending

namespace Holds
variable {little : Bool} {mctx : Md4Ctx} {seen pending data : List UInt8}

theorem init (size : mctx.block.length = 64) : Holds (md4Init mctx) [] [] :=
  ⟨rfl, size, .nil (by decide), rfl⟩

theorem offset (holds : Holds mctx seen pending) : (mctx.byteCount &&& 0x3f).toNat = pending.length := by
  have low (count : Nat) : count &&& 63 = count % 64 := Nat.and_two_pow_sub_one_eq_mod count 6
  rw [holds.count, holds.absorbed.length_pending, UInt64.toNat_and, UInt64.toNat_ofNat']
  show seen.length % 2 ^ 64 &&& 63 = seen.length % 64
  rw [low]
  omega

theorem overlay_full (holds : Holds mctx seen pending) (full : pending.length + data.length = 64) :
    overlay mctx.block pending.length data = pending ++ data := by
  have size := holds.size
  have inside : pending.length ≤ mctx.block.length := by omega
  have whole := take_overlay data inside
  rwa [holds.block, List.take_of_length_le (by rw [length_overlay]; omega)] at whole

end Holds

section Update
variable {little : Bool} {mctx : Md4Ctx} {seen pending : List UInt8}

theorem md4UpdateLoop_absorbed {fuel : Nat} {data : List UInt8} (enough : data.length ≤ fuel)
    (size : mctx.block.length = 64) (absorbed : Absorbed process 64 Rfc1320.initial seen mctx.hash.words []) :
    ∃ front rest mctx', md4UpdateLoop little fuel mctx data = (mctx', rest) ∧ data = front ++ rest ∧ rest.length < 64 ∧
      mctx'.block.length = 64 ∧ mctx'.byteCount = mctx.byteCount ∧
      Absorbed process 64 Rfc1320.initial (seen ++ front) mctx'.hash.words [] := by
  induction fuel generalizing mctx data seen with
  | zero =>
    have none := List.eq_nil_of_length_eq_zero (Nat.le_zero.mp enough)
    subst none
    exact ⟨[], [], mctx, rfl, rfl, by decide, size, rfl, by rwa [List.append_nil]⟩
  | succ fuel ih =>
    rw [show md4UpdateLoop little (fuel + 1) mctx data = if _ then _ else _ from rfl]
    by_cases whole : 64 ≤ data.length
    · rw [if_pos whole]
      have first : (data.take 64).length = 64 := by rw [List.length_take]; omega
      have block : overlay mctx.block 0 (data.take 64) = data.take 64 := by
        have written := take_overlay (data.take 64) (Nat.zero_le mctx.block.length)
        rwa [List.take_of_length_le (by rw [length_overlay]; omega), List.take_zero, List.nil_append] at written
      have filled : Absorbed process 64 Rfc1320.initial (seen ++ data.take 64)
          (process mctx.hash.words ([] ++ data.take 64)) [] := absorbed.filled (by rw [first]; rfl)
      rw [block]
      have next : (md4TransformHelper little { mctx with block := data.take 64 }).hash.words =
          process mctx.hash.words ([] ++ data.take 64) := md4TransformHelper_words first
      rw [← next] at filled
      have sized : (md4TransformHelper little { mctx with block := data.take 64 }).block.length = 64 := by
        rw [length_md4TransformHelper, first]
      have shorter : (data.drop 64).length ≤ fuel := by rw [List.length_drop]; omega
      obtain ⟨front, rest, after, ran, split, short, kept, counted, later⟩ := ih shorter sized filled
      refine ⟨data.take 64 ++ front, rest, after, ran, ?_, short, kept, ?_, ?_⟩
      · rw [List.append_assoc, ← split, List.take_append_drop]
      · rw [counted, md4TransformHelper_byteCount]
      · rwa [List.append_assoc] at later
    · rw [if_neg whole]
      exact ⟨[], data, mctx, rfl, rfl, by omega, size, rfl, by rwa [List.append_nil]⟩

theorem Holds.update {data : List UInt8} (holds : Holds mctx seen pending) :
    ∃ pending', Holds (md4Update little mctx data) (seen ++ data) pending' := by
  have short := holds.absorbed.short
  have size := holds.size
  have place : 64 - (64 - pending.length) = pending.length := by omega
  have counted : mctx.byteCount + UInt64.ofNat data.length = UInt64.ofNat (seen ++ data).length := by
    rw [holds.count, List.length_append, UInt64.ofNat_add]
  by_cases fits : data.length < 64 - pending.length
  · simp only [md4Update, holds.offset, place, if_pos fits]
    refine ⟨pending ++ data, counted, ?_, holds.absorbed.more (by omega), ?_⟩
    · rw [length_overlay]
      omega
    · have written := take_overlay data (show pending.length ≤ mctx.block.length by omega)
      rwa [holds.block, ← List.length_append] at written
  · have front : (data.take (64 - pending.length)).length = 64 - pending.length := by
      rw [List.length_take]
      omega
    have block : overlay mctx.block pending.length (data.take (64 - pending.length)) =
        pending ++ data.take (64 - pending.length) := holds.overlay_full (by omega)
    have whole : (pending ++ data.take (64 - pending.length)).length = 64 := by
      rw [List.length_append]
      omega
    have filled := holds.absorbed.filled (show pending.length + (data.take (64 - pending.length)).length = 64 by omega)
    obtain ⟨next, helped⟩ : ∃ next, md4TransformHelper little
      ⟨mctx.hash, pending ++ data.take (64 - pending.length), mctx.byteCount + UInt64.ofNat data.length⟩ = next := ⟨_, rfl⟩
    have state : next.hash.words = process mctx.hash.words (pending ++ data.take (64 - pending.length)) := by
      rw [← helped, md4TransformHelper_words whole]
    have sized : next.block.length = 64 := by
      rw [← helped, length_md4TransformHelper, whole]
    have kept : next.byteCount = UInt64.ofNat (seen ++ data).length := by
      rw [← helped, md4TransformHelper_byteCount, counted]
    rw [← state] at filled
    have fuel : (data.drop (64 - pending.length)).length ≤ data.length := by
      rw [List.length_drop]
      omega
    obtain ⟨middle, rest, after, ran, split, less, sized', kept', absorbed⟩ :=
      @md4UpdateLoop_absorbed little _ _ _ _ fuel sized filled
    simp only [md4Update, holds.offset, place, if_neg fits, block, helped, ran]
    have parts : data = data.take (64 - pending.length) ++ (middle ++ rest) := by rw [← split, List.take_append_drop]
    refine ⟨rest, kept'.trans kept, ?_, ?_, ?_⟩
    · rw [length_overlay]
      omega
    · have more := absorbed.more (show ([] : List UInt8).length + rest.length < 64 by rw [List.length_nil]; omega)
      rw [List.append_assoc, List.append_assoc, List.nil_append] at more
      rwa [parts]
    · have written := take_overlay rest (Nat.zero_le after.block.length)
      rwa [Nat.zero_add, List.take_zero, List.nil_append] at written

theorem holds_updates {chunks : List (List UInt8)} (holds : Holds mctx seen pending) :
    ∃ pending', Holds (chunks.foldl (md4Update little) mctx) (seen ++ chunks.flatten) pending' := by
  induction chunks generalizing mctx seen pending with
  | nil => exact ⟨pending, by rwa [List.flatten_nil, List.append_nil]⟩
  | cons chunk chunks ih =>
    obtain ⟨next, holds'⟩ := holds.update
    obtain ⟨last, holds''⟩ := ih holds'
    exact ⟨last, by rwa [List.flatten_cons, ← List.append_assoc]⟩

end Update

section Final
variable {little : Bool} {mctx : Md4Ctx} {seen pending : List UInt8}

theorem le32ToCpuArray_encode (values : List UInt32) :
    le32ToCpuArray little values.length (values.flatMap fun word => encode little 4 word.toNat) =
      values.flatMap fun word => encode true 4 word.toNat := by
  induction values with
  | nil => rfl
  | cons value values ih =>
    have four : (encode little 4 value.toNat).length = 4 := length_encode ..
    rw [List.flatMap_cons, List.flatMap_cons, List.length_cons, le32ToCpuArray, List.take_left' four,
      List.drop_left' four, ih]
    cases little <;> simp [encode]

theorem hostWords_pair (low high : Nat) :
    hostWords little 2 (encode little 4 low ++ encode little 4 high) = [UInt32.ofNat low, UInt32.ofNat high] := by
  have word (value : Nat) : UInt32.ofNat (decode little (encode little 4 value)) = UInt32.ofNat value := by
    rw [decode_encode_mod]
    exact UInt32.ofNat_mod_size
  have four (value : Nat) : (encode little 4 value).length = 4 := length_encode ..
  rw [hostWords, hostWords, hostWords, List.take_left' (four low), List.drop_left' (four low), word,
    List.take_of_length_le (Nat.le_of_eq (four high)), word]

theorem words_length (bits : Nat) :
    Rfc1320.words 2 (encode true 8 bits) = [UInt32.ofNat bits, UInt32.ofNat (bits / 2 ^ 32)] := by
  have halves : encode true 8 bits = encode true 4 bits ++ encode true 4 (bits / 2 ^ 32) := by
    simp only [encode, if_true, encodeLittle, List.cons_append, List.nil_append, Nat.div_div_eq_div_mul, Nat.reduceMul,
      Nat.reducePow]
  rw [halves, words_eq_hostWords, hostWords_pair]

theorem count_words (count : Nat) :
    [UInt32.ofNat (UInt64.ofNat count <<< 3).toNat, UInt32.ofNat (UInt64.ofNat count >>> 29).toNat] =
      [UInt32.ofNat (8 * count), UInt32.ofNat (8 * count / 2 ^ 32)] := by
  have low : (UInt64.ofNat count <<< 3).toNat = count % 2 ^ 64 * 8 % 2 ^ 64 := by
    rw [UInt64.toNat_shiftLeft, UInt64.toNat_ofNat', Nat.shiftLeft_eq]
    rfl
  have high : (UInt64.ofNat count >>> 29).toNat = count % 2 ^ 64 / 2 ^ 29 := by
    rw [UInt64.toNat_shiftRight, UInt64.toNat_ofNat', Nat.shiftRight_eq_div_pow]
    rfl
  rw [low, high]
  congr 1
  · apply UInt32.toNat_inj.mp
    rw [UInt32.toNat_ofNat', UInt32.toNat_ofNat']
    omega
  · congr 1
    apply UInt32.toNat_inj.mp
    rw [UInt32.toNat_ofNat', UInt32.toNat_ofNat']
    omega

theorem finished_words {block front : List UInt8} (count : Nat) (size : block.length = 64) (start : block.take 56 = front) :
    hostWords little 16 (le32ToCpuArray little 14 (overlay (overlay block 56
      (encode little 4 (UInt64.ofNat count <<< 3).toNat)) 60 (encode little 4 (UInt64.ofNat count >>> 29).toNat))) =
      Rfc1320.words 16 (front ++ encode true 8 (8 * count)) := by
  have length : front.length = 4 * 14 := by
    rw [← start, List.length_take]
    omega
  have first := take_overlay (encode little 4 (UInt64.ofNat count <<< 3).toNat) (show 56 ≤ block.length by omega)
  rw [start, length_encode] at first
  have inside : 60 ≤ (overlay block 56 (encode little 4 (UInt64.ofNat count <<< 3).toNat)).length := by
    rw [length_overlay, length_encode]
    omega
  have second := take_overlay (encode little 4 (UInt64.ofNat count >>> 29).toNat) inside
  rw [first, length_encode, List.take_of_length_le
    (by rw [length_overlay, length_overlay, length_encode, length_encode]; omega)] at second
  rw [second, List.append_assoc, le32ToCpuArray_append length, words_eq_hostWords,
    @hostWords_append _ _ 14 (by rw [length_le32ToCpuArray, length]) 2, hostWords_swapped length,
      hostWords_pair, count_words,
    @hostWords_append _ _ 14 length 2, words_eq_hostWords, ← words_eq_hostWords 2, words_length]

theorem md4Final_digest {next : Md4Ctx} {front : List UInt8} {place zeros : Nat}
    (padded : md4FinalPad little mctx = (next, place, zeros)) (size : next.block.length = 64)
    (count : next.byteCount = UInt64.ofNat seen.length) (inside : place + zeros = 56)
    (start : next.block.take place = front) :
    (md4Final little mctx).1 =
      Rfc1320.output (process next.hash.words (front ++ List.replicate zeros 0 ++ encode true 8 (8 * seen.length))) := by
  have first := take_overlay (List.replicate zeros 0) (show place ≤ next.block.length by omega)
  rw [start, List.length_replicate, inside] at first
  have whole : (overlay next.block place (List.replicate zeros 0)).length = 64 := by
    rw [length_overlay, List.length_replicate]
    omega
  have digest (hash : Md4Hash) : le32ToCpuArray little 4 (hash.memory little) = Rfc1320.output hash.words :=
    le32ToCpuArray_encode [hash.h0, hash.h1, hash.h2, hash.h3]
  unfold md4Final
  rw [padded]
  simp only [digest]
  rw [md4Transform_words, count, finished_words seen.length whole first, process]

theorem Holds.final (holds : Holds mctx seen pending) : (md4Final little mctx).1 = Rfc1320.md4 seen := by
  have short := holds.absorbed.short
  have size := holds.size
  have length := holds.absorbed.length_pending
  have padded : Blocks.fold process 64 Rfc1320.initial (Rfc1320.pad seen) = Blocks.fold process 64 mctx.hash.words
      (pending ++ (0x80 :: List.replicate ((119 - pending.length) % 64) 0 ++ encode true 8 (8 * seen.length))) := by
    rw [Rfc1320.pad, List.append_assoc, holds.absorbed.fold_append, length]
  rw [Rfc1320.md4, padded]
  -- The block behind the one bit.
  have marked := take_overlay [0x80] (show pending.length ≤ mctx.block.length by omega)
  rw [holds.block, List.length_singleton] at marked
  have sized : (overlay mctx.block pending.length [0x80]).length = 64 := by
    rw [length_overlay, List.length_singleton]
    omega
  by_cases room : pending.length < 56
  · -- The zeros and the count fit into the same block.
    have positive : ¬(56 - ((pending.length : Int) + 1) < 0) := by omega
    have zeros : (56 - ((pending.length : Int) + 1)).toNat = 55 - pending.length := by omega
    have behind : md4FinalPad little mctx =
        ({ mctx with block := overlay mctx.block pending.length [0x80] }, pending.length + 1, 55 - pending.length) := by
      rw [md4FinalPad, holds.offset, if_neg positive, zeros]
    have one : (pending ++ (0x80 :: List.replicate (55 - pending.length) 0 ++ encode true 8 (8 * seen.length))).length =
        64 := by
      simp only [List.length_append, List.length_cons, List.length_replicate, length_encode]
      omega
    rw [md4Final_digest behind sized holds.count (by omega) marked,
      show (119 - pending.length) % 64 = 55 - pending.length by omega, Blocks.fold_block (by decide) one]
    simp
  · -- The count goes to a block of its own.
    have negative : 56 - ((pending.length : Int) + 1) < 0 := by omega
    have zeros : (56 - ((pending.length : Int) + 1) + 8).toNat = 63 - pending.length := by omega
    have full := take_overlay (List.replicate (63 - pending.length) 0)
      (show pending.length + 1 ≤ (overlay mctx.block pending.length [0x80]).length by omega)
    rw [marked, List.length_replicate, List.take_of_length_le (by rw [length_overlay, List.length_replicate]; omega)] at full
    have whole : (pending ++ [0x80] ++ List.replicate (63 - pending.length) 0).length = 64 := by
      simp only [List.length_append, List.length_cons, List.length_nil, List.length_replicate]
      omega
    obtain ⟨next, helped⟩ : ∃ next, md4TransformHelper little
      { mctx with block := pending ++ [0x80] ++ List.replicate (63 - pending.length) 0 } = next := ⟨_, rfl⟩
    have behind : md4FinalPad little mctx = (next, 0, 56) := by
      simp only [md4FinalPad, holds.offset, if_pos negative, zeros, full, helped]
    have state : next.hash.words = process mctx.hash.words
        (pending ++ [0x80] ++ List.replicate (63 - pending.length) 0) := by
      rw [← helped, md4TransformHelper_words whole]
    have kept : next.byteCount = UInt64.ofNat seen.length := by
      rw [← helped, md4TransformHelper_byteCount, holds.count]
    have next_size : next.block.length = 64 := by
      rw [← helped, length_md4TransformHelper, whole]
    have two : pending ++ (0x80 :: List.replicate ((119 - pending.length) % 64) 0 ++ encode true 8 (8 * seen.length)) =
        (pending ++ [0x80] ++ List.replicate (63 - pending.length) 0) ++
          ([] ++ List.replicate 56 0 ++ encode true 8 (8 * seen.length)) := by
      rw [show (119 - pending.length) % 64 = 63 - pending.length + 56 by omega, List.replicate_add]
      simp
    have last : ([] ++ List.replicate 56 0 ++ encode true 8 (8 * seen.length)).length = 64 := by simp
    rw [md4Final_digest behind next_size kept (by omega) List.take_zero, two, Blocks.fold_cons (by decide) whole,
      Blocks.fold_block (by decide) last, state]

end Final

/-- The digest is that of the standard, for every way to cut the message. -/
theorem md4_digest (little : Bool) (mctx : Md4Ctx) (size : mctx.block.length = 64) (chunks : List (List UInt8)) :
    (md4Final little (chunks.foldl (md4Update little) (md4Init mctx))).1 = Rfc1320.md4 chunks.flatten := by
  obtain ⟨pending, holds⟩ := holds_updates (Holds.init size)
  exact holds.final

/-- `abc` in two chunks. -/
theorem md4_digest_abc :
    (md4Final true ([[97], [98, 99]].foldl (md4Update true) (md4Init ⟨⟨0, 0, 0, 0⟩, List.replicate 64 0, 0⟩))).1 =
      [0xa4, 0x48, 0x01, 0x7a, 0xaf, 0x21, 0xd8, 0x52, 0x5f, 0xc1, 0x0a, 0xe8, 0x7a, 0xa6, 0x72, 0x9d] :=
  (md4_digest true ⟨⟨0, 0, 0, 0⟩, List.replicate 64 0, 0⟩ List.length_replicate [[97], [98, 99]]).trans (by decide +kernel)

end KsmbdTools.Adduser
