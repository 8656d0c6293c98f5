import KsmbdTools.Management.MappedFile

/-! The loop over a mapped file gives its handler the pieces between the newlines, and
every read it makes lies inside the mapping. -/

namespace KsmbdTools.Management

theorem memchr_line {line : List UInt8} (plain : (10 : UInt8) ∉ line) (before tail : List UInt8)
    (last : tail = [] ∨ tail.head? = some 10) :
    memchr 10 (before ++ line ++ tail) before.length (line ++ tail).length =
      some (if tail = [] then none else some (before.length + line.length)) := by
  induction line generalizing before with
  | nil =>
    cases tail with
    | nil => simp [memchr]
    | cons byte tail =>
      obtain rfl : byte = 10 := by simpa using last
      simp [memchr]
  | cons byte line ih =>
    obtain ⟨other, plain⟩ : byte ≠ 10 ∧ (10 : UInt8) ∉ line := by
      simpa [eq_comm] using plain
    have found : (before ++ byte :: line ++ tail)[before.length]? = some byte := by simp
    have next := ih plain (before ++ [byte])
    rw [List.append_assoc before [byte], List.singleton_append, List.length_append, List.length_singleton] at next
    rw [List.cons_append, List.length_cons, memchr, found]
    simp only [other, if_false, next, List.length_cons, Nat.add_assoc, Nat.add_comm 1]

theorem gStrndup_line (before line tail : List UInt8) :
    gStrndup (before ++ line ++ tail) before.length line.length = some (line.takeWhile (· != 0)) := by
  induction line generalizing before with
  | nil => rfl
  | cons byte line ih =>
    have found : (before ++ byte :: line ++ tail)[before.length]? = some byte := by simp
    have next := ih (before ++ [byte])
    rw [List.append_assoc before [byte], List.singleton_append, List.length_append, List.length_singleton] at next
    rw [List.length_cons, gStrndup, found]
    by_cases zero : byte = 0 <;> simp [zero, ← next]

theorem splitLines_plain {line : List UInt8} (some : line ≠ []) (plain : (10 : UInt8) ∉ line) :
    splitLines line = [line] := by
  induction line with
  | nil => exact absurd rfl some
  | cons byte line ih =>
    obtain ⟨other, plain⟩ : byte ≠ 10 ∧ (10 : UInt8) ∉ line := by
      simpa [eq_comm] using plain
    cases line with
    | nil => simp [splitLines, other]
    | cons next line => rw [splitLines, if_neg other, ih (by simp) plain]

theorem splitLines_newline {line : List UInt8} (plain : (10 : UInt8) ∉ line) (tail : List UInt8) :
    splitLines (line ++ 10 :: tail) = line :: splitLines tail := by
  induction line with
  | nil => simp [splitLines]
  | cons byte line ih =>
    obtain ⟨other, plain⟩ : byte ≠ 10 ∧ (10 : UInt8) ∉ line := by
      simpa [eq_comm] using plain
    rw [List.cons_append, splitLines, if_neg other, ih plain]

section
variable {σ : Type} (processEntry : σ → CStr → σ × Int)

/-- One round of the loop, on a line that a newline or the end of the mapping follows. -/
theorem mmapLoop_round {line : List UInt8} (plain : (10 : UInt8) ∉ line) (before tail : List UInt8)
    (last : tail = [] ∨ tail.head? = some 10) (nonempty : line ++ tail ≠ [])
    (short : (line ++ tail).length < 2 ^ 63) (fuel : Nat) (state : σ) :
    mmapLoop processEntry (before ++ line ++ tail) (fuel + 1) before.length (line ++ tail).length state =
      match processEntry state (line.takeWhile (· != 0)) with
      | (state, ret) =>
        if ret ≠ 0 then .ok (state, ret)
        else mmapLoop processEntry (before ++ line ++ tail) fuel (before.length + line.length + 1)
          (((line ++ tail).length + 2 ^ 64 - (line.length + 1)) % 2 ^ 64) state := by
  have positive : 0 < (line ++ tail).length := List.length_pos_iff.mpr nonempty
  have inside : (line ++ tail).length ≠ sizeMax := by
    rw [sizeMax]
    omega
  have delim : (if tail = [] then none else some (before.length + line.length)).getD
      (before.length + (line ++ tail).length) = before.length + line.length := by
    by_cases empty : tail = [] <;> simp [empty]
  rw [mmapLoop, if_pos ⟨positive, inside⟩, memchr_line plain before tail last]
  simp only [delim, Nat.add_sub_cancel_left, gStrndup_line]

/-- The whole loop. The pointer and the length always meet at the end of the mapping,
until the last line has no newline and the length becomes the wrapped one. -/
theorem mmapLoop_lines (fuel : Nat) (before rest : List UInt8) (short : rest.length < 2 ^ 63)
    (enough : rest.length < fuel) (state : σ) :
    mmapLoop processEntry (before ++ rest) fuel before.length rest.length state =
      .ok (feed processEntry state ((splitLines rest).map (·.takeWhile (· != 0)))) := by
  induction fuel generalizing before rest state with
  | zero => exact absurd enough (Nat.not_lt_zero _)
  | succ fuel ih =>
    by_cases empty : rest = []
    · subst rest
      simp [mmapLoop, splitLines, feed]
    by_cases newline : (10 : UInt8) ∈ rest
    · obtain ⟨line, tail, rfl, plain⟩ := List.eq_append_cons_of_mem newline
      have round := mmapLoop_round processEntry plain before (10 :: tail) (.inr rfl) empty short fuel state
      have left : ((line ++ 10 :: tail).length + 2 ^ 64 - (line.length + 1)) % 2 ^ 64 = tail.length := by
        simp only [List.length_append, List.length_cons] at short ⊢
        omega
      have next := ih (before ++ line ++ [10]) tail
        (by simp only [List.length_append, List.length_cons] at short; omega)
        (by simp only [List.length_append, List.length_cons] at enough; omega)
      simp only [List.append_assoc, List.singleton_append, List.length_append, List.length_singleton,
        ← Nat.add_assoc] at next
      rw [left] at round
      rw [← List.append_assoc, round, splitLines_newline plain, List.map_cons, feed]
      simp only [List.append_assoc, next]
      by_cases refused : (processEntry state (line.takeWhile (· != 0))).2 = 0 <;> simp [refused]
    · have round := mmapLoop_round processEntry newline before [] (.inl rfl) (by simpa using empty)
        (by simpa using short) fuel state
      -- The subtraction wraps, which the loop condition knows.
      have wrapped : ((rest ++ []).length + 2 ^ 64 - (rest.length + 1)) % 2 ^ 64 = sizeMax := by
        simp only [List.append_nil, sizeMax]
        omega
      have positive : 0 < rest.length := List.length_pos_iff.mpr empty
      obtain ⟨fuel, rfl⟩ : ∃ left, fuel = left + 1 := ⟨fuel - 1, by omega⟩
      rw [wrapped] at round
      simp only [List.append_nil] at round
      rw [round, splitLines_plain empty newline, List.map_singleton, feed]
      simp only [mmapLoop, ne_eq, not_true_eq_false, and_false, if_false, feed]
      by_cases refused : (processEntry state (rest.takeWhile (· != 0))).2 = 0 <;> simp [refused]

theorem splitLines_eq {contents : List UInt8} (nonempty : contents ≠ []) :
    splitLines contents =
      if contents.getLast? = some 10 then (contents.splitOn 10).dropLast else contents.splitOn 10 := by
  induction size : contents.length using Nat.strong_induction_on generalizing contents with | h size ih
  subst size
  by_cases newline : (10 : UInt8) ∈ contents
  · obtain ⟨line, tail, rfl, plain⟩ := List.eq_append_cons_of_mem newline
    have first : (line ++ 10 :: tail).splitOn 10 = line :: tail.splitOn 10 := by
      apply List.splitOnP_append_cons_of_forall_mem _ _ rfl
      intro byte member
      simpa using ne_of_mem_of_not_mem member plain
    rw [splitLines_newline plain, first, List.dropLast_cons_of_ne_nil (List.splitOn_ne_nil _ _)]
    by_cases last : tail = []
    · subst tail
      simp [splitLines]
    · have same : (line ++ 10 :: tail).getLast? = tail.getLast? := by
        simp [List.getLast?_append, List.getLast?_cons, List.getLast?_eq_some_getLast last]
      rw [same, ih tail.length (by simp; omega) last rfl]
      split <;> rfl
  · have other : contents.getLast? ≠ some 10 := fun last => newline (List.mem_of_getLast? last)
    rw [splitLines_plain nonempty newline, if_neg other, List.splitOn_eq_singleton newline]

theorem feed_one (state : σ) (entry : CStr) : feed processEntry state [entry] = processEntry state entry := by
  rw [feed]
  obtain ⟨state, ret⟩ := processEntry state entry
  by_cases refused : ret = 0
  · subst ret
    rfl
  · exact if_pos refused

theorem pieces_eq (contents : List UInt8) : pieces contents = fileEntries contents := by
  by_cases empty : contents = []
  · subst contents
    rfl
  · rw [fileEntries, if_neg (by simpa using empty), splitLines_eq empty]
    rfl

theorem mmapParseFile_feed (contents : List UInt8) (short : contents.length < 2 ^ 63) (fuel : Nat)
    (enough : contents.length < fuel) (state : σ) :
    mmapParseFile processEntry contents fuel state =
      .ok (feed processEntry state (fileEntries contents)) := by
  rw [mmapParseFile, fileEntries]
  by_cases empty : contents.isEmpty
  · rw [if_pos empty, if_pos empty, feed_one]
  · rw [if_neg empty, if_neg empty]
    exact mmapLoop_lines processEntry fuel [] contents short enough state

/-- Every file that can be mapped is given to its handler piece by piece, and nothing
outside the mapping is read. -/
theorem mmap_gives_pieces (contents : List UInt8) (short : contents.length < 2 ^ 63) (fuel : Nat)
    (enough : contents.length < fuel) (state : σ) :
    mmapParseFile processEntry contents fuel state =
      .ok (feed processEntry state (pieces contents)) := by
  rw [pieces_eq]
  exact mmapParseFile_feed processEntry contents short fuel enough state

end

/-- An empty line, a NUL and a last line that nothing ends, up to the line that is refused. -/
theorem mmap_gives_pieces_refused :
    mmapParseFile (fun seen entry => (seen ++ [entry], if entry = [99] then -22 else 0))
        [97, 0, 98, 10, 10, 99, 10, 100] 9 [] = .ok ([[97], [], [99]], -22) ∧
      mmapParseFile (fun seen entry => (seen ++ [entry], if entry = [99] then -22 else 0))
        [97, 10, 98] 4 [] = .ok ([[97], [98]], 0) :=
  ⟨(mmap_gives_pieces _ [97, 0, 98, 10, 10, 99, 10, 100] (by decide) 9 (by decide) []).trans (by decide),
    (mmap_gives_pieces _ [97, 10, 98] (by decide) 4 (by decide) []).trans (by decide)⟩

/-- A handler that refuses with one code stops where the walk over the entries stops. -/
theorem feed_returned {σ : Type} (processEntry : σ → CStr → σ × Bool) (state : σ) (entries : List CStr) :
    feed (fun state entry => returned (processEntry state entry)) state entries =
      returned (parseEntries processEntry state entries) := by
  induction entries generalizing state with
  | nil => rfl
  | cons entry entries ih =>
    rw [feed, parseEntries]
    rcases processEntry state entry with ⟨state, _ | _⟩
    · rfl
    · exact ih state

/-- The two files as they are loaded: by their lines, with the code of the process entry
functions. -/
theorem mmapParseFile_entries {σ : Type} (processEntry : σ → CStr → σ × Bool) (contents : List UInt8)
    (short : contents.length < 2 ^ 63) (fuel : Nat) (enough : contents.length < fuel) (state : σ) :
    mmapParseFile (fun state entry => returned (processEntry state entry)) contents fuel state =
      .ok (returned (parseEntries processEntry state (fileEntries contents))) := by
  rw [mmapParseFile_feed _ contents short fuel enough, feed_returned]

end KsmbdTools.Management
