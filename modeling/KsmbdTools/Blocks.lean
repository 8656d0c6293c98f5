import Mathlib.Data.List.Basic

/-! A sequence taken in blocks of one size: folding over the blocks, and keeping the part of a block that is still
to be filled. -/

namespace KsmbdTools.Blocks

section Fold
variable {σ α : Type} (step : σ → List α → σ) (size : Nat)

def foldBlocks : Nat → σ → List α → σ
  | 0, state, _ => state
  | count + 1, state, items => foldBlocks count (step state (items.take size)) (items.drop size)

def fold (state : σ) (items : List α) : σ := foldBlocks step size (items.length / size) state items

variable {step size}

theorem fold_nil (state : σ) : fold step size state [] = state := by
  rw [fold, List.length_nil, Nat.zero_div, foldBlocks]

theorem fold_cons {block : List α} (some : 0 < size) (whole : block.length = size) (state : σ) (items : List α) :
    fold step size state (block ++ items) = fold step size (step state block) items := by
  have count : (block ++ items).length / size = items.length / size + 1 := by
    rw [List.length_append, whole, Nat.add_comm, Nat.add_div_right _ some]
  rw [fold, count, foldBlocks, ← whole, List.take_left, List.drop_left]
  rfl

theorem fold_block {block : List α} (some : 0 < size) (whole : block.length = size) (state : σ) :
    fold step size state block = step state block := by
  rw [← List.append_nil block, fold_cons some whole, fold_nil, List.append_nil]

theorem fold_append {front : List α} (some : 0 < size) (whole : size ∣ front.length) (state : σ) (items : List α) :
    fold step size state (front ++ items) = fold step size (fold step size state front) items := by
  obtain ⟨count, length⟩ := whole
  induction count generalizing front state with
  | zero =>
    rw [List.eq_nil_of_length_eq_zero length, List.nil_append, fold_nil]
  | succ count ih =>
    have first : (front.take size).length = size := by
      rw [List.length_take, length, Nat.mul_succ]
      omega
    have rest : (front.drop size).length = size * count := by
      rw [List.length_drop, length, Nat.mul_succ]
      omega
    rw [← List.take_append_drop size front, List.append_assoc, fold_cons some first, fold_cons some first, ih _ rest]

end Fold

/-- The state stands behind the whole blocks of what was seen; the rest is pending. -/
structure Absorbed {σ α : Type} (step : σ → List α → σ) (size : Nat) (start : σ) (seen : List α) (state : σ)
    (pending : List α) : Prop where
  short : pending.length < size
  split : ∃ done, seen = done ++ pending ∧ size ∣ done.length ∧ state = fold step size start done

namespace Absorbed
variable {σ α : Type} {step : σ → List α → σ} {size : Nat} {start state : σ} {seen pending : List α}

theorem nil (some : 0 < size) : Absorbed step size start [] start [] :=
  ⟨some, [], rfl, Nat.dvd_zero size, (fold_nil start).symm⟩

theorem more {items : List α} (absorbed : Absorbed step size start seen state pending)
    (fits : pending.length + items.length < size) : Absorbed step size start (seen ++ items) state (pending ++ items) := by
  obtain ⟨-, done, rfl, whole, rfl⟩ := absorbed
  exact ⟨by rwa [List.length_append], done, List.append_assoc .., whole, rfl⟩

theorem filled {items : List α} (absorbed : Absorbed step size start seen state pending)
    (full : pending.length + items.length = size) :
    Absorbed step size start (seen ++ items) (step state (pending ++ items)) [] := by
  obtain ⟨short, done, rfl, whole, rfl⟩ := absorbed
  have some : 0 < size := by omega
  have block : (pending ++ items).length = size := by rwa [List.length_append]
  refine ⟨some, done ++ (pending ++ items), by simp, ?_, ?_⟩
  · rw [List.length_append, block]
    exact Nat.dvd_add whole (Nat.dvd_refl size)
  · rw [fold_append some whole, fold_block some block]

theorem length_pending (absorbed : Absorbed step size start seen state pending) :
    pending.length = seen.length % size := by
  obtain ⟨short, done, rfl, ⟨count, whole⟩, -⟩ := absorbed
  rw [List.length_append, whole, Nat.mul_add_mod, Nat.mod_eq_of_lt short]

/-- What follows is folded from the state, with the pending items in front of it. -/
theorem fold_append (absorbed : Absorbed step size start seen state pending) (items : List α) :
    fold step size start (seen ++ items) = fold step size state (pending ++ items) := by
  obtain ⟨short, done, rfl, whole, rfl⟩ := absorbed
  rw [List.append_assoc, Blocks.fold_append (by omega) whole]

end Absorbed

end KsmbdTools.Blocks
