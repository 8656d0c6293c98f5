import Mathlib.Data.List.Basic
import Mathlib.Algebra.BigOperators.Group.List.Basic
import Mathlib.Algebra.GroupWithZero.Nat

/-! Records reached through references. A reference is never handed out twice,
so a freed record leaves a hole that no later allocation fills. -/

namespace KsmbdTools

structure Ref (α : Type) where
  addr : Nat
  deriving Repr

instance : DecidableEq (Ref α) := fun first second =>
  decidable_of_iff (first.addr = second.addr) (by cases first; cases second; simp)

structure Heap (α : Type) where
  cells : List (Option α)
  deriving DecidableEq, Repr

namespace Heap
variable {α : Type}

def empty : Heap α := ⟨[]⟩

def get? (heap : Heap α) (ref : Ref α) : Option α := heap.cells[ref.addr]?.join

def alloc (heap : Heap α) (value : α) : Heap α × Ref α :=
  (⟨heap.cells ++ [some value]⟩, ⟨heap.cells.length⟩)

/-- Update the record in place. A reference without a record is left alone. -/
def modify (heap : Heap α) (ref : Ref α) (f : α → α) : Heap α :=
  ⟨heap.cells.modify ref.addr (Option.map f)⟩

def free (heap : Heap α) (ref : Ref α) : Heap α := ⟨heap.cells.set ref.addr none⟩

def Live (heap : Heap α) (ref : Ref α) : Prop := ∃ value, heap.get? ref = some value

/-- The measure summed over the records that have not been freed. -/
def total (heap : Heap α) (measure : α → Nat) : Nat :=
  (heap.cells.map fun cell => cell.elim 0 measure).sum

@[simp] theorem get?_empty (ref : Ref α) : (empty : Heap α).get? ref = none := by simp [get?, empty]

theorem get?_lt {heap : Heap α} {ref : Ref α} {value : α} (found : heap.get? ref = some value) :
    ref.addr < heap.cells.length := by
  simp only [get?, Option.join_eq_some_iff] at found
  exact (List.getElem?_eq_some_iff.mp found).1

theorem get?_cell {heap : Heap α} {ref : Ref α} {value : α} (found : heap.get? ref = some value) :
    heap.cells[ref.addr]? = some (some value) := by
  simpa only [get?, Option.join_eq_some_iff] using found

@[simp] theorem get?_alloc_new (heap : Heap α) (value : α) :
    (heap.alloc value).1.get? (heap.alloc value).2 = some value := by
  simp [alloc, get?]

theorem get?_alloc_old {heap : Heap α} {ref : Ref α} (value : α) (old : ref.addr < heap.cells.length) :
    (heap.alloc value).1.get? ref = heap.get? ref := by
  simp [alloc, get?, List.getElem?_append_left old]

theorem alloc_fresh (heap : Heap α) (value : α) : heap.get? (heap.alloc value).2 = none := by
  simp [alloc, get?]

theorem get?_alloc_ne {heap : Heap α} {ref : Ref α} (value : α) (other : ref ≠ (heap.alloc value).2) :
    (heap.alloc value).1.get? ref = heap.get? ref := by
  by_cases old : ref.addr < heap.cells.length
  · exact get?_alloc_old value old
  · have beyond : heap.cells.length + 1 ≤ ref.addr := by
      have : ref.addr ≠ heap.cells.length := fun same => other (by cases ref; simp_all [alloc])
      omega
    have outside : (heap.cells ++ [some value])[ref.addr]? = none := List.getElem?_eq_none (by simpa using beyond)
    simp [alloc, get?, outside, List.getElem?_eq_none (show heap.cells.length ≤ ref.addr by omega)]

theorem get?_alloc_cases {heap : Heap α} {ref : Ref α} {value held : α} (found : (heap.alloc value).1.get? ref = some held) :
    (ref = (heap.alloc value).2 ∧ held = value) ∨ (ref ≠ (heap.alloc value).2 ∧ heap.get? ref = some held) := by
  by_cases new : ref = (heap.alloc value).2
  · rw [new, get?_alloc_new] at found
    exact .inl ⟨new, (Option.some.inj found).symm⟩
  · rw [get?_alloc_ne value new] at found
    exact .inr ⟨new, found⟩

theorem get?_modify (heap : Heap α) (ref other : Ref α) (f : α → α) :
    (heap.modify ref f).get? other = if other = ref then (heap.get? other).map f else heap.get? other := by
  simp only [modify, get?, List.getElem?_modify]
  by_cases same : ref.addr = other.addr
  · have equal : other = ref := by cases ref; cases other; simp_all
    subst equal
    cases heap.cells[other.addr]? with
    | none => simp
    | some cell => cases cell <;> simp
  · have different : other ≠ ref := fun equal => same (by rw [equal])
    simp [same, different]

@[simp] theorem get?_modify_self (heap : Heap α) (ref : Ref α) (f : α → α) :
    (heap.modify ref f).get? ref = (heap.get? ref).map f := by
  simp [get?_modify]

theorem get?_modify_ne {heap : Heap α} {ref other : Ref α} {f : α → α} (different : other ≠ ref) :
    (heap.modify ref f).get? other = heap.get? other := by
  simp [get?_modify, different]

theorem Live.modify {heap : Heap α} {ref other : Ref α} (live : heap.Live other) (f : α → α) :
    (heap.modify ref f).Live other := by
  obtain ⟨value, found⟩ := live
  rw [Live, get?_modify]
  split
  · exact ⟨f value, by rw [found, Option.map_some]⟩
  · exact ⟨value, found⟩

theorem get?_free (heap : Heap α) (ref other : Ref α) :
    (heap.free ref).get? other = if other = ref then none else heap.get? other := by
  simp only [free, get?, List.getElem?_set]
  by_cases same : ref.addr = other.addr
  · have equal : other = ref := by cases ref; cases other; simp_all
    subst equal
    by_cases inside : other.addr < heap.cells.length <;> simp [inside]
  · have different : other ≠ ref := fun equal => same (by rw [equal])
    simp [same, different]

@[simp] theorem get?_free_self (heap : Heap α) (ref : Ref α) : (heap.free ref).get? ref = none := by
  simp [get?_free]

theorem get?_free_ne {heap : Heap α} {ref other : Ref α} (different : other ≠ ref) :
    (heap.free ref).get? other = heap.get? other := by
  simp [get?_free, different]

theorem Live.drop {heap : Heap α} {ref other : Ref α} {last : Prop} [Decidable last] (f : α → α) (live : heap.Live other)
    (kept : other = ref → ¬last) : (if last then heap.free ref else heap.modify ref f).Live other := by
  split
  next gone =>
    obtain ⟨value, found⟩ := live
    exact ⟨value, (get?_free_ne fun same => kept same gone).trans found⟩
  next => exact live.modify f

theorem modify_modify (heap : Heap α) (ref : Ref α) (f g : α → α) :
    (heap.modify ref f).modify ref g = heap.modify ref (g ∘ f) := by
  cases heap with
  | mk cells =>
    simp only [modify, Heap.mk.injEq]
    apply List.ext_getElem?
    intro index
    simp only [List.getElem?_modify]
    by_cases same : ref.addr = index <;> cases cells[index]? <;> simp [same, Option.map_map]

theorem modify_comm (heap : Heap α) (first second : Ref α) (f : α → α) :
    (heap.modify first f).modify second f = (heap.modify second f).modify first f := by
  cases heap with
  | mk cells =>
    simp only [modify, Heap.mk.injEq]
    apply List.ext_getElem?
    intro index
    simp only [List.getElem?_modify]
    by_cases one : first.addr = index <;> by_cases two : second.addr = index <;> simp [one, two]

/-- Changing a record just allocated is allocating the changed record. -/
theorem modify_alloc (heap : Heap α) (value : α) (f : α → α) :
    (heap.alloc value).1.modify (heap.alloc value).2 f = (heap.alloc (f value)).1 := by
  simp only [alloc, modify, Heap.mk.injEq]
  apply List.ext_getElem?
  intro index
  rw [List.getElem?_modify]
  by_cases same : heap.cells.length = index
  · subst same
    simp
  · rcases Nat.lt_or_gt_of_ne same with beyond | inside
    · simp [same, List.getElem?_append_right (Nat.le_of_lt beyond), Nat.sub_ne_zero_of_lt beyond]
    · simp [same, List.getElem?_append_left inside]

theorem free_modify (heap : Heap α) (ref : Ref α) (f : α → α) : (heap.modify ref f).free ref = heap.free ref := by
  simp only [modify, free, Heap.mk.injEq]
  apply List.ext_getElem?
  intro index
  simp only [List.getElem?_set, List.length_modify, List.getElem?_modify]
  by_cases same : ref.addr = index <;> simp [same]

/-- An update that gives back the record it found changes nothing. -/
theorem modify_eq_self {heap : Heap α} {ref : Ref α} {f : α → α}
    (fixed : ∀ value, heap.get? ref = some value → f value = value) : heap.modify ref f = heap := by
  cases heap with
  | mk cells =>
    simp only [modify, Heap.mk.injEq]
    apply List.ext_getElem?
    intro index
    rw [List.getElem?_modify]
    by_cases same : ref.addr = index
    · subst same
      cases seen : cells[ref.addr]? with
      | none => simp
      | some cell =>
        cases cell with
        | none => simp
        | some value => simp [fixed value (by simp [get?, seen])]
    · simp [same]

theorem total_alloc (heap : Heap α) (value : α) (measure : α → Nat) :
    (heap.alloc value).1.total measure = heap.total measure + measure value := by
  simp [alloc, total]

private theorem sum_set (counts : List Nat) (index count fresh : Nat) (found : counts[index]? = some count) :
    (counts.set index fresh).sum + count = counts.sum + fresh := by
  induction counts generalizing index with
  | nil => cases found
  | cons head tail ih =>
    cases index with
    | zero =>
      obtain rfl : head = count := by simpa using found
      simp only [List.set_cons_zero, List.sum_cons]
      omega
    | succ index =>
      have rest := ih index (by simpa using found)
      simp only [List.set_cons_succ, List.sum_cons]
      omega

private theorem modify_eq_set {heap : Heap α} {ref : Ref α} {value : α} (f : α → α)
    (found : heap.get? ref = some value) :
    (heap.modify ref f).cells = heap.cells.set ref.addr (some (f value)) := by
  apply List.ext_getElem?
  intro index
  simp only [modify, List.getElem?_modify, List.getElem?_set]
  by_cases same : ref.addr = index
  · subst same
    rw [get?_cell found]
    simp [get?_lt found]
  · simp [same]

theorem total_modify {heap : Heap α} {ref : Ref α} {value : α} (f : α → α) (measure : α → Nat)
    (found : heap.get? ref = some value) :
    (heap.modify ref f).total measure + measure value = heap.total measure + measure (f value) := by
  simp only [total, modify_eq_set f found, List.map_set]
  exact sum_set _ _ _ _ (by simp [get?_cell found])

/-- An update that keeps the measure of the record it finds keeps the total. -/
theorem total_modify_same {heap : Heap α} {ref : Ref α} {f : α → α} {measure : α → Nat}
    (same : ∀ value, heap.get? ref = some value → measure (f value) = measure value) :
    (heap.modify ref f).total measure = heap.total measure := by
  cases found : heap.get? ref with
  | none => rw [modify_eq_self (by simp [found])]
  | some value =>
    have moved := total_modify f measure found
    rw [same value found] at moved
    omega

theorem total_free {heap : Heap α} {ref : Ref α} {value : α} (measure : α → Nat)
    (found : heap.get? ref = some value) :
    (heap.free ref).total measure + measure value = heap.total measure := by
  simp only [total, free, List.map_set]
  exact sum_set _ _ _ _ (by simp [get?_cell found])

theorem total_pos_iff (heap : Heap α) (measure : α → Nat) :
    0 < heap.total measure ↔ ∃ ref value, heap.get? ref = some value ∧ 0 < measure value := by
  rw [total, List.sum_pos_iff_exists_pos_nat]
  constructor
  · rintro ⟨count, member, positive⟩
    obtain ⟨cell, inside, rfl⟩ := List.mem_map.mp member
    obtain ⟨index, seen⟩ := List.mem_iff_getElem?.mp inside
    cases cell with
    | none => simp at positive
    | some value => exact ⟨⟨index⟩, value, by simp [get?, seen], positive⟩
  · rintro ⟨ref, value, found, positive⟩
    have member : some value ∈ heap.cells := List.mem_of_getElem? (get?_cell found)
    exact ⟨measure value, List.mem_map.mpr ⟨some value, member, rfl⟩, positive⟩

end Heap
end KsmbdTools
