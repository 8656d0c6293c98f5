import Mathlib.Data.List.DropRight
import Mathlib.Data.List.TakeWhile

/-! Texts cut at a separator and trimmed of blanks. -/

namespace KsmbdTools.Texts

variable {α : Type}

section Separator
variable [DecidableEq α] {separator : α} {front back : List α}

theorem all_ne (none : separator ∉ front) : ∀ item ∈ front, (item != separator) = true := by
  intro item member
  rw [bne_iff_ne]
  rintro rfl
  exact none member

theorem takeWhile_ne (none : separator ∉ front) :
    (front ++ separator :: back).takeWhile (· != separator) = front := by
  rw [List.takeWhile_append_of_pos (all_ne none)]
  simp

theorem dropWhile_ne (none : separator ∉ front) :
    (front ++ separator :: back).dropWhile (· != separator) = separator :: back := by
  rw [List.dropWhile_append_of_pos (all_ne none)]
  simp

theorem not_mem_takeWhile_ne (text : List α) : separator ∉ text.takeWhile (· != separator) := by
  intro member
  have := List.mem_takeWhile_imp member
  simp at this

/-- A text with something behind the part in front of the separator has the separator there. -/
theorem split_of_dropWhile_ne {text : List α} {first : α} (found : text.dropWhile (· != separator) = first :: back) :
    text = text.takeWhile (· != separator) ++ separator :: back := by
  have stops := List.head_dropWhile_not (fun item : α => item != separator) (by rw [found]; exact List.cons_ne_nil _ _)
  have first_eq : first = separator := by simpa [found] using stops
  conv_lhs => rw [← List.takeWhile_append_dropWhile (p := (· != separator)) (l := text), found, first_eq]

end Separator

section Blanks
variable {blank : α → Bool} {blanks text : List α}

/-- The text starts with something that is no blank, if with anything. -/
def Starts (blank : α → Bool) (text : List α) : Prop := ∀ item ∈ text.head?, blank item = false

instance (blank : α → Bool) (text : List α) : Decidable (Starts blank text) :=
  inferInstanceAs (Decidable (∀ item ∈ text.head?, blank item = false))

theorem starts_dropWhile (text : List α) : Starts blank (text.dropWhile blank) := by
  intro item first
  rcases kept : text.dropWhile blank with _ | ⟨other, rest⟩
  · simp [kept] at first
  · have stops := List.head_dropWhile_not blank (by rw [kept]; exact List.cons_ne_nil _ _)
    simp only [kept, List.head?_cons, Option.mem_def, Option.some.injEq] at first
    simpa [kept, ← first] using stops

theorem dropWhile_of_starts (starts : Starts blank text) : text.dropWhile blank = text := by
  rcases text with _ | ⟨first, rest⟩
  · rfl
  · rw [List.dropWhile_cons_of_neg]
    simpa using starts first rfl

theorem dropWhile_blanks (all : ∀ item ∈ blanks, blank item = true) (starts : Starts blank text) :
    (blanks ++ text).dropWhile blank = text := by
  rw [List.dropWhile_append_of_pos all, dropWhile_of_starts starts]

theorem takeWhile_blanks (all : ∀ item ∈ blanks, blank item = true) (starts : Starts blank text) :
    (blanks ++ text).takeWhile blank = blanks := by
  rw [List.takeWhile_append_of_pos all]
  rcases text with _ | ⟨first, rest⟩
  · simp
  · rw [List.takeWhile_cons_of_neg (by simpa using starts first rfl), List.append_nil]

theorem starts_append (some : text ≠ []) (starts : Starts blank text) (back : List α) : Starts blank (text ++ back) := by
  rcases text with _ | ⟨first, rest⟩
  · exact absurd rfl some
  · exact starts

/-- The text ends with something that is no blank, if with anything. -/
def Ends (blank : α → Bool) (text : List α) : Prop := ∀ item ∈ text.getLast?, blank item = false

instance (blank : α → Bool) (text : List α) : Decidable (Ends blank text) :=
  inferInstanceAs (Decidable (∀ item ∈ text.getLast?, blank item = false))

theorem rdropWhile_blanks (ends : Ends blank text) (all : ∀ item ∈ blanks, blank item = true) :
    (text ++ blanks).rdropWhile blank = text := by
  induction blanks using List.reverseRecOn with
  | nil =>
    rw [List.append_nil]
    rcases List.eq_nil_or_concat' text with rfl | ⟨front, last, rfl⟩
    · rfl
    · rw [List.rdropWhile_concat_neg]
      simpa using ends last (by simp)
  | append_singleton front last ih =>
    rw [← List.append_assoc, List.rdropWhile_concat_pos _ _ _ (all last (by simp))]
    exact ih fun item member => all item (List.mem_append_left _ member)

theorem ends_rdropWhile (text : List α) : Ends blank (text.rdropWhile blank) := by
  intro item last
  rcases List.eq_nil_or_concat' (text.rdropWhile blank) with empty | ⟨front, other, kept⟩
  · simp [empty] at last
  · have stops := List.rdropWhile_last_not blank text (by rw [kept]; simp)
    rw [kept] at last
    simp only [List.getLast?_append, List.getLast?_singleton, Option.some_or, Option.mem_def,
      Option.some.injEq] at last
    simpa [kept, ← last] using stops

theorem rdropWhile_split (blank : α → Bool) (text : List α) :
    ∃ blanks, text = text.rdropWhile blank ++ blanks ∧ ∀ item ∈ blanks, blank item = true := by
  refine ⟨(text.reverse.takeWhile blank).reverse, ?_, fun item member => ?_⟩
  · rw [List.rdropWhile, ← List.reverse_append, List.takeWhile_append_dropWhile, List.reverse_reverse]
  · exact List.mem_takeWhile_imp (List.mem_reverse.mp member)

end Blanks
end KsmbdTools.Texts
