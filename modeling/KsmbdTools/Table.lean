import Mathlib.Data.List.AList
import Mathlib.Algebra.GroupWithZero.Nat

/-! The value of a key of a table, replaced in place. -/

namespace KsmbdTools.Table
variable {α : Type} {β : α → Type} [DecidableEq α]

private theorem kreplace_cons_self (key : α) (value fresh : β key) (rest : List (Sigma β)) :
    List.kreplace key fresh (⟨key, value⟩ :: rest) = ⟨key, fresh⟩ :: rest := by
  simp [List.kreplace]

private theorem kreplace_cons_ne {key : α} (fresh : β key) {entry : Sigma β} (other : key ≠ entry.1)
    (rest : List (Sigma β)) : List.kreplace key fresh (entry :: rest) = entry :: List.kreplace key fresh rest := by
  simp [List.kreplace, other]

private theorem dlookup_kreplace {key : α} {list : List (Sigma β)} (fresh : β key) (member : key ∈ list.keys) :
    (list.kreplace key fresh).dlookup key = some fresh := by
  induction list with
  | nil => simp at member
  | cons entry rest ih =>
    obtain ⟨name, value⟩ := entry
    by_cases same : key = name
    · subst same
      rw [kreplace_cons_self, List.dlookup_cons_eq]
    · rw [kreplace_cons_ne fresh same, List.dlookup_cons_ne _ _ same]
      exact ih (by simpa [same] using member)

theorem lookup_replace {key : α} {table : AList β} (fresh : β key) (member : key ∈ table) :
    (table.replace key fresh).lookup key = some fresh := dlookup_kreplace fresh member

theorem lookup_replace_of_lookup {key : α} {value : β key} {table : AList β} (fresh : β key)
    (found : table.lookup key = some value) : (table.replace key fresh).lookup key = some fresh :=
  lookup_replace fresh (AList.lookup_isSome.mp (by rw [found]; rfl))

private theorem dlookup_kreplace_ne {key other : α} {list : List (Sigma β)} (fresh : β key) (differs : other ≠ key) :
    (list.kreplace key fresh).dlookup other = list.dlookup other := by
  induction list with
  | nil => rfl
  | cons entry rest ih =>
    obtain ⟨name, value⟩ := entry
    by_cases same : key = name
    · subst same
      rw [kreplace_cons_self, List.dlookup_cons_ne _ _ differs, List.dlookup_cons_ne _ _ differs]
    · rw [kreplace_cons_ne fresh same]
      by_cases here : other = name
      · subst here
        rw [List.dlookup_cons_eq, List.dlookup_cons_eq]
      · rw [List.dlookup_cons_ne _ _ here, List.dlookup_cons_ne _ _ here, ih]

theorem lookup_replace_ne {key other : α} {table : AList β} (fresh : β key) (differs : other ≠ key) :
    (table.replace key fresh).lookup other = table.lookup other := dlookup_kreplace_ne fresh differs

section Values
variable {κ ν : Type} [DecidableEq κ]

def mapValues (change : κ → ν → ν) (table : AList fun _ : κ => ν) : AList fun _ : κ => ν :=
  ⟨table.entries.map fun entry => ⟨entry.1, change entry.1 entry.2⟩, by
    have keys : (table.entries.map fun entry => (⟨entry.1, change entry.1 entry.2⟩ : Sigma fun _ : κ => ν)).keys =
        table.entries.keys := by simp [List.keys]
    rw [List.NodupKeys, keys]
    exact table.nodupKeys⟩

theorem lookup_mapValues (change : κ → ν → ν) (table : AList fun _ : κ => ν) (key : κ) :
    (mapValues change table).lookup key = (table.lookup key).map (change key) := by
  simp only [mapValues, AList.lookup]
  induction table.entries with
  | nil => rfl
  | cons entry rest ih =>
    obtain ⟨name, value⟩ := entry
    by_cases same : key = name
    · subst same
      rw [List.map_cons, List.dlookup_cons_eq, List.dlookup_cons_eq]
      rfl
    · rw [List.map_cons, List.dlookup_cons_ne _ _ same, List.dlookup_cons_ne _ _ same, ih]

theorem mem_mapValues {change : κ → ν → ν} {table : AList fun _ : κ => ν} {key : κ} :
    key ∈ mapValues change table ↔ key ∈ table := by
  rw [← AList.lookup_isSome, ← AList.lookup_isSome, lookup_mapValues, Option.isSome_map]

end Values

section Total
variable {κ ν : Type} [DecidableEq κ]

/-- The sum of a measure over the values of a table. -/
def total (measure : ν → Nat) (table : AList fun _ : κ => ν) : Nat := (table.entries.map fun entry => measure entry.2).sum

end Total
end KsmbdTools.Table
