import Mathlib.Data.List.Nodup

/-!
# Lists used as sets

A list that is appended to only what it does not hold yet, and from which every
occurrence of an element is removed. Such a list never holds an element twice.
-/

namespace Distinct

universe u

variable {α : Type u} [DecidableEq α] {elem other : α} {list : List α}

/-- Appends the element, unless the list holds it. -/
def pushNew (elem : α) (list : List α) : List α := if elem ∈ list then list else list ++ [elem]

/-- Removes every occurrence of the element. -/
def removeAll (elem : α) (list : List α) : List α := list.filter fun other => other ≠ elem

@[simp]
theorem mem_pushNew : other ∈ pushNew elem list ↔ other ∈ list ∨ other = elem := by
  unfold pushNew
  split
  · constructor
    · exact Or.inl
    · rintro (member | rfl) <;> assumption
  · simp

theorem nodup_pushNew (nodup : list.Nodup) : (pushNew elem list).Nodup := by
  unfold pushNew
  split
  · exact nodup
  · rename_i absent
    rw [List.nodup_append]
    refine ⟨nodup, List.nodup_singleton elem, ?_⟩
    rintro first firstMem second secondMem rfl
    exact absent (List.mem_singleton.mp secondMem ▸ firstMem)

theorem length_pushNew_le : (pushNew elem list).length ≤ list.length + 1 := by
  unfold pushNew
  split <;> simp

theorem length_pushNew (absent : elem ∉ list) :
    (pushNew elem list).length = list.length + 1 := by
  simp [pushNew, absent]

end Distinct
