import Mathlib.Data.List.Basic

/-!
# Logs whose entries agree with what came before

A property of a growing log that is stated entry by entry: each entry is judged
by the entries before it, so appending an entry leaves the earlier verdicts
alone.
-/

namespace Log

universe u

variable {α : Type u} {agrees agrees' : List α → α → Prop} {log : List α} {entry : α}

/-- Every entry of the log agrees with the entries before it. -/
def Each (agrees : List α → α → Prop) (log : List α) : Prop :=
  ∀ before entry after, log = before ++ entry :: after → agrees before entry

theorem Each.nil : Each agrees [] := by
  intro before entry after whole
  cases before <;> cases whole

theorem Each.concat (each : Each agrees log) (agree : agrees log entry) :
    Each agrees (log ++ [entry]) := by
  intro before other after whole
  rcases List.eq_nil_or_concat after with rfl | ⟨front, final, rfl⟩
  · rcases List.append_inj' whole rfl with ⟨rfl, same⟩
    cases same
    exact agree
  · have split : log ++ [entry] = (before ++ other :: front) ++ [final] := by
      simpa using whole
    exact each before other front (List.append_inj' split rfl).1

/-- Each entry agrees with some entries of the log, those before it. -/
theorem Each.of_mem (each : Each agrees log) (member : entry ∈ log) :
    ∃ before, before ⊆ log ∧ agrees before entry := by
  rcases List.append_of_mem member with ⟨before, after, whole⟩
  refine ⟨before, ?_, each before entry after whole⟩
  rw [whole]
  exact List.subset_append_left _ _

end Log
