import Mathlib.Logic.Function.Basic

/-!
# Maps that list cells

Some cells are live, and each cell has a key and a value. A partial map lists
the live cells if it has exactly their entries, each under the cell's key.
-/

namespace Lookup

universe u v w x

structure Cells (Cell : Type u) (Key : Type v) (Value : Type w) where
  live : Cell → Prop
  key : Cell → Key
  value : Cell → Value

variable {Cell : Type u} {Key : Type v} {Value : Type w} {Other : Type x}
  {map map' : Key → Option Value} {cells next : Cells Cell Key Value} {cell : Cell} {key : Key}

/-- The entries of the map are those of the live cells. -/
def Lists (map : Key → Option Value) (cells : Cells Cell Key Value) : Prop :=
  ∀ key value, map key = some value ↔
    ∃ cell, cells.live cell ∧ cells.key cell = key ∧ cells.value cell = value

/-- No other live cell has the key of this one. -/
def Unshared (cells : Cells Cell Key Value) (cell : Cell) : Prop :=
  ∀ other, other ≠ cell → cells.live other → cells.key other ≠ cells.key cell

namespace Lists

theorem known (lists : Lists map cells) (live : cells.live cell) :
    map (cells.key cell) = some (cells.value cell) :=
  (lists _ _).mpr ⟨cell, live, rfl, rfl⟩

theorem unknown (lists : Lists map cells)
    (absent : ∀ cell, cells.live cell → cells.key cell ≠ key) : map key = none := by
  rcases found : map key with _ | value
  · rfl
  · rcases (lists key value).mp found with ⟨cell, live, same, -⟩
    exact absurd same (absent cell live)

/-- Under a key that is not shared there is the value of the cell, if it is live. -/
theorem unknown_of_dead (lists : Lists map cells) (unshared : Unshared cells cell)
    (dead : ¬cells.live cell) : map (cells.key cell) = none := by
  refine lists.unknown fun other live => unshared other ?_ live
  rintro rfl
  exact dead live

/-- The same cells are listed in one way only. -/
theorem unique (lists : Lists map cells) (lists' : Lists map' cells) : map = map' := by
  funext key
  apply Option.ext
  intro value
  rw [lists key value, lists' key value]

/-- Entries that say less of each cell. -/
theorem mapValue (lists : Lists map cells) (view : Value → Other) :
    Lists (fun key => (map key).map view)
      { live := cells.live, key := cells.key, value := fun cell => view (cells.value cell) } := by
  intro key value
  rw [Option.map_eq_some_iff]
  constructor
  · rintro ⟨whole, found, rfl⟩
    rcases (lists key whole).mp found with ⟨cell, live, same, rfl⟩
    exact ⟨cell, live, same, rfl⟩
  · rintro ⟨cell, live, rfl, rfl⟩
    exact ⟨_, lists.known live, rfl⟩

/-- What the map says under one key follows what becomes of the one cell that has it. -/
theorem assign [DecidableEq Key] {value : Option Value} (lists : Lists map cells)
    (others : ∀ other, other ≠ cell → (next.live other ↔ cells.live other) ∧
      (cells.live other → next.key other = cells.key other ∧
        next.value other = cells.value other ∧ cells.key other ≠ key))
    (before : cells.live cell → cells.key cell = key)
    (after : next.live cell → next.key cell = key)
    (here : ∀ held, value = some held ↔ next.live cell ∧ next.value cell = held) :
    Lists (Function.update map key value) next := by
  intro other held
  by_cases same : other = key
  · rw [same, Function.update_self, here]
    constructor
    · rintro ⟨live, sameValue⟩
      exact ⟨cell, live, after live, sameValue⟩
    · rintro ⟨found, live, sameKey, sameValue⟩
      by_cases isCell : found = cell
      · rw [← isCell]
        exact ⟨live, sameValue⟩
      · have liveBefore := (others found isCell).1.mp live
        rcases (others found isCell).2 liveBefore with ⟨keys, -, different⟩
        rw [keys] at sameKey
        exact absurd sameKey different
  · rw [Function.update_of_ne same, lists other held]
    constructor
    · rintro ⟨found, live, rfl, sameValue⟩
      have notCell : found ≠ cell := by
        rintro rfl
        exact same (before live)
      rcases (others found notCell).2 live with ⟨keys, values, -⟩
      exact ⟨found, (others found notCell).1.mpr live, keys, values.trans sameValue⟩
    · rintro ⟨found, live, rfl, sameValue⟩
      have notCell : found ≠ cell := by
        rintro rfl
        exact same (after live)
      have liveBefore := (others found notCell).1.mp live
      rcases (others found notCell).2 liveBefore with ⟨keys, values, -⟩
      exact ⟨found, liveBefore, keys.symm, values.symm.trans sameValue⟩

end Lists

end Lookup
