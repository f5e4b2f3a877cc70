import Mathlib.Data.List.Basic
import Mathlib.Data.Nat.Notation

/-!
# Buffers

A buffer is a function from offsets to its elements. `write` is what copying a
list into it leaves, and `contents` reads its first elements.
-/

namespace Buffer

universe u

variable {α : Type u}

/-- The buffer after `data` was copied to the offsets from `start` on. -/
def write (buffer : ℕ → α) (start : ℕ) (data : List α) (offset : ℕ) : α :=
  if offset < start then buffer offset else (data[offset - start]?).getD (buffer offset)

/-- The first elements of the buffer. -/
def contents (buffer : ℕ → α) (length : ℕ) : List α := (List.range length).map buffer

@[simp]
theorem contents_zero (buffer : ℕ → α) : contents buffer 0 = [] := rfl

@[simp]
theorem length_contents (buffer : ℕ → α) (length : ℕ) :
    (contents buffer length).length = length := by
  simp [contents]

@[simp]
theorem write_nil (buffer : ℕ → α) (start : ℕ) : write buffer start [] = buffer := by
  funext offset
  simp [write]

/-- What is written behind the first elements follows them. -/
theorem contents_write (buffer : ℕ → α) (start : ℕ) (data : List α) :
    contents (write buffer start data) (start + data.length) = contents buffer start ++ data := by
  apply List.ext_getElem
  · simp
  · intro offset inWhole _
    have bound : offset < start + data.length := by simpa using inWhole
    by_cases before : offset < start
    · rw [List.getElem_append_left (by simpa using before)]
      simp [contents, write, before]
    · have inData : offset - start < data.length := by omega
      rw [List.getElem_append_right (by simpa using before)]
      simp [contents, write, before, inData]

end Buffer
