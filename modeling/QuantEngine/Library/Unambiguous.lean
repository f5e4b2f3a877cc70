import Mathlib

/-!
# Texts that can be read back

A text of a record is unambiguous if it tells which record was written, also
when more text follows it. A text with a place for each field is read from left
to right: the character behind a place ends the value written there.
-/

namespace Text

universe u v w

variable {Letter : Type u} {α : Type v} {β : Type w} {γ : Type*} {text : α → List Letter}
  {value : β → List Letter} {fact : α → γ} {ending : Letter}

/-- The text tells a fact about what was written, and where the text ends. -/
def Tells (text : α → List Letter) (fact : α → γ) : Prop :=
  ∀ ⦃first second : α⦄ ⦃rest others : List Letter⦄,
    text first ++ rest = text second ++ others → fact first = fact second ∧ rest = others

/-- The text tells what was written. -/
def Unambiguous (text : α → List Letter) : Prop := Tells text id

/-- Different values are written differently, and never with the character that ends them. -/
structure Delimited (value : β → List Letter) (ending : Letter) : Prop where
  injective : Function.Injective value
  free : ∀ elem, ending ∉ value elem

namespace Delimited

/-- The first value ends at the first occurrence of the ending. -/
theorem le_of_append (delimited : Delimited value ending) {first second : β}
    {rest others : List Letter}
    (same : value first ++ ending :: rest = value second ++ ending :: others) :
    (value first).length ≤ (value second).length := by
  by_contra longer
  have lookup : (value first ++ ending :: rest)[(value second).length]? = some ending := by
    rw [same]
    simp
  rw [List.getElem?_append_left (by omega)] at lookup
  exact delimited.free first (List.mem_of_getElem? lookup)

theorem eq_of_append (delimited : Delimited value ending) {first second : β}
    {rest others : List Letter} (startsFirst : rest.head? = some ending)
    (startsSecond : others.head? = some ending)
    (same : value first ++ rest = value second ++ others) : first = second ∧ rest = others := by
  obtain ⟨restTail, rfl⟩ := List.head?_eq_some_iff.mp startsFirst
  obtain ⟨othersTail, rfl⟩ := List.head?_eq_some_iff.mp startsSecond
  have lengths : (value first).length = (value second).length :=
    Nat.le_antisymm (delimited.le_of_append same) (delimited.le_of_append same.symm)
  rcases List.append_inj same lengths with ⟨values, remaining⟩
  exact ⟨delimited.injective values, remaining⟩

theorem comp (delimited : Delimited value ending) {field : α → β}
    (injective : Function.Injective field) : Delimited (fun elem => value (field elem)) ending where
  injective := delimited.injective.comp injective
  free elem := delimited.free (field elem)

/-- One value is written as a word that no other value is written as. -/
theorem except [DecidableEq β] (delimited : Delimited value ending) {special : β}
    {word : List Letter} (fresh : ∀ elem, value elem ≠ word) (free : ending ∉ word) :
    Delimited (fun elem => if elem = special then word else value elem) ending where
  injective first second same := by
    dsimp only at same
    split at same <;> split at same
    · rename_i isFirst isSecond
      rw [isFirst, isSecond]
    · exact absurd same.symm (fresh second)
    · exact absurd same (fresh first)
    · exact delimited.injective same
  free elem := by
    split
    · exact free
    · exact delimited.free elem

end Delimited

theorem Tells.constant (text : List Letter) (fact : γ) :
    Tells (fun _ : α => text) fun _ => fact := by
  intro first second rest others same
  exact ⟨rfl, List.append_cancel_left same⟩

/-- A fixed text before the places. -/
theorem Tells.label (label : List Letter) (tells : Tells text fact) :
    Tells (fun elem => label ++ text elem) fact := by
  intro first second rest others same
  simp only [List.append_assoc] at same
  exact tells (List.append_cancel_left same)

/-- A place whose value is ended by the text behind it. -/
theorem Tells.place {field : α → β} (delimited : Delimited value ending)
    (starts : ∀ elem, (text elem).head? = some ending) (tells : Tells text fact) :
    Tells (fun elem => value (field elem) ++ text elem) fun elem => (field elem, fact elem) := by
  intro first second rest others same
  have ended : ∀ elem more, (text elem ++ more).head? = some ending := by
    intro elem more
    obtain ⟨tail, spelt⟩ := List.head?_eq_some_iff.mp (starts elem)
    rw [spelt]
    rfl
  simp only [List.append_assoc] at same
  rcases delimited.eq_of_append (ended first rest) (ended second others) same with
    ⟨fields, remaining⟩
  rcases tells remaining with ⟨facts, remaining⟩
  exact ⟨Prod.ext fields facts, remaining⟩

theorem Tells.unambiguous (tells : Tells text fact) (injective : Function.Injective fact) :
    Unambiguous text := by
  intro first second rest others same
  rcases tells same with ⟨facts, remaining⟩
  exact ⟨injective facts, remaining⟩

/-- A sequence of texts is read one after the other, up to what does not begin with a text. -/
theorem Unambiguous.eq_of_append (unambiguous : Unambiguous text) {elems others : List α}
    {rest more : List Letter} (ends : ∀ elem, ¬text elem <+: rest)
    (otherEnds : ∀ elem, ¬text elem <+: more)
    (same : elems.flatMap text ++ rest = others.flatMap text ++ more) :
    elems = others ∧ rest = more := by
  induction elems generalizing others with
  | nil =>
      cases others with
      | nil => exact ⟨rfl, same⟩
      | cons other others =>
          rw [List.flatMap_cons, List.append_assoc] at same
          exact absurd ⟨_, same.symm⟩ (ends other)
  | cons elem elems ih =>
      cases others with
      | nil =>
          rw [List.flatMap_cons, List.append_assoc] at same
          exact absurd ⟨_, same⟩ (otherEnds elem)
      | cons other others =>
          simp only [List.flatMap_cons, List.append_assoc] at same
          rcases unambiguous same with ⟨firsts, remaining⟩
          rcases ih remaining with ⟨elemsEq, restEq⟩
          exact ⟨congrArg₂ List.cons firsts elemsEq, restEq⟩

theorem Unambiguous.flatMap_injective (unambiguous : Unambiguous text)
    (nonempty : ∀ elem, text elem ≠ []) :
    Function.Injective fun elems : List α => elems.flatMap text := by
  intro elems others same
  have ends : ∀ elem, ¬text elem <+: [] := fun elem isPrefix =>
    nonempty elem (List.prefix_nil.mp isPrefix)
  exact (unambiguous.eq_of_append ends ends (congrArg (· ++ []) same)).1

theorem isDigit_of_mem_repr {number : ℕ} {digit : Char} (member : digit ∈ number.repr.toList) :
    digit.isDigit := by
  rw [Nat.toList_repr] at member
  exact Nat.isDigit_of_mem_toDigits (by decide) (by decide) member

theorem isDigit_of_mem_intRepr {number : ℤ} {digit : Char} (member : digit ∈ number.repr.toList) :
    digit.isDigit ∨ digit = '-' := by
  rw [Int.repr_eq_if] at member
  split at member
  case isTrue => exact Or.inl (isDigit_of_mem_repr member)
  case isFalse =>
      rw [String.toList_append, List.mem_append] at member
      rcases member with sign | member
      · exact Or.inr (by simpa using sign)
      · exact Or.inl (isDigit_of_mem_repr member)

theorem delimited_repr {ending : Char} (isEnding : ¬ending.isDigit) :
    Delimited (fun number : ℕ => number.repr.toList) ending where
  injective _ _ same := Nat.repr_injective (String.toList_injective same)
  free _ member := isEnding (isDigit_of_mem_repr member)

theorem delimited_intRepr {ending : Char} (isEnding : ¬ending.isDigit ∧ ending ≠ '-') :
    Delimited (fun number : ℤ => number.repr.toList) ending where
  injective _ _ same := Int.repr_injective (String.toList_injective same)
  free _ member := by
    rcases isDigit_of_mem_intRepr member with digit | sign
    · exact isEnding.1 digit
    · exact isEnding.2 sign

end Text
