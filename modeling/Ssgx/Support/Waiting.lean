import Mathlib.Data.List.Basic
import Mathlib.Tactic.TypeStar

/-!
# Waits in a row

A loop that asks again after a wait keeps a count of the waits at the end of the list of its
results, and sets it back after any other result. `WaitsAtEnd` says that the count is right, and
`Patient` that nowhere in the list more waits than a limit follow one another.
-/

set_option autoImplicit false

namespace Ssgx.Support

universe u

variable {α : Type u} {wait : α → Prop} {xs : List α} {a : α} {n limit : Nat}

/-- At most that many waits are at the end of the list. -/
def WaitsAtEnd (wait : α → Prop) (n : Nat) (xs : List α) : Prop :=
  ∀ before waits, xs = before ++ waits → (∀ a ∈ waits, wait a) → waits.length ≤ n

/-- At most that many waits follow one another in the list. -/
def Patient (wait : α → Prop) (limit : Nat) (xs : List α) : Prop :=
  ∀ before waits after, xs = before ++ waits ++ after → (∀ a ∈ waits, wait a) →
    waits.length ≤ limit

theorem waitsAtEnd_nil : WaitsAtEnd wait n [] := by
  intro before waits heq _
  have hnil := (List.append_eq_nil_iff.1 heq.symm).2
  rw [hnil]
  exact Nat.zero_le n

theorem patient_nil : Patient wait limit [] := by
  intro before waits after heq _
  have hnil := (List.append_eq_nil_iff.1 (List.append_eq_nil_iff.1 heq.symm).1).2
  rw [hnil]
  exact Nat.zero_le limit

/-- One more wait is counted. -/
theorem WaitsAtEnd.concat (h : WaitsAtEnd wait n xs) (a : α) :
    WaitsAtEnd wait (n + 1) (xs ++ [a]) := by
  intro before waits heq hwaits
  rcases List.eq_nil_or_concat waits with rfl | ⟨waits', b, rfl⟩
  · exact Nat.zero_le _
  · rw [List.concat_eq_append, ← List.append_assoc] at heq
    have hshort := h before waits' (List.append_inj' heq rfl).1 fun c hc => hwaits c (by simp [hc])
    rw [List.length_concat]
    exact Nat.succ_le_succ hshort

/-- Any other result sets the count back. -/
theorem waitsAtEnd_other (ha : ¬ wait a) : WaitsAtEnd wait n (xs ++ [a]) := by
  intro before waits heq hwaits
  rcases List.eq_nil_or_concat waits with rfl | ⟨waits', b, rfl⟩
  · exact Nat.zero_le n
  · rw [List.concat_eq_append, ← List.append_assoc] at heq
    have hb : [a] = [b] := (List.append_inj' heq rfl).2
    cases hb
    exact absurd (hwaits a (by simp)) ha

/-- A list with one more result is patient where the waits at its end are few. -/
theorem Patient.concat (h : Patient wait limit xs) (hend : WaitsAtEnd wait limit (xs ++ [a])) :
    Patient wait limit (xs ++ [a]) := by
  intro before waits after heq hwaits
  rcases List.eq_nil_or_concat after with rfl | ⟨after', b, rfl⟩
  · rw [List.append_nil] at heq
    exact hend before waits heq hwaits
  · rw [List.concat_eq_append, ← List.append_assoc] at heq
    exact h before waits after' (List.append_inj' heq rfl).1 hwaits

theorem Patient.concat_other (h : Patient wait limit xs) (ha : ¬ wait a) :
    Patient wait limit (xs ++ [a]) :=
  h.concat (waitsAtEnd_other ha)

/-- The beginning of a patient list is patient. -/
theorem Patient.of_append {ys : List α} (h : Patient wait limit (xs ++ ys)) :
    Patient wait limit xs := by
  intro before waits after heq hwaits
  refine h before waits (after ++ ys) ?_ hwaits
  rw [heq, List.append_assoc]

theorem WaitsAtEnd.mono {m : Nat} (h : WaitsAtEnd wait n xs) (hle : n ≤ m) :
    WaitsAtEnd wait m xs := fun before waits heq hwaits =>
  Nat.le_trans (h before waits heq hwaits) hle

end Ssgx.Support
