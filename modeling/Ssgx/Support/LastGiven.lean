import Ssgx.Support.Run

/-!
# The last value given

Some inputs of a system give a value and the others give none. `lastGiven` is the value of the last
input of a run that gives one, where there is one; a part of the state that each such input replaces
is that value at the end of the run (`part_eq_lastGiven`).
-/

set_option autoImplicit false

namespace Ssgx.Support

universe u v

variable {σ : Type u} {ι : Type v} {β : Type u} {step : σ → ι → σ} {gives : ι → Option β}

/-- The value after the inputs, each of which may give a new one. -/
def lastGiven (gives : ι → Option β) : β → List ι → β :=
  runFrom fun b i => (gives i).getD b

/-- The last of the inputs that give a value gives this one. -/
def LastGives (gives : ι → Option β) (is : List ι) (b : β) : Prop :=
  ∃ before i after, is = before ++ i :: after ∧ gives i = some b ∧
    ∀ later ∈ after, gives later = none

/-- Inputs that give nothing change nothing. -/
theorem lastGiven_of_none {is : List ι} (h : ∀ i ∈ is, gives i = none) (b : β) :
    lastGiven gives b is = b := by
  induction is with
  | nil => rfl
  | cons i is ih =>
      have hi : gives i = none := h i (by simp)
      have hrest := ih fun later hlater => h later (by simp [hlater])
      simp only [lastGiven, runFrom, hi, Option.getD_none]
      exact hrest

/-- The value is the one that the last of the giving inputs gives. -/
theorem LastGives.lastGiven_eq {is : List ι} {b : β} (h : LastGives gives is b) (a : β) :
    lastGiven gives a is = b := by
  obtain ⟨before, i, after, rfl, hi, hafter⟩ := h
  simp only [lastGiven, runFrom_append, runFrom, hi, Option.getD_some]
  exact lastGiven_of_none hafter b

/-- **A part that each giving input replaces.** At the end of a run it is the value of the last of
them. -/
theorem part_eq_lastGiven (part : σ → β) (h : ∀ s i, part (step s i) = (gives i).getD (part s))
    (s : σ) (is : List ι) : part (runFrom step s is) = lastGiven gives (part s) is :=
  part_runFrom h s is

end Ssgx.Support
