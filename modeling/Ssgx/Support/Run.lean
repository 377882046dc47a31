import Mathlib.Tactic.TypeStar

/-!
# Runs of a step function

A system with states in `σ` that takes one step for each input of `ι` runs over a list of inputs
(`runFrom`). `Along` says a property of every step of a run, each in the state it is taken in. An
invariant that every admitted step keeps holds at the end of every admitted run
(`invariant_runFrom`).
-/

set_option autoImplicit false

namespace Ssgx.Support

universe u v

variable {σ : Type u} {ι : Type v} (step : σ → ι → σ)

/-- The state after the inputs. -/
def runFrom : σ → List ι → σ
  | s, [] => s
  | s, i :: is => runFrom (step s i) is

/-- Every step of the run has the property in the state it is taken in. -/
def Along (P : σ → ι → Prop) : σ → List ι → Prop
  | _, [] => True
  | s, i :: is => P s i ∧ Along P (step s i) is

variable {step}

/-- A property of every step in every state holds along every run. -/
theorem along_of_forall {P : σ → ι → Prop} (h : ∀ s i, P s i) (s : σ) (is : List ι) :
    Along step P s is := by
  induction is generalizing s with
  | nil => trivial
  | cons i is ih => exact ⟨h s i, ih (step s i)⟩

/-- Properties that agree on admitted steps agree along admitted runs. -/
theorem Along.congr {A P Q : σ → ι → Prop} {s : σ} {is : List ι} (hadmitted : Along step A s is)
    (h : ∀ s i, A s i → (P s i ↔ Q s i)) : Along step P s is ↔ Along step Q s is := by
  induction is generalizing s with
  | nil => exact Iff.rfl
  | cons i is ih => exact and_congr (h s i hadmitted.1) (ih hadmitted.2)

/-- Properties that agree on single steps agree along runs. -/
theorem along_congr {P Q : σ → ι → Prop} (h : ∀ s i, P s i ↔ Q s i) (s : σ) (is : List ι) :
    Along step P s is ↔ Along step Q s is :=
  Along.congr (along_of_forall (fun _ _ => trivial) s is) fun s i _ => h s i

/-- What follows from a property of a step holds along a run with it. -/
theorem Along.imp {P Q : σ → ι → Prop} (h : ∀ s i, P s i → Q s i) {s : σ} {is : List ι}
    (hP : Along step P s is) : Along step Q s is := by
  induction is generalizing s with
  | nil => trivial
  | cons i is ih => exact ⟨h s i hP.1, ih hP.2⟩

/-- Two properties hold along a run together. -/
theorem Along.and {P Q : σ → ι → Prop} {s : σ} {is : List ι} (hP : Along step P s is)
    (hQ : Along step Q s is) : Along step (fun s i => P s i ∧ Q s i) s is := by
  induction is generalizing s with
  | nil => trivial
  | cons i is ih => exact ⟨⟨hP.1, hQ.1⟩, ih hP.2 hQ.2⟩

/-- **The invariant rule.** What every admitted step keeps, an admitted run keeps. -/
theorem invariant_runFrom {A : σ → ι → Prop} {Inv : σ → Prop}
    (hstep : ∀ s i, A s i → Inv s → Inv (step s i)) {s : σ} {is : List ι}
    (hadmitted : Along step A s is) (hinv : Inv s) : Inv (runFrom step s is) := by
  induction is generalizing s with
  | nil => exact hinv
  | cons i is ih => exact ih hadmitted.2 (hstep s i hadmitted.1 hinv)

/-- Along an admitted run every step has what the invariant gives it. -/
theorem Along.of_invariant {A P : σ → ι → Prop} {Inv : σ → Prop} {s : σ} {is : List ι}
    (hadmitted : Along step A s is) (hstep : ∀ s i, A s i → Inv s → Inv (step s i))
    (hgives : ∀ s i, A s i → Inv s → P s i) (hinv : Inv s) : Along step P s is := by
  induction is generalizing s with
  | nil => trivial
  | cons i is ih =>
      have hrest := ih hadmitted.2 (hstep s i hadmitted.1 hinv)
      exact ⟨hgives s i hadmitted.1 hinv, hrest⟩

/-- **The exact rule.** Where, under an invariant, a step has the property `P` exactly when it meets
the condition `C`, and then keeps the invariant, all steps of a run have `P` exactly when all meet
`C`. -/
theorem along_exact_iff {Inv : σ → Prop} {P C : σ → ι → Prop}
    (hstep : ∀ s i, Inv s → (P s i ↔ C s i)) (hkeep : ∀ s i, Inv s → C s i → Inv (step s i)) {s : σ}
    (hinv : Inv s) (is : List ι) : Along step P s is ↔ Along step C s is := by
  induction is generalizing s with
  | nil => exact Iff.rfl
  | cons i is ih =>
      constructor
      · rintro ⟨hp, hrest⟩
        have hc := (hstep s i hinv).1 hp
        exact ⟨hc, (ih (hkeep s i hinv hc)).1 hrest⟩
      · rintro ⟨hc, hrest⟩
        exact ⟨(hstep s i hinv).2 hc, (ih (hkeep s i hinv hc)).2 hrest⟩

/-- Where one step keeps the invariant exactly when it meets a condition, the invariant holds behind
every step of a run exactly when every step meets it. -/
theorem along_invariant_iff {Inv : σ → Prop} {C : σ → ι → Prop}
    (hstep : ∀ s i, Inv s → (Inv (step s i) ↔ C s i)) {s : σ} (hinv : Inv s) (is : List ι) :
    Along step (fun s i => Inv (step s i)) s is ↔ Along step C s is :=
  along_exact_iff hstep (fun s i h hc => (hstep s i h).2 hc) hinv is

/-- **The exact rule for what lasts.** Where a step has `Q` behind it exactly when `Q` held before
it and it meets the condition `C`, under an invariant that admitted steps keep, `Q` holds at the end
of an admitted run exactly when it held at its start and every step met `C`. -/
theorem runFrom_iff_along {A C : σ → ι → Prop} {Inv Q : σ → Prop}
    (hkeep : ∀ s i, A s i → Inv s → Inv (step s i))
    (hstep : ∀ s i, A s i → Inv s → (Q (step s i) ↔ Q s ∧ C s i)) {s : σ} {is : List ι}
    (hadmitted : Along step A s is) (hinv : Inv s) :
    Q (runFrom step s is) ↔ Q s ∧ Along step C s is := by
  induction is generalizing s with
  | nil => exact ⟨fun h => ⟨h, trivial⟩, fun h => h.1⟩
  | cons i is ih =>
      have hrest := ih hadmitted.2 (hkeep s i hadmitted.1 hinv)
      rw [hstep s i hadmitted.1 hinv] at hrest
      exact hrest.trans and_assoc

/-- **The simulation rule.** A map that commutes with single steps commutes with runs. -/
theorem map_runFrom {σ' : Type u} {ι' : Type v} {step' : σ' → ι' → σ'} {f : σ → σ'} {g : ι → ι'}
    (h : ∀ s i, f (step s i) = step' (f s) (g i)) (s : σ) (is : List ι) :
    f (runFrom step s is) = runFrom step' (f s) (is.map g) := by
  induction is generalizing s with
  | nil => rfl
  | cons i is ih =>
      simp only [runFrom, List.map_cons]
      rw [ih, h]

/-- A run over two lists is the second behind the first. -/
theorem runFrom_append (s : σ) (is js : List ι) :
    runFrom step s (is ++ js) = runFrom step (runFrom step s is) js := by
  induction is generalizing s with
  | nil => rfl
  | cons i is ih => exact ih (step s i)

/-- The simulation rule for a part of the state that is stepped by the same inputs. -/
theorem part_runFrom {τ : Type u} {step' : τ → ι → τ} {f : σ → τ}
    (h : ∀ s i, f (step s i) = step' (f s) i) (s : σ) (is : List ι) :
    f (runFrom step s is) = runFrom step' (f s) is := by
  have hrun := map_runFrom (g := id) h s is
  rwa [List.map_id] at hrun

/-- A part of the state that every step leaves is left by a run. -/
theorem kept_runFrom {τ : Type u} {f : σ → τ} (h : ∀ s i, f (step s i) = f s) (s : σ)
    (is : List ι) : f (runFrom step s is) = f s :=
  invariant_runFrom (fun s' i _ hs => (h s' i).trans hs)
    (along_of_forall (fun _ _ => trivial) s is) rfl

end Ssgx.Support
