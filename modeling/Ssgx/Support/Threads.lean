import Mathlib.Data.List.Basic

/-!
# Threads over a shared state

A state that several threads share, and the local state of each. A thread has an assertion about the
shared state and its own, and any two threads are apart in some sense. `Sound.move` is the rule of
noninterference: a step of one thread keeps all assertions when it establishes its own, disturbs
that of no other thread and stays apart from each.
-/

set_option autoImplicit false

namespace Ssgx.Support

universe u v

/-- A shared state and the local states of its threads. -/
structure Threads (σ : Type u) (τ : Type v) where
  shared : σ
  locals : List τ

namespace Threads

variable {σ : Type u} {τ : Type v}

/-- A thread takes the shared state and its own to new ones. -/
def move (t : Threads σ τ) (i : Nat) (s : σ) (x : τ) : Threads σ τ := ⟨s, t.locals.set i x⟩

/-- A new thread. -/
def spawn (t : Threads σ τ) (x : τ) : Threads σ τ := { t with locals := t.locals ++ [x] }

@[simp] theorem move_shared (t : Threads σ τ) (i : Nat) (s : σ) (x : τ) :
    (t.move i s x).shared = s := rfl

/-- A thread behind a move is the one that moved, or another as it was. -/
theorem local_move {t : Threads σ τ} {i j : Nat} {s : σ} {x y : τ}
    (h : (t.move i s x).locals[j]? = some y) :
    (j = i ∧ y = x) ∨ (j ≠ i ∧ t.locals[j]? = some y) := by
  rw [move, List.getElem?_set] at h
  split_ifs at h with hij hlt
  · exact .inl ⟨hij.symm, (Option.some.inj h).symm⟩
  · exact .inr ⟨Ne.symm hij, h⟩

/-- A thread behind a start is the new one, or another as it was. -/
theorem local_spawn {t : Threads σ τ} {j : Nat} {x y : τ} (h : (t.spawn x).locals[j]? = some y) :
    (j = t.locals.length ∧ y = x) ∨ t.locals[j]? = some y := by
  rw [spawn, List.getElem?_append] at h
  split_ifs at h with hlt
  · exact .inr h
  · rw [List.getElem?_singleton] at h
    split_ifs at h with hindex
    exact .inl ⟨by omega, (Option.some.inj h).symm⟩

theorem local_move_self {t : Threads σ τ} {i : Nat} {x : τ} (h : t.locals[i]? = some x) (s : σ)
    (y : τ) : (t.move i s y).locals[i]? = some y :=
  List.getElem?_set_self (List.getElem?_eq_some_iff.1 h).1

theorem local_move_of_ne {i j : Nat} (h : j ≠ i) (t : Threads σ τ) (s : σ) (x : τ) :
    (t.move i s x).locals[j]? = t.locals[j]? :=
  List.getElem?_set_ne h.symm

/-- What the moving thread had before, all threads have behind a move exactly when all had it and
the new local state has it. -/
theorem forall_move_iff {P : τ → Prop} {t : Threads σ τ} {i : Nat} {s : σ} {x x' : τ}
    (hx : t.locals[i]? = some x) (hold : P x) :
    (∀ y ∈ (t.move i s x').locals, P y) ↔ (∀ y ∈ t.locals, P y) ∧ P x' := by
  constructor
  · intro h
    have hnew : P x' := h x' (List.mem_of_getElem? (local_move_self hx s x'))
    refine ⟨fun y hy => ?_, hnew⟩
    obtain ⟨j, hj⟩ := List.mem_iff_getElem?.1 hy
    rcases eq_or_ne j i with rfl | hne
    · rw [hx] at hj
      exact Option.some.inj hj ▸ hold
    · rw [← local_move_of_ne hne t s x'] at hj
      exact h y (List.mem_of_getElem? hj)
  · rintro ⟨h, hnew⟩ y hy
    obtain ⟨j, hj⟩ := List.mem_iff_getElem?.1 hy
    rcases local_move hj with ⟨-, rfl⟩ | ⟨-, hkept⟩
    · exact hnew
    · exact h y (List.mem_of_getElem? hkept)

/-- A thread with what the moving thread had not is behind a move as it was. -/
theorem exists_move {P : τ → Prop} {t : Threads σ τ} {i : Nat} {s : σ} {x x' : τ}
    (hx : t.locals[i]? = some x) (hold : ¬ P x) (h : ∃ y ∈ t.locals, P y) :
    ∃ y ∈ (t.move i s x').locals, P y := by
  obtain ⟨y, hy, hp⟩ := h
  obtain ⟨j, hj⟩ := List.mem_iff_getElem?.1 hy
  have hne : j ≠ i := by
    rintro rfl
    rw [hx] at hj
    exact hold (Option.some.inj hj ▸ hp)
  rw [← local_move_of_ne hne t s x'] at hj
  exact ⟨y, List.mem_of_getElem? hj, hp⟩

/-- A move takes one thread out of a count, and puts it back with its new local state. -/
theorem countP_move {t : Threads σ τ} {i : Nat} {x : τ} (hx : t.locals[i]? = some x) (p : τ → Bool)
    (s : σ) (y : τ) :
    (t.move i s y).locals.countP p + (if p x then 1 else 0) =
      t.locals.countP p + (if p y then 1 else 0) := by
  obtain ⟨hlt, hget⟩ := List.getElem?_eq_some_iff.1 hx
  have hpos : (if p x then 1 else 0) ≤ t.locals.countP p := by
    by_cases hp : p x = true
    · rw [if_pos hp]
      exact List.countP_pos_iff.2 ⟨x, List.mem_of_getElem? hx, hp⟩
    · rw [if_neg hp]
      exact Nat.zero_le _
  rw [move, List.countP_set hlt, hget]
  omega

@[simp] theorem move_length (t : Threads σ τ) (i : Nat) (s : σ) (x : τ) :
    (t.move i s x).locals.length = t.locals.length := List.length_set

/-- The assertions hold, and any two threads are apart. -/
structure Sound (Local : σ → τ → Prop) (Apart : τ → τ → Prop) (t : Threads σ τ) : Prop where
  each : ∀ (i : Nat) (x : τ), t.locals[i]? = some x → Local t.shared x
  apart : ∀ (i j : Nat) (x y : τ), i ≠ j → t.locals[i]? = some x → t.locals[j]? = some y → Apart x y

variable {Local Local' : σ → τ → Prop} {Apart : τ → τ → Prop} {t : Threads σ τ}

/-- Assertions may be weakened. -/
theorem Sound.imp (h : t.Sound Local Apart) (hweaker : ∀ s x, Local s x → Local' s x) :
    t.Sound Local' Apart where
  each := fun i x hx => hweaker t.shared x (h.each i x hx)
  apart := h.apart

/-- **Noninterference.** A step of one thread that establishes its own assertion, and keeps those of
the others and apart from them, keeps all. -/
theorem Sound.move (h : t.Sound Local Apart) (hsymm : ∀ x y, Apart x y → Apart y x) {i : Nat}
    {x x' : τ} {s' : σ} (hx : t.locals[i]? = some x) (hown : Local s' x')
    (hothers : ∀ y ∈ t.locals, Local t.shared y → Apart x y → Local s' y ∧ Apart x' y) :
    (t.move i s' x').Sound Local Apart := by
  have hother : ∀ j y, j ≠ i → t.locals[j]? = some y → Local s' y ∧ Apart x' y := by
    intro j y hj hy
    exact hothers y (List.mem_of_getElem? hy) (h.each j y hy) (h.apart i j x y hj.symm hx hy)
  constructor
  · intro j y hy
    rcases local_move hy with ⟨-, rfl⟩ | ⟨hj, hold⟩
    · exact hown
    · exact (hother j y hj hold).1
  · intro j k y z hjk hy hz
    rcases local_move hy with ⟨rfl, rfl⟩ | ⟨hj, hyold⟩
    · rcases local_move hz with ⟨rfl, -⟩ | ⟨hk, hzold⟩
      · exact absurd rfl hjk
      · exact (hother k z hk hzold).2
    · rcases local_move hz with ⟨rfl, rfl⟩ | ⟨hk, hzold⟩
      · exact hsymm _ _ (hother j y hj hyold).2
      · exact h.apart j k y z hjk hyold hzold

/-- A new thread whose assertion holds and that is apart from all keeps all. -/
theorem Sound.spawn (h : t.Sound Local Apart) (hsymm : ∀ x y, Apart x y → Apart y x) {x : τ}
    (hown : Local t.shared x) (hothers : ∀ y ∈ t.locals, Apart x y) :
    (t.spawn x).Sound Local Apart := by
  have hother : ∀ j y, t.locals[j]? = some y → Apart x y := fun j y hy =>
    hothers y (List.mem_of_getElem? hy)
  constructor
  · intro j y hy
    rcases local_spawn hy with ⟨-, rfl⟩ | hold
    · exact hown
    · exact h.each j y hold
  · intro j k y z hjk hy hz
    rcases local_spawn hy with ⟨rfl, rfl⟩ | hyold
    · rcases local_spawn hz with ⟨rfl, -⟩ | hzold
      · exact absurd rfl hjk
      · exact hother k z hzold
    · rcases local_spawn hz with ⟨rfl, rfl⟩ | hzold
      · exact hsymm _ _ (hother j y hyold)
      · exact h.apart j k y z hjk hyold hzold

end Threads

end Ssgx.Support
