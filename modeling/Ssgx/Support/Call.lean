import Mathlib.Tactic.TypeStar

/-!
# Calls that change a world and may throw

A call reads and changes a world and ends in a value or in an exception. Unlike a transaction, the
world keeps every change made before the exception is raised. The monad below is the usual one;
what the developments over it use are the inversion rules: a sequence ends in a value exactly when
both parts do (`bind_ok_iff`), and it ends in an exception exactly when its first part does or its
second part does after a first part that ended in a value (`bind_error_iff`).

`Call.Moves` relates the worlds before and after a call, also one that throws; a transitive relation
that holds around every part holds around the whole (`moves_bind`).

`Call.Ensures` is the usual triple, with an assertion for the value and one for the exception.

`Call.atEnd` is a call in a scope of its own: what is done at the end of the scope comes behind the
call however that ends, and changes nothing of how it ends.

`Call.Settles` is for calls whose end does not depend on the world: it says when the call ends
normally and which world it leaves in either case.
-/

set_option autoImplicit false

namespace Ssgx.Support

universe u v

/-- A call over the world `σ` that ends in a value of `α` or in an exception of `ε`. -/
def Call (ε : Type u) (σ : Type v) (α : Type v) : Type (max u v) :=
  σ → Except ε α × σ

namespace Call

variable {ε : Type u} {σ α β : Type v}

/-- End normally. -/
def ret (a : α) : Call ε σ α := fun s => (.ok a, s)

/-- Throw. -/
def raise (e : ε) : Call ε σ α := fun s => (.error e, s)

/-- Throw if `p` holds. -/
def raiseIf (p : Prop) [Decidable p] (e : ε) : Call ε σ PUnit := fun s =>
  if p then (.error e, s) else (.ok ⟨⟩, s)

/-- Run `f` on the value of `x`; an exception of `x` ends the sequence. -/
def andThen (x : Call ε σ α) (f : α → Call ε σ β) : Call ε σ β := fun s =>
  match x s with
  | (.ok a, s') => f a s'
  | (.error e, s') => (.error e, s')

instance : Monad (Call ε σ) where
  pure := ret
  bind := andThen

/-- The world. -/
def read : Call ε σ σ := fun s => (.ok s, s)

/-- Change the world. -/
def update (f : σ → σ) : Call ε σ PUnit := fun s => (.ok ⟨⟩, f s)

/-- Catch every exception: `none` where `x` throws. The changes made before the exception stay. -/
def attempt (x : Call ε σ α) : Call ε σ (Option α) := fun s =>
  match x s with
  | (.ok a, s') => (.ok (some a), s')
  | (.error _, s') => (.ok none, s')

@[simp] theorem pure_apply (a : α) (s : σ) : (pure a : Call ε σ α) s = (.ok a, s) := rfl

@[simp] theorem raise_apply (e : ε) (s : σ) : (raise e : Call ε σ α) s = (.error e, s) := rfl

@[simp] theorem read_apply (s : σ) : (read : Call ε σ σ) s = (.ok s, s) := rfl

@[simp] theorem update_apply (f : σ → σ) (s : σ) :
    (update f : Call ε σ PUnit) s = (.ok ⟨⟩, f s) := rfl

theorem bind_apply (x : Call ε σ α) (f : α → Call ε σ β) (s : σ) :
    (x >>= f) s =
      match x s with
      | (.ok a, s') => f a s'
      | (.error e, s') => (.error e, s') := rfl

@[simp] theorem read_bind_apply (f : σ → Call ε σ α) (s : σ) :
    (read >>= f) s = f s s := rfl

@[simp] theorem update_bind_apply (g : σ → σ) (f : PUnit → Call ε σ α) (s : σ) :
    (update g >>= f) s = f ⟨⟩ (g s) := rfl

@[simp] theorem pure_bind_apply (a : α) (f : α → Call ε σ β) (s : σ) :
    (pure a >>= f) s = f a s := rfl

/-- Sequences associate. -/
theorem bind_assoc {γ : Type v} (x : Call ε σ α) (f : α → Call ε σ β) (g : β → Call ε σ γ) :
    x >>= f >>= g = x >>= fun a => f a >>= g := by
  funext s
  rw [bind_apply, bind_apply, bind_apply]
  rcases x s with ⟨r, s'⟩
  cases r with
  | ok a => rfl
  | error e => rfl

theorem bind_of_ok {x : Call ε σ α} {f : α → Call ε σ β} {s s' : σ} {a : α}
    (h : x s = (.ok a, s')) : (x >>= f) s = f a s' := by
  rw [bind_apply, h]

theorem bind_of_error {x : Call ε σ α} {f : α → Call ε σ β} {s s' : σ} {e : ε}
    (h : x s = (.error e, s')) : (x >>= f) s = (.error e, s') := by
  rw [bind_apply, h]

/-- The second part takes the value of the first. -/
theorem bind_fst_of_ok {x : Call ε σ α} {f : α → Call ε σ β} {s : σ} {a : α}
    (h : (x s).1 = .ok a) : ((x >>= f) s).1 = (f a (x s).2).1 := by
  rw [bind_of_ok (Prod.ext h rfl)]

/-- A sequence ends in a value exactly when both of its parts do. -/
theorem bind_ok_iff {x : Call ε σ α} {f : α → Call ε σ β} {s t : σ} {b : β} :
    (x >>= f) s = (.ok b, t) ↔ ∃ a s', x s = (.ok a, s') ∧ f a s' = (.ok b, t) := by
  rw [bind_apply]
  rcases x s with ⟨r, s'⟩
  cases r with
  | ok a => simp [and_assoc]
  | error e => simp

/-- A sequence throws exactly when its first part throws, or ends in a value from which the second
part throws. -/
theorem bind_error_iff {x : Call ε σ α} {f : α → Call ε σ β} {s t : σ} {e : ε} :
    (x >>= f) s = (.error e, t) ↔
      x s = (.error e, t) ∨ ∃ a s', x s = (.ok a, s') ∧ f a s' = (.error e, t) := by
  rw [bind_apply]
  rcases x s with ⟨r, s'⟩
  cases r with
  | ok a => simp [and_assoc]
  | error e' => simp

/-- A call that is followed by a fixed value. -/
theorem bind_pure_apply (x : Call ε σ α) (b : β) (s : σ) :
    (x >>= fun _ => pure b) s = ((x s).1.map fun _ => b, (x s).2) := by
  rw [bind_apply]
  rcases x s with ⟨r, s'⟩
  cases r with
  | ok a => rfl
  | error e => rfl

theorem raiseIf_of {p : Prop} [Decidable p] (h : p) (e : ε) (s : σ) :
    (raiseIf p e : Call ε σ PUnit) s = (.error e, s) := if_pos h

theorem raiseIf_of_not {p : Prop} [Decidable p] (h : ¬ p) (e : ε) (s : σ) :
    (raiseIf p e : Call ε σ PUnit) s = (.ok ⟨⟩, s) := if_neg h

theorem raiseIf_ok_iff {p : Prop} [Decidable p] {e : ε} {s t : σ} {u : PUnit} :
    (raiseIf p e : Call ε σ PUnit) s = (.ok u, t) ↔ ¬ p ∧ t = s := by
  by_cases hp : p
  · rw [raiseIf_of hp]
    simp [hp]
  · rw [raiseIf_of_not hp]
    simp [hp, eq_comm]

theorem raiseIf_error_iff {p : Prop} [Decidable p] {e e' : ε} {s t : σ} :
    (raiseIf p e : Call ε σ PUnit) s = (.error e', t) ↔ p ∧ e' = e ∧ t = s := by
  by_cases hp : p
  · rw [raiseIf_of hp]
    simp [hp, eq_comm]
  · rw [raiseIf_of_not hp]
    simp [hp]

/-- A sequence behind a check ends in a value exactly when the check passes and the rest does. -/
theorem raiseIf_bind_ok_iff {p : Prop} [Decidable p] {e : ε} {f : PUnit → Call ε σ β} {s t : σ}
    {b : β} : (raiseIf p e >>= f) s = (.ok b, t) ↔ ¬ p ∧ f ⟨⟩ s = (.ok b, t) := by
  by_cases hp : p
  · rw [bind_of_error (raiseIf_of hp e s)]
    simp [hp]
  · rw [bind_of_ok (raiseIf_of_not hp e s)]
    simp [hp]

/-- A sequence behind a check throws exactly when the check does or the rest does after it. -/
theorem raiseIf_bind_error_iff {p : Prop} [Decidable p] {e e' : ε} {f : PUnit → Call ε σ β}
    {s t : σ} : (raiseIf p e >>= f) s = (.error e', t) ↔
      (p ∧ e' = e ∧ t = s) ∨ (¬ p ∧ f ⟨⟩ s = (.error e', t)) := by
  by_cases hp : p
  · rw [bind_of_error (raiseIf_of hp e s)]
    simp [hp, eq_comm]
  · rw [bind_of_ok (raiseIf_of_not hp e s)]
    simp [hp]

theorem attempt_apply (x : Call ε σ α) (s : σ) :
    attempt x s =
      match x s with
      | (.ok a, s') => (.ok (some a), s')
      | (.error _, s') => (.ok none, s') := rfl

/-- Catching never throws, and gives a value exactly where the call does. -/
theorem attempt_ok_some_iff {x : Call ε σ α} {s t : σ} {a : α} :
    attempt x s = (.ok (some a), t) ↔ x s = (.ok a, t) := by
  rw [attempt_apply]
  rcases x s with ⟨r, s'⟩
  cases r with
  | ok b => simp
  | error e => simp

/-! ## Worlds related by a call -/

/-- Every run of the call, normal or exceptional, relates the world before to the world after. -/
def Moves (r : σ → σ → Prop) (x : Call ε σ α) : Prop := ∀ s, r s (x s).2

theorem moves_pure {r : σ → σ → Prop} (hr : ∀ s, r s s) (a : α) :
    Moves r (pure a : Call ε σ α) := fun s => hr s

theorem moves_raiseIf {r : σ → σ → Prop} (hr : ∀ s, r s s) (p : Prop) [Decidable p] (e : ε) :
    Moves r (raiseIf p e : Call ε σ PUnit) := by
  intro s
  simp only [raiseIf]
  split <;> exact hr s

/-- **The sequence rule.** A transitive relation that relates the worlds around both parts relates
the worlds around the sequence. -/
theorem moves_bind {r : σ → σ → Prop} (ht : ∀ a b c, r a b → r b c → r a c)
    {x : Call ε σ α} {f : α → Call ε σ β} (hx : Moves r x) (hf : ∀ a, Moves r (f a)) :
    Moves r (x >>= f) := by
  intro s
  have h := hx s
  rw [bind_apply]
  rcases hxs : x s with ⟨res, s'⟩
  rw [hxs] at h
  cases res with
  | ok a => exact ht _ _ _ h (hf a s')
  -- an exception skips the second part
  | error e => exact h

theorem moves_attempt {r : σ → σ → Prop} {x : Call ε σ α} (hx : Moves r x) :
    Moves r (attempt x) := by
  intro s
  have h := hx s
  rw [attempt_apply]
  rcases hxs : x s with ⟨res, s'⟩
  rw [hxs] at h
  cases res with
  | ok a => exact h
  | error e => exact h

/-! ## Triples -/

/-- From worlds with `P`, a value comes with `Q` and an exception with `E`. -/
def Ensures (P : σ → Prop) (x : Call ε σ α) (Q : α → σ → Prop) (E : σ → Prop) : Prop :=
  ∀ s, P s →
    match x s with
    | (.ok a, s') => Q a s'
    | (.error _, s') => E s'

section Ensures

variable {P P' : σ → Prop} {E : σ → Prop} {Q Q' : α → σ → Prop} {R : β → σ → Prop}

theorem Ensures.imp {x : Call ε σ α} (h : Ensures P x Q E) (hP : ∀ s, P' s → P s)
    (hQ : ∀ a s, Q a s → Q' a s) : Ensures P' x Q' E := by
  intro s hs
  have hx := h s (hP s hs)
  rcases hxs : x s with ⟨r, s'⟩
  rw [hxs] at hx
  cases r with
  | ok a => exact hQ a s' hx
  | error e => exact hx

theorem ensures_pure {a : α} (h : ∀ s, P s → Q a s) : Ensures P (pure a : Call ε σ α) Q E := h

theorem ensures_raise (h : ∀ s, P s → E s) (e : ε) : Ensures P (raise e : Call ε σ α) Q E := h

/-- **The sequence rule for triples.** The value of the first part carries its assertion to the
second. -/
theorem ensures_bind {x : Call ε σ α} {f : α → Call ε σ β} (hx : Ensures P x Q E)
    (hf : ∀ a, Ensures (Q a) (f a) R E) : Ensures P (x >>= f) R E := by
  intro s hs
  have h := hx s hs
  rw [bind_apply]
  rcases hxs : x s with ⟨r, s'⟩
  rw [hxs] at h
  cases r with
  | ok a => exact hf a s' h
  | error e => exact h

/-- A check needs only that its exception may come with what holds before it. -/
theorem ensures_check {p : Prop} [Decidable p] {e : ε} {f : PUnit → Call ε σ β}
    (hraise : ∀ s, P s → E s) (hf : Ensures P (f ⟨⟩) R E) :
    Ensures P (raiseIf p e >>= f) R E := by
  intro s hs
  by_cases h : p
  · rw [bind_of_error (raiseIf_of h e s)]
    exact hraise s hs
  · rw [bind_of_ok (raiseIf_of_not h e s)]
    exact hf s hs

theorem ensures_check_of_not {p : Prop} [Decidable p] (h : ¬ p) {e : ε} {f : PUnit → Call ε σ β}
    (hf : Ensures P (f ⟨⟩) R E) : Ensures P (raiseIf p e >>= f) R E := by
  intro s hs
  rw [bind_of_ok (raiseIf_of_not h e s)]
  exact hf s hs

theorem ensures_ite {p : Prop} [Decidable p] {x y : Call ε σ α} (hx : p → Ensures P x Q E)
    (hy : ¬ p → Ensures P y Q E) : Ensures P (if p then x else y) Q E := by
  by_cases h : p
  · rw [if_pos h]
    exact hx h
  · rw [if_neg h]
    exact hy h

/-- A triple says what the world is behind the call, however it ends. -/
theorem Ensures.world {x : Call ε σ α} {S : σ → Prop} (h : Ensures P x (fun _ s => S s) S) {s : σ}
    (hs : P s) : S (x s).2 := by
  have hx := h s hs
  rcases hxs : x s with ⟨r, s'⟩
  rw [hxs] at hx
  cases r with
  | ok a => exact hx
  | error e => exact hx

end Ensures

/-! ## The end of a scope -/

/-- At the end of the call's scope the world changes once more, by how the call has ended. -/
def atEnd (x : Call ε σ α) (f : Except ε α → σ → σ) : Call ε σ α := fun s =>
  ((x s).1, f (x s).1 (x s).2)

@[simp] theorem atEnd_fst (x : Call ε σ α) (f : Except ε α → σ → σ) (s : σ) :
    (atEnd x f s).1 = (x s).1 := rfl

@[simp] theorem atEnd_snd (x : Call ε σ α) (f : Except ε α → σ → σ) (s : σ) :
    (atEnd x f s).2 = f (x s).1 (x s).2 := rfl

/-! ## Calls whose end does not depend on the world -/

/-- From every world the call ends in this way. -/
def EndsIn (x : Call ε σ α) (r : Except ε α) : Prop := ∀ s, (x s).1 = r

theorem endsIn_pure (a : α) : EndsIn (pure a : Call ε σ α) (.ok a) := fun _ => rfl

theorem endsIn_raise (e : ε) : EndsIn (raise e : Call ε σ α) (.error e) := fun _ => rfl

theorem endsIn_update (f : σ → σ) : EndsIn (update f : Call ε σ PUnit) (.ok ⟨⟩) := fun _ => rfl

/-- A first part that ends in a value hands the end on to the second part. -/
theorem endsIn_bind {x : Call ε σ α} {f : α → Call ε σ β} {a : α} {r : Except ε β}
    (hx : EndsIn x (.ok a)) (hf : EndsIn (f a) r) : EndsIn (x >>= f) r := by
  intro s
  have h := hx s
  rw [bind_apply]
  rcases hxs : x s with ⟨res, s'⟩
  rw [hxs] at h
  cases h
  exact hf s'

theorem EndsIn.ok {x : Call ε σ α} {a : α} (h : EndsIn x (.ok a)) (s : σ) :
    x s = (.ok a, (x s).2) := Prod.ext (h s) rfl

theorem endsIn_bind_error {x : Call ε σ α} {f : α → Call ε σ β} {e : ε}
    (hx : EndsIn x (.error e)) : EndsIn (x >>= f) (.error e) := by
  intro s
  have h := hx s
  rw [bind_apply]
  rcases hxs : x s with ⟨res, s'⟩
  rw [hxs] at h
  cases h
  rfl

theorem endsIn_ite {p : Prop} [Decidable p] {x y : Call ε σ α} {r r' : Except ε α}
    (hx : EndsIn x r) (hy : EndsIn y r') :
    EndsIn (if p then x else y) (if p then r else r') := by
  by_cases h : p
  · rw [if_pos h, if_pos h]
    exact hx
  · rw [if_neg h, if_neg h]
    exact hy

/-- A sequence behind a check. -/
theorem endsIn_check {p : Prop} [Decidable p] {e : ε} {f : PUnit → Call ε σ β} {r : Except ε β}
    (hf : EndsIn (f ⟨⟩) r) : EndsIn (raiseIf p e >>= f) (if p then .error e else r) := by
  by_cases h : p
  · rw [if_pos h]
    exact endsIn_bind_error fun s => congrArg Prod.fst (raiseIf_of h e s)
  · rw [if_neg h]
    exact endsIn_bind (fun s => congrArg Prod.fst (raiseIf_of_not h e s)) hf

/-- The call ends normally exactly when `p` holds, and leaves `f s` in either case. -/
def Settles (x : Call ε σ PUnit) (p : Prop) (f : σ → σ) : Prop :=
  ∀ s, (x s).2 = f s ∧ ((x s).1 = .ok ⟨⟩ ↔ p)

theorem Settles.congr {x : Call ε σ PUnit} {p : Prop} {f g : σ → σ} (hx : Settles x p f)
    (hfg : ∀ s, f s = g s) : Settles x p g := by
  intro s
  rw [← hfg s]
  exact hx s

/-- **The sequence rule for calls that settle.** The second part runs only where the first one ends
normally. -/
theorem settles_bind {x : Call ε σ PUnit} {y : PUnit → Call ε σ PUnit} {p q : Prop} [Decidable p]
    {f g : σ → σ} (hx : Settles x p f) (hy : ∀ u, Settles (y u) q g) :
    Settles (x >>= y) (p ∧ q) fun s => if p then g (f s) else f s := by
  intro s
  obtain ⟨hworld, hend⟩ := hx s
  rcases hxs : x s with ⟨res, s'⟩
  rw [hxs] at hworld hend
  subst hworld
  cases res with
  | ok u =>
      have hp : p := hend.1 rfl
      have hrest := hy u (f s)
      rw [bind_of_ok hxs]
      refine ⟨hrest.1.trans (if_pos hp).symm, hrest.2.trans ?_⟩
      simp [hp]
  | error e =>
      have hp : ¬ p := fun h => absurd (hend.2 h) (by simp)
      rw [bind_of_error hxs]
      exact ⟨(if_neg hp).symm, by simp [hp]⟩

end Call

end Ssgx.Support
