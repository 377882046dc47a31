import Mathlib.Data.List.Basic
import Ssgx.Support.Run

/-!
# Owners of a resource

A trace records what is done with resources: each is acquired, used and released. `ReleasedOnce`
says that every resource of the trace is acquired, then used some number of times, then released,
and that this is all.

An owner holds one resource, accesses it on request, and releases it when it is closed or at the end
of its life. A close may report a failure although the resource is released; the owner below then
believes that it still holds it. `releasedOnce_life_iff` says when the life of such an owner
releases its resource once: exactly when its first close, if there is one, reports success.
-/

set_option autoImplicit false

namespace Ssgx.Support

universe u

variable {ρ : Type u}

/-- An event in the life of a resource. -/
inductive ResourceEvent (ρ : Type u) where
  | acquire (r : ρ)
  | use (r : ρ)
  | release (r : ρ)
deriving DecidableEq

/-- The resource of an event. -/
def ResourceEvent.resource : ResourceEvent ρ → ρ
  | .acquire r => r
  | .use r => r
  | .release r => r

/-- The events of one resource. -/
def history [DecidableEq ρ] (r : ρ) (trace : List (ResourceEvent ρ)) : List (ResourceEvent ρ) :=
  trace.filter fun e => e.resource = r

/-- Every resource that is acquired is released once, at the end, and not used afterwards. -/
def ReleasedOnce [DecidableEq ρ] (trace : List (ResourceEvent ρ)) : Prop :=
  ∀ r, .acquire r ∈ trace →
    ∃ n, history r trace = .acquire r :: (List.replicate n (.use r) ++ [.release r])

/-- What is asked of an owner: an access that uses the resource a number of times, or a close, with
whether it reports success. -/
inductive OwnerOp where
  | access (uses : Nat)
  | close (reported : Bool)
deriving DecidableEq

/-- An owner: the resource it believes to hold, and what has been done. -/
structure Owner (ρ : Type u) where
  held : Option ρ
  trace : List (ResourceEvent ρ)

/-- One request. An owner that holds nothing does nothing. -/
def ownerStep (o : Owner ρ) : OwnerOp → Owner ρ
  | .access uses =>
      match o.held with
      | none => o
      | some r => { o with trace := o.trace ++ List.replicate uses (.use r) }
  | .close reported =>
      match o.held with
      | none => o
      | some r => ⟨if reported then none else some r, o.trace ++ [.release r]⟩

/-- The end of the owner's life. -/
def Owner.finish (o : Owner ρ) : List (ResourceEvent ρ) :=
  match o.held with
  | none => o.trace
  | some r => o.trace ++ [.release r]

/-- The first close, if there is one, reports success. -/
def FirstCloseReports : List OwnerOp → Prop
  | [] => True
  | .access _ :: ops => FirstCloseReports ops
  | .close reported :: _ => reported = true

/-- An owner that holds nothing has nothing more to do. -/
theorem runFrom_of_not_held {o : Owner ρ} (h : o.held = none) (ops : List OwnerOp) :
    runFrom ownerStep o ops = o := by
  induction ops with
  | nil => rfl
  | cons op ops ih =>
      have hstep : ownerStep o op = o := by
        cases op with
        | access uses => simp only [ownerStep, h]
        | close reported => simp only [ownerStep, h]
      simp only [runFrom]
      rw [hstep]
      exact ih

/-- An owner that holds a resource releases it again before the end of its life. -/
theorem finish_of_held {o : Owner ρ} {r : ρ} (h : o.held = some r) (ops : List OwnerOp) :
    ∃ rest, (runFrom ownerStep o ops).finish = o.trace ++ rest ∧ .release r ∈ rest := by
  induction ops generalizing o with
  | nil => exact ⟨[.release r], by simp only [runFrom, Owner.finish, h], List.mem_singleton.2 rfl⟩
  | cons op ops ih =>
      cases op with
      | access uses =>
          have hstep : ownerStep o (.access uses) =
              ⟨some r, o.trace ++ List.replicate uses (.use r)⟩ := by
            simp only [ownerStep, h]
          obtain ⟨rest, hrest, hmem⟩ :=
            ih (o := ⟨some r, o.trace ++ List.replicate uses (.use r)⟩) rfl
          refine ⟨List.replicate uses (.use r) ++ rest, ?_, List.mem_append_right _ hmem⟩
          simp only [runFrom]
          rw [hstep, hrest, List.append_assoc]
      | close reported =>
          cases reported with
          | true =>
              have hstep : ownerStep o (.close true) = ⟨none, o.trace ++ [.release r]⟩ := by
                simp only [ownerStep, h, if_true]
              refine ⟨[.release r], ?_, List.mem_singleton.2 rfl⟩
              simp only [runFrom]
              rw [hstep, runFrom_of_not_held rfl]
              rfl
          | false =>
              -- the owner still believes that it holds the resource
              have hstep : ownerStep o (.close false) = ⟨some r, o.trace ++ [.release r]⟩ := by
                simp only [ownerStep, h]
                rfl
              obtain ⟨rest, hrest, hmem⟩ := ih (o := ⟨some r, o.trace ++ [.release r]⟩) rfl
              refine ⟨[.release r] ++ rest, ?_, List.mem_append_right _ hmem⟩
              simp only [runFrom]
              rw [hstep, hrest, List.append_assoc]

section History

variable [DecidableEq ρ]

theorem releasedOnce_of_not_acquired {trace : List (ResourceEvent ρ)}
    (h : ∀ r, .acquire r ∉ trace) : ReleasedOnce trace := fun r hr => absurd hr (h r)

/-- A resource that is acquired and never released is not released once. -/
theorem not_releasedOnce_of_kept {r : ρ} {trace : List (ResourceEvent ρ)}
    (hacquire : .acquire r ∈ trace) (hkept : .release r ∉ trace) : ¬ ReleasedOnce trace := by
  intro h
  obtain ⟨n, hn⟩ := h r hacquire
  have hmem : .release r ∈ history r trace := by
    rw [hn]
    simp
  exact hkept (List.mem_of_mem_filter hmem)

/-- A resource that is released twice is not released once. -/
theorem not_releasedOnce_of_twice {r : ρ} (before after : List (ResourceEvent ρ))
    (hacquire : .acquire r ∈ before) (hafter : .release r ∈ after) :
    ¬ ReleasedOnce (before ++ (.release r :: after)) := by
  intro h
  obtain ⟨n, hn⟩ := h r (List.mem_append_left _ hacquire)
  -- count the releases on both sides of the history
  have hcount := congrArg (List.count (.release r)) hn
  have hone : List.count (ResourceEvent.release r)
      (.acquire r :: (List.replicate n (.use r) ++ [.release r])) = 1 := by
    simp [List.count_append, List.count_replicate]
  have htwo : 2 ≤ List.count (.release r) (history r (before ++ (.release r :: after))) := by
    rw [history, List.count_filter (by simp [ResourceEvent.resource]), List.count_append,
      List.count_cons_self]
    have hpos : 0 < List.count (.release r) after := List.count_pos_iff.2 hafter
    omega
  rw [hcount, hone] at htwo
  omega

/-- A history that is acquire, uses and release. -/
theorem releasedOnce_single (r : ρ) (n : Nat) :
    ReleasedOnce (.acquire r :: (List.replicate n (.use r) ++ [.release r])) := by
  intro r' hr'
  obtain rfl : r' = r := by
    simpa using hr'
  refine ⟨n, ?_⟩
  rw [history, List.filter_eq_self]
  intro e he
  rcases List.mem_cons.1 he with rfl | he
  · exact decide_eq_true rfl
  rcases List.mem_append.1 he with he | he
  · rw [List.eq_of_mem_replicate he]
    exact decide_eq_true rfl
  · rw [List.mem_singleton.1 he]
    exact decide_eq_true rfl

/-- An owner that has used its resource `n` times. -/
theorem releasedOnce_run_iff (r : ρ) (n : Nat) (ops : List OwnerOp) :
    ReleasedOnce (runFrom ownerStep
        ⟨some r, .acquire r :: List.replicate n (.use r)⟩ ops).finish ↔ FirstCloseReports ops := by
  induction ops generalizing n with
  | nil => exact iff_of_true (releasedOnce_single r n) trivial
  | cons op ops ih =>
      cases op with
      | access uses =>
          have hstep : ownerStep ⟨some r, .acquire r :: List.replicate n (.use r)⟩ (.access uses) =
              ⟨some r, .acquire r :: List.replicate (n + uses) (.use r)⟩ := by
            simp only [ownerStep, List.cons_append, List.replicate_append_replicate]
          simp only [runFrom]
          rw [hstep]
          exact ih (n + uses)
      | close reported =>
          cases reported with
          | true =>
              refine iff_of_true ?_ rfl
              simp only [runFrom, ownerStep, if_true]
              rw [runFrom_of_not_held rfl]
              exact releasedOnce_single r n
          | false =>
              refine iff_of_false ?_ Bool.false_ne_true
              have hstep : ownerStep ⟨some r, .acquire r :: List.replicate n (.use r)⟩
                  (.close false) =
                  ⟨some r, (.acquire r :: List.replicate n (.use r)) ++ [.release r]⟩ := rfl
              -- whatever comes next, the end of the life releases the resource again
              obtain ⟨rest, hrest, hmem⟩ := finish_of_held (o := ⟨some r,
                (.acquire r :: List.replicate n (.use r)) ++ [.release r]⟩) rfl ops
              simp only [runFrom]
              rw [hstep, hrest, List.append_assoc]
              exact not_releasedOnce_of_twice _ _ List.mem_cons_self hmem

/-- **When the life of an owner releases its resource once.** -/
theorem releasedOnce_life_iff (r : ρ) (ops : List OwnerOp) :
    ReleasedOnce (runFrom ownerStep ⟨some r, [.acquire r]⟩ ops).finish ↔ FirstCloseReports ops :=
  releasedOnce_run_iff r 0 ops

end History

end Ssgx.Support
