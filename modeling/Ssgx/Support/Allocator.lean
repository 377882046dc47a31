import Ssgx.Support.Resource

/-!
# Heaps that use addresses again

An allocator makes objects at addresses; an address may be used again when its object was freed. The
objects are numbered in the order in which they are made, and what is done at an address is done to
the object that was made there last, alive or not. `Allocator.Sound` says that nothing was done to
an object after it was freed; every operation at the address of an object that is alive keeps it.
-/

set_option autoImplicit false

namespace Ssgx.Support

/-! ## Uses after a release -/

/-- No resource is used after it was released. -/
def NeverUsedAfter (trace : List (ResourceEvent Nat)) : Prop :=
  ∀ before after r, trace = before ++ .release r :: after → .use r ∉ after

theorem history_append (r : Nat) (front back : List (ResourceEvent Nat)) :
    history r (front ++ back) = history r front ++ history r back := List.filter_append ..

theorem history_cons_self (e : ResourceEvent Nat) (trace : List (ResourceEvent Nat)) :
    history e.resource (e :: trace) = e :: history e.resource trace :=
  List.filter_cons_of_pos (decide_eq_true rfl)

theorem history_snoc_self (trace : List (ResourceEvent Nat)) (e : ResourceEvent Nat) :
    history e.resource (trace ++ [e]) = history e.resource trace ++ [e] := by
  rw [history_append, history_cons_self]
  rfl

theorem history_snoc_other (trace : List (ResourceEvent Nat)) {e : ResourceEvent Nat} {r : Nat}
    (h : e.resource ≠ r) : history r (trace ++ [e]) = history r trace := by
  rw [history_append, history, history, List.filter_cons_of_neg (by simpa using h),
    List.filter_nil, List.append_nil]

/-- The history of a resource that was acquired and used. -/
def acquiredUsed (r n : Nat) : List (ResourceEvent Nat) := .acquire r :: List.replicate n (.use r)

theorem release_not_mem_acquiredUsed (r n : Nat) : .release r ∉ acquiredUsed r n := by
  simp [acquiredUsed]

/-- Nothing stands behind the release that ends a history. -/
theorem eq_nil_of_acquiredUsed {r n : Nat} {front back : List (ResourceEvent Nat)}
    (h : front ++ .release r :: back = acquiredUsed r n ++ [.release r]) : back = [] := by
  rcases List.eq_nil_or_concat back with hnil | ⟨init, last, rfl⟩
  · exact hnil
  · rw [List.concat_eq_append, ← List.cons_append, ← List.append_assoc] at h
    have hfront := (List.append_inj' h rfl).1
    exact absurd (hfront ▸ List.mem_append_right _ List.mem_cons_self)
      (release_not_mem_acquiredUsed r n)

/-- Where every resource is acquired and used, and then perhaps released, none is used after its
release. -/
theorem neverUsedAfter_of_history {trace : List (ResourceEvent Nat)}
    (h : ∀ r, .release r ∈ trace →
      ∃ n, history r trace = acquiredUsed r n ++ [.release r]) : NeverUsedAfter trace := by
  rintro before after r rfl huse
  obtain ⟨n, hn⟩ := h r (List.mem_append_right _ List.mem_cons_self)
  have hsplit : history r (before ++ .release r :: after) =
      history r before ++ .release r :: history r after := by
    rw [history_append]
    exact congrArg _ (history_cons_self (.release r) after)
  rw [hsplit] at hn
  have hafter : .use r ∈ history r after := List.mem_filter.2 ⟨huse, decide_eq_true rfl⟩
  rw [eq_nil_of_acquiredUsed hn] at hafter
  exact absurd hafter List.not_mem_nil

/-! ## The allocator -/

/-- At each address the number of the object that was made there last, and whether it is alive; how
many objects were made; and what was done to them. -/
structure Allocator where
  objects : Nat → Option (Nat × Bool)
  made : Nat
  trace : List (ResourceEvent Nat)

namespace Allocator

/-- Nothing was made yet. -/
def empty : Allocator := ⟨fun _ => none, 0, []⟩

/-- An object is made at an address. -/
def allocate (s : Allocator) (a : Nat) : Allocator where
  objects := Function.update s.objects a (some (s.made, true))
  made := s.made + 1
  trace := s.trace ++ [.acquire s.made]

/-- The object at an address is freed, be it alive or not. -/
def free (s : Allocator) (a : Nat) : Allocator :=
  match s.objects a with
  | none => s
  | some (r, _) =>
      { s with
        objects := Function.update s.objects a (some (r, false))
        trace := s.trace ++ [.release r] }

/-- The object at an address is used, be it alive or not. -/
def use (s : Allocator) (a : Nat) : Allocator :=
  match s.objects a with
  | none => s
  | some (r, _) => { s with trace := s.trace ++ [.use r] }

/-- There is an object at the address that was not freed. -/
def Alive (s : Allocator) (a : Nat) : Prop := ∃ r, s.objects a = some (r, true)

/-- Every object has its own address, and was used only while it was alive. -/
structure Sound (s : Allocator) : Prop where
  numbered : ∀ a r b, s.objects a = some (r, b) → r < s.made
  apart : ∀ a a' r b b', s.objects a = some (r, b) → s.objects a' = some (r, b') → a = a'
  alive : ∀ a r, s.objects a = some (r, true) → ∃ n, history r s.trace = acquiredUsed r n
  freed : ∀ r < s.made, (∃ a, s.objects a = some (r, true)) ∨
    ∃ n, history r s.trace = acquiredUsed r n ++ [.release r]
  beyond : ∀ r, s.made ≤ r → history r s.trace = []

variable {s : Allocator} {a : Nat}

/-! ### Who is alive -/

theorem alive_allocate_iff (s : Allocator) (a a' : Nat) :
    (s.allocate a).Alive a' ↔ a' = a ∨ s.Alive a' := by
  simp only [Alive, allocate]
  by_cases h : a' = a
  · subst h
    exact iff_of_true ⟨s.made, Function.update_self ..⟩ (.inl rfl)
  · rw [or_iff_right h]
    simp only [Function.update_of_ne h]

theorem alive_free_iff (s : Allocator) (a a' : Nat) :
    (s.free a).Alive a' ↔ a' ≠ a ∧ s.Alive a' := by
  simp only [Alive, free]
  cases hobject : s.objects a with
  | none =>
      refine ⟨fun h => ⟨?_, h⟩, fun h => h.2⟩
      rintro rfl
      obtain ⟨r, hr⟩ := h
      rw [hobject] at hr
      cases hr
  | some object =>
      obtain ⟨r, b⟩ := object
      dsimp only
      by_cases h : a' = a
      · subst h
        refine iff_of_false ?_ fun h => h.1 rfl
        rintro ⟨r', hr'⟩
        rw [Function.update_self] at hr'
        cases hr'
      · rw [and_iff_right h]
        simp only [Function.update_of_ne h]

theorem alive_use_iff (s : Allocator) (a a' : Nat) : (s.use a).Alive a' ↔ s.Alive a' := by
  simp only [Alive, use]
  cases s.objects a with
  | none => exact Iff.rfl
  | some object => exact Iff.rfl

/-! ### Operations on what is alive -/

theorem sound_empty : empty.Sound where
  numbered := fun _ _ _ h => by cases h
  apart := fun _ _ _ _ _ h => by cases h
  alive := fun _ _ h => by cases h
  freed := fun _ h => absurd h (Nat.not_lt_zero _)
  beyond := fun _ _ => rfl

/-- An object is made where none is alive. -/
theorem Sound.allocate (h : s.Sound) (hfree : ¬ s.Alive a) : (s.allocate a).Sound := by
  have hnew : history s.made (s.trace ++ [.acquire s.made]) = [.acquire s.made] := by
    have hsnoc : history s.made (s.trace ++ [.acquire s.made]) =
        history s.made s.trace ++ [.acquire s.made] :=
      history_snoc_self s.trace (.acquire s.made)
    rw [hsnoc, h.beyond s.made (Nat.le_refl _), List.nil_append]
  have hother {r : Nat} (hne : r ≠ s.made) :
      history r (s.trace ++ [.acquire s.made]) = history r s.trace :=
    history_snoc_other _ hne.symm
  -- what stands at an address is the new object, or stood there before
  have hcases {a' r : Nat} {b : Bool} (hr : (s.allocate a).objects a' = some (r, b)) :
      (a' = a ∧ r = s.made ∧ b = true) ∨ (a' ≠ a ∧ s.objects a' = some (r, b)) := by
    by_cases ha : a' = a
    · subst ha
      rw [Allocator.allocate] at hr
      dsimp only at hr
      rw [Function.update_self] at hr
      cases hr
      exact .inl ⟨rfl, rfl, rfl⟩
    · refine .inr ⟨ha, ?_⟩
      rw [← hr]
      exact (Function.update_of_ne ha ..).symm
  constructor
  · intro a' r b hr
    rcases hcases hr with ⟨-, rfl, -⟩ | ⟨-, hold⟩
    · exact Nat.lt_succ_self _
    · exact Nat.lt_succ_of_lt (h.numbered a' r b hold)
  · intro a₁ a₂ r b₁ b₂ hr₁ hr₂
    rcases hcases hr₁ with ⟨rfl, hr, -⟩ | ⟨-, hold₁⟩
    · rcases hcases hr₂ with ⟨rfl, -, -⟩ | ⟨-, hold₂⟩
      · rfl
      · exact absurd (h.numbered a₂ r b₂ hold₂) (by omega)
    · rcases hcases hr₂ with ⟨-, rfl, -⟩ | ⟨-, hold₂⟩
      · exact absurd (h.numbered a₁ s.made b₁ hold₁) (Nat.lt_irrefl _)
      · exact h.apart a₁ a₂ r b₁ b₂ hold₁ hold₂
  · intro a' r hr
    rcases hcases hr with ⟨-, rfl, -⟩ | ⟨-, hold⟩
    · exact ⟨0, hnew⟩
    · obtain ⟨n, hn⟩ := h.alive a' r hold
      exact ⟨n, (hother (Nat.ne_of_lt (h.numbered a' r true hold))).trans hn⟩
  · intro r hlt
    rcases Nat.lt_succ_iff_lt_or_eq.1 hlt with hlt | rfl
    · rcases h.freed r hlt with ⟨a', hr⟩ | ⟨n, hn⟩
      · have hne : a' ≠ a := by
          rintro rfl
          exact hfree ⟨r, hr⟩
        exact .inl ⟨a', (Function.update_of_ne hne ..).trans hr⟩
      · exact .inr ⟨n, (hother (Nat.ne_of_lt hlt)).trans hn⟩
    · exact .inl ⟨a, Function.update_self ..⟩
  · intro r hge
    have hge' : s.made < r := hge
    exact (hother (Nat.ne_of_gt hge')).trans (h.beyond r (Nat.le_of_lt hge'))

/-- An object that is alive is used. -/
theorem Sound.use (h : s.Sound) (halive : s.Alive a) : (s.use a).Sound := by
  obtain ⟨r, hr⟩ := halive
  have huse : s.use a = { s with trace := s.trace ++ [.use r] } := by
    simp only [Allocator.use, hr]
  have hself : history r (s.trace ++ [.use r]) = history r s.trace ++ [.use r] :=
    history_snoc_self s.trace (.use r)
  have hother {r' : Nat} (hne : r' ≠ r) :
      history r' (s.trace ++ [.use r]) = history r' s.trace := history_snoc_other _ hne.symm
  rw [huse]
  constructor
  · exact h.numbered
  · exact h.apart
  · intro a' r' hr'
    obtain ⟨n, hn⟩ := h.alive a' r' hr'
    by_cases heq : r' = r
    · subst heq
      refine ⟨n + 1, hself.trans ?_⟩
      rw [hn, acquiredUsed, acquiredUsed, List.cons_append, ← List.replicate_succ']
    · exact ⟨n, (hother heq).trans hn⟩
  · intro r' hlt
    by_cases heq : r' = r
    · exact .inl ⟨a, heq ▸ hr⟩
    · dsimp only
      rw [hother heq]
      exact h.freed r' hlt
  · intro r' hge
    have hne : r' ≠ r := by
      rintro rfl
      exact absurd (h.numbered a r' true hr) (Nat.not_lt.2 hge)
    exact (hother hne).trans (h.beyond r' hge)

/-- An object that is alive is freed. -/
theorem Sound.free (h : s.Sound) (halive : s.Alive a) : (s.free a).Sound := by
  obtain ⟨r, hr⟩ := halive
  have hfree : s.free a = { s with
      objects := Function.update s.objects a (some (r, false))
      trace := s.trace ++ [.release r] } := by
    simp only [Allocator.free, hr]
  have hself : history r (s.trace ++ [.release r]) = history r s.trace ++ [.release r] :=
    history_snoc_self s.trace (.release r)
  have hother {r' : Nat} (hne : r' ≠ r) :
      history r' (s.trace ++ [.release r]) = history r' s.trace := history_snoc_other _ hne.symm
  -- what stands at an address stood there before, and only the freed object is no longer alive
  have hcases {a' r' : Nat} {b : Bool}
      (hr' : Function.update s.objects a (some (r, false)) a' = some (r', b)) :
      (a' = a ∧ r' = r ∧ b = false) ∨ (a' ≠ a ∧ s.objects a' = some (r', b)) := by
    by_cases ha : a' = a
    · subst ha
      rw [Function.update_self] at hr'
      cases hr'
      exact .inl ⟨rfl, rfl, rfl⟩
    · rw [Function.update_of_ne ha] at hr'
      exact .inr ⟨ha, hr'⟩
  rw [hfree]
  constructor
  · intro a' r' b hr'
    rcases hcases hr' with ⟨-, rfl, -⟩ | ⟨-, hold⟩
    · exact h.numbered a r' true hr
    · exact h.numbered a' r' b hold
  · intro a₁ a₂ r' b₁ b₂ hr₁ hr₂
    rcases hcases hr₁ with ⟨rfl, rfl, -⟩ | ⟨-, hold₁⟩
    · rcases hcases hr₂ with ⟨rfl, -, -⟩ | ⟨-, hold₂⟩
      · rfl
      · exact h.apart _ _ _ _ _ hr hold₂
    · rcases hcases hr₂ with ⟨rfl, rfl, -⟩ | ⟨-, hold₂⟩
      · exact h.apart _ _ _ _ _ hold₁ hr
      · exact h.apart _ _ _ _ _ hold₁ hold₂
  · intro a' r' hr'
    rcases hcases hr' with ⟨-, -, hdead⟩ | ⟨hne, hold⟩
    · cases hdead
    · have hner : r' ≠ r := by
        rintro rfl
        exact hne (h.apart _ _ _ _ _ hold hr)
      obtain ⟨n, hn⟩ := h.alive a' r' hold
      exact ⟨n, (hother hner).trans hn⟩
  · intro r' hlt
    by_cases heq : r' = r
    · subst heq
      obtain ⟨n, hn⟩ := h.alive a r' hr
      exact .inr ⟨n, hself.trans (by rw [hn])⟩
    · rcases h.freed r' hlt with ⟨a', hr'⟩ | ⟨n, hn⟩
      · have hne : a' ≠ a := by
          rintro rfl
          rw [hr] at hr'
          cases hr'
          exact heq rfl
        exact .inl ⟨a', (Function.update_of_ne hne ..).trans hr'⟩
      · exact .inr ⟨n, (hother heq).trans hn⟩
  · intro r' hge
    have hne : r' ≠ r := by
      rintro rfl
      exact absurd (h.numbered a r' true hr) (Nat.not_lt.2 hge)
    exact (hother hne).trans (h.beyond r' hge)

/-! ### What a sound trace says -/

/-- What has an event was made. -/
theorem Sound.lt_made (h : s.Sound) {e : ResourceEvent Nat} (he : e ∈ s.trace) :
    e.resource < s.made := by
  by_contra hge
  have hmem : e ∈ history e.resource s.trace := List.mem_filter.2 ⟨he, decide_eq_true rfl⟩
  rw [h.beyond _ (Nat.not_lt.1 hge)] at hmem
  cases hmem

/-- **Nothing is used after it was freed.** -/
theorem Sound.neverUsedAfter (h : s.Sound) : NeverUsedAfter s.trace := by
  refine neverUsedAfter_of_history fun r hr => ?_
  rcases h.freed r (h.lt_made hr) with ⟨a, ha⟩ | hn
  · obtain ⟨n, hn⟩ := h.alive a r ha
    have hmem : .release r ∈ history r s.trace := List.mem_filter.2 ⟨hr, decide_eq_true rfl⟩
    rw [hn] at hmem
    exact absurd hmem (release_not_mem_acquiredUsed r n)
  · exact hn

/-- **Where nothing is alive, everything that was made was freed once.** -/
theorem Sound.releasedOnce (h : s.Sound) (hnone : ∀ a, ¬ s.Alive a) : ReleasedOnce s.trace := by
  intro r hr
  rcases h.freed r (h.lt_made hr) with ⟨a, ha⟩ | ⟨n, hn⟩
  · exact absurd ⟨r, ha⟩ (hnone a)
  · refine ⟨n, hn.trans ?_⟩
    rw [acquiredUsed, List.cons_append]

end Allocator

end Ssgx.Support
