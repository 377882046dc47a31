import Mathlib.Data.List.Nodup
import Mathlib.Tactic.SplitIfs
import Ssgx.Support.Run

/-!
# Maps whose keys are compared by an image

A map is the list of its items. Two keys are the same key when they have the same image under
`norm`, such as a name in lower case. `emplace` adds an item unless its key is there, `erase` takes
the item of a key out, `find` gives the value of a key.

`put` is `emplace` behind a guard. `forall_mem_putAll_iff` says when the items of a map are all good
after a run of guarded insertions: those there before were good, and each insertion that takes
effect was of a good item.
-/

set_option autoImplicit false

namespace Ssgx.Support.Keyed

universe u v w

variable {κ : Type u} {ν : Type v} {α : Type w} [DecidableEq ν] (norm : κ → ν)

/-- No two items have the same key. -/
def Distinct (items : List (κ × α)) : Prop := (items.map fun item => norm item.1).Nodup

instance (items : List (κ × α)) : Decidable (Distinct norm items) :=
  inferInstanceAs (Decidable (List.Nodup _))

/-- The value of a key. -/
def find (key : κ) : List (κ × α) → Option α
  | [] => none
  | item :: rest => if norm item.1 = norm key then some item.2 else find key rest

/-- Add an item unless its key is there. -/
def emplace (key : κ) (value : α) (items : List (κ × α)) : List (κ × α) :=
  if (find norm key items).isSome then items else items ++ [(key, value)]

/-- Give a key a value: the old one of the key is replaced where there is one. -/
def store (items : List (κ × α)) (item : κ × α) : List (κ × α) :=
  match items with
  | [] => [item]
  | other :: rest =>
      if norm other.1 = norm item.1 then (other.1, item.2) :: rest else other :: store rest item

/-- Take the item of a key out. -/
def erase (key : κ) (items : List (κ × α)) : List (κ × α) :=
  items.filter fun item => norm item.1 ≠ norm key

variable {norm}

/-- A key is not found exactly when no item has it. -/
theorem find_eq_none_iff {key : κ} {items : List (κ × α)} :
    find norm key items = none ↔ ∀ item ∈ items, norm item.1 ≠ norm key := by
  induction items with
  | nil => simp [find]
  | cons item rest ih =>
      rw [find]
      by_cases h : norm item.1 = norm key
      · simp [h]
      · simp [h, ih]

theorem find_append (key : κ) (front back : List (κ × α)) :
    find norm key (front ++ back) = (find norm key front).or (find norm key back) := by
  induction front with
  | nil => rfl
  | cons item rest ih =>
      rw [List.cons_append, find, find]
      by_cases h : norm item.1 = norm key
      · rw [if_pos h, if_pos h]
        rfl
      · rw [if_neg h, if_neg h, ih]

/-- **The value of a key after an insertion.** An item that is there stays. -/
theorem find_emplace (key key' : κ) (value : α) (items : List (κ × α)) :
    find norm key (emplace norm key' value items) =
      if norm key' = norm key then some ((find norm key items).getD value)
      else find norm key items := by
  simp only [emplace]
  by_cases hsame : norm key' = norm key
  · have hfind : ∀ list : List (κ × α), find norm key' list = find norm key list := by
      intro list
      induction list with
      | nil => rfl
      | cons item rest ih => rw [find, find, hsame, ih]
    rw [if_pos hsame, hfind]
    cases hfound : find norm key items with
    | some old => simp [hfound]
    | none =>
        rw [if_neg (by simp), find_append, hfound, find, if_pos hsame]
        rfl
  · rw [if_neg hsame]
    by_cases hthere : (find norm key' items).isSome
    · rw [if_pos hthere]
    · rw [if_neg hthere, find_append, find, if_neg hsame]
      cases find norm key items <;> rfl

/-- **The value of a key after a removal.** -/
theorem find_erase (key key' : κ) (items : List (κ × α)) :
    find norm key (erase norm key' items) =
      if norm key' = norm key then none else find norm key items := by
  simp only [erase]
  induction items with
  | nil => simp [find]
  | cons item rest ih =>
      rw [List.filter_cons]
      by_cases hitem : norm item.1 = norm key'
      · rw [if_neg (by simpa using hitem), ih, find, hitem]
        by_cases hsame : norm key' = norm key
        · simp [hsame]
        · simp [hsame]
      · rw [if_pos (by simpa using hitem), find, ih, find]
        by_cases hkey : norm item.1 = norm key
        · rw [if_pos hkey, if_pos hkey, if_neg (fun h => hitem (hkey.trans h.symm))]
        · rw [if_neg hkey, if_neg hkey]

/-- Where keys are distinct, the value of a key is that of the one item that has it. -/
theorem find_eq_some_iff {key : κ} {value : α} {items : List (κ × α)} (h : Distinct norm items) :
    find norm key items = some value ↔
      ∃ item ∈ items, norm item.1 = norm key ∧ item.2 = value := by
  induction items with
  | nil => simp [find]
  | cons item rest ih =>
      obtain ⟨hitem, hrest⟩ := List.nodup_cons.1 h
      rw [find, List.exists_mem_cons_iff]
      by_cases hkey : norm item.1 = norm key
      · have hnone : ¬ ∃ other ∈ rest, norm other.1 = norm key ∧ other.2 = value := by
          rintro ⟨other, hother, hsame, -⟩
          exact hitem (List.mem_map.2 ⟨other, hother, hsame.trans hkey.symm⟩)
        rw [if_pos hkey, or_iff_left hnone]
        simp [hkey]
      · rw [if_neg hkey, ih hrest]
        simp [hkey]

/-- The order of the items does not matter. -/
theorem find_perm {items items' : List (κ × α)} (h : Distinct norm items)
    (hperm : items'.Perm items) (key : κ) : find norm key items' = find norm key items := by
  have hdistinct : Distinct norm items' := (hperm.map _).nodup_iff.2 h
  refine Option.ext fun value => ?_
  rw [find_eq_some_iff hdistinct, find_eq_some_iff h]
  simp only [hperm.mem_iff]

theorem mem_emplace_iff {key : κ} {value : α} {items : List (κ × α)} {item : κ × α} :
    item ∈ emplace norm key value items ↔
      item ∈ items ∨ (find norm key items = none ∧ item = (key, value)) := by
  simp only [emplace]
  cases find norm key items with
  | some old => simp
  | none => simp

/-! ## Keys stay distinct -/

omit [DecidableEq ν] in
theorem distinct_nil (norm : κ → ν) : Distinct norm ([] : List (κ × α)) := List.nodup_nil

theorem distinct_emplace {items : List (κ × α)} (h : Distinct norm items) (key : κ) (value : α) :
    Distinct norm (emplace norm key value items) := by
  simp only [emplace]
  cases hfind : find norm key items with
  | some old => simpa using h
  | none =>
      rw [if_neg (by simp), Distinct, List.map_append, List.nodup_append]
      refine ⟨h, List.nodup_singleton _, ?_⟩
      intro a ha b hb
      obtain ⟨item, hmem, rfl⟩ := List.mem_map.1 ha
      rw [List.map_singleton, List.mem_singleton] at hb
      subst hb
      exact find_eq_none_iff.1 hfind item hmem

theorem distinct_erase {items : List (κ × α)} (h : Distinct norm items) (key : κ) :
    Distinct norm (erase norm key items) :=
  h.sublist (List.filter_sublist.map _)

/-! ## Guarded insertions -/

variable (norm) in
/-- Insert an item if it passes the guard. -/
def put (guard : κ × α → Bool) (items : List (κ × α)) (item : κ × α) : List (κ × α) :=
  if guard item then emplace norm item.1 item.2 items else items

/-- The insertion takes effect: the item passes the guard and its key is new. -/
def Enters (norm : κ → ν) (guard : κ × α → Bool) (items : List (κ × α)) (item : κ × α) : Prop :=
  guard item = true ∧ find norm item.1 items = none

theorem mem_put_iff {guard : κ × α → Bool} {items : List (κ × α)} {new item : κ × α} :
    item ∈ put norm guard items new ↔
      item ∈ items ∨ (Enters norm guard items new ∧ item = new) := by
  simp only [put, Enters]
  cases guard new with
  | false => simp
  | true =>
      rw [if_pos rfl, mem_emplace_iff]
      simp

/-- **When all items are good after a run of insertions.** -/
theorem forall_mem_putAll_iff {guard : κ × α → Bool} {Good : κ × α → Prop} (new : List (κ × α))
    (items : List (κ × α)) :
    (∀ item ∈ runFrom (put norm guard) items new, Good item) ↔
      (∀ item ∈ items, Good item) ∧
        Along (put norm guard) (fun items item => Enters norm guard items item → Good item)
          items new := by
  induction new generalizing items with
  | nil => simp [runFrom, Along]
  | cons item new ih =>
      rw [runFrom, Along, ih]
      -- what is there after the insertion is what was there and the item if it entered
      have hstep : (∀ other ∈ put norm guard items item, Good other) ↔
          (∀ other ∈ items, Good other) ∧ (Enters norm guard items item → Good item) := by
        constructor
        · intro h
          refine ⟨fun other hmem => h other (mem_put_iff.2 (.inl hmem)), ?_⟩
          intro henters
          exact h item (mem_put_iff.2 (.inr ⟨henters, rfl⟩))
        · rintro ⟨hold, hnew⟩ other hmem
          rcases mem_put_iff.1 hmem with hmem | ⟨henters, rfl⟩
          · exact hold other hmem
          · exact hnew henters
      rw [hstep, and_assoc]

omit [DecidableEq ν] in
theorem Distinct.perm {items items' : List (κ × α)} (h : Distinct norm items)
    (hperm : items'.Perm items) : Distinct norm items' :=
  (hperm.map _).nodup_iff.2 h

omit [DecidableEq ν] in
/-- What comes first has other keys than what comes behind. -/
theorem Distinct.key_ne {items rest : List (κ × α)} {item : κ × α}
    (h : Distinct norm (items ++ item :: rest)) :
    ∀ other ∈ items, norm other.1 ≠ norm item.1 := by
  intro other hother heq
  rw [Distinct, List.map_append, List.nodup_append] at h
  exact h.2.2 _ (List.mem_map_of_mem hother) _ (List.mem_map_of_mem List.mem_cons_self) heq

theorem put_guarded {guard : κ × α → Bool} {items : List (κ × α)} {new item : κ × α}
    (h : item ∈ put norm guard items new) : item ∈ items ∨ guard item = true := by
  rcases mem_put_iff.1 h with hold | ⟨henters, rfl⟩
  · exact .inl hold
  · exact .inr henters.1

/-- **Items that pass and have distinct keys all go in**, in their order. -/
theorem putAll_of_distinct {guard : κ × α → Bool} {new items : List (κ × α)}
    (hdistinct : Distinct norm (items ++ new)) (hguard : ∀ item ∈ new, guard item = true) :
    runFrom (put norm guard) items new = items ++ new := by
  induction new generalizing items with
  | nil => exact (List.append_nil items).symm
  | cons item new ih =>
      have hnew : find norm item.1 items = none := find_eq_none_iff.2 hdistinct.key_ne
      have hput : put norm guard items item = items ++ [item] := by
        rw [put, if_pos (hguard item List.mem_cons_self), emplace, hnew]
        rfl
      rw [List.append_cons] at hdistinct
      rw [runFrom, hput, ih hdistinct fun other hother =>
        hguard other (List.mem_cons_of_mem _ hother), ← List.append_cons]

/-! ## Values that are replaced -/

/-- A new key is added at the end. -/
theorem store_of_new {items : List (κ × α)} {item : κ × α}
    (h : ∀ other ∈ items, norm other.1 ≠ norm item.1) :
    store norm items item = items ++ [item] := by
  induction items with
  | nil => rfl
  | cons other rest ih =>
      rw [store, if_neg (h other List.mem_cons_self),
        ih fun o ho => h o (List.mem_cons_of_mem _ ho), List.cons_append]

/-- **Items with distinct keys are all added**, in their order. -/
theorem storeAll_of_distinct {new items : List (κ × α)} (h : Distinct norm (items ++ new)) :
    runFrom (store norm) items new = items ++ new := by
  induction new generalizing items with
  | nil => exact (List.append_nil items).symm
  | cons item new ih =>
      have hnew := h.key_ne
      rw [List.append_cons] at h
      rw [runFrom, store_of_new hnew, ih h, ← List.append_cons]

/-- **The value of a key after a value was stored.** -/
theorem find_store (key : κ) (items : List (κ × α)) (item : κ × α) :
    find norm key (store norm items item) =
      if norm item.1 = norm key then some item.2 else find norm key items := by
  induction items with
  | nil => rfl
  | cons other rest ih =>
      rw [store]
      by_cases hsame : norm other.1 = norm item.1
      · rw [if_pos hsame, find, find, hsame]
        split_ifs
        · rfl
        · rfl
      · rw [if_neg hsame, find, find, ih]
        by_cases hkey : norm other.1 = norm key
        · rw [if_pos hkey, if_neg fun h => hsame (hkey.trans h.symm), if_pos hkey]
        · rw [if_neg hkey, if_neg hkey]

/-- The items of other keys stay. -/
theorem erase_store (key : κ) (value : α) (items : List (κ × α)) :
    erase norm key (store norm items (key, value)) = erase norm key items := by
  simp only [erase]
  induction items with
  | nil => simp [store]
  | cons other rest ih =>
      rw [store]
      by_cases hsame : norm other.1 = norm key
      · rw [if_pos hsame, List.filter_cons_of_neg (by simpa using hsame),
          List.filter_cons_of_neg (by simpa using hsame)]
      · rw [if_neg hsame, List.filter_cons_of_pos (by simpa using hsame),
          List.filter_cons_of_pos (by simpa using hsame), ih]

/-! ## Maps in the order of their keys -/

variable [DecidableEq κ] (before : κ → κ → Bool)

/-- Store the value of a key, in its place in the order of the keys. -/
def assign (items : List (κ × α)) (item : κ × α) : List (κ × α) :=
  match items with
  | [] => [item]
  | other :: rest =>
      if other.1 = item.1 then item :: rest
      else if before item.1 other.1 then item :: other :: rest
      else other :: assign rest item

variable {before}

/-- A new key is added. -/
theorem assign_perm {items : List (κ × α)} {item : κ × α}
    (h : ∀ other ∈ items, other.1 ≠ item.1) : (assign before items item).Perm (item :: items) := by
  induction items with
  | nil => exact List.Perm.refl _
  | cons other rest ih =>
      rw [assign, if_neg (h other List.mem_cons_self)]
      split_ifs
      · exact List.Perm.refl _
      · exact ((ih fun o ho => h o (List.mem_cons_of_mem _ ho)).cons other).trans
          (List.Perm.swap item other rest)

/-- **Items with distinct keys, stored one after the other**, are all there. -/
theorem assignAll_perm {new items : List (κ × α)} (h : Distinct id (items ++ new)) :
    (runFrom (assign before) items new).Perm (items ++ new) := by
  induction new generalizing items with
  | nil =>
      rw [List.append_nil]
      exact List.Perm.refl _
  | cons item new ih =>
      have hnew : ∀ other ∈ items, other.1 ≠ item.1 := h.key_ne
      have hperm : (assign before items item ++ new).Perm (items ++ item :: new) :=
        ((assign_perm hnew).append_right new).trans List.perm_middle.symm
      rw [runFrom]
      exact (ih (h.perm hperm)).trans hperm

/-- Values may be renamed before or after they are stored. -/
theorem map_assign {β : Type w} (f : α → β) (items : List (κ × α)) (item : κ × α) :
    (assign before items item).map (fun i => (i.1, f i.2)) =
      assign before (items.map fun i => (i.1, f i.2)) (item.1, f item.2) := by
  induction items with
  | nil => rfl
  | cons other rest ih =>
      rw [assign, List.map_cons, assign]
      split_ifs
      · rfl
      · rfl
      · rw [List.map_cons, ih]

end Ssgx.Support.Keyed
