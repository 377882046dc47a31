import Mathlib.Data.List.Lex
import Mathlib.Data.Tree.Basic
import Mathlib.Order.Lattice
import Mathlib.Tactic.SplitIfs
import Ssgx.Support.Run

/-!
# Search trees under a comparison

A map kept as a binary tree whose items are sorted by a comparison of their keys. `find` descends to
the first item that does not come before the key, and takes it unless the key comes before it.
`emplace` adds an item at a leaf unless an equivalent key is on the way.

Where the comparison is a strict weak order, every item of a sorted tree is found
(`find_eq_some_iff`), insertions keep a tree sorted (`sorted_emplace`), and what is found depends on
the items in their order only, whatever shape the tree was brought into (`find_congr`).
-/

set_option autoImplicit false

namespace Ssgx.Support.SearchTree

universe u v

variable {κ : Type u} {α : Type v} (less : κ → κ → Bool)

/-! ## Trees -/

/-- The items, from left to right. -/
def items : BinaryTree (κ × α) → List (κ × α)
  | .nil => []
  | .node item left right => items left ++ item :: items right

/-- Each item comes before those to its right. -/
def Sorted (list : List (κ × α)) : Prop := list.Pairwise fun a b => less a.1 b.1 = true

/-- Neither key comes before the other. -/
def Equivalent (a b : κ) : Prop := less a b = false ∧ less b a = false

/-- The leftmost item that does not come before a key, `best` where there is none. -/
def lowerBound (key : κ) (best : Option (κ × α)) : BinaryTree (κ × α) → Option (κ × α)
  | .nil => best
  | .node item left right =>
      if less item.1 key then lowerBound key best right else lowerBound key (some item) left

/-- The item of a key. -/
def find (key : κ) (tree : BinaryTree (κ × α)) : Option (κ × α) :=
  (lowerBound less key none tree).filter fun item => !less key item.1

/-- Add an item unless there is one with an equivalent key. -/
def emplace (tree : BinaryTree (κ × α)) (item : κ × α) : BinaryTree (κ × α) :=
  match tree with
  | .nil => .node item .nil .nil
  | .node other left right =>
      if less item.1 other.1 then .node other (emplace left item) right
      else if less other.1 item.1 then .node other left (emplace right item)
      else .node other left right

variable {less}

theorem Equivalent.symm {a b : κ} (h : Equivalent less a b) : Equivalent less b a := ⟨h.2, h.1⟩

theorem sorted_nil : Sorted less (items (.nil : BinaryTree (κ × α))) := List.Pairwise.nil

theorem sorted_node_iff {item : κ × α} {left right : BinaryTree (κ × α)} :
    Sorted less (items (.node item left right)) ↔
      Sorted less (items left) ∧ Sorted less (items right) ∧
        (∀ a ∈ items left, less a.1 item.1 = true) ∧ (∀ b ∈ items right, less item.1 b.1 = true) ∧
          ∀ a ∈ items left, ∀ b ∈ items right, less a.1 b.1 = true := by
  rw [items, Sorted, List.pairwise_append, List.pairwise_cons]
  constructor
  · rintro ⟨hleft, ⟨hitem, hright⟩, hacross⟩
    refine ⟨hleft, hright, fun a ha => hacross a ha item List.mem_cons_self, hitem, ?_⟩
    exact fun a ha b hb => hacross a ha b (List.mem_cons_of_mem _ hb)
  · rintro ⟨hleft, hright, hbefore, hitem, hacross⟩
    refine ⟨hleft, ⟨hitem, hright⟩, fun a ha b hb => ?_⟩
    rcases List.mem_cons.1 hb with rfl | hb
    · exact hbefore a ha
    · exact hacross a ha b hb

/-- What is in a tree behind an insertion was there before or is the new item. -/
theorem mem_emplace {tree : BinaryTree (κ × α)} {item x : κ × α}
    (h : x ∈ items (emplace less tree item)) : x = item ∨ x ∈ items tree := by
  induction tree with
  | nil => exact .inl (List.mem_singleton.1 h)
  | node other left right ihleft ihright =>
      rw [items, List.mem_append, List.mem_cons]
      rw [emplace] at h
      split_ifs at h with hbefore hbehind
      · rw [items, List.mem_append, List.mem_cons] at h
        rcases h with h | h
        · exact (ihleft h).imp_right .inl
        · exact .inr (.inr h)
      · rw [items, List.mem_append, List.mem_cons] at h
        rcases h with h | h | h
        · exact .inr (.inl h)
        · exact .inr (.inr (.inl h))
        · exact (ihright h).imp_right fun hright => .inr (.inr hright)
      · rw [items, List.mem_append, List.mem_cons] at h
        exact .inr h

/-- A new key is added. -/
theorem emplace_perm {tree : BinaryTree (κ × α)} {item : κ × α}
    (h : ∀ other ∈ items tree, ¬ Equivalent less other.1 item.1) :
    (items (emplace less tree item)).Perm (item :: items tree) := by
  induction tree with
  | nil => exact List.Perm.refl _
  | node other left right ihleft ihright =>
      rw [items] at h
      rw [emplace]
      split_ifs with hbefore hbehind
      · rw [items, items, ← List.cons_append]
        exact (ihleft fun o ho => h o (List.mem_append_left _ ho)).append_right _
      · rw [items, items]
        have hright := ihright fun o ho => h o (List.mem_append_right _ (List.mem_cons_of_mem _ ho))
        have hswap : (other :: items (emplace less right item)).Perm
            (item :: other :: items right) :=
          (hright.cons other).trans (List.Perm.swap item other _)
        exact (hswap.append_left _).trans List.perm_middle
      · refine absurd ⟨?_, ?_⟩ (h other (List.mem_append_right _ List.mem_cons_self))
        · exact Bool.eq_false_iff.2 hbehind
        · exact Bool.eq_false_iff.2 hbefore

/-! ## Strict weak orders -/

section StrictWeakOrder

variable [hless : IsStrictWeakOrder κ fun a b => less a b = true]

include hless

theorem less_trans {a b c : κ} (hab : less a b = true) (hbc : less b c = true) :
    less a c = true := hless.trans a b c hab hbc

theorem Equivalent.trans {a b c : κ} (hab : Equivalent less a b) (hbc : Equivalent less b c) :
    Equivalent less a c := by
  simp only [Equivalent, Bool.eq_false_iff] at hab hbc ⊢
  exact hless.incomp_trans a b c hab hbc

/-- What comes before a key comes before the keys that are equivalent to it. -/
theorem less_of_equivalent {a b c : κ} (hab : less a b = true) (hbc : Equivalent less b c) :
    less a c = true := by
  by_contra hac
  by_cases hca : less c a = true
  · exact Bool.eq_false_iff.1 hbc.2 (less_trans hca hab)
  · have hequiv : Equivalent less a c := ⟨Bool.eq_false_iff.2 hac, Bool.eq_false_iff.2 hca⟩
    exact Bool.eq_false_iff.1 (hequiv.trans hbc.symm).1 hab

/-- **The descent is the search from the left.** -/
theorem lowerBound_eq {tree : BinaryTree (κ × α)} (h : Sorted less (items tree)) (key : κ)
    (best : Option (κ × α)) :
    lowerBound less key best tree = ((items tree).find? fun item => !less item.1 key).or best := by
  induction tree generalizing best with
  | nil => rfl
  | node item left right ihleft ihright =>
      obtain ⟨hleft, hright, hbefore, -, -⟩ := sorted_node_iff.1 h
      rw [lowerBound, items, List.find?_append]
      by_cases hitem : less item.1 key = true
      · -- the item and all to its left come before the key
        have hnone : (items left).find? (fun a => !less a.1 key) = none := by
          rw [List.find?_eq_none]
          intro a ha
          rw [less_trans (hbefore a ha) hitem]
          decide
        rw [if_pos hitem, ihright hright, hnone, Option.none_or,
          List.find?_cons_of_neg (by rw [hitem]; decide)]
      · rw [if_neg hitem, ihleft hleft,
          List.find?_cons_of_pos (by rw [Bool.eq_false_iff.2 hitem]; rfl), Option.or_assoc]
        rfl

theorem find_eq {tree : BinaryTree (κ × α)} (h : Sorted less (items tree)) (key : κ) :
    find less key tree = ((items tree).find? fun item => !less item.1 key).filter
      fun item => !less key item.1 := by
  rw [find, lowerBound_eq h, Option.or_none]

/-- **Trees with the same items in the same order** answer alike, whatever their shapes. -/
theorem find_congr {tree tree' : BinaryTree (κ × α)} (h : Sorted less (items tree))
    (hitems : items tree' = items tree) (key : κ) : find less key tree' = find less key tree := by
  rw [find_eq h, find_eq (hitems ▸ h), hitems]

/-- **What is found** is the item with an equivalent key. -/
theorem find_eq_some_iff {tree : BinaryTree (κ × α)} (h : Sorted less (items tree)) {key : κ}
    {item : κ × α} :
    find less key tree = some item ↔ item ∈ items tree ∧ Equivalent less item.1 key := by
  rw [find_eq h, Option.filter_eq_some_iff, Bool.not_eq_true']
  constructor
  · rintro ⟨hfind, hkey⟩
    refine ⟨List.mem_of_find?_eq_some hfind, ?_, hkey⟩
    have hitem := List.find?_some hfind
    rwa [Bool.not_eq_true'] at hitem
  · rintro ⟨hmem, hequiv⟩
    refine ⟨?_, hequiv.2⟩
    -- some item does not come before the key; the first of them is equivalent to it
    cases hfind : (items tree).find? fun item => !less item.1 key with
    | none =>
        rw [List.find?_eq_none] at hfind
        exact absurd (by rw [hequiv.1]; rfl) (hfind item hmem)
    | some first =>
        have hfirst := List.find?_some hfind
        rw [Bool.not_eq_true'] at hfirst
        obtain ⟨-, front, back, hsplit, hfront⟩ := List.find?_eq_some_iff_append.1 hfind
        rw [hsplit, List.mem_append, List.mem_cons] at hmem
        rcases hmem with hmem | rfl | hmem
        · have hbefore := hfront item hmem
          rw [hequiv.1] at hbefore
          exact nomatch hbefore
        · rfl
        · -- an item behind the first would come before the key with it
          have hsorted : Sorted less (front ++ first :: back) := hsplit ▸ h
          have hlater := (List.pairwise_cons.1 (List.pairwise_append.1 hsorted).2.1).1 item hmem
          rw [less_of_equivalent hlater hequiv] at hfirst
          exact nomatch hfirst

/-! ## Insertions -/

/-- A key that is there stays with its item. -/
theorem emplace_of_mem {tree : BinaryTree (κ × α)} (h : Sorted less (items tree))
    {item other : κ × α} (hother : other ∈ items tree) (hequiv : Equivalent less other.1 item.1) :
    emplace less tree item = tree := by
  induction tree with
  | nil => cases hother
  | node top left right ihleft ihright =>
      obtain ⟨hleft, hright, hbefore, hbehind, -⟩ := sorted_node_iff.1 h
      rw [items, List.mem_append, List.mem_cons] at hother
      rw [emplace]
      split_ifs with hitem htop
      · rcases hother with hother | rfl | hother
        · rw [ihleft hleft hother]
        · exact absurd hitem (Bool.eq_false_iff.1 hequiv.2)
        · exact absurd (less_trans hitem (hbehind other hother)) (Bool.eq_false_iff.1 hequiv.2)
      · rcases hother with hother | rfl | hother
        · exact absurd (less_trans (hbefore other hother) htop) (Bool.eq_false_iff.1 hequiv.1)
        · exact absurd htop (Bool.eq_false_iff.1 hequiv.1)
        · rw [ihright hright hother]
      · rfl

/-- **An insertion keeps a tree sorted.** -/
theorem sorted_emplace {tree : BinaryTree (κ × α)} (h : Sorted less (items tree)) (item : κ × α) :
    Sorted less (items (emplace less tree item)) := by
  induction tree with
  | nil => exact List.pairwise_singleton _ _
  | node top left right ihleft ihright =>
      obtain ⟨hleft, hright, hbefore, hbehind, hacross⟩ := sorted_node_iff.1 h
      rw [emplace]
      split_ifs with hitem htop
      · refine sorted_node_iff.2
          ⟨ihleft hleft, hright, fun a ha => ?_, hbehind, fun a ha b hb => ?_⟩
        · rcases mem_emplace ha with rfl | ha
          · exact hitem
          · exact hbefore a ha
        · rcases mem_emplace ha with rfl | ha
          · exact less_trans hitem (hbehind b hb)
          · exact hacross a ha b hb
      · refine sorted_node_iff.2
          ⟨hleft, ihright hright, hbefore, fun b hb => ?_, fun a ha b hb => ?_⟩
        · rcases mem_emplace hb with rfl | hb
          · exact htop
          · exact hbehind b hb
        · rcases mem_emplace hb with rfl | hb
          · exact less_trans (hbefore a ha) htop
          · exact hacross a ha b hb
      · exact h

/-- Insertions one after the other keep a tree sorted. -/
theorem sorted_emplaceAll {tree : BinaryTree (κ × α)} (h : Sorted less (items tree))
    (new : List (κ × α)) : Sorted less (items (runFrom (emplace less) tree new)) := by
  have hkeep : ∀ (t : BinaryTree (κ × α)) (item : κ × α), True → Sorted less (items t) →
      Sorted less (items (emplace less t item)) := fun t item _ ht => sorted_emplace ht item
  exact invariant_runFrom hkeep (along_of_forall (fun _ _ => trivial) tree new) h

omit hless in
/-- **Items of which no two are equivalent** are all there. -/
theorem emplaceAll_perm {tree : BinaryTree (κ × α)} {new : List (κ × α)}
    (h : (items tree ++ new).Pairwise fun a b => ¬ Equivalent less a.1 b.1) :
    (items (runFrom (emplace less) tree new)).Perm (items tree ++ new) := by
  induction new generalizing tree with
  | nil => rw [List.append_nil]; exact List.Perm.refl _
  | cons item new ih =>
      have hnew : ∀ other ∈ items tree, ¬ Equivalent less other.1 item.1 := fun other hother =>
        (List.pairwise_append.1 h).2.2 other hother item List.mem_cons_self
      have hperm : (items (emplace less tree item) ++ new).Perm (items tree ++ item :: new) :=
        ((emplace_perm hnew).append_right new).trans List.perm_middle.symm
      rw [runFrom]
      refine (ih ?_).trans hperm
      exact h.perm hperm.symm fun hab hba => hab hba.symm

end StrictWeakOrder

/-! ## Comparisons of texts -/

section Lexicographic

variable {β : Type v} [LinearOrder β]

/-- `std::lexicographical_compare`: the first elements of which one comes before the other decide,
and behind them the lengths. -/
def lexicographicalCompare (less : κ → κ → Bool) : List κ → List κ → Bool
  | _, [] => false
  | [], _ :: _ => true
  | a :: as, b :: bs =>
      if less a b then true
      else if less b a then false
      else lexicographicalCompare less as bs

/-- Where the elements are compared by their images, so are the texts. -/
theorem lexicographicalCompare_iff (image : κ → β) (as bs : List κ) :
    lexicographicalCompare (fun a b => decide (image a < image b)) as bs = true ↔
      as.map image < bs.map image := by
  induction as generalizing bs with
  | nil =>
      cases bs with
      | nil => exact iff_of_false Bool.false_ne_true (lt_irrefl _)
      | cons b bs => exact iff_of_true rfl (List.nil_lt_cons _ _)
  | cons a as ih =>
      cases bs with
      | nil => exact iff_of_false Bool.false_ne_true (List.not_lt_nil _)
      | cons b bs =>
          rw [lexicographicalCompare, List.map_cons, List.map_cons, List.cons_lt_cons_iff]
          split_ifs with hbefore hbehind
          · exact iff_of_true rfl (.inl (of_decide_eq_true hbefore))
          · have hlt := of_decide_eq_true hbehind
            exact iff_of_false id fun h => h.elim (lt_asymm hlt) fun h => hlt.ne h.1.symm
          · rw [decide_eq_true_eq] at hbefore hbehind
            have hsame : image a = image b := le_antisymm (not_lt.1 hbehind) (not_lt.1 hbefore)
            rw [ih, or_iff_right hbefore, and_iff_right hsame]

/-- **A comparison of texts by images in a linear order is a strict weak order.** -/
theorem isStrictWeakOrder_lexicographicalCompare (image : κ → β) :
    IsStrictWeakOrder (List κ) fun as bs =>
      lexicographicalCompare (fun a b => decide (image a < image b)) as bs = true := by
  have horder : IsStrictWeakOrder (List β) (· < ·) := isStrictWeakOrder_of_isOrderConnected
  simp only [lexicographicalCompare_iff]
  exact Order.Preimage.instIsStrictWeakOrder

/-- Texts are equivalent where they have the same image. -/
theorem equivalent_lexicographicalCompare_iff (image : κ → β) (as bs : List κ) :
    Equivalent (lexicographicalCompare fun a b => decide (image a < image b)) as bs ↔
      as.map image = bs.map image := by
  rw [Equivalent, Bool.eq_false_iff, Bool.eq_false_iff, ne_eq, ne_eq, lexicographicalCompare_iff,
    lexicographicalCompare_iff, not_lt, not_lt]
  exact ⟨fun h => le_antisymm h.2 h.1, fun h => ⟨h.ge, h.le⟩⟩

end Lexicographic

end Ssgx.Support.SearchTree
