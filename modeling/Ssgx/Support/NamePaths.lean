import Mathlib.Data.List.Basic

/-!
# Paths of names

A path is a text of names with separators between them. It leads through places: each name from one
place to the next, or nowhere. A path that begins with a separator starts at the root, and one that
ends in a separator goes on by the name that every place has for itself.

`Walks.locate_append_cons` and `Walks.locate_append` are the two ways in which a path goes on where
another one ends.
-/

set_option autoImplicit false

namespace Ssgx.Support

universe u v w

variable {α : Type u} [DecidableEq α]

/-! ## The names -/

/-- What stands between the separators of a path, where something does. -/
def pieces (sep : α) (path : List α) : List (List α) :=
  (path.splitOn sep).filter fun piece => !piece.isEmpty

/-- Whether a path begins with a separator. -/
def isRooted (sep : α) (path : List α) : Bool := decide (path.head? = some sep)

/-- Whether a path ends in a separator. -/
def endsOpen (sep : α) (path : List α) : Bool := decide (path.getLast? = some sep)

/-- The names of a path. `dot` is the name of a place for itself. -/
def names (sep : α) (dot path : List α) : List (List α) :=
  pieces sep path ++ if endsOpen sep path then [dot] else []

theorem pieces_nil (sep : α) : pieces sep [] = [] := rfl

theorem pieces_append_cons (sep : α) (a b : List α) :
    pieces sep (a ++ sep :: b) = pieces sep a ++ pieces sep b := by
  have hsplit : (a ++ sep :: b).splitOn sep = a.splitOn sep ++ b.splitOn sep := by
    simp only [List.splitOn_eq_splitOnP]
    exact List.splitOnP_append_cons a b (beq_self_eq_true sep)
  rw [pieces, hsplit, List.filter_append]
  rfl

/-- A path that begins with something else than a separator has a name. -/
theorem pieces_ne_nil {sep : α} {path : List α} (hne : path ≠ [])
    (hrooted : isRooted sep path = false) : pieces sep path ≠ [] := by
  obtain ⟨x, rest, rfl⟩ := List.exists_cons_of_ne_nil hne
  have hx : x ≠ sep := fun h => by simp [isRooted, h] at hrooted
  obtain ⟨first, others, hsplit⟩ := List.exists_cons_of_ne_nil (List.splitOn_ne_nil sep rest)
  have hcons : (x :: rest).splitOn sep = (x :: first) :: others := by
    rw [List.splitOn_cons_eq_if_modifyHead, hsplit, if_neg (by simpa using hx)]
    rfl
  rw [pieces, hcons]
  simp

theorem endsOpen_append (sep : α) (a : List α) {b : List α} (hb : b ≠ []) :
    endsOpen sep (a ++ b) = endsOpen sep b := by
  rw [endsOpen, endsOpen, List.getLast?_append_of_ne_nil a hb]

theorem isRooted_append (sep : α) {a : List α} (ha : a ≠ []) (b : List α) :
    isRooted sep (a ++ b) = isRooted sep a := by
  rw [isRooted, isRooted, List.head?_append_of_ne_nil a ha]

/-! ## Where the names lead -/

/-- The root of some places, and where a name leads from a place. -/
structure Walks (ν : Type u) (κ : Type v) (ε : Type w) where
  root : κ
  follow : κ → ν → Except ε κ

namespace Walks

variable {κ : Type v} {ε : Type w} (t : Walks (List α) κ ε)

/-- A name leads nowhere else, and nowhere where no name leads anywhere. -/
def Stays (dot : List α) : Prop :=
  ∀ (k : κ) (n : List α), (t.follow k dot >>= fun k' => t.follow k' n) = t.follow k n

/-- Where names lead from a place. -/
def walk (k : κ) (ns : List (List α)) : Except ε κ := ns.foldlM t.follow k

/-- Where a path leads from a place. -/
def locate (sep : α) (dot : List α) (k : κ) (path : List α) : Except ε κ :=
  t.walk (if isRooted sep path then t.root else k) (names sep dot path)

omit [DecidableEq α] in
theorem walk_append (k : κ) (ns ms : List (List α)) :
    t.walk k (ns ++ ms) = t.walk k ns >>= fun k' => t.walk k' ms :=
  List.foldlM_append

variable {t} {sep : α} {dot : List α}

omit [DecidableEq α] in
/-- In front of a name the name that stays says nothing. -/
theorem Stays.walk_cons (h : t.Stays dot) (k : κ) {ns : List (List α)} (hns : ns ≠ []) :
    t.walk k (dot :: ns) = t.walk k ns := by
  obtain ⟨n, rest, rfl⟩ := List.exists_cons_of_ne_nil hns
  have hstep := h k n
  simp only [walk, List.foldlM_cons, ← bind_assoc]
  rw [hstep]

/-- A path that begins with a separator leads to the same place from everywhere. -/
theorem locate_of_rooted {path : List α} (h : isRooted sep path = true) (k k' : κ) :
    t.locate sep dot k path = t.locate sep dot k' path := by
  rw [locate, locate, if_pos h, if_pos h]

/-- **Behind a separator** a path goes on where the one in front of it ends. -/
theorem locate_append_cons {a b : List α} (ha : a ≠ []) (hopen : endsOpen sep a = false)
    (hb : b ≠ []) (hrooted : isRooted sep b = false) (k : κ) :
    t.locate sep dot k (a ++ sep :: b) =
      t.locate sep dot k a >>= fun k' => t.locate sep dot k' b := by
  have hends : endsOpen sep (a ++ sep :: b) = endsOpen sep b := by
    rw [endsOpen_append sep a (List.cons_ne_nil sep b), ← List.singleton_append,
      endsOpen_append sep [sep] hb]
  simp only [locate, names, hopen, hends, hrooted, isRooted_append sep ha, pieces_append_cons,
    Bool.false_eq_true, if_false, List.append_nil, List.append_assoc]
  exact t.walk_append _ _ _

/-- **Behind a path that ends in a separator** another one goes on where that one ends. -/
theorem locate_append (hstays : t.Stays dot) {a b : List α} (hopen : endsOpen sep a = true)
    (hb : b ≠ []) (hrooted : isRooted sep b = false) (k : κ) :
    t.locate sep dot k (a ++ b) = t.locate sep dot k a >>= fun k' => t.locate sep dot k' b := by
  obtain ⟨front, rfl⟩ : ∃ front, a = front ++ [sep] := by
    rw [endsOpen, decide_eq_true_eq] at hopen
    exact List.getLast?_eq_some_iff.1 hopen
  have hpieces : pieces sep (front ++ [sep]) = pieces sep front := by
    rw [pieces_append_cons, pieces_nil, List.append_nil]
  have hnames : names sep dot b ≠ [] := by
    rw [names]
    exact List.append_ne_nil_of_left_ne_nil (pieces_ne_nil hb hrooted) _
  have hwhole : names sep dot (front ++ [sep] ++ b) = pieces sep front ++ names sep dot b := by
    rw [names, names, endsOpen_append sep _ hb, List.append_assoc, List.singleton_append,
      pieces_append_cons, List.append_assoc]
  have hends : names sep dot (front ++ [sep]) = pieces sep front ++ [dot] := by
    rw [names, hpieces, hopen, if_pos rfl]
  have hstart : isRooted sep (front ++ [sep] ++ b) = isRooted sep (front ++ [sep]) :=
    isRooted_append sep (List.append_ne_nil_of_right_ne_nil _ (List.cons_ne_nil _ _)) b
  simp only [locate, hwhole, hends, hstart, hrooted, Bool.false_eq_true, if_false, walk_append,
    bind_assoc]
  refine bind_congr fun k' => ?_
  have hdot := hstays.walk_cons k' hnames
  simp only [walk, List.foldlM_cons, List.foldlM_nil, bind_pure] at hdot ⊢
  exact hdot.symm

end Walks

end Ssgx.Support
