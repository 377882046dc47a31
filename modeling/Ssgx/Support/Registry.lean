import Mathlib.Logic.Function.Basic

/-!
# Registries of objects

A registry maps keys to objects that others own, each with a mark that says whether it deletes the
object when it drops it. Registering under a key that is there replaces the entry and deletes
nothing.
-/

set_option autoImplicit false

namespace Ssgx.Support

universe u v

/-- What is registered under each key, with the mark. -/
structure Registry (κ : Type u) (τ : Type v) where
  entries : κ → Option (τ × Bool)

namespace Registry

variable {κ : Type u} {τ : Type v}

/-- A registry without entries. -/
def empty : Registry κ τ := ⟨fun _ => none⟩

/-- The object under a key. -/
def query (r : Registry κ τ) (key : κ) : Option τ := (r.entries key).map Prod.fst

/-- Whether there is an object under a key. -/
def contains (r : Registry κ τ) (key : κ) : Bool := (r.entries key).isSome

variable [DecidableEq κ]

/-- Put an object under a key. -/
def register (r : Registry κ τ) (key : κ) (obj : τ) (deleteOnUnregister : Bool) : Registry κ τ :=
  ⟨Function.update r.entries key (some (obj, deleteOnUnregister))⟩

/-- Drop the entry of a key. -/
def unregister (r : Registry κ τ) (key : κ) : Registry κ τ :=
  ⟨Function.update r.entries key none⟩

omit [DecidableEq κ] in
/-- The object that dropping the entry of a key deletes. -/
def deletes (r : Registry κ τ) (key : κ) : Option τ :=
  match r.entries key with
  | some (obj, true) => some obj
  | _ => none

omit [DecidableEq κ] in
theorem query_eq_some_iff {r : Registry κ τ} {key : κ} {obj : τ} :
    r.query key = some obj ↔ ∃ mark, r.entries key = some (obj, mark) := by
  simp only [query]
  cases r.entries key with
  | none => simp
  | some entry => simp [Prod.ext_iff]

omit [DecidableEq κ] in
theorem contains_eq_false_iff {r : Registry κ τ} {key : κ} :
    r.contains key = false ↔ r.query key = none := by
  simp only [contains, query]
  cases r.entries key with
  | none => simp
  | some entry => simp

theorem entries_register (r : Registry κ τ) (key key' : κ) (obj : τ) (mark : Bool) :
    (r.register key obj mark).entries key' =
      if key' = key then some (obj, mark) else r.entries key' :=
  Function.update_apply ..

theorem entries_unregister (r : Registry κ τ) (key key' : κ) :
    (r.unregister key).entries key' = if key' = key then none else r.entries key' :=
  Function.update_apply ..

/-- The last object registered under a key is found. -/
theorem query_register (r : Registry κ τ) (key key' : κ) (obj : τ) (mark : Bool) :
    (r.register key obj mark).query key' = if key' = key then some obj else r.query key' := by
  rw [query, entries_register, apply_ite (Option.map Prod.fst)]
  rfl

/-- Nothing is found under a key whose entry was dropped. -/
theorem query_unregister (r : Registry κ τ) (key key' : κ) :
    (r.unregister key).query key' = if key' = key then none else r.query key' := by
  rw [query, entries_unregister, apply_ite (Option.map Prod.fst)]
  rfl

/-- What is found after a registration is the new object, or was found before under another key. -/
theorem query_register_eq_some_iff {r : Registry κ τ} {key key' : κ} {obj obj' : τ} {mark : Bool} :
    (r.register key obj mark).query key' = some obj' ↔
      key' = key ∧ obj = obj' ∨ key' ≠ key ∧ r.query key' = some obj' := by
  rw [query_register]
  by_cases hkey : key' = key
  · simp [hkey]
  · simp [hkey]

/-- What is found after an entry was dropped is under another key. -/
theorem query_unregister_eq_some_iff {r : Registry κ τ} {key key' : κ} {obj : τ} :
    (r.unregister key).query key' = some obj ↔ key' ≠ key ∧ r.query key' = some obj := by
  rw [query_unregister]
  by_cases hkey : key' = key
  · simp [hkey]
  · simp [hkey]

/-- Dropping an entry that is not there changes nothing. -/
theorem unregister_of_none {r : Registry κ τ} {key : κ} (h : r.entries key = none) :
    r.unregister key = r := by
  simp only [unregister]
  rw [← h, Function.update_eq_self]

end Registry

end Ssgx.Support
