import Mathlib.Data.Vector.Basic
import Mathlib.Tactic.TypeStar

/-!
# Cursors over byte buffers

A reading cursor hands out the next entry or the next field of a fixed width of a buffer, or fails
when fewer entries remain (`takeHead`, `takeVector`). A writing cursor fills a buffer of fixed
capacity from the front, or fails when the entries do not fit (`Writer.put`). Two bytes stand for a
16-bit word in the little-endian order (`wordBytes`, `bytesWord`).

`takeHead_eq_some_iff` and `takeVector_eq_some_iff` turn one read into one split of the buffer, so
that a decoder made of reads is a statement about how its input splits.
-/

set_option autoImplicit false

namespace Ssgx.Support

universe u

variable {α : Type u}

/-- The next entry. -/
def takeHead : List α → Option (α × List α)
  | [] => none
  | a :: rest => some (a, rest)

theorem takeHead_eq_some_iff {l : List α} {a : α} {b : List α} :
    takeHead l = some (a, b) ↔ l = a :: b := by
  cases l with
  | nil => simp [takeHead]
  | cons x xs => simp [takeHead]

/-- The next `n` entries as a vector, and the rest of the buffer, if that many remain. -/
def takeVector (n : Nat) (l : List α) : Option (List.Vector α n × List α) :=
  if h : n ≤ l.length then some (⟨l.take n, by simp [h]⟩, l.drop n) else none

theorem takeVector_eq_some_iff {n : Nat} {l : List α} {v : List.Vector α n} {b : List α} :
    takeVector n l = some (v, b) ↔ l = v.toList ++ b := by
  simp only [takeVector]
  constructor
  · intro h
    split at h
    · cases h
      exact (List.take_append_drop n l).symm
    · cases h
  · rintro rfl
    have hv : v.toList.length = n := v.toList_length
    have hfst : (v.toList ++ b).take n = v.toList := List.take_left' hv
    have hsnd : (v.toList ++ b).drop n = b := List.drop_left' hv
    rw [dif_pos (by simp [hv])]
    exact congrArg some (Prod.ext (Subtype.ext hfst) hsnd)

theorem takeVector_append {n : Nat} (v : List.Vector α n) (b : List α) :
    takeVector n (v.toList ++ b) = some (v, b) := takeVector_eq_some_iff.2 rfl

/-- A buffer with enough entries starts with a field. -/
theorem exists_eq_toList_append {n : Nat} {l : List α} (h : n ≤ l.length) :
    ∃ (v : List.Vector α n) (b : List α), l = v.toList ++ b ∧ b.length = l.length - n :=
  ⟨⟨l.take n, by simp [h]⟩, l.drop n, (List.take_append_drop n l).symm, List.length_drop⟩

/-- A buffer of fixed capacity with the entries written so far. -/
structure Writer (α : Type u) where
  capacity : Nat
  written : List α

/-- A writing cursor at the start of an empty buffer. -/
def Writer.start (capacity : Nat) : Writer α := ⟨capacity, []⟩

/-- Write the entries at the cursor, if they fit. -/
def Writer.put (w : Writer α) (xs : List α) : Option (Writer α) :=
  if w.written.length + xs.length ≤ w.capacity then some { w with written := w.written ++ xs }
  else none

/-! ## Little-endian words -/

/-- The two little-endian bytes of a 16-bit word. -/
def wordBytes (x : UInt16) : List.Vector UInt8 2 :=
  ⟨[UInt8.ofNat (x.toNat % 256), UInt8.ofNat (x.toNat / 256)], rfl⟩

/-- The 16-bit word of two little-endian bytes. -/
def bytesWord (v : List.Vector UInt8 2) : UInt16 :=
  UInt16.ofNat (v.head.toNat + 256 * v.tail.head.toNat)

theorem bytesWord_wordBytes (x : UInt16) : bytesWord (wordBytes x) = x := by
  have hx : x.toNat < 65536 := x.toNat_lt
  apply UInt16.toNat_inj.mp
  simp only [bytesWord, wordBytes, List.Vector.head, List.Vector.tail, UInt16.toNat_ofNat',
    UInt8.toNat_ofNat']
  omega

theorem wordBytes_bytesWord (v : List.Vector UInt8 2) : wordBytes (bytesWord v) = v := by
  obtain ⟨l, hl⟩ := v
  match l, hl with
  | [a, b], _ =>
      have ha : a.toNat < 256 := a.toNat_lt
      have hb : b.toNat < 256 := b.toNat_lt
      apply Subtype.ext
      simp only [bytesWord, wordBytes, List.Vector.head, List.Vector.tail, UInt16.toNat_ofNat']
      refine congrArg₂ (fun x y => [x, y]) ?_ ?_
      · apply UInt8.toNat_inj.mp
        rw [UInt8.toNat_ofNat']
        omega
      · apply UInt8.toNat_inj.mp
        rw [UInt8.toNat_ofNat']
        omega

end Ssgx.Support
