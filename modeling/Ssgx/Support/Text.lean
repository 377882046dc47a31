import Mathlib.Algebra.Ring.Int.Defs
import Mathlib.Algebra.Ring.Nat
import Mathlib.Data.List.Basic

/-!
# Text

A text is the list of its characters; a byte string of a program is the text whose characters have
its bytes as codes. Letters are compared without regard to case through `lower`. Numbers are written
in decimal (`decimal`) and read back (`ofDecimal`). `upTo` and `behind` are the two parts of a text
at the first place of a character.
-/

set_option autoImplicit false

namespace Ssgx.Support

/-- A text, or a byte string. -/
abbrev Str := List Char

/-- The characters of a literal. -/
abbrev str (s : String) : Str := s.toList

/-- The end of a line. -/
def crlf : Str := ['\r', '\n']

/-- The text in lower case. -/
def lower (s : Str) : Str := s.map Char.toLower

theorem lower_append (front back : Str) : lower (front ++ back) = lower front ++ lower back :=
  List.map_append

/-- Letters and digits in lower case are letters and digits. -/
theorem isAlphanum_toLower {ch : Char} (h : ch.isAlphanum = true) :
    ch.toLower.isAlphanum = true := by
  by_cases hupper : ch.val ≥ 'A'.val ∧ ch.val ≤ 'Z'.val
  · have hlow : 65 ≤ ch.val.toNat := UInt32.le_iff_toNat_le.1 hupper.1
    have hhigh : ch.val.toNat ≤ 90 := UInt32.le_iff_toNat_le.1 hupper.2
    have hshift : (('a'.val - 'A'.val : UInt32)).toNat = 32 := rfl
    have hval : ch.toLower.val.toNat = ch.val.toNat + 32 := by
      have hshifted : ch.toLower.val = ch.val + ('a'.val - 'A'.val) :=
        congrArg Char.val (dif_pos hupper)
      rw [hshifted, UInt32.toNat_add, hshift]
      exact Nat.mod_eq_of_lt (by omega)
    have hisLower : ch.toLower.isLower = true := by
      refine Bool.and_eq_true_iff.2 ⟨decide_eq_true ?_, decide_eq_true ?_⟩
      · rw [ge_iff_le, UInt32.le_iff_toNat_le, hval]
        exact Nat.add_le_add_right hlow 32
      · rw [UInt32.le_iff_toNat_le, hval]
        exact Nat.add_le_add_right hhigh 32
    have hisAlpha : ch.toLower.isAlpha = true := Bool.or_eq_true_iff.2 (.inr hisLower)
    exact Bool.or_eq_true_iff.2 (.inl hisAlpha)
  · have hsame : ch.toLower = ch := dif_neg hupper
    rw [hsame]
    exact h

/-- A number in decimal. -/
def decimal (n : Nat) : Str := Nat.toDigits 10 n

/-- An integer in decimal. -/
def toText (n : Int) : Str :=
  match n with
  | .ofNat m => decimal m
  | .negSucc m => '-' :: decimal (m + 1)

/-- A number in hexadecimal. -/
def hexText (n : Nat) : Str := Nat.toDigits 16 n

/-- The number of a text of decimal digits. -/
def ofDecimal (s : Str) : Nat := Nat.ofDigitChars 10 s 0

theorem ofDecimal_decimal (n : Nat) : ofDecimal (decimal n) = n := Nat.ofDigitChars_ten_toDigits

theorem isDigit_of_mem_decimal {n : Nat} {c : Char} (h : c ∈ decimal n) : c.isDigit = true :=
  Nat.isDigit_of_mem_toDigits (by decide) (by decide) h

theorem decimal_ne_nil (n : Nat) : decimal n ≠ [] := Nat.toDigits_ne_nil

theorem decimal_injective {m n : Nat} (h : decimal m = decimal n) : m = n := by
  rw [← ofDecimal_decimal m, h, ofDecimal_decimal]

/-! ## The parts of a text at a character -/

/-- The text up to the first place of a character, the whole text where there is none. -/
def upTo (c : Char) : Str → Str
  | [] => []
  | ch :: rest => if ch = c then [] else ch :: upTo c rest

/-- The text behind the first place of a character, empty where there is none. -/
def behind (c : Char) : Str → Str
  | [] => []
  | ch :: rest => if ch = c then rest else behind c rest

theorem upTo_append {c : Char} {front : Str} (h : c ∉ front) (rest : Str) :
    upTo c (front ++ rest) = front ++ upTo c rest := by
  induction front with
  | nil => rfl
  | cons ch front ih =>
      have hne : ch ≠ c := fun heq => h (heq ▸ List.mem_cons_self)
      have hfront : c ∉ front := fun hmem => h (List.mem_cons_of_mem _ hmem)
      rw [List.cons_append, upTo, if_neg hne, ih hfront, List.cons_append]

theorem behind_append {c : Char} {front : Str} (h : c ∉ front) (rest : Str) :
    behind c (front ++ rest) = behind c rest := by
  induction front with
  | nil => rfl
  | cons ch front ih =>
      have hne : ch ≠ c := fun heq => h (heq ▸ List.mem_cons_self)
      have hfront : c ∉ front := fun hmem => h (List.mem_cons_of_mem _ hmem)
      rw [List.cons_append, behind, if_neg hne, ih hfront]

@[simp] theorem upTo_cons_self (c : Char) (rest : Str) : upTo c (c :: rest) = [] := if_pos rfl

@[simp] theorem behind_cons_self (c : Char) (rest : Str) : behind c (c :: rest) = rest := if_pos rfl

theorem upTo_of_not_mem {c : Char} {text : Str} (h : c ∉ text) : upTo c text = text := by
  have := upTo_append h []
  rwa [List.append_nil, upTo, List.append_nil] at this

theorem behind_of_not_mem {c : Char} {text : Str} (h : c ∉ text) : behind c text = [] := by
  have := behind_append h []
  rwa [List.append_nil, behind] at this

theorem upTo_split {c : Char} {front : Str} (h : c ∉ front) (back : Str) :
    upTo c (front ++ c :: back) = front := by
  rw [upTo_append h, upTo_cons_self, List.append_nil]

theorem upTo_append_cons (c : Char) (front back : Str) :
    upTo c (front ++ c :: back) = upTo c front := by
  induction front with
  | nil => exact upTo_cons_self c back
  | cons ch front ih =>
      rw [List.cons_append, upTo, upTo, ih]

theorem upTo_sublist (c : Char) (text : Str) : (upTo c text).Sublist text := by
  induction text with
  | nil => exact List.Sublist.refl []
  | cons ch text ih =>
      rw [upTo]
      split_ifs
      · exact List.nil_sublist _
      · exact ih.cons_cons ch

theorem behind_sublist (c : Char) (text : Str) : (behind c text).Sublist text := by
  induction text with
  | nil => exact List.Sublist.refl []
  | cons ch text ih =>
      rw [behind]
      split_ifs
      · exact List.sublist_cons_self ch text
      · exact ih.cons ch

theorem behind_split {c : Char} {front : Str} (h : c ∉ front) (back : Str) :
    behind c (front ++ c :: back) = back := by
  rw [behind_append h, behind_cons_self]

theorem not_mem_upTo (c : Char) (text : Str) : c ∉ upTo c text := by
  induction text with
  | nil => exact List.not_mem_nil
  | cons ch rest ih =>
      rw [upTo]
      by_cases h : ch = c
      · rw [if_pos h]
        exact List.not_mem_nil
      · rw [if_neg h]
        intro hmem
        rcases List.mem_cons.1 hmem with heq | hmem
        · exact h heq.symm
        · exact ih hmem

/-- Behind the first place of a character in a text stands all that follows the text. -/
theorem behind_append_of_mem {c : Char} {front : Str} (h : c ∈ front) (back : Str) :
    behind c (front ++ back) = behind c front ++ back := by
  obtain ⟨before, after, rfl, hbefore⟩ := List.eq_append_cons_of_mem h
  rw [List.append_assoc, List.cons_append, behind_split hbefore, behind_split hbefore]

/-- A text with the character is its part up to there, the character, and its part behind. -/
theorem upTo_behind {c : Char} {text : Str} (h : c ∈ text) :
    upTo c text ++ c :: behind c text = text := by
  obtain ⟨front, back, rfl, hfront⟩ := List.eq_append_cons_of_mem h
  rw [upTo_split hfront, behind_split hfront]

end Ssgx.Support
