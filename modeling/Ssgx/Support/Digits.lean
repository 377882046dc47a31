import Mathlib.Data.List.Induction
import Ssgx.Support.Text

/-!
# Texts of decimal digits

A text of decimal digits is determined by its length and its number (`ofDecimal_injective`), which
is below the power of ten of the length (`ofDecimal_lt`). `padded` writes a number with zeros in
front, up to a width. Texts of as many digits have the order of their numbers
(`lt_iff_ofDecimal_lt`).
-/

set_option autoImplicit false

namespace Ssgx.Support

/-- A text of decimal digits. -/
def AllDigits (s : Str) : Prop := ∀ c ∈ s, c.isDigit = true

instance (s : Str) : Decidable (AllDigits s) := List.decidableBAll _ s

theorem allDigits_append {s t : Str} : AllDigits (s ++ t) ↔ AllDigits s ∧ AllDigits t :=
  List.forall_mem_append

theorem allDigits_decimal (n : Nat) : AllDigits (decimal n) := fun _ hc => isDigit_of_mem_decimal hc

theorem isDigit_iff (c : Char) : c.isDigit = true ↔ 48 ≤ c.toNat ∧ c.toNat ≤ 57 := by
  simp only [Char.isDigit, Bool.and_eq_true, decide_eq_true_eq, ge_iff_le, UInt32.le_iff_toNat_le]
  rfl

/-! ## The number of a text -/

theorem ofDecimal_append (s t : Str) :
    ofDecimal (s ++ t) = 10 ^ t.length * ofDecimal s + ofDecimal t := by
  rw [ofDecimal, Nat.ofDigitChars_append, Nat.ofDigitChars_eq_ofDigitChars_zero]
  rfl

theorem ofDecimal_snoc (s : Str) (c : Char) :
    ofDecimal (s ++ [c]) = 10 * ofDecimal s + (c.toNat - 48) := by
  have hlast : ofDecimal [c] = c.toNat - 48 := by
    rw [ofDecimal, Nat.ofDigitChars_cons, Nat.ofDigitChars_nil, Nat.mul_zero, Nat.zero_add]
    rfl
  rw [ofDecimal_append, List.length_singleton, Nat.pow_one, hlast]

theorem ofDecimal_replicate_zero (n : Nat) : ofDecimal (List.replicate n '0') = 0 := by
  rw [ofDecimal, Nat.ofDigitChars_replicate_zero, Nat.mul_zero]

theorem ofDecimal_lt {s : Str} (h : AllDigits s) : ofDecimal s < 10 ^ s.length := by
  induction s using List.reverseRecOn with
  | nil => exact Nat.one_pos
  | append_singleton s c ih =>
      obtain ⟨hs, hc⟩ := allDigits_append.1 h
      have hdigit := (isDigit_iff c).1 (hc c List.mem_cons_self)
      have hlt := ih hs
      rw [ofDecimal_snoc, List.length_append, List.length_singleton, Nat.pow_succ]
      omega

/-- **Digits are told apart by their number**, where they are as many. -/
theorem ofDecimal_injective {s t : Str} (hs : AllDigits s) (ht : AllDigits t)
    (hlength : s.length = t.length) (h : ofDecimal s = ofDecimal t) : s = t := by
  induction s using List.reverseRecOn generalizing t with
  | nil => exact (List.length_eq_zero_iff.1 hlength.symm).symm
  | append_singleton s c ih =>
      rcases List.eq_nil_or_concat t with rfl | ⟨t, d, rfl⟩
      · simp at hlength
      · rw [List.concat_eq_append] at ht h hlength ⊢
        obtain ⟨hs, hc⟩ := allDigits_append.1 hs
        obtain ⟨ht, hd⟩ := allDigits_append.1 ht
        have hc' := (isDigit_iff c).1 (hc c List.mem_cons_self)
        have hd' := (isDigit_iff d).1 (hd d List.mem_cons_self)
        rw [ofDecimal_snoc, ofDecimal_snoc] at h
        have hfront : s = t := ih hs ht (by simpa using hlength) (by omega)
        have hlast : c = d := Char.toNat_inj.1 (by omega)
        rw [hfront, hlast]

/-! ## A fixed width -/

/-- A number in decimal, with zeros in front up to a width. -/
def padded (width n : Nat) : Str :=
  List.replicate (width - (decimal n).length) '0' ++ decimal n

theorem allDigits_padded (width n : Nat) : AllDigits (padded width n) := by
  refine allDigits_append.2 ⟨fun c hc => ?_, allDigits_decimal n⟩
  rw [List.eq_of_mem_replicate hc]
  rfl

theorem ofDecimal_padded (width n : Nat) : ofDecimal (padded width n) = n := by
  rw [padded, ofDecimal_append, ofDecimal_replicate_zero, Nat.mul_zero, Nat.zero_add,
    ofDecimal_decimal]

theorem length_decimal_le_iff {n width : Nat} (hwidth : 0 < width) :
    (decimal n).length ≤ width ↔ n < 10 ^ width :=
  Nat.length_toDigits_le_iff (by decide) hwidth

/-- The number of digits of a number other than zero. -/
theorem lt_length_decimal_iff {n k : Nat} (hn : n ≠ 0) : k < (decimal n).length ↔ 10 ^ k ≤ n := by
  rcases Nat.eq_zero_or_pos k with rfl | hk
  · exact iff_of_true (List.length_pos_of_ne_nil (decimal_ne_nil n)) (Nat.one_le_iff_ne_zero.2 hn)
  · have hle := length_decimal_le_iff (n := n) hk
    omega

theorem length_padded {width n : Nat} (hwidth : 0 < width) (hn : n < 10 ^ width) :
    (padded width n).length = width := by
  have hle := (length_decimal_le_iff hwidth).2 hn
  rw [padded, List.length_append, List.length_replicate]
  omega

theorem le_length_padded (width n : Nat) : width ≤ (padded width n).length := by
  rw [padded, List.length_append, List.length_replicate]
  omega

/-- Digits are the number they denote, written with their width. -/
theorem padded_ofDecimal {s : Str} (hs : AllDigits s) (hne : s ≠ []) :
    padded s.length (ofDecimal s) = s := by
  apply ofDecimal_injective (allDigits_padded _ _) hs
  · exact length_padded (List.length_pos_of_ne_nil hne) (ofDecimal_lt hs)
  · exact ofDecimal_padded _ _

/-! ## The order of texts -/

/-- Texts that begin with texts of one length are ordered by these, and then by what follows. -/
theorem append_lt_append_iff {α : Type} [LT α] {a b : List α} (h : a.length = b.length)
    (x y : List α) :
    a ++ x < b ++ y ↔ a < b ∨ (a = b ∧ x < y) := by
  induction a generalizing b with
  | nil =>
      obtain rfl : b = [] := List.length_eq_zero_iff.1 h.symm
      simp
  | cons c a ih =>
      obtain ⟨d, b, rfl⟩ := List.exists_cons_of_length_eq_add_one h.symm
      rw [List.cons_append, List.cons_append, List.cons_lt_cons_iff, List.cons_lt_cons_iff,
        ih (Nat.succ.inj h), List.cons.injEq, and_or_left, ← or_assoc, ← and_assoc]

theorem ofDecimal_cons (c : Char) (s : Str) :
    ofDecimal (c :: s) = 10 ^ s.length * (c.toNat - 48) + ofDecimal s := by
  have hfirst := ofDecimal_snoc [] c
  rw [← List.singleton_append, ofDecimal_append]
  rw [List.nil_append] at hfirst
  rw [hfirst, show ofDecimal [] = 0 from rfl, Nat.mul_zero, Nat.zero_add]

/-- **Digits are ordered by their number**, where they are as many. -/
theorem lt_iff_ofDecimal_lt {s t : Str} (hs : AllDigits s) (ht : AllDigits t)
    (hlength : s.length = t.length) : s < t ↔ ofDecimal s < ofDecimal t := by
  induction s generalizing t with
  | nil =>
      obtain rfl : t = [] := List.length_eq_zero_iff.1 hlength.symm
      exact iff_of_false (List.not_lt_nil _) (Nat.lt_irrefl _)
  | cons c s ih =>
      obtain ⟨d, t, rfl⟩ := List.exists_cons_of_length_eq_add_one hlength.symm
      obtain ⟨hc, hs⟩ := List.forall_mem_cons.1 hs
      obtain ⟨hd, ht⟩ := List.forall_mem_cons.1 ht
      have hlen : s.length = t.length := Nat.succ.inj hlength
      have hcode := (isDigit_iff c).1 hc
      have hcode' := (isDigit_iff d).1 hd
      have hlow := ofDecimal_lt hs
      have hlow' := ofDecimal_lt ht
      have hchar : c < d ↔ c.toNat < d.toNat := Iff.rfl
      have hsame : c = d ↔ c.toNat = d.toNat := ⟨fun h => h ▸ rfl, fun h => Char.toNat_inj.1 h⟩
      rw [List.cons_lt_cons_iff, ih hs ht hlen, ofDecimal_cons, ofDecimal_cons, hchar, hsame]
      rw [hlen] at hlow ⊢
      generalize 10 ^ t.length = p at hlow hlow' ⊢
      constructor
      · rintro (hlt | ⟨heq, hlt⟩)
        · have hmul : p * (c.toNat - 48 + 1) ≤ p * (d.toNat - 48) :=
            Nat.mul_le_mul_left p (by omega)
          rw [Nat.mul_add, Nat.mul_one] at hmul
          omega
        · rw [heq]
          omega
      · intro h
        rcases Nat.lt_trichotomy c.toNat d.toNat with hlt | heq | hgt
        · exact .inl hlt
        · rw [heq] at h
          exact .inr ⟨heq, by omega⟩
        · have hmul : p * (d.toNat - 48 + 1) ≤ p * (c.toNat - 48) :=
            Nat.mul_le_mul_left p (by omega)
          rw [Nat.mul_add, Nat.mul_one] at hmul
          omega

end Ssgx.Support
