import Mathlib.Logic.Function.Basic
import Ssgx.Support.Text
import Ssgx.Support.Xorshift

/-!
# The text of a UUID

`xorshift128plus` and `uuid4_generate` of `uuid4.c`. Two words of the generator fill the template
nibble by nibble. The texts of any two words are exactly those of the template (`uuid4_text_iff`),
and a text has 122 of the 128 bits of its words: two bits make way for the variant, and the last
nibble is not used (`uuid4_text_eq_iff`).
-/

set_option autoImplicit false

namespace Ssgx.Uuid

open Ssgx.Support

/-! ## The generator -/

/-- `uint64_t`. -/
abbrev Word := BitVec 64

/-- `seed`. -/
abbrev Seed := Word × Word

/-- `xorshift128plus`: the number, and the seed behind it. -/
def xorshift128plus (s : Seed) : Word × Seed :=
  let s1 := s.1
  let s0 := s.2
  let s1 := s1 ^^^ (s1 <<< 23)
  let next := s1 ^^^ s0 ^^^ (s1 >>> 18) ^^^ (s0 >>> 5)
  (next + s0, (s0, next))

/-- The seed behind one number is a xorshift of the one before. -/
theorem xorshift128plus_seed (s : Seed) : (xorshift128plus s).2 = xorshift128 23 18 5 s := by
  refine Prod.ext rfl ?_
  exact (BitVec.xor_assoc _ _ _).trans (xor_xor_xor_comm _ _ _ _)

/-! ## The text -/

/-- `s.b[k]` of the union of the two words. -/
def byteOf (words : Word × Word) (k : Nat) : Nat :=
  ((words.2 ++ words.1 : BitVec 128).extractLsb' (8 * k) 8).toNat

/-- `n` in the loop. -/
def nibbleOf (words : Word × Word) (i : Nat) : Nat :=
  let n := byteOf words (i / 2)
  if i % 2 = 1 then n / 16 else n % 16

/-- `template`. -/
def template : Str := str "xxxxxxxx-xxxx-4xxx-yxxx-xxxxxxxxxxxx"

/-- `chars[n]`. -/
def charAt (n : Nat) : Char := (str "0123456789abcdef").getD n '\x00'

/-- The loop of `uuid4_generate`, from the place `p` in the template and the count `i` on. -/
def fill (nibble : Nat → Nat) : Str → Nat → Str
  | [], _ => []
  | ch :: p, i =>
      if ch = 'x' then charAt (nibble i) :: fill nibble p (i + 1)
      else if ch = 'y' then charAt (nibble i % 4 + 8) :: fill nibble p (i + 1)
      else ch :: fill nibble p i

/-- `uuid4_generate`: the text, and the seed behind it. -/
def uuid4Generate (seed : Seed) : Str × Seed :=
  let (word0, seed) := xorshift128plus seed
  let (word1, seed) := xorshift128plus seed
  (fill (nibbleOf (word0, word1)) template 0, seed)

/-! ## The characters -/

theorem charAt_injective {m n : Nat} (hm : m < 16) (hn : n < 16)
    (h : charAt m = charAt n) : m = n := by
  have hall : ∀ i : Fin 16, ∀ j : Fin 16, charAt i = charAt j → i = j := by decide
  exact congrArg Fin.val (hall ⟨m, hm⟩ ⟨n, hn⟩ h)

theorem nibbleOf_lt (words : Word × Word) (i : Nat) : nibbleOf words i < 16 := by
  have hbyte : byteOf words (i / 2) < 256 := BitVec.isLt _
  simp only [nibbleOf]
  split_ifs
  · omega
  · omega

/-- A nibble has four bits of the words. -/
theorem testBit_nibbleOf (words : Word × Word) (i b : Nat) :
    (nibbleOf words i).testBit b =
      (decide (b < 4) && (words.2 ++ words.1 : BitVec 128).getLsbD (4 * i + b)) := by
  have hbyte : ∀ j, (byteOf words (i / 2)).testBit j =
      (decide (j < 8) && (words.2 ++ words.1 : BitVec 128).getLsbD (8 * (i / 2) + j)) := by
    intro j
    rw [byteOf, BitVec.testBit_toNat, BitVec.getLsbD_extractLsb']
  have hsixteen : (16 : Nat) = 2 ^ 4 := rfl
  simp only [nibbleOf]
  split_ifs with hodd
  · rw [hsixteen, Nat.testBit_div_two_pow, hbyte, show 8 * (i / 2) + (b + 4) = 4 * i + b by omega]
    congr 1
    exact decide_eq_decide.2 (by omega)
  · rw [hsixteen, Nat.testBit_mod_two_pow, hbyte, show 8 * (i / 2) + b = 4 * i + b by omega,
      ← Bool.and_assoc]
    congr 1
    by_cases hb : b < 4
    · simp [hb, show b < 8 by omega]
    · simp [hb]

/-- A bit of the union is a bit of one of the words. -/
theorem getLsbD_union (words : Word × Word) (k : Nat) :
    (words.2 ++ words.1 : BitVec 128).getLsbD k =
      if k < 64 then words.1.getLsbD k else words.2.getLsbD (k - 64) := by
  rw [BitVec.getLsbD_append]

/-! ## The places of the template -/

/-- The nibbles that a template asks for, and whether each makes way for the variant. -/
def places : Str → Nat → List (Nat × Bool)
  | [], _ => []
  | ch :: p, i =>
      if ch = 'x' then (i, false) :: places p (i + 1)
      else if ch = 'y' then (i, true) :: places p (i + 1)
      else places p i

/-- Two nibbles that give one character at a place. -/
def SameAt (f g : Nat → Nat) (place : Nat × Bool) : Prop :=
  if place.2 = true then f place.1 % 4 = g place.1 % 4 else f place.1 = g place.1

/-- The template is filled alike exactly where the nibbles agree at its places. -/
theorem fill_eq_iff {f g : Nat → Nat} (hf : ∀ i, f i < 16) (hg : ∀ i, g i < 16) (p : Str)
    (i : Nat) : fill f p i = fill g p i ↔ ∀ place ∈ places p i, SameAt f g place := by
  induction p generalizing i with
  | nil => simp [fill, places]
  | cons ch p ih =>
      rw [fill, fill, places]
      by_cases hx : ch = 'x'
      · rw [if_pos hx, if_pos hx, if_pos hx, List.cons.injEq, List.forall_mem_cons, ih]
        refine and_congr_left fun _ => ⟨fun h => ?_, fun h => ?_⟩
        · exact charAt_injective (hf i) (hg i) h
        · exact congrArg charAt h
      rw [if_neg hx, if_neg hx, if_neg hx]
      by_cases hy : ch = 'y'
      · rw [if_pos hy, if_pos hy, if_pos hy, List.cons.injEq, List.forall_mem_cons, ih]
        refine and_congr_left fun _ => ⟨fun h => ?_, fun h => ?_⟩
        · exact Nat.add_right_cancel (charAt_injective (by omega) (by omega) h)
        · exact congrArg (fun n => charAt (n + 8)) h
      · rw [if_neg hy, if_neg hy, if_neg hy, List.cons.injEq, ih]
        exact and_iff_right rfl

/-- A text of a template: digits, digits of the variant, and the characters of the template. -/
def Matches : Str → Str → Prop
  | [], [] => True
  | ch :: p, c :: text =>
      (if ch = 'x' then ∃ n < 16, c = charAt n
        else if ch = 'y' then ∃ n < 4, c = charAt (n + 8) else c = ch) ∧ Matches p text
  | _, _ => False

theorem matches_fill {f : Nat → Nat} (hf : ∀ i, f i < 16) (p : Str) (i : Nat) :
    Matches p (fill f p i) := by
  induction p generalizing i with
  | nil => trivial
  | cons ch p ih =>
      rw [fill]
      by_cases hx : ch = 'x'
      · rw [if_pos hx]
        refine ⟨?_, ih _⟩
        rw [if_pos hx]
        exact ⟨f i, hf i, rfl⟩
      rw [if_neg hx]
      by_cases hy : ch = 'y'
      · rw [if_pos hy]
        refine ⟨?_, ih _⟩
        rw [if_neg hx, if_pos hy]
        exact ⟨f i % 4, Nat.mod_lt _ (by decide), rfl⟩
      · rw [if_neg hy]
        refine ⟨?_, ih _⟩
        rw [if_neg hx, if_neg hy]

/-- Only the nibbles from `i` on matter. -/
theorem fill_congr {f g : Nat → Nat} (p : Str) {i : Nat} (h : ∀ j, i ≤ j → f j = g j) :
    fill f p i = fill g p i := by
  induction p generalizing i with
  | nil => rfl
  | cons ch p ih =>
      have hrest : fill f p (i + 1) = fill g p (i + 1) := ih fun j hj => h j (by omega)
      rw [fill, fill, h i (Nat.le_refl i), hrest, ih h]

/-- Every text of a template comes from some nibbles. -/
theorem exists_fill {p text : Str} (h : Matches p text) (i : Nat) :
    ∃ f : Nat → Nat, (∀ j, f j < 16) ∧ fill f p i = text := by
  induction p generalizing text i with
  | nil =>
      cases text with
      | nil => exact ⟨fun _ => 0, fun _ => Nat.zero_lt_succ 15, rfl⟩
      | cons c text => exact h.elim
  | cons ch p ih =>
      cases text with
      | nil => exact h.elim
      | cons c text =>
          obtain ⟨hc, hrest⟩ := h
          -- a nibble in front of those of the rest
          have hfront : ∀ n < 16, ∃ f : Nat → Nat, (∀ j, f j < 16) ∧ f i = n ∧
              fill f p (i + 1) = text := by
            intro n hn
            obtain ⟨f, hf, hfill⟩ := ih hrest (i + 1)
            refine ⟨Function.update f i n, fun j => ?_, Function.update_self .., ?_⟩
            · by_cases hj : j = i
              · rw [hj, Function.update_self]
                exact hn
              · rw [Function.update_of_ne hj]
                exact hf j
            · rw [← hfill]
              exact fill_congr p fun j hj => Function.update_of_ne (by omega) _ _
          by_cases hx : ch = 'x'
          · rw [if_pos hx] at hc
            obtain ⟨n, hn, rfl⟩ := hc
            obtain ⟨f, hf, hi, hfill⟩ := hfront n hn
            exact ⟨f, hf, by rw [fill, if_pos hx, hi, hfill]⟩
          rw [if_neg hx] at hc
          by_cases hy : ch = 'y'
          · rw [if_pos hy] at hc
            obtain ⟨n, hn, rfl⟩ := hc
            obtain ⟨f, hf, hi, hfill⟩ := hfront n (by omega)
            refine ⟨f, hf, ?_⟩
            rw [fill, if_neg hx, if_pos hy, hi, hfill, Nat.mod_eq_of_lt hn]
          · rw [if_neg hy] at hc
            obtain ⟨f, hf, hfill⟩ := ih hrest i
            exact ⟨f, hf, by rw [fill, if_neg hx, if_neg hy, hc, hfill]⟩

/-- The places of `template`: all nibbles but the last, and the sixteenth makes way. -/
theorem places_template :
    places template 0 = (List.range 31).map fun i => (i, decide (i = 15)) := by
  decide

/-! ## The texts -/

/-- The low bits of two numbers. -/
theorem mod_two_pow_eq_iff (m n k : Nat) :
    m % 2 ^ k = n % 2 ^ k ↔ ∀ b < k, m.testBit b = n.testBit b := by
  constructor
  · intro h b hb
    have hbit := congrArg (fun x => x.testBit b) h
    simpa [Nat.testBit_mod_two_pow, hb] using hbit
  · intro h
    apply Nat.eq_of_testBit_eq
    intro b
    rw [Nat.testBit_mod_two_pow, Nat.testBit_mod_two_pow]
    by_cases hb : b < k
    · rw [h b hb]
    · simp [hb]

/-- The number of bits of a place. -/
def bitsAt (place : Nat × Bool) : Nat := if place.2 = true then 2 else 4

/-- Two nibbles give one character exactly if the bits of the place agree. -/
theorem sameAt_iff (words words' : Word × Word) (place : Nat × Bool) :
    SameAt (nibbleOf words) (nibbleOf words') place ↔ ∀ b < bitsAt place,
      (words.2 ++ words.1 : BitVec 128).getLsbD (4 * place.1 + b) =
        (words'.2 ++ words'.1 : BitVec 128).getLsbD (4 * place.1 + b) := by
  have hbits : ∀ k ≤ 4, nibbleOf words place.1 % 2 ^ k = nibbleOf words' place.1 % 2 ^ k ↔
      ∀ b < k, (words.2 ++ words.1 : BitVec 128).getLsbD (4 * place.1 + b) =
        (words'.2 ++ words'.1 : BitVec 128).getLsbD (4 * place.1 + b) := by
    intro k hk
    rw [mod_two_pow_eq_iff]
    refine forall₂_congr fun b hb => ?_
    rw [testBit_nibbleOf, testBit_nibbleOf, decide_eq_true (show b < 4 by omega), Bool.true_and,
      Bool.true_and]
  simp only [SameAt, bitsAt]
  split_ifs
  · exact hbits 2 (by decide)
  · have hwhole : ∀ words : Word × Word, nibbleOf words place.1 % 2 ^ 4 = nibbleOf words place.1 :=
      fun words => Nat.mod_eq_of_lt (nibbleOf_lt words place.1)
    rw [← hbits 4 (Nat.le_refl 4), hwhole, hwhole]

/-- There is a word with any bits. -/
theorem exists_word (n : Nat) (bit : Nat → Bool) :
    ∃ word : BitVec n, ∀ k < n, word.getLsbD k = bit k := by
  induction n with
  | zero => exact ⟨0#0, fun k hk => absurd hk (Nat.not_lt_zero k)⟩
  | succ n ih =>
      obtain ⟨word, hword⟩ := ih
      refine ⟨BitVec.cons (bit n) word, fun k hk => ?_⟩
      rw [BitVec.getLsbD_cons]
      split_ifs with hlast
      · rw [hlast]
      · exact hword k (by omega)

/-- **The texts.** The loop of `uuid4_generate` writes a text for some two words exactly if it is
one of the template. The words are any two: which of them the generator reaches is not asked. -/
theorem uuid4_text_iff (text : Str) :
    (∃ words, fill (nibbleOf words) template 0 = text) ↔ Matches template text := by
  constructor
  · rintro ⟨words, rfl⟩
    exact matches_fill (nibbleOf_lt words) template 0
  · intro h
    obtain ⟨f, hf, rfl⟩ := exists_fill h 0
    -- the words whose nibbles these are
    obtain ⟨word0, hlow⟩ := exists_word 64 fun k => (f (k / 4)).testBit (k % 4)
    obtain ⟨word1, hhigh⟩ := exists_word 64 fun k => (f (16 + k / 4)).testBit (k % 4)
    refine ⟨(word0, word1), (fill_eq_iff (nibbleOf_lt _) hf template 0).2 ?_⟩
    have hnibble : ∀ i < 32, nibbleOf (word0, word1) i = f i := by
      intro i hi
      apply Nat.eq_of_testBit_eq
      intro b
      rw [testBit_nibbleOf, getLsbD_union]
      by_cases hb : b < 4
      · rw [decide_eq_true hb, Bool.true_and]
        split_ifs with hfirst
        · rw [hlow _ hfirst]
          congr 2
          · omega
          · omega
        · rw [hhigh _ (by omega)]
          congr 2
          · omega
          · omega
      · have hsmall : f i < 2 ^ b :=
          Nat.lt_of_lt_of_le (hf i) (Nat.pow_le_pow_right (n := 2) (by omega) (Nat.not_lt.1 hb))
        have hzero : (f i).testBit b = false := Nat.testBit_lt_two_pow hsmall
        rw [decide_eq_false hb, Bool.false_and, hzero]
    rw [places_template]
    intro place hplace
    obtain ⟨i, hi, rfl⟩ := List.mem_map.1 hplace
    have heq := hnibble i (by have := List.mem_range.1 hi; omega)
    simp only [SameAt, heq, ite_self]

/-- **What a text tells.** Two pairs of words give one text exactly if they agree in the low 62 bits
of the first word and the low 60 bits of the second. -/
theorem uuid4_text_eq_iff (words words' : Word × Word) :
    fill (nibbleOf words) template 0 = fill (nibbleOf words') template 0 ↔
      words.1.setWidth 62 = words'.1.setWidth 62 ∧ words.2.setWidth 60 = words'.2.setWidth 60 := by
  have hlow : ∀ (m : Nat) (x y : Word), x.setWidth m = y.setWidth m ↔
      ∀ k < m, x.getLsbD k = y.getLsbD k := by
    intro m x y
    constructor
    · intro h k hk
      have hbit := congrArg (fun z => z.getLsbD k) h
      simpa [BitVec.getLsbD_setWidth, hk] using hbit
    · intro h
      apply BitVec.eq_of_getLsbD_eq
      intro k hk
      rw [BitVec.getLsbD_setWidth, BitVec.getLsbD_setWidth, h k hk]
  rw [fill_eq_iff (nibbleOf_lt words) (nibbleOf_lt words'), places_template, List.forall_mem_map,
    hlow, hlow]
  simp only [sameAt_iff, getLsbD_union, bitsAt, decide_eq_true_eq, List.mem_range]
  constructor
  · intro h
    constructor
    · intro k hk
      have hbit := h (k / 4) (by omega) (k % 4) (by split_ifs <;> omega)
      rwa [show 4 * (k / 4) + k % 4 = k by omega, if_pos (by omega), if_pos (by omega)] at hbit
    · intro k hk
      have hbit := h (16 + k / 4) (by omega) (k % 4) (by split_ifs <;> omega)
      rwa [show 4 * (16 + k / 4) + k % 4 = k + 64 by omega, if_neg (by omega), if_neg (by omega),
        Nat.add_sub_cancel] at hbit
  · rintro ⟨hfirst, hsecond⟩ i hi b hb
    by_cases hi' : i < 16
    · have hk : 4 * i + b < 62 := by split_ifs at hb <;> omega
      rw [if_pos (by omega), if_pos (by omega)]
      exact hfirst _ hk
    · rw [if_neg (show ¬ i = 15 by omega)] at hb
      rw [if_neg (by omega), if_neg (by omega)]
      exact hsecond _ (by omega)

end Ssgx.Uuid
