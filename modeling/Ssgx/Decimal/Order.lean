import Ssgx.Decimal.Reachable

/-!
# The order of the objects

The six comparison operators of `BigDecimal`. Each calls `Compare`, and `>=` and `<=` call it a
second time where the first answer is not theirs. On reachable objects they compare the exact values
of the numbers, whatever their exponents and digits, and they throw exactly where one of the objects
has no number (`reachable_order`).
-/

set_option autoImplicit false

namespace Ssgx.Decimal

open Ssgx.Support

/-- The comparison operators. -/
inductive Comparison where
  | equal
  | notEqual
  | greater
  | less
  | greaterEqual
  | lessEqual
deriving DecidableEq

namespace Comparison

/-- The operator. -/
def call (mpd : Mpd) : Comparison → BigDecimal → BigDecimal → Except Failure Bool
  | equal => BigDecimal.equal mpd
  | notEqual => BigDecimal.notEqual mpd
  | greater => BigDecimal.greater mpd
  | less => BigDecimal.less mpd
  | greaterEqual => BigDecimal.greaterEqual mpd
  | lessEqual => BigDecimal.lessEqual mpd

/-- What the operator says of two values. -/
def Says : Comparison → ℚ → ℚ → Prop
  | equal, x, y => x = y
  | notEqual, x, y => x ≠ y
  | greater, x, y => y < x
  | less, x, y => x < y
  | greaterEqual, x, y => y ≤ x
  | lessEqual, x, y => x ≤ y

/-- What the operator makes of the order of two numbers. -/
def ofOrder : Comparison → Int → Bool
  | equal, order => order = 0
  | notEqual, order => order ≠ 0
  | greater, order => order = 1
  | less, order => order = -1
  | greaterEqual, order => order = 1 ∨ order = 0
  | lessEqual, order => order = -1 ∨ order = 0

/-- The order of two numbers tells what every operator says of their values. -/
theorem ofOrder_compare (r : Comparison) (a b : Number) :
    r.ofOrder (a.compare b) = true ↔ r.Says a.value b.value := by
  rcases lt_trichotomy a.value b.value with hlt | heq | hgt
  · have horder : a.compare b = -1 := if_pos hlt
    rw [horder]
    cases r with
    | equal => exact iff_of_false (by decide) hlt.ne
    | notEqual => exact iff_of_true (by decide) hlt.ne
    | greater => exact iff_of_false (by decide) hlt.not_gt
    | less => exact iff_of_true (by decide) hlt
    | greaterEqual => exact iff_of_false (by decide) hlt.not_ge
    | lessEqual => exact iff_of_true (by decide) hlt.le
  · have horder : a.compare b = 0 := (if_neg heq.not_lt).trans (if_pos heq)
    rw [horder]
    cases r with
    | equal => exact iff_of_true (by decide) heq
    | notEqual => exact iff_of_false (by decide) (not_not_intro heq)
    | greater => exact iff_of_false (by decide) heq.symm.not_lt
    | less => exact iff_of_false (by decide) heq.not_lt
    | greaterEqual => exact iff_of_true (by decide) heq.ge
    | lessEqual => exact iff_of_true (by decide) heq.le
  · have horder : a.compare b = 1 := (if_neg hgt.not_gt).trans (if_neg hgt.ne')
    rw [horder]
    cases r with
    | equal => exact iff_of_false (by decide) hgt.ne'
    | notEqual => exact iff_of_true (by decide) hgt.ne'
    | greater => exact iff_of_true (by decide) hgt
    | less => exact iff_of_false (by decide) hgt.not_gt
    | greaterEqual => exact iff_of_true (by decide) hgt.le
    | lessEqual => exact iff_of_false (by decide) hgt.not_ge

end Comparison

namespace BigDecimal

/-- The second comparison gives the same order. -/
theorem compareTwice_of_ok {mpd : Mpd} {self num : BigDecimal} {order : Int}
    (h : compare mpd self num = .ok order) (wanted : Int) :
    compareTwice mpd self num wanted = .ok (order = wanted ∨ order = 0) := by
  rw [compareTwice, h]
  show (if order = wanted then Except.ok true else Except.ok (decide (order = 0))) = _
  by_cases hwanted : order = wanted
  · rw [if_pos hwanted, decide_eq_true (.inl hwanted)]
  · rw [if_neg hwanted]
    exact congrArg Except.ok (decide_eq_decide.2 (or_iff_right hwanted).symm)

theorem compareTwice_of_error {mpd : Mpd} {self num : BigDecimal} {failure : Failure}
    (h : compare mpd self num = .error failure) (wanted : Int) :
    compareTwice mpd self num wanted = .error failure := by
  rw [compareTwice, h]
  rfl

/-- An operator is a function of the order. -/
theorem comparison_of_ok {mpd : Mpd} {self num : BigDecimal} {order : Int}
    (h : compare mpd self num = .ok order) (r : Comparison) :
    r.call mpd self num = .ok (r.ofOrder order) := by
  cases r with
  | equal => exact congrArg (Except.map _) h
  | notEqual => exact congrArg (Except.map _) h
  | greater => exact congrArg (Except.map _) h
  | less => exact congrArg (Except.map _) h
  | greaterEqual => exact compareTwice_of_ok h 1
  | lessEqual => exact compareTwice_of_ok h (-1)

theorem comparison_of_error {mpd : Mpd} {self num : BigDecimal} {failure : Failure}
    (h : compare mpd self num = .error failure) (r : Comparison) :
    r.call mpd self num = .error failure := by
  cases r with
  | equal => exact congrArg (Except.map _) h
  | notEqual => exact congrArg (Except.map _) h
  | greater => exact congrArg (Except.map _) h
  | less => exact congrArg (Except.map _) h
  | greaterEqual => exact compareTwice_of_error h 1
  | lessEqual => exact compareTwice_of_error h (-1)

/-- `Compare` of two numbers is their order. -/
theorem compare_of_data {mpd : Mpd} (hmpd : mpd.Conforms) {self num : BigDecimal} {a b : Number}
    (ha : self.data = some (.finite a)) (hb : num.data = some (.finite b)) :
    compare mpd self num = .ok (a.compare b) := by
  have hcmp := hmpd.cmp _ supported_defaultContext a b
  refine bind_eq_ok_iff.2 ⟨_, assertThrow_eq_ok_iff.2 hb, ?_⟩
  refine bind_eq_ok_iff.2 ⟨_, assertThrow_eq_ok_iff.2 ha, ?_⟩
  rw [hcmp]
  -- an order is not the number that stands for a signaling NaN
  refine if_neg fun hnan => ?_
  simp only [Number.compare] at hnan
  split_ifs at hnan <;> omega

/-- A `Compare` that returns was of two numbers. -/
theorem data_of_compare {mpd : Mpd} {self num : BigDecimal} {order : Int}
    (h : compare mpd self num = .ok order) : self.data ≠ none ∧ num.data ≠ none := by
  obtain ⟨b, hb, hrest⟩ := bind_eq_ok_iff.1 h
  obtain ⟨a, ha, -⟩ := bind_eq_ok_iff.1 hrest
  rw [assertThrow_eq_ok_iff] at ha hb
  exact ⟨by simp [ha], by simp [hb]⟩

theorem defined_compare (mpd : Mpd) (self num : BigDecimal) : Defined (compare mpd self num) := by
  apply defined_bind (defined_assertThrow _ _)
  intro b _
  apply defined_bind (defined_assertThrow _ _)
  intro a _
  by_cases hnan : mpd.cmp defaultContext a b = 2147483647
  · exact .inl ⟨_, _, if_pos hnan⟩
  · exact .inr ⟨_, if_neg hnan⟩

end BigDecimal

/-- **The order of reachable objects** is that of the exact values of their numbers. An operator
throws exactly where one of the objects has no number. -/
theorem reachable_order {mpd : Mpd} (hmpd : mpd.Conforms) (ops : List Operation)
    {self num : BigDecimal} (hself : self ∈ run mpd ops) (hnum : num ∈ run mpd ops)
    (r : Comparison) :
    (∃ a b, self.Has a ∧ num.Has b ∧
      ∃ said, r.call mpd self num = .ok said ∧ (said = true ↔ r.Says a.value b.value)) ∨
    ((self.data = none ∨ num.data = none) ∧ Throws (r.call mpd self num)) := by
  by_cases hdata : self.data = none ∨ num.data = none
  · refine .inr ⟨hdata, ?_⟩
    rcases BigDecimal.defined_compare mpd self num with ⟨code, text, hthrows⟩ | ⟨order, hok⟩
    · exact ⟨code, text, BigDecimal.comparison_of_error hthrows r⟩
    · obtain ⟨hleft, hright⟩ := BigDecimal.data_of_compare hok
      exact (hdata.elim hleft hright).elim
  · rw [not_or] at hdata
    obtain ⟨a, ha⟩ := valid_run hmpd ops hself hdata.1
    obtain ⟨b, hb⟩ := valid_run hmpd ops hnum hdata.2
    have hcompare := BigDecimal.compare_of_data hmpd ha.data hb.data
    exact .inl ⟨a, b, ha, hb, _, BigDecimal.comparison_of_ok hcompare r, r.ofOrder_compare a b⟩

/-- `-12.345` is below `6.78E+9`, and not above it. -/
theorem reachable_order_debit :
    Comparison.less.call Mpd.reference ⟨some (.finite debit)⟩ ⟨some (.finite credit)⟩ = .ok true ∧
      Comparison.greaterEqual.call Mpd.reference ⟨some (.finite debit)⟩
        ⟨some (.finite credit)⟩ = .ok false := by
  have hself : BigDecimal.mk (some (.finite debit)) ∈ run Mpd.reference
      [.construct (some (str "-12.345")), .construct (some (str "6.78E+9"))] :=
    run_debit_credit ▸ List.mem_cons_self
  have hnum : BigDecimal.mk (some (.finite credit)) ∈ run Mpd.reference
      [.construct (some (str "-12.345")), .construct (some (str "6.78E+9"))] :=
    run_debit_credit ▸ List.mem_cons_of_mem _ List.mem_cons_self
  have hlt : debit.value < credit.value := by
    rw [value_debit, value_credit]
    norm_num
  constructor
  · rcases reachable_order Mpd.reference_conforms _ hself hnum .less with
      ⟨a, b, ha, hb, said, hsaid, hiff⟩ | ⟨hnone, -⟩
    · cases ha.data
      cases hb.data
      rw [hsaid, hiff.2 hlt]
    · exact hnone.elim (fun h => by cases h) (fun h => by cases h)
  · rcases reachable_order Mpd.reference_conforms _ hself hnum .greaterEqual with
      ⟨a, b, ha, hb, said, hsaid, hiff⟩ | ⟨hnone, -⟩
    · cases ha.data
      cases hb.data
      have hnot : said ≠ true := fun h => absurd (hiff.1 h) (not_le.2 hlt)
      rw [hsaid, Bool.eq_false_of_not_eq_true hnot]
    · exact hnone.elim (fun h => by cases h) (fun h => by cases h)

end Ssgx.Decimal
