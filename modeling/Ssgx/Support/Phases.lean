import Mathlib.Data.List.Basic
import Ssgx.Support.Run

/-!
# Readers that go from phase to phase

What a reader that takes one symbol after the other accepts, phase by phase. `Accepts s text` is any
predicate on states and texts; each rule below takes what one symbol does in the states of a phase
to what the whole phase reads: a run of symbols up to the first other one (`accepts_span`), up to a
given stop (`accepts_until`), a given number of symbols (`accepts_count`), or any number of items
(`accepts_repeat`). All rules are equivalences, so that one chain of them says what is accepted and
that nothing else is.
-/

set_option autoImplicit false

namespace Ssgx.Support

universe u v w

variable {σ : Type u} {α : Type v} {Accepts : σ → List α → Prop}

/-- **The span rule.** A phase that goes on over the symbols of `P`, and keeps them, has read a run
of them where the first other symbol comes. -/
theorem accepts_span (st : List α → σ) {P : α → Bool} (hend : ∀ read, ¬ Accepts (st read) [])
    (hloop : ∀ read a rest, P a = true →
      (Accepts (st read) (a :: rest) ↔ Accepts (st (read ++ [a])) rest))
    (read text : List α) :
    Accepts (st read) text ↔ ∃ span a rest, text = span ++ a :: rest ∧ (∀ b ∈ span, P b = true) ∧
      P a = false ∧ Accepts (st (read ++ span)) (a :: rest) := by
  constructor
  · intro h
    induction text generalizing read with
    | nil => exact absurd h (hend read)
    | cons a rest ih =>
        cases ha : P a with
        | false => exact ⟨[], a, rest, rfl, by simp, ha, by rwa [List.append_nil]⟩
        | true =>
            obtain ⟨span, b, rest', rfl, hspan, hb, hrest⟩ := ih _ ((hloop read a rest ha).1 h)
            refine ⟨a :: span, b, rest', rfl, ?_, hb, ?_⟩
            · exact List.forall_mem_cons.2 ⟨ha, hspan⟩
            · rwa [List.append_assoc] at hrest
  · rintro ⟨span, a, rest, rfl, hspan, -, h⟩
    induction span generalizing read with
    | nil => rwa [List.append_nil] at h
    | cons b span ih =>
        obtain ⟨hb, hspan⟩ := List.forall_mem_cons.1 hspan
        refine (hloop read b _ hb).2 (ih _ hspan ?_)
        rwa [List.append_assoc]

/-- **The stop rule.** A phase that goes on over the symbols of `P` and leaves at one stop only. -/
theorem accepts_until (st : List α → σ) {P : α → Bool} {stop : α}
    (Next : List α → List α → Prop) (hstop : P stop = false)
    (hend : ∀ read, ¬ Accepts (st read) [])
    (hloop : ∀ read a rest, P a = true →
      (Accepts (st read) (a :: rest) ↔ Accepts (st (read ++ [a])) rest))
    (hleave : ∀ read a rest, P a = false →
      (Accepts (st read) (a :: rest) ↔ a = stop ∧ Next read rest))
    (read text : List α) :
    Accepts (st read) text ↔ ∃ span rest, text = span ++ stop :: rest ∧
      (∀ b ∈ span, P b = true) ∧ Next (read ++ span) rest := by
  rw [accepts_span st hend hloop]
  constructor
  · rintro ⟨span, a, rest, rfl, hspan, ha, h⟩
    obtain ⟨rfl, hnext⟩ := (hleave _ _ _ ha).1 h
    exact ⟨span, rest, rfl, hspan, hnext⟩
  · rintro ⟨span, rest, rfl, hspan, hnext⟩
    exact ⟨span, stop, rest, rfl, hspan, hstop, (hleave _ _ _ hstop).2 ⟨rfl, hnext⟩⟩

/-- The stop rule for a phase that one symbol of its own begins. -/
theorem accepts_some_until {begins : σ} (st : List α → σ) {P₀ P : α → Bool} {stop : α}
    (Next : List α → List α → Prop) (hnone : ¬ Accepts begins [])
    (hbegin : ∀ a rest, Accepts begins (a :: rest) ↔ P₀ a = true ∧ Accepts (st [a]) rest)
    (hstop : P stop = false) (hend : ∀ read, ¬ Accepts (st read) [])
    (hloop : ∀ read a rest, P a = true →
      (Accepts (st read) (a :: rest) ↔ Accepts (st (read ++ [a])) rest))
    (hleave : ∀ read a rest, P a = false →
      (Accepts (st read) (a :: rest) ↔ a = stop ∧ Next read rest))
    (text : List α) :
    Accepts begins text ↔ ∃ a span rest, text = a :: (span ++ stop :: rest) ∧ P₀ a = true ∧
      (∀ b ∈ span, P b = true) ∧ Next (a :: span) rest := by
  cases text with
  | nil => simp [hnone]
  | cons a text =>
      rw [hbegin, accepts_until st Next hstop hend hloop hleave]
      constructor
      · rintro ⟨ha, span, rest, rfl, hspan, hnext⟩
        exact ⟨a, span, rest, rfl, ha, hspan, hnext⟩
      · rintro ⟨a, span, rest, heq, ha, hspan, hnext⟩
        cases heq
        exact ⟨ha, span, rest, rfl, hspan, hnext⟩

/-- **The counting rule.** A phase that takes a number of symbols, whatever they are. -/
theorem accepts_count (st : Nat → List α → σ) (Next : List α → List α → Prop)
    (hend : ∀ n read, ¬ Accepts (st (n + 1) read) [])
    (hmore : ∀ n read a rest,
      Accepts (st (n + 2) read) (a :: rest) ↔ Accepts (st (n + 1) (read ++ [a])) rest)
    (hlast : ∀ read a rest, Accepts (st 1 read) (a :: rest) ↔ Next (read ++ [a]) rest)
    (n : Nat) (read text : List α) :
    Accepts (st (n + 1) read) text ↔ ∃ data rest, text = data ++ rest ∧ data.length = n + 1 ∧
      Next (read ++ data) rest := by
  induction n generalizing read text with
  | zero =>
      constructor
      · intro h
        cases text with
        | nil => exact absurd h (hend 0 read)
        | cons a rest => exact ⟨[a], rest, rfl, rfl, (hlast read a rest).1 h⟩
      · rintro ⟨data, rest, rfl, hdata, h⟩
        obtain ⟨a, rfl⟩ := List.length_eq_one_iff.1 hdata
        exact (hlast read a rest).2 h
  | succ n ih =>
      constructor
      · intro h
        cases text with
        | nil => exact absurd h (hend (n + 1) read)
        | cons a rest =>
            obtain ⟨data, rest', rfl, hdata, h⟩ := (ih _ _).1 ((hmore n read a rest).1 h)
            refine ⟨a :: data, rest', rfl, congrArg (· + 1) hdata, ?_⟩
            rwa [List.append_assoc] at h
      · rintro ⟨data, rest, rfl, hdata, h⟩
        obtain ⟨a, data, rfl⟩ := List.exists_cons_of_length_eq_add_one hdata
        refine (hmore n read a _).2 ((ih _ _).2 ⟨data, rest, rfl, Nat.succ.inj hdata, ?_⟩)
        rwa [List.append_assoc]

/-- **The rule of repetition.** A phase that stops, or reads one item and begins again. -/
theorem accepts_repeat {ι : Type w} {wire : ι → List α} (next : σ → ι → σ) {Admits : σ → ι → Prop}
    {Stop : σ → List α → Prop} (hwire : ∀ i, wire i ≠ [])
    (hstep : ∀ s text, Accepts s text ↔
      Stop s text ∨ ∃ i rest, text = wire i ++ rest ∧ Admits s i ∧ Accepts (next s i) rest)
    (s : σ) (text : List α) :
    Accepts s text ↔ ∃ items rest, text = items.flatMap wire ++ rest ∧ Along next Admits s items ∧
      Stop (runFrom next s items) rest := by
  constructor
  · -- the rest behind an item is shorter
    induction hlength : text.length using Nat.strongRecOn generalizing s text with
    | _ n ih =>
        intro h
        rcases (hstep s text).1 h with hstop | ⟨i, rest, rfl, hadmits, hrest⟩
        · exact ⟨[], text, rfl, trivial, hstop⟩
        · have hshort : rest.length < n := by
            rw [← hlength, List.length_append]
            exact Nat.lt_add_of_pos_left (List.length_pos_of_ne_nil (hwire i))
          obtain ⟨items, rest', rfl, halong, hstop⟩ := ih _ hshort (next s i) rest rfl hrest
          refine ⟨i :: items, rest', ?_, ⟨hadmits, halong⟩, hstop⟩
          rw [List.flatMap_cons, List.append_assoc]
  · rintro ⟨items, rest, rfl, halong, hstop⟩
    induction items generalizing s with
    | nil => exact (hstep s rest).2 (.inl hstop)
    | cons i items ih =>
        refine (hstep s _).2 (.inr ⟨i, items.flatMap wire ++ rest, ?_, halong.1, ?_⟩)
        · rw [List.flatMap_cons, List.append_assoc]
        · exact ih _ halong.2 hstop

end Ssgx.Support
