import Mathlib.Data.List.Infix
import Ssgx.Support.Run
import Ssgx.Uuid.Text

/-!
# The UUID generator

`UUIDGenerator::NewUUID4`. The calls take turns at the mutex, so the threads of an enclave are one
run over the answers of `sgx_read_rand`. A seed that was read serves for a block of `INTERVAL`
texts; a failing read throws, and the next call reads again (`texts_run`).
-/

set_option autoImplicit false

namespace Ssgx.Uuid

open Ssgx.Support

/-- `INTERVAL`. -/
def interval : Nat := 128

/-- What one call of `sgx_read_rand` does: it fills the seed, or fails and leaves something in it.
-/
inductive RandAnswer where
  | success (seed : Seed)
  | failure (left : Seed)

/-- `count` and `seed`. -/
structure UUIDGenerator where
  count : Nat
  seed : Seed

namespace UUIDGenerator

/-- Before the first call. -/
def fresh : UUIDGenerator := ⟨0, (0, 0)⟩

/-- `uuid4_init`: whether it succeeds. -/
def uuid4Init (g : UUIDGenerator) : RandAnswer → UUIDGenerator × Bool
  | .success seed => ({ g with seed := seed }, true)
  | .failure left => ({ g with seed := left }, false)

/-- The end of `NewUUID4`: one more text. -/
def draw (g : UUIDGenerator) : UUIDGenerator × Str :=
  (⟨(g.count + 1) % interval, (uuid4Generate g.seed).2⟩, (uuid4Generate g.seed).1)

/-- `NewUUID4`: the text, or none where it throws. -/
def newUUID4 (g : UUIDGenerator) (a : RandAnswer) : UUIDGenerator × Option Str :=
  if g.count = 0 then
    match g.uuid4Init a with
    | (g, true) => (g.draw.1, some g.draw.2)
    | (g, false) => (g, none)
  else (g.draw.1, some g.draw.2)

/-! ## Runs -/

/-- The texts that the calls of a run return. -/
def texts : UUIDGenerator → List RandAnswer → List Str
  | _, [] => []
  | g, a :: rest => (g.newUUID4 a).2.toList ++ texts (g.newUUID4 a).1 rest

/-- The seed that a call reads, if it reads one. -/
def readNow (g : UUIDGenerator) : RandAnswer → List Seed
  | .success seed => if g.count = 0 then [seed] else []
  | .failure _ => []

/-- The seeds that the calls of a run read. -/
def seedsRead : UUIDGenerator → List RandAnswer → List Seed
  | _, [] => []
  | g, a :: rest => g.readNow a ++ seedsRead (g.newUUID4 a).1 rest

/-- The texts of a seed. -/
def block : Nat → Seed → List Str
  | 0, _ => []
  | n + 1, seed => (uuid4Generate seed).1 :: block n (uuid4Generate seed).2

theorem length_block (n : Nat) (seed : Seed) : (block n seed).length = n := by
  induction n generalizing seed with
  | zero => rfl
  | succ n ih => rw [block, List.length_cons, ih]

/-- What is left of the block of the seed in use. -/
def pending (g : UUIDGenerator) : List Str :=
  if g.count = 0 then [] else block (interval - g.count) g.seed

theorem pending_draw (g : UUIDGenerator) :
    g.draw.1.pending = if (g.count + 1) % interval = 0 then []
      else block (interval - (g.count + 1) % interval) (uuid4Generate g.seed).2 := rfl

/-- A call with a block in use returns its next text. -/
theorem newUUID4_pending {g : UUIDGenerator} (hcount : g.count ≠ 0) (hlt : g.count < interval)
    (a : RandAnswer) :
    ∃ text, (g.newUUID4 a).2 = some text ∧ g.pending = text :: (g.newUUID4 a).1.pending ∧
      (g.newUUID4 a).1.count < interval := by
  refine ⟨(uuid4Generate g.seed).1, ?_, ?_, ?_⟩
  · rw [newUUID4, if_neg hcount]
    rfl
  · rw [newUUID4, if_neg hcount, pending, if_neg hcount]
    obtain ⟨n, hn⟩ := Nat.exists_eq_add_of_lt hlt
    have hleft : interval - g.count = n + 1 := by omega
    rw [hleft, block]
    congr 1
    rw [pending_draw]
    by_cases hlast : n = 0
    · have hwrap : (g.count + 1) % interval = 0 := by
        rw [show g.count + 1 = interval by omega, Nat.mod_self]
      rw [if_pos hwrap, hlast, block]
    · have hstay : (g.count + 1) % interval = g.count + 1 := Nat.mod_eq_of_lt (by omega)
      rw [hstay, if_neg (Nat.succ_ne_zero _), show interval - (g.count + 1) = n by omega]
  · rw [newUUID4, if_neg hcount]
    exact Nat.mod_lt _ (by decide)

/-- A call that reads a seed returns the first text of its block. -/
theorem newUUID4_success {g : UUIDGenerator} (hcount : g.count = 0) (seed : Seed) :
    ∃ text, (g.newUUID4 (.success seed)).2 = some text ∧
      block interval seed = text :: (g.newUUID4 (.success seed)).1.pending ∧
      (g.newUUID4 (.success seed)).1.count < interval := by
  have hcall : g.newUUID4 (.success seed) =
      (⟨1, (uuid4Generate seed).2⟩, some (uuid4Generate seed).1) := by
    rw [newUUID4, if_pos hcount]
    simp only [uuid4Init, draw, hcount]
    rfl
  rw [hcall]
  exact ⟨_, rfl, rfl, Nat.succ_lt_succ (Nat.zero_lt_succ 126)⟩

/-- A run from any point: the texts are the rest of the block in use and then the blocks of the
seeds that are read, and a seed is read only where the texts need it. -/
theorem texts_from {g : UUIDGenerator} (hlt : g.count < interval) (answers : List RandAnswer) :
    g.texts answers <+: g.pending ++ (g.seedsRead answers).flatMap (block interval) ∧
    (g.seedsRead answers).length =
      ((g.texts answers).length - g.pending.length + (interval - 1)) / interval := by
  induction answers generalizing g with
  | nil =>
      refine ⟨List.nil_prefix, ?_⟩
      simp only [seedsRead, texts, List.length_nil, interval]
      omega
  | cons a answers ih =>
      by_cases hcount : g.count = 0
      · have hpending : g.pending = [] := if_pos hcount
        cases a with
        | success seed =>
            obtain ⟨text, htext, hblock, hnext⟩ := newUUID4_success hcount seed
            obtain ⟨hleading, hlength⟩ := ih hnext
            have hreads : g.seedsRead (.success seed :: answers) =
                seed :: (g.newUUID4 (.success seed)).1.seedsRead answers := by
              rw [seedsRead, readNow, if_pos hcount]
              rfl
            have htexts : g.texts (.success seed :: answers) =
                text :: (g.newUUID4 (.success seed)).1.texts answers := by
              rw [texts, htext]
              rfl
            have hsize := congrArg List.length hblock
            rw [length_block, List.length_cons] at hsize
            rw [hreads, htexts, hpending]
            constructor
            · rw [List.nil_append, List.flatMap_cons, hblock, List.cons_append]
              exact List.cons_prefix_cons.2 ⟨rfl, hleading⟩
            · simp only [List.length_cons, List.length_nil, hlength, interval] at hsize ⊢
              omega
        | failure left =>
            have hcall : g.newUUID4 (.failure left) = ({ g with seed := left }, none) := by
              rw [newUUID4, if_pos hcount]
              rfl
            have hreads : g.seedsRead (.failure left :: answers) =
                { g with seed := left }.seedsRead answers := by
              rw [seedsRead, hcall]
              rfl
            have htexts : g.texts (.failure left :: answers) =
                { g with seed := left }.texts answers := by
              rw [texts, hcall]
              rfl
            have hleft : { g with seed := left }.pending = [] := if_pos hcount
            have hnext := ih (g := { g with seed := left }) hlt
            rw [hreads, htexts, hpending, ← hleft]
            exact hnext
      · obtain ⟨text, htext, hpending, hnext⟩ := newUUID4_pending hcount hlt a
        obtain ⟨hleading, hlength⟩ := ih hnext
        have hreads : g.seedsRead (a :: answers) = (g.newUUID4 a).1.seedsRead answers := by
          have hnone : g.readNow a = [] := by
            cases a with
            | success seed => exact if_neg hcount
            | failure left => rfl
          rw [seedsRead, hnone, List.nil_append]
        have htexts : g.texts (a :: answers) = text :: (g.newUUID4 a).1.texts answers := by
          rw [texts, htext]
          rfl
        rw [hreads, htexts, hpending]
        constructor
        · rw [List.cons_append]
          exact List.cons_prefix_cons.2 ⟨rfl, hleading⟩
        · rw [hlength, List.length_cons, List.length_cons, Nat.add_sub_add_right]

theorem matches_of_mem_block {n : Nat} {seed : Seed} {text : Str} (h : text ∈ block n seed) :
    Matches template text := by
  induction n generalizing seed with
  | zero => exact absurd h List.not_mem_nil
  | succ n ih =>
      rcases List.mem_cons.1 h with rfl | h
      · exact matches_fill (nibbleOf_lt _) template 0
      · exact ih h

/-- **The texts of a run.** The calls of a run return, in their order, the blocks of the seeds that
were read, each block whole before the next seed is read; and every text is one of the template. -/
theorem texts_run (answers : List RandAnswer) :
    fresh.texts answers <+: (fresh.seedsRead answers).flatMap (block interval) ∧
    (fresh.seedsRead answers).length =
      ((fresh.texts answers).length + (interval - 1)) / interval ∧
    ∀ text ∈ fresh.texts answers, Matches template text := by
  obtain ⟨hleading, hlength⟩ := @texts_from fresh (Nat.zero_lt_succ 127) answers
  refine ⟨hleading, hlength, fun text htext => ?_⟩
  obtain ⟨seed, -, hmem⟩ := List.mem_flatMap.1 (hleading.subset htext)
  exact matches_of_mem_block hmem

/-! ## Seeds -/

/-- The seed behind some texts. -/
def seedAfter : Nat → Seed → Seed
  | 0, seed => seed
  | n + 1, seed => seedAfter n (uuid4Generate seed).2

theorem uuid4Generate_seed (seed : Seed) :
    (uuid4Generate seed).2 = xorshift128 23 18 5 (xorshift128 23 18 5 seed) := by
  rw [← xorshift128plus_seed, ← xorshift128plus_seed]
  rfl

theorem seedAfter_eq (n : Nat) (seed : Seed) :
    seedAfter n seed = (xorshift128 23 18 5)^[2 * n] seed := by
  induction n generalizing seed with
  | zero => rfl
  | succ n ih => rw [seedAfter, ih, uuid4Generate_seed, Nat.mul_succ]; rfl

/-- The text of the seed of zeros. -/
def nilText : Str := str "00000000-0000-4000-8000-000000000000"

/-- **Seeds do not meet.** However many texts are drawn, two seeds lead to one only if they are
equal; only the seed of zeros leads to it, and then every text of its block is the same. -/
theorem seeds_apart :
    (∀ n seed seed', seedAfter n seed = seedAfter n seed' ↔ seed = seed') ∧
    (∀ n seed, seedAfter n seed = (0, 0) ↔ seed = (0, 0)) ∧
    ∀ n, block n (0, 0) = List.replicate n nilText := by
  have hinjective : Function.Injective (xorshift128 23 18 5 : Seed → Seed) :=
    xorshift128_injective (by decide) (by decide) 5
  refine ⟨fun n seed seed' => ?_, fun n seed => ?_, fun n => ?_⟩
  · rw [seedAfter_eq, seedAfter_eq]
    exact (hinjective.iterate (2 * n)).eq_iff
  · rw [seedAfter_eq]
    exact xorshift128_iterate_eq_zero_iff (by decide) (by decide) 5 (2 * n) seed
  · have hgenerate : uuid4Generate (0, 0) = (nilText, (0, 0)) := by decide
    induction n with
    | zero => rfl
    | succ n ih => rw [block, hgenerate, ih, List.replicate_succ]

end UUIDGenerator

end Ssgx.Uuid
