import Ssgx.Boundary.ReplyOutcome

/-!
# Buffers that are cleared

What `MallocOutside` and `CallocOutside` promise of a buffer that they hand out: all of its bytes
lie outside of the enclave and are zero. Both check and clear as many bytes as their 64-bit
arithmetic says. For `CallocOutside` that is the product modulo `2 ^ 64`, so a host that answers a
product that wraps gets a buffer through of which only the first bytes were looked at
(`callocOutside_clears_iff`).
-/

set_option autoImplicit false

namespace Ssgx.Boundary

open Ssgx.Support
open Ssgx.Attestation (sgxSuccess)

/-- The address of a byte of a buffer. Pointers have 64 bits. -/
def byteAddress (p : HostPointer) (i : Nat) : Nat := (p.address + i) % 2 ^ 64

/-- What `sgx_is_outside_enclave` is for: a range that passes is one of the address space and has no
byte of the enclave, and there is an enclave. -/
structure BorderCheck (outside : Nat → Nat → Bool) (enclave : Nat → Prop) : Prop where
  sound : ∀ address size, size < 2 ^ 64 → outside address size = true →
    ∀ i < size, address + i < 2 ^ 64 ∧ ¬ enclave (address + i)
  present : ∃ address, address < 2 ^ 64 ∧ enclave address

/-- **The intended buffer.** Where a pointer is handed out, its first bytes lie outside of the
enclave and are zero. -/
def Clears (enclave : Nat → Prop) (count : Nat)
    (outcome : Except Str (Option HostPointer) × HostWorld) : Prop :=
  ∀ p, outcome.1 = .ok (some p) → ∀ i < count,
    ¬ enclave (byteAddress p i) ∧ outcome.2.memory (byteAddress p i) = 0

variable {outside : Nat → Nat → Bool} {enclave : Nat → Prop}

/-- A host that gives a buffer has it handed out. -/
theorem callocOutside_of_gives {num size : Nat} (hsome : ¬ (size = 0 ∨ num = 0)) {w : HostWorld}
    (h : w.Gives outside (num * size % 2 ^ 64)) :
    (callocOutside outside num size w).1 = .ok (some w.pointer) := by
  simp only [callocOutside]
  rw [if_neg hsome]
  exact congrArg Prod.fst (allocateOutside_ok_some_iff.2 ⟨h, rfl, rfl⟩)

/-- The bytes that were checked lie outside and were cleared. -/
theorem clears_allocateOutside (hborder : BorderCheck outside enclave) (what : Str) {size : Nat}
    (hsize : size < 2 ^ 64) (w : HostWorld) :
    Clears enclave size (allocateOutside outside what size w) := by
  intro p hp i hi
  generalize hworld : (allocateOutside outside what size w).2 = w'
  obtain ⟨hgives, rfl, rfl⟩ := allocateOutside_ok_some_iff.1 (Prod.ext hp hworld)
  obtain ⟨hspace, hoff⟩ := hborder.sound _ _ hsize hgives.2.2 i hi
  have hbyte : byteAddress w.pointer i = w.pointer.address + 0 + i := Nat.mod_eq_of_lt hspace
  have hlength : i < (List.replicate size (0 : UInt8)).length := by rwa [List.length_replicate]
  refine ⟨?_, ?_⟩
  · rw [hbyte]
    exact hoff
  · rw [hbyte]
    exact (HostWorld.memory_written_of_lt _ _ 0 hlength).trans (List.getElem_replicate hlength)

/-- A buffer of `2 ^ 64` bytes or more has those of the enclave among them. -/
theorem not_clears_of_wraps (hborder : BorderCheck outside enclave) {count : Nat}
    (hcount : 2 ^ 64 ≤ count) {outcome : Except Str (Option HostPointer) × HostWorld}
    {p : HostPointer} (hp : outcome.1 = .ok (some p)) : ¬ Clears enclave count outcome := by
  intro hclears
  obtain ⟨address, haddress, hinside⟩ := hborder.present
  -- going up from the pointer, every address comes within `2 ^ 64` bytes
  have hi : (2 ^ 64 + address - p.address % 2 ^ 64) % 2 ^ 64 < count := by omega
  have hbyte : byteAddress p ((2 ^ 64 + address - p.address % 2 ^ 64) % 2 ^ 64) = address := by
    rw [byteAddress]
    omega
  have hoff := (hclears p hp _ hi).1
  rw [hbyte] at hoff
  exact hoff hinside

/-- **`MallocOutside` clears what it hands out**, whatever the host answers. -/
theorem clears_mallocOutside (hborder : BorderCheck outside enclave) {size : Nat}
    (hsize : size < 2 ^ 64) (w : HostWorld) :
    Clears enclave size (mallocOutside outside size w) := by
  simp only [mallocOutside]
  by_cases hnone : size = 0
  · rw [if_pos hnone]
    intro p hp
    cases hp
  · rw [if_neg hnone]
    exact clears_allocateOutside hborder _ hsize w

/-- **When `CallocOutside` clears what it hands out**: the product does not wrap, or the host gives
no buffer for the wrapped product. -/
theorem callocOutside_clears_iff (hborder : BorderCheck outside enclave) (num size : Nat)
    (w : HostWorld) :
    Clears enclave (num * size) (callocOutside outside num size w) ↔
      num * size < 2 ^ 64 ∨ ¬ w.Gives outside (num * size % 2 ^ 64) := by
  by_cases hnone : size = 0 ∨ num = 0
  · have hzero : num * size = 0 := Nat.mul_eq_zero.2 hnone.symm
    rw [callocOutside, if_pos hnone]
    refine iff_of_true (fun p hp => by cases hp) (.inl ?_)
    omega
  · constructor
    · intro hclears
      by_contra hwraps
      obtain ⟨hcount, hgives⟩ := not_or.1 hwraps
      have hend := callocOutside_of_gives hnone (not_not.1 hgives)
      exact not_clears_of_wraps hborder (not_lt.1 hcount) hend hclears
    · have hmod : num * size % 2 ^ 64 < 2 ^ 64 := Nat.mod_lt _ (by decide)
      rw [callocOutside, if_neg hnone]
      rintro (hcount | hgives)
      · have hclears := fun what => clears_allocateOutside hborder what hmod w
        rw [Nat.mod_eq_of_lt hcount] at hclears ⊢
        exact hclears _
      · intro p hp
        exact absurd (allocateOutside_ok_some_iff.1 (Prod.ext hp rfl)).1 hgives

/-- An enclave of one page. -/
def samplePage (address : Nat) : Prop := 4096 ≤ address ∧ address < 8192

/-- `sgx_is_outside_enclave` of that enclave: the first and the last byte decide. -/
def outsideSamplePage (address size : Nat) : Bool :=
  let last := if 0 < size then (address + size - 1) % 2 ^ 64 else address
  address ≤ last ∧ (last < 4096 ∨ 8192 ≤ address)

theorem borderCheck_samplePage : BorderCheck outsideSamplePage samplePage where
  sound := by
    intro address size hsize h i hi
    simp only [outsideSamplePage, samplePage, decide_eq_true_eq, if_pos (Nat.zero_lt_of_lt hi)]
      at h ⊢
    omega
  present := ⟨4096, by decide, by decide, by decide⟩

/-- A host that answers every ocall with a pointer close in front of the page. -/
def hostInFront : HostWorld where
  memory := fun _ => 1
  answers := fun _ => ⟨0, 0, 4000, 0, fun _ => 1⟩
  asked := 0
  record := []

theorem callocOutside_clears_iff_sample :
    Clears samplePage (4 * 8) (callocOutside outsideSamplePage 4 8 hostInFront) ↔
      4 * 8 < 2 ^ 64 ∨ ¬ hostInFront.Gives outsideSamplePage (4 * 8 % 2 ^ 64) :=
  callocOutside_clears_iff borderCheck_samplePage 4 8 hostInFront

/-- For two objects too many the product wraps to two bytes, and a buffer with the page in it is
handed out. -/
theorem callocOutside_hands_out_enclave :
    ¬ Clears samplePage ((2 ^ 63 + 1) * 2)
      (callocOutside outsideSamplePage (2 ^ 63 + 1) 2 hostInFront) := by
  have hgives : hostInFront.Gives outsideSamplePage 2 := ⟨rfl, by decide, by decide⟩
  exact not_clears_of_wraps borderCheck_samplePage (by decide)
    (callocOutside_of_gives (by decide) hgives)

end Ssgx.Boundary
