import Ssgx.Support.Call
import Ssgx.Support.Text
import Ssgx.Attestation.Quote

/-!
# Host memory behind the border of the enclave

What the enclave does with pointers into the memory of the host. The host is any host: it answers
every ocall as it likes, with any pointer and size, and may change its memory with the answer.
Addresses are those of the host's memory; of the enclave's own memory only the checks know, which
are `sgx_is_outside_enclave`, a parameter.

A pointer is kept with the ocall that it came from, and the world keeps a record of what was
received, checked and accessed. `Guarded` is the intended use: what is accessed through a pointer
lies in a range that was checked for it after it was received.
-/

set_option autoImplicit false

namespace Ssgx.Boundary

open Ssgx.Support
open Ssgx.Attestation (sgxSuccess)

/-! ## The host -/

/-- An address that the host gave, and the number of the ocall that it came from. -/
structure HostPointer where
  address : Nat
  ocall : Nat
deriving DecidableEq

/-- What the host makes of an ocall: the status of the crossing, the return value, a pointer and a
size, and its memory behind the call. -/
structure HostAnswer where
  status : UInt32
  ret : Int
  pointer : Nat
  size : Nat
  memory : Nat → UInt8

/-- A `uint32_t` of the host. -/
def HostAnswer.uint32 (a : HostAnswer) : Nat := a.size % 2 ^ 32

/-- An `int32_t` of the host. -/
def HostAnswer.int32 (a : HostAnswer) : Int := (BitVec.ofNat 32 a.size).toInt

/-- A `size_t` of the host. -/
def HostAnswer.sizeT (a : HostAnswer) : Nat := a.size % 2 ^ 64

/-- What happened to a pointer of the host. -/
inductive PointerEvent where
  | received (p : HostPointer)
  | checked (p : HostPointer) (size : Nat) (outside : Bool)
  | accessed (p : HostPointer) (offset count : Nat)
  | freed (p : HostPointer)
deriving DecidableEq

/-- The host's memory, its answers, the number of ocalls made, and the record, the latest first. -/
structure HostWorld where
  memory : Nat → UInt8
  answers : Nat → HostAnswer
  asked : Nat
  record : List PointerEvent

/-- A function of the enclave: it throws a text. -/
abbrev HostCall (α : Type) := Call Str HostWorld α

/-- The pointer that an event is about. -/
def PointerEvent.pointer : PointerEvent → HostPointer
  | .received p => p
  | .checked p _ _ => p
  | .accessed p _ _ => p
  | .freed p => p

namespace HostWorld

/-- The answer that the host gives next. -/
def answer (w : HostWorld) : HostAnswer := w.answers w.asked

/-- The pointer that the next answer brings. -/
def pointer (w : HostWorld) : HostPointer := ⟨w.answer.pointer, w.asked⟩

/-- Add to the record. -/
def note (w : HostWorld) (e : PointerEvent) : HostWorld := { w with record := e :: w.record }

/-- Behind the next ocall. -/
def answered (w : HostWorld) : HostWorld :=
  { w with
    memory := w.answer.memory, asked := w.asked + 1, record := .received w.pointer :: w.record }

/-- The bytes at a pointer. -/
def bytesAt (w : HostWorld) (p : HostPointer) (offset count : Nat) : List UInt8 :=
  (List.range count).map fun i => w.memory (p.address + offset + i)

/-- Bytes written at a pointer. -/
def written (w : HostWorld) (p : HostPointer) (offset : Nat) (bytes : List UInt8) : HostWorld :=
  { w with
    memory := fun a => if p.address + offset ≤ a then
      (bytes[a - (p.address + offset)]?).getD (w.memory a) else w.memory a }

@[simp] theorem pointer_address (w : HostWorld) : w.pointer.address = w.answer.pointer := rfl

end HostWorld

/-! ## What the enclave does -/

/-- The number of bytes in front of the first NUL, at most a limit. -/
def nulIndex (memory : Nat → UInt8) (address : Nat) : Nat → Nat
  | 0 => 0
  | limit + 1 => if memory address = 0 then 0 else nulIndex memory (address + 1) limit + 1

/-- An ocall that gives a pointer. -/
def ocall : HostCall (HostAnswer × HostPointer) := fun w => (.ok (w.answer, w.pointer), w.answered)

/-- `sgx_is_outside_enclave`. -/
def isOutsideEnclave (outside : Nat → Nat → Bool) (p : HostPointer) (size : Nat) : HostCall Bool :=
  fun w => (.ok (outside p.address size), w.note (.checked p size (outside p.address size)))

/-- `memcpy` from the host's memory. -/
def copyIn (p : HostPointer) (count : Nat) : HostCall (List UInt8) := fun w =>
  (.ok (w.bytesAt p 0 count), w.note (.accessed p 0 count))

/-- `memcpy` and `memset` to the host's memory. -/
def copyOut (p : HostPointer) (offset : Nat) (bytes : List UInt8) : HostCall PUnit := fun w =>
  (.ok ⟨⟩, (w.written p offset bytes).note (.accessed p offset bytes.length))

/-- `strnlen` in the host's memory: it reads up to the NUL. -/
def strnlen (p : HostPointer) (limit : Nat) : HostCall Nat := fun w =>
  let length := nulIndex w.memory p.address limit
  (.ok length, w.note (.accessed p 0 (min (length + 1) limit)))

/-- `strlen` in the host's memory: it reads up to the NUL, however far that is. -/
def strlen (p : HostPointer) : HostCall Nat := strnlen p (2 ^ 64)

/-- `ssgx_ocall_free`: the host may change its memory again. -/
def ocallFree (p : HostPointer) : HostCall PUnit := fun w =>
  (.ok ⟨⟩, { w with
    memory := w.answer.memory, asked := w.asked + 1, record := .freed p :: w.record })

/-! ### What comes behind them -/

section Behind

variable {α : Type} (w : HostWorld)

@[simp] theorem ocall_bind (f : HostAnswer × HostPointer → HostCall α) :
    (ocall >>= f) w = f (w.answer, w.pointer) w.answered := rfl

@[simp] theorem isOutsideEnclave_bind (outside : Nat → Nat → Bool) (p : HostPointer) (size : Nat)
    (f : Bool → HostCall α) :
    (isOutsideEnclave outside p size >>= f) w =
      f (outside p.address size) (w.note (.checked p size (outside p.address size))) := rfl

end Behind

/-! ## The intended use -/

/-- A range from the pointer was checked, after the pointer was received. -/
def CheckedFor (p : HostPointer) (size : Nat) (record : List PointerEvent) : Prop :=
  ∃ later earlier, record = later ++ .checked p size true :: earlier ∧ .received p ∈ earlier

/-- What an access needs of the record so far. -/
def AccessAllowed (record : List PointerEvent) : PointerEvent → Prop
  | .accessed p offset count => count = 0 ∨ ∃ size, offset + count ≤ size ∧ CheckedFor p size record
  | _ => True

/-- **The intended use.** Every access lies in a range that was checked for its pointer before. -/
def AllAllowed : List PointerEvent → Prop
  | [] => True
  | e :: earlier => AccessAllowed earlier e ∧ AllAllowed earlier

/-- The record of a world is of the intended use. -/
def HostWorld.Guarded (w : HostWorld) : Prop := AllAllowed w.record

/-- The first bytes at a pointer may be accessed. -/
def HostWorld.Allows (w : HostWorld) (p : HostPointer) (count : Nat) : Prop :=
  ∃ size, count ≤ size ∧ CheckedFor p size w.record

/-- What the enclave keeps: the intended use, only pointers of earlier ocalls on record, and the
checks as `sgx_is_outside_enclave` decided them. -/
structure HostWorld.Sound (outside : Nat → Nat → Bool) (w : HostWorld) : Prop where
  guarded : w.Guarded
  known : ∀ e ∈ w.record, e.pointer.ocall < w.asked
  honest : ∀ p size ok, .checked p size ok ∈ w.record → ok = outside p.address size

/-! ## Careful calls -/

/-- What is checked for a pointer is checked by the latest event or was before. -/
theorem checkedFor_cons_iff {p : HostPointer} {size : Nat} {record : List PointerEvent}
    {e : PointerEvent} : CheckedFor p size (e :: record) ↔
      (e = .checked p size true ∧ .received p ∈ record) ∨ CheckedFor p size record := by
  constructor
  · rintro ⟨later, earlier, hrecord, hreceived⟩
    cases later with
    | nil =>
        rw [List.nil_append] at hrecord
        cases hrecord
        exact .inl ⟨rfl, hreceived⟩
    | cons e' later =>
        rw [List.cons_append] at hrecord
        cases hrecord
        exact .inr ⟨later, earlier, rfl, hreceived⟩
  · rintro (⟨rfl, hreceived⟩ | ⟨later, earlier, rfl, hreceived⟩)
    · exact ⟨[], record, rfl, hreceived⟩
    · exact ⟨e :: later, earlier, rfl, hreceived⟩

/-- A pointer with a checked range was received. -/
theorem CheckedFor.received {p : HostPointer} {size : Nat} {record : List PointerEvent}
    (h : CheckedFor p size record) : .received p ∈ record := by
  obtain ⟨later, earlier, rfl, hreceived⟩ := h
  exact List.mem_append_right _ (List.mem_cons_of_mem _ hreceived)

/-- A pointer that may be accessed was received. -/
theorem HostWorld.Allows.received {w : HostWorld} {p : HostPointer} {count : Nat}
    (h : w.Allows p count) : .received p ∈ w.record := by
  obtain ⟨size, -, hchecked⟩ := h
  exact hchecked.received

section Careful

variable {outside : Nat → Nat → Bool} {α β : Type}

/-- An event about a pointer that was received, in the same memory or another. -/
theorem HostWorld.Sound.event {w w' : HostWorld} (h : w.Sound outside) {e : PointerEvent}
    (hrecord : w'.record = e :: w.record) (hasked : w.asked ≤ w'.asked)
    (hreceived : .received e.pointer ∈ w.record) (hallowed : AccessAllowed w.record e)
    (hhonest : ∀ p size ok, e = .checked p size ok → ok = outside p.address size) :
    w'.Sound outside := by
  constructor
  · simp only [HostWorld.Guarded]
    rw [hrecord]
    exact ⟨hallowed, h.guarded⟩
  · intro e' hmem
    rw [hrecord] at hmem
    rcases List.mem_cons.1 hmem with rfl | hold
    · exact (h.known _ hreceived).trans_le hasked
    · exact (h.known e' hold).trans_le hasked
  · intro p size ok hmem
    rw [hrecord] at hmem
    rcases List.mem_cons.1 hmem with hnew | hold
    · exact hhonest p size ok hnew.symm
    · exact h.honest p size ok hold

/-- A call that keeps what the enclave keeps, from worlds with `P`, and whose value comes with `Q`.
-/
def Careful (outside : Nat → Nat → Bool) (P : HostWorld → Prop) (x : HostCall α)
    (Q : α → HostWorld → Prop) : Prop :=
  Call.Ensures (fun w => w.Sound outside ∧ P w) x (fun a w => w.Sound outside ∧ Q a w)
    (HostWorld.Sound outside)

variable {P P' : HostWorld → Prop} {Q Q' : α → HostWorld → Prop} {R : β → HostWorld → Prop}

theorem careful_pure {a : α} (h : ∀ w, P w → Q a w) : Careful outside P (pure a) Q :=
  Call.ensures_pure fun w hw => ⟨hw.1, h w hw.2⟩

theorem careful_raise (P : HostWorld → Prop) (what : Str) :
    Careful outside P (Call.raise what) Q :=
  Call.ensures_raise (fun _ hw => hw.1) what

theorem careful_bind {x : HostCall α} {f : α → HostCall β} (hx : Careful outside P x Q)
    (hf : ∀ a, Careful outside (Q a) (f a) R) : Careful outside P (x >>= f) R :=
  Call.ensures_bind hx hf

theorem careful_ite {p : Prop} [Decidable p] {x y : HostCall α} (hx : p → Careful outside P x Q)
    (hy : ¬ p → Careful outside P y Q) : Careful outside P (if p then x else y) Q :=
  Call.ensures_ite hx hy

theorem Careful.imp {x : HostCall α} (h : Careful outside P x Q) (hP : ∀ w, P' w → P w)
    (hQ : ∀ a w, Q a w → Q' a w) : Careful outside P' x Q' :=
  Call.Ensures.imp h (fun w hw => ⟨hw.1, hP w hw.2⟩) fun a w hw => ⟨hw.1, hQ a w hw.2⟩

/-- Behind a careful call the enclave keeps what it keeps, however it ends. -/
theorem Careful.sound {x : HostCall α} (h : Careful outside P x Q) {w : HostWorld}
    (hw : w.Sound outside) (hP : P w) : (x w).2.Sound outside :=
  Call.Ensures.world (Call.Ensures.imp h (fun _ hw => hw) fun _ _ hw => hw.1) ⟨hw, hP⟩

theorem careful_ocall :
    Careful outside (fun _ => True) ocall fun given w => .received given.2 ∈ w.record := by
  rintro w ⟨hsound, -⟩
  refine ⟨⟨⟨trivial, hsound.guarded⟩, ?_, ?_⟩, List.mem_cons_self⟩
  · intro e hmem
    rcases List.mem_cons.1 hmem with rfl | hold
    · exact Nat.lt_succ_self _
    · exact (hsound.known e hold).trans (Nat.lt_succ_self _)
  · intro p size ok hmem
    rcases List.mem_cons.1 hmem with hnew | hold
    · cases hnew
    · exact hsound.honest p size ok hold

/-- A check of a pointer that was received. -/
theorem careful_isOutsideEnclave (p : HostPointer) (size : Nat) :
    Careful outside (fun w => .received p ∈ w.record) (isOutsideEnclave outside p size)
      fun ok w => .received p ∈ w.record ∧ (ok = true → w.Allows p size) := by
  rintro w ⟨hsound, hreceived⟩
  refine ⟨hsound.event rfl (Nat.le_refl _) hreceived trivial ?_,
    List.mem_cons_of_mem _ hreceived, ?_⟩
  · intro p' size' ok' hevent
    cases hevent
    rfl
  · intro hok
    refine ⟨size, Nat.le_refl _, checkedFor_cons_iff.2 (.inl ⟨?_, hreceived⟩)⟩
    rw [hok]

/-- A function that goes on behind a check only where the check passes. -/
theorem careful_check {p : HostPointer} {size : Nat} {refused passed : HostCall α}
    (hrefused : Careful outside (fun _ => True) refused Q)
    (hpassed : Careful outside (fun w => w.Allows p size) passed Q) :
    Careful outside (fun w => .received p ∈ w.record)
      (do
        let ok ← isOutsideEnclave outside p size
        if ok = false then refused else passed) Q := by
  apply careful_bind (careful_isOutsideEnclave p size)
  intro ok
  refine careful_ite (fun _ => ?_) fun hok => ?_
  · exact hrefused.imp (fun _ _ => trivial) fun _ _ hq => hq
  · exact hpassed.imp (fun w hw => hw.2 (Bool.not_eq_false _ ▸ hok)) fun _ _ hq => hq

/-- An access to a range that was checked. -/
theorem sound_access {w w' : HostWorld} {p : HostPointer} {offset count size : Nat}
    (h : w.Sound outside) (hallows : w.Allows p size) (hrange : offset + count ≤ size)
    (hrecord : w'.record = .accessed p offset count :: w.record) (hasked : w.asked ≤ w'.asked) :
    w'.Sound outside ∧ w'.Allows p size := by
  obtain ⟨size', hsize, hchecked⟩ := hallows
  refine ⟨h.event hrecord hasked hchecked.received ?_ (fun _ _ _ hevent => nomatch hevent), size',
    hsize, ?_⟩
  · exact .inr ⟨size', hrange.trans hsize, hchecked⟩
  · rw [hrecord]
    exact checkedFor_cons_iff.2 (.inr hchecked)

theorem careful_copyIn {p : HostPointer} {count size : Nat} (h : count ≤ size) :
    Careful outside (fun w => w.Allows p size) (copyIn p count) fun _ w => w.Allows p size := by
  rintro w ⟨hsound, hallows⟩
  exact sound_access hsound hallows (by omega) rfl (Nat.le_refl _)

theorem careful_copyOut {p : HostPointer} {offset size : Nat} {bytes : List UInt8}
    (h : offset + bytes.length ≤ size) :
    Careful outside (fun w => w.Allows p size) (copyOut p offset bytes)
      fun _ w => w.Allows p size := by
  rintro w ⟨hsound, hallows⟩
  exact sound_access hsound hallows h rfl (Nat.le_refl _)

/-- `strnlen` stays in front of its limit. -/
theorem careful_strnlen (p : HostPointer) (limit : Nat) :
    Careful outside (fun w => w.Allows p limit) (strnlen p limit) fun _ w => w.Allows p limit := by
  rintro w ⟨hsound, hallows⟩
  exact sound_access hsound hallows (by omega) rfl (Nat.le_refl _)

theorem careful_ocallFree (p : HostPointer) :
    Careful outside (fun w => .received p ∈ w.record) (ocallFree p) fun _ _ => True := by
  rintro w ⟨hsound, hreceived⟩
  exact ⟨hsound.event rfl (Nat.le_succ _) hreceived trivial (fun _ _ _ hevent => nomatch hevent),
    trivial⟩

end Careful

/-! ## What the checks are for -/

/-- No access reaches an address of the enclave. -/
def HostWorld.KeepsOff (enclave : Nat → Prop) (w : HostWorld) : Prop :=
  ∀ p offset count, .accessed p offset count ∈ w.record →
    ∀ i < count, ¬ enclave (p.address + offset + i)

/-- An access of an intended use was checked. -/
theorem checked_of_allAllowed {record : List PointerEvent} (h : AllAllowed record) {p : HostPointer}
    {offset count : Nat} (hmem : .accessed p offset count ∈ record) (hcount : count ≠ 0) :
    ∃ size, offset + count ≤ size ∧ .checked p size true ∈ record := by
  induction record with
  | nil => cases hmem
  | cons e earlier ih =>
      rcases List.mem_cons.1 hmem with rfl | hold
      · obtain ⟨hempty | ⟨size, hrange, later, older, hrecord, -⟩, -⟩ := h
        · exact absurd hempty hcount
        · refine ⟨size, hrange, List.mem_cons_of_mem _ ?_⟩
          rw [hrecord]
          exact List.mem_append_right _ List.mem_cons_self
      · obtain ⟨size, hrange, hchecked⟩ := ih h.2 hold
        exact ⟨size, hrange, List.mem_cons_of_mem _ hchecked⟩

/-- **Where the checks tell what is outside, no access of an intended use reaches the enclave.** -/
theorem HostWorld.Sound.keepsOff {outside : Nat → Nat → Bool} {w : HostWorld} (h : w.Sound outside)
    {enclave : Nat → Prop}
    (hchecks : ∀ address size, outside address size = true → ∀ i < size, ¬ enclave (address + i)) :
    w.KeepsOff enclave := by
  intro p offset count hmem i hi
  obtain ⟨size, hrange, hchecked⟩ := checked_of_allAllowed h.guarded hmem (by omega)
  have houtside := (h.honest p size true hchecked).symm
  rw [Nat.add_assoc]
  exact hchecks p.address size houtside (offset + i) (by omega)

end Ssgx.Boundary
