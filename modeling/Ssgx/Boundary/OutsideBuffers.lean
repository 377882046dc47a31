import Ssgx.Boundary.HostMemory

/-!
# Buffers outside of the enclave

`MallocOutside`, `CallocOutside`, `FreeOutside`, `MemcpyToOutside`, `StrndupOutside` and
`MemdupOutside` of `ssgx_utils_t.cpp`. The host allocates, so the pointer is its own choice; the
enclave checks the whole buffer before it writes to it. Sizes are `size_t`, so sums and products are
taken modulo `2 ^ 64`.
-/

set_option autoImplicit false

namespace Ssgx.Boundary

open Ssgx.Support
open Ssgx.Attestation (sgxSuccess)

variable (outside : Nat → Nat → Bool)

/-! ## The functions -/

/-- What `MallocOutside` and `CallocOutside` do for a size other than zero, with the text they
throw. -/
def allocateOutside (what : Str) (size : Nat) : HostCall (Option HostPointer) := do
  let given ← ocall
  if given.1.status ≠ sgxSuccess ∨ given.2.address = 0 then pure none
  else do
    let ok ← isOutsideEnclave outside given.2 size
    if ok = false then Call.raise what
    else do
      copyOut given.2 0 (List.replicate size 0)
      pure (some given.2)

/-- `MallocOutside`. -/
def mallocOutside (size : Nat) : HostCall (Option HostPointer) :=
  if size = 0 then pure none
  else
    allocateOutside outside
      (str "Failed in sgx_is_outside_enclave in func malloc_outside: " ++
        str "sgx_is_outside_enclave(outside_buf, size) != 1") size

/-- `CallocOutside`: the product may wrap. -/
def callocOutside (num size : Nat) : HostCall (Option HostPointer) :=
  if size = 0 ∨ num = 0 then pure none
  else
    allocateOutside outside
      (str "Failed in sgx_is_outside_enclave in func calloc_outside: " ++
        str "sgx_is_outside_enclave(outside_buf, size) != 1") (num * size % 2 ^ 64)

/-- `FreeOutside`. -/
def freeOutside (p : Option HostPointer) (size : Nat) : HostCall PUnit :=
  match p with
  | none => pure ⟨⟩
  | some ptrOutside => do
      let ok ← isOutsideEnclave outside ptrOutside size
      if ok = true then ocallFree ptrOutside else pure ⟨⟩

/-- `MemcpyToOutside` of the first bytes of a buffer in the enclave. -/
def memcpyToOutside (dest : Option HostPointer) (src : List UInt8) (count : Nat) :
    HostCall HostPointer :=
  match dest with
  | none =>
      Call.raise (str "Failed in \"dest_outside_enclave != nullptr && " ++
        str "sgx_is_outside_enclave(dest_outside_enclave, count) == 0\" ")
  | some p => do
      let ok ← isOutsideEnclave outside p count
      if ok = false then
        Call.raise (str "Failed in \"dest_outside_enclave != nullptr && " ++
          str "sgx_is_outside_enclave(dest_outside_enclave, count) == 0\" ")
      else do
        copyOut p 0 (src.take count)
        pure p

/-- `strnlen` of a text in the enclave, which has a NUL behind it. -/
def textLength (text : List UInt8) (limit : Nat) : Nat :=
  min (text.takeWhile fun byte => byte ≠ 0).length limit

/-- The text and the NUL behind it go to the buffer, if the host gave one. -/
def fillText (bytes : List UInt8) (strLen : Nat) :
    Option HostPointer → HostCall (Option HostPointer)
  | none => pure none
  | some p => do
      copyOut p 0 (bytes.take strLen)
      copyOut p strLen [0]
      pure (some p)

/-- `StrndupOutside`. -/
def strndupOutside (text : Option (List UInt8)) (strLen : Nat) : HostCall (Option HostPointer) :=
  match text with
  | none => pure none
  | some bytes =>
      if textLength bytes ((strLen + 1) % 2 ^ 64) ≠ strLen then pure none
      else do
        let outsideStr ← mallocOutside outside ((strLen + 1) % 2 ^ 64)
        fillText bytes strLen outsideStr

/-- `MemdupOutside`. -/
def memdupOutside (buf : Option (List UInt8)) (bufSize : Nat) : HostCall (Option HostPointer) :=
  match buf with
  | none => pure none
  | some bytes =>
      if bufSize = 0 then pure none
      else do
        let outsideBuf ← mallocOutside outside bufSize
        match outsideBuf with
        | none => pure none
        | some p => do
            copyOut p 0 (bytes.take bufSize)
            pure (some p)

variable {outside}

/-- `FreeOutside` does not throw. -/
theorem freeOutside_fst (p : HostPointer) (size : Nat) (w : HostWorld) :
    (freeOutside outside (some p) size w).1 = .ok ⟨⟩ := by
  by_cases hok : outside p.address size = true
  · simp only [freeOutside, isOutsideEnclave, Call.bind_apply, if_pos hok]
    rfl
  · simp only [freeOutside, isOutsideEnclave, Call.bind_apply, if_neg hok]
    rfl

theorem freeOutside_bind_fst {α : Type} (p : HostPointer) (size : Nat) (a : α)
    (w : HostWorld) :
    ((do
      freeOutside outside (some p) size
      pure a : HostCall α) w).1 = .ok a := by
  rw [Call.bind_pure_apply, freeOutside_fst]
  rfl

/-! ## Their accesses -/

/-- A buffer that is given may be accessed. -/
def GivesBuffer (size : Nat) (given : Option HostPointer) (w : HostWorld) : Prop :=
  ∀ p, given = some p → w.Allows p size

theorem givesBuffer_none (size : Nat) (w : HostWorld) : GivesBuffer size none w :=
  fun _ hgiven => nomatch hgiven

theorem givesBuffer_some {p : HostPointer} {size : Nat} {w : HostWorld} (h : w.Allows p size) :
    GivesBuffer size (some p) w := by
  rintro p' hgiven
  cases hgiven
  exact h

theorem careful_allocateOutside (what : Str) (size : Nat) :
    Careful outside (fun _ => True) (allocateOutside outside what size) (GivesBuffer size) := by
  apply careful_bind careful_ocall
  rintro ⟨a, p⟩
  refine careful_ite (fun _ => careful_pure fun w _ => givesBuffer_none size w) fun _ => ?_
  apply careful_check (careful_raise _ _)
  have hfill : Careful outside (fun w => w.Allows p size) (copyOut p 0 (List.replicate size 0))
      fun _ w => w.Allows p size := careful_copyOut (by rw [List.length_replicate, Nat.zero_add])
  exact careful_bind hfill fun _ => careful_pure fun _ => givesBuffer_some

theorem careful_mallocOutside (size : Nat) :
    Careful outside (fun _ => True) (mallocOutside outside size) (GivesBuffer size) :=
  careful_ite (fun _ => careful_pure fun w _ => givesBuffer_none size w)
    fun _ => careful_allocateOutside _ size

theorem careful_callocOutside (num size : Nat) :
    Careful outside (fun _ => True) (callocOutside outside num size)
      (GivesBuffer (num * size % 2 ^ 64)) :=
  careful_ite (fun _ => careful_pure fun w _ => givesBuffer_none _ w)
    fun _ => careful_allocateOutside _ _

theorem careful_freeOutside (p : HostPointer) (size : Nat) :
    Careful outside (fun w => .received p ∈ w.record) (freeOutside outside (some p) size)
      fun _ _ => True := by
  apply careful_bind (careful_isOutsideEnclave p size)
  intro ok
  refine careful_ite (fun _ => ?_) fun _ => careful_pure fun _ _ => trivial
  exact (careful_ocallFree p).imp (fun _ hw => hw.1) fun _ _ hw => hw

theorem careful_memcpyToOutside (p : HostPointer) (src : List UInt8) (count : Nat) :
    Careful outside (fun w => .received p ∈ w.record) (memcpyToOutside outside (some p) src count)
      fun _ _ => True := by
  apply careful_check (careful_raise _ _)
  have hcopy : Careful outside (fun w => w.Allows p count) (copyOut p 0 (src.take count))
      fun _ w => w.Allows p count :=
    careful_copyOut (by rw [Nat.zero_add]; exact List.length_take_le count src)
  exact careful_bind hcopy fun _ => careful_pure fun _ _ => trivial

/-- A text as long as it is said to be leaves room for its NUL. -/
theorem lt_of_textLength {bytes : List UInt8} {strLen : Nat}
    (h : textLength bytes ((strLen + 1) % 2 ^ 64) = strLen) :
    (strLen + 1) % 2 ^ 64 = strLen + 1 ∧ strLen ≤ bytes.length := by
  simp only [textLength] at h
  have hwhile := (bytes.takeWhile_prefix fun byte => decide (byte ≠ 0)).length_le
  omega

theorem careful_strndupOutside (text : Option (List UInt8)) (strLen : Nat) :
    Careful outside (fun _ => True) (strndupOutside outside text strLen)
      (GivesBuffer (strLen + 1)) := by
  cases text with
  | none => exact careful_pure fun w _ => givesBuffer_none _ w
  | some bytes =>
      refine careful_ite (fun _ => careful_pure fun w _ => givesBuffer_none _ w) fun hlength => ?_
      obtain ⟨hsize, hbytes⟩ := lt_of_textLength (not_not.1 hlength)
      rw [hsize]
      apply careful_bind (careful_mallocOutside _)
      intro outsideStr
      cases outsideStr with
      | none => exact careful_pure fun w _ => givesBuffer_none _ w
      | some p =>
          have htext : Careful outside (fun w => w.Allows p (strLen + 1))
              (copyOut p 0 (bytes.take strLen)) fun _ w => w.Allows p (strLen + 1) :=
            careful_copyOut (by rw [List.length_take_of_le hbytes]; omega)
          apply careful_bind (htext.imp (fun w hw => hw p rfl) fun _ _ hw => hw)
          intro _
          refine careful_bind (careful_copyOut (Nat.le_refl _)) ?_
          exact fun _ => careful_pure fun _ => givesBuffer_some

theorem careful_memdupOutside (buf : Option (List UInt8)) (bufSize : Nat) :
    Careful outside (fun _ => True) (memdupOutside outside buf bufSize) (GivesBuffer bufSize) := by
  cases buf with
  | none => exact careful_pure fun w _ => givesBuffer_none _ w
  | some bytes =>
      refine careful_ite (fun _ => careful_pure fun w _ => givesBuffer_none _ w) fun _ => ?_
      apply careful_bind (careful_mallocOutside bufSize)
      intro outsideBuf
      cases outsideBuf with
      | none => exact careful_pure fun w _ => givesBuffer_none _ w
      | some p =>
          have hcopy : Careful outside (fun w => w.Allows p bufSize)
              (copyOut p 0 (bytes.take bufSize)) fun _ w => w.Allows p bufSize :=
            careful_copyOut (by rw [Nat.zero_add]; exact List.length_take_le bufSize bytes)
          apply careful_bind (hcopy.imp (fun w hw => hw p rfl) fun _ _ hw => hw)
          exact fun _ => careful_pure fun _ => givesBuffer_some

end Ssgx.Boundary
