import Ssgx.Sealing.SealHandler

/-!
# What unsealing reads

`UnsealData` is given a length, and compares it with the size of the header alone. The functions of
the SDK behind it take the sizes of the payload from the header, which is the caller's data. The
lemmas below say what a call does in each case; `unsealData_staysInside_iff` says for which buffers
nothing behind the given length is read, and nothing that goes beyond it is unsealed.

The given length is that of a `std::vector` or a `uint32_t`; the method sees it modulo `2 ^ 32`.
-/

set_option autoImplicit false

namespace Ssgx.Sealing

open Ssgx.Support
open Ssgx.Attestation (sgxSuccess littleEndian fieldAt)
open Ssgx.Filesystem (sgxKeypolicyMrenclave)

section Cases

variable (lib : SealLibrary) (holds : List Nat → Bool)

/-- The header at a pointer. -/
def headerAt (sealed : Nat → UInt8) : List UInt8 := bytesOf sealed 0 sizeofSealedData

/-- The size of the payload that the header declares: the encrypted text and the MAC text. -/
def declaredPayload (sealed : Nat → UInt8) : Nat :=
  (lib.getEncryptTxtLen (headerAt sealed)).toNat + (lib.getAddMacTxtLen (headerAt sealed)).toNat

/-- One of the sizes cannot be told from the header. -/
def Unreadable (sealed : Nat → UInt8) : Prop :=
  lib.getAddMacTxtLen (headerAt sealed) = uint32Max ∨
    lib.getEncryptTxtLen (headerAt sealed) = uint32Max

instance (sealed : Nat → UInt8) : Decidable (Unreadable lib sealed) :=
  inferInstanceAs (Decidable (_ ∨ _))

/-- The heap holds vectors of the declared sizes. -/
def HoldsParts (sealed : Nat → UInt8) : Prop :=
  holds [(lib.getAddMacTxtLen (headerAt sealed)).toNat,
    (lib.getEncryptTxtLen (headerAt sealed)).toNat] = true

/-- The payload that the header declares. -/
def payloadAt (sealed : Nat → UInt8) : List UInt8 :=
  bytesOf sealed sizeofSealedData (declaredPayload lib sealed)

/-! ## What a call does -/

variable {sealed : Nat → UInt8} {length : UInt32}

theorem unsealData_of_short (sealed : Nat → UInt8) (h : length.toNat < sizeofSealedData)
    (s : SealState) :
    (unsealData lib holds (some sealed) length s).1 = .ok none ∧
      (unsealData lib holds (some sealed) length s).2.reads = s.reads := by
  simp only [unsealData, if_pos h]
  exact ⟨rfl, rfl⟩

/-- Behind the check of the length the header is read. -/
theorem unsealData_eq (h : ¬ length.toNat < sizeofSealedData) (s : SealState) :
    unsealData lib holds (some sealed) length s =
      (if Unreadable lib sealed then giveUp (str "Failed to retrieve sealed data sizes.")
        else unsealParts lib holds sealed (lib.getAddMacTxtLen (headerAt sealed))
          (lib.getEncryptTxtLen (headerAt sealed)) : SealCall (Option UnsealedData))
        { s with reads := ⟨0, sizeofSealedData⟩ :: s.reads } := by
  simp only [unsealData, if_neg h]
  rfl

theorem unsealData_of_unreadable (hlength : ¬ length.toNat < sizeofSealedData)
    (h : Unreadable lib sealed) (s : SealState) :
    (unsealData lib holds (some sealed) length s).1 = .ok none ∧
      (unsealData lib holds (some sealed) length s).2.reads =
        ⟨0, sizeofSealedData⟩ :: s.reads := by
  rw [unsealData_eq lib holds hlength, if_pos h]
  exact ⟨rfl, rfl⟩

/-- Two vectors that the heap cannot hold. -/
theorem unsealData_of_not_holds (hlength : ¬ length.toNat < sizeofSealedData)
    (hreadable : ¬ Unreadable lib sealed) (h : ¬ HoldsParts lib holds sealed) (s : SealState) :
    (unsealData lib holds (some sealed) length s).1 = .error .badAlloc ∧
      (unsealData lib holds (some sealed) length s).2.reads =
        ⟨0, sizeofSealedData⟩ :: s.reads := by
  rw [unsealData_eq lib holds hlength, if_neg hreadable, unsealParts,
    Call.bind_of_error (allocate_of_not_holds h _)]
  exact ⟨rfl, rfl⟩

/-- With room for the vectors the call goes on to `sgx_unseal_data`. -/
theorem unsealData_of_holds (hlength : ¬ length.toNat < sizeofSealedData)
    (hreadable : ¬ Unreadable lib sealed) (h : HoldsParts lib holds sealed) (s : SealState) :
    unsealData lib holds (some sealed) length s =
      (do
        let unsealed ← sgxUnsealData lib sealed
        if unsealed.1 ≠ sgxSuccess then
          giveUp (str "Unsealing operation failed with error code: " ++ decimal unsealed.1.toNat)
        else pure (some unsealed.2) : SealCall (Option UnsealedData))
        { s with reads := ⟨0, sizeofSealedData⟩ :: s.reads } := by
  rw [unsealData_eq lib holds hlength, if_neg hreadable, unsealParts,
    Call.bind_of_ok (allocate_of_holds h _)]

/-- `sgx_unseal_data` reads the header, and where it refuses it, no more. -/
theorem sgxUnsealData_of_refused {status : { status : UInt32 // status ≠ sgxSuccess }}
    (h : lib.refuses (headerAt sealed) = some status) (s : SealState) :
    sgxUnsealData lib sealed s =
      (.ok (status.1, ⟨[], []⟩), { s with reads := ⟨0, sizeofSealedData⟩ :: s.reads }) := by
  rw [headerAt] at h
  simp only [sgxUnsealData, readBytes, Call.bind_apply, h]
  rfl

/-- Else it reads as much of the payload as the header declares. -/
theorem sgxUnsealData_of_opened (h : lib.refuses (headerAt sealed) = none) (s : SealState) :
    sgxUnsealData lib sealed s =
      (.ok (lib.opens (headerAt sealed) (payloadAt lib sealed)),
        { s with
          reads := ⟨sizeofSealedData, declaredPayload lib sealed⟩ :: ⟨0, sizeofSealedData⟩ ::
            s.reads }) := by
  rw [headerAt] at h
  simp only [sgxUnsealData, readBytes, Call.bind_apply, h]
  rfl

/-- A header that is refused. The payload is not read. -/
theorem unsealData_of_refused (hlength : ¬ length.toNat < sizeofSealedData)
    (hreadable : ¬ Unreadable lib sealed) (hholds : HoldsParts lib holds sealed)
    {status : { status : UInt32 // status ≠ sgxSuccess }}
    (h : lib.refuses (headerAt sealed) = some status) (s : SealState) :
    (unsealData lib holds (some sealed) length s).1 = .ok none ∧
      (unsealData lib holds (some sealed) length s).2.reads =
        ⟨0, sizeofSealedData⟩ :: ⟨0, sizeofSealedData⟩ :: s.reads := by
  rw [unsealData_of_holds lib holds hlength hreadable hholds,
    Call.bind_of_ok (sgxUnsealData_of_refused lib h _), if_pos status.2]
  exact ⟨rfl, rfl⟩

/-- A header that is not refused. The payload is read as far as the header declares it. -/
theorem unsealData_of_opened (hlength : ¬ length.toNat < sizeofSealedData)
    (hreadable : ¬ Unreadable lib sealed) (hholds : HoldsParts lib holds sealed)
    (h : lib.refuses (headerAt sealed) = none) (s : SealState) :
    (unsealData lib holds (some sealed) length s).1 =
        .ok (if (lib.opens (headerAt sealed) (payloadAt lib sealed)).1 = sgxSuccess then
          some (lib.opens (headerAt sealed) (payloadAt lib sealed)).2 else none) ∧
      (unsealData lib holds (some sealed) length s).2.reads =
        ⟨sizeofSealedData, declaredPayload lib sealed⟩ :: ⟨0, sizeofSealedData⟩ ::
          ⟨0, sizeofSealedData⟩ :: s.reads := by
  rw [unsealData_of_holds lib holds hlength hreadable hholds,
    Call.bind_of_ok (sgxUnsealData_of_opened lib h _)]
  by_cases hstatus : (lib.opens (headerAt sealed) (payloadAt lib sealed)).1 = sgxSuccess
  · rw [if_neg (not_not.2 hstatus), if_pos hstatus]
    exact ⟨rfl, rfl⟩
  · rw [if_pos hstatus, if_neg hstatus]
    exact ⟨rfl, rfl⟩

end Cases

/-! ## Staying inside the given length -/

section StaysInside

variable (lib : SealLibrary) (holds : List Nat → Bool)

/-- The header is incomplete, or the payload it declares goes beyond the length. -/
def GoesBeyond (sealed : Nat → UInt8) (length : Nat) : Prop :=
  length < sizeofSealedData ∨ length < sizeofSealedData + declaredPayload lib sealed

/-- What is asked of `UnsealData` for a buffer of a length: `std::nullopt` for what goes beyond the
length, and no read outside of it. -/
structure StaysInside (handler : SealHandler) (sealed : Nat → UInt8) (length : Nat) : Prop where
  refused : GoesBeyond lib sealed length →
    (unsealData lib holds (some sealed) (UInt32.ofNat length) ⟨handler, []⟩).1 = .ok none
  inside : ∀ r ∈ (unsealData lib holds (some sealed) (UInt32.ofNat length) ⟨handler, []⟩).2.reads,
    r.Within length

/-- The length that the method sees is too short for a header, or a size cannot be told from the
header, or the payload fits in the length, or the vectors can be allocated and the header is refused
for itself. -/
def StopsInside (sealed : Nat → UInt8) (length : Nat) : Prop :=
  length % 2 ^ 32 < sizeofSealedData ∨ Unreadable lib sealed ∨
    sizeofSealedData + declaredPayload lib sealed ≤ length ∨
      HoldsParts lib holds sealed ∧ (lib.refuses (headerAt sealed)).isSome

variable {lib holds}

/-- A length that is no less than a header's modulo `2 ^ 32` is no less than a header's. -/
theorem sizeofSealedData_le {length : Nat} (h : ¬ length % 2 ^ 32 < sizeofSealedData) :
    sizeofSealedData ≤ length :=
  (not_lt.1 h).trans (Nat.mod_le _ _)

/-- What goes beyond a length that is no less than a header's does not fit in it. -/
theorem not_fits_of_goesBeyond {sealed : Nat → UInt8} {length : Nat}
    (hheader : sizeofSealedData ≤ length) (h : GoesBeyond lib sealed length) :
    ¬ sizeofSealedData + declaredPayload lib sealed ≤ length := by
  rcases h with hshort | hbeyond
  · exact absurd hheader (not_le.2 hshort)
  · exact not_le.2 hbeyond

/-- The condition where the header is complete and its sizes can be told. -/
theorem stopsInside_iff {sealed : Nat → UInt8} {length : Nat}
    (hshort : ¬ length % 2 ^ 32 < sizeofSealedData) (hreadable : ¬ Unreadable lib sealed) :
    StopsInside lib holds sealed length ↔
      sizeofSealedData + declaredPayload lib sealed ≤ length ∨
        HoldsParts lib holds sealed ∧ (lib.refuses (headerAt sealed)).isSome := by
  rw [StopsInside, or_iff_right hshort, or_iff_right hreadable]

/-- A range that is the header. -/
theorem within_header {length : Nat} (h : sizeofSealedData ≤ length) {r : ByteRange}
    (hr : r = ⟨0, sizeofSealedData⟩) : r.Within length := by
  rw [hr, ByteRange.Within, Nat.zero_add]
  exact h

/-- **When unsealing stays inside the given length.** -/
theorem unsealData_staysInside_iff (lib : SealLibrary) (holds : List Nat → Bool)
    (handler : SealHandler) (sealed : Nat → UInt8) (length : Nat) :
    StaysInside lib holds handler sealed length ↔ StopsInside lib holds sealed length := by
  have htoNat : (UInt32.ofNat length).toNat = length % 2 ^ 32 := UInt32.toNat_ofNat'
  by_cases hshort : length % 2 ^ 32 < sizeofSealedData
  · obtain ⟨hresult, hreads⟩ :=
      unsealData_of_short lib holds sealed (htoNat ▸ hshort) ⟨handler, []⟩
    refine iff_of_true ⟨fun _ => hresult, ?_⟩ (.inl hshort)
    rw [hreads]
    exact fun _ hr => absurd hr List.not_mem_nil
  have hlength : ¬ (UInt32.ofNat length).toNat < sizeofSealedData := htoNat ▸ hshort
  have hheader := sizeofSealedData_le hshort
  by_cases hreadable : Unreadable lib sealed
  · obtain ⟨hresult, hreads⟩ := unsealData_of_unreadable lib holds hlength hreadable ⟨handler, []⟩
    refine iff_of_true ⟨fun _ => hresult, ?_⟩ (.inr (.inl hreadable))
    rw [hreads]
    exact fun r hr => within_header hheader (List.mem_singleton.1 hr)
  rw [stopsInside_iff hshort hreadable]
  by_cases hholds : HoldsParts lib holds sealed
  · cases hrefuses : lib.refuses (headerAt sealed) with
    | some status =>
        -- a header that is refused for itself
        obtain ⟨hresult, hreads⟩ :=
          unsealData_of_refused lib holds hlength hreadable hholds hrefuses ⟨handler, []⟩
        refine iff_of_true ⟨fun _ => hresult, ?_⟩ (.inr ⟨hholds, rfl⟩)
        rw [hreads]
        intro r hr
        rcases List.mem_cons.1 hr with hr | hr
        · exact within_header hheader hr
        · exact within_header hheader (List.mem_singleton.1 hr)
    | none =>
        -- the payload is read, and then opened or not
        obtain ⟨hresult, hreads⟩ :=
          unsealData_of_opened lib holds hlength hreadable hholds hrefuses ⟨handler, []⟩
        constructor
        · intro h
          -- the payload was read, so it lies inside
          have hpayload := h.inside ⟨sizeofSealedData, declaredPayload lib sealed⟩
            (hreads ▸ List.mem_cons_self)
          exact .inl hpayload
        · rintro (hfits | ⟨-, hsome⟩)
          · refine ⟨fun hbeyond => absurd hfits (not_fits_of_goesBeyond hheader hbeyond), ?_⟩
            rw [hreads]
            intro r hr
            rcases List.mem_cons.1 hr with rfl | hr
            · exact hfits
            rcases List.mem_cons.1 hr with hr | hr
            · exact within_header hheader hr
            · exact within_header hheader (List.mem_singleton.1 hr)
          · cases hsome
  · -- `std::bad_alloc` is not `std::nullopt`
    obtain ⟨hresult, hreads⟩ :=
      unsealData_of_not_holds lib holds hlength hreadable hholds ⟨handler, []⟩
    constructor
    · intro h
      refine .inl (not_lt.1 fun hbeyond => ?_)
      have hnone := h.refused (.inr hbeyond)
      rw [hresult] at hnone
      cases hnone
    · rintro (hfits | ⟨hparts, -⟩)
      · refine ⟨fun hbeyond => absurd hfits (not_fits_of_goesBeyond hheader hbeyond), ?_⟩
        rw [hreads]
        exact fun r hr => within_header hheader (List.mem_singleton.1 hr)
      · exact absurd hparts hholds

end StaysInside

/-! ### A sealed text that is cut off -/

/-- `plain_text_offset` of a header. -/
def plainTextOffset (header : List UInt8) : UInt32 :=
  UInt32.ofNat (littleEndian (fieldAt header 512 4))

/-- `aes_data.payload_size` of a header. -/
def payloadSize (header : List UInt8) : UInt32 := UInt32.ofNat (littleEndian (fieldAt header 528 4))

/-- What the handler hands over to have a text of one byte sealed. -/
def byteArgs : SealArgs := (SealHandler.make sgxKeypolicyMrenclave).sealArgs [7] 561

/-- The text of one byte, sealed. -/
def sealedByte : List UInt8 :=
  List.replicate 512 0 ++ 1 :: (List.replicate 15 0 ++ 1 :: (List.replicate 31 0 ++ [0xA5]))

/-- The functions of the SDK, as they are on `byteArgs` and on what is made of it. -/
def byteLibrary : SealLibrary where
  calcSealedDataSize := fun macSize textSize =>
    if sizeofSealedData + macSize.toNat + textSize.toNat < 2 ^ 32 then
      UInt32.ofNat (sizeofSealedData + macSize.toNat + textSize.toNat)
    else uint32Max
  sealDataEx := fun args => if args = byteArgs then (0, sealedByte) else (1, [])
  getAddMacTxtLen := fun header =>
    if payloadSize header < plainTextOffset header then uint32Max
    else payloadSize header - plainTextOffset header
  getEncryptTxtLen := plainTextOffset
  refuses := fun _ => none
  opens := fun header payload =>
    if header ++ payload = sealedByte then (0, ⟨[], [7]⟩) else (0x3001, ⟨[], []⟩)

theorem byteLibrary_opens {header payload : List UInt8} (h : header ++ payload = sealedByte) :
    byteLibrary.opens header payload = (0, ⟨[], [7]⟩) := if_pos h

/-- The memory that `sealedByte` lies in. -/
def sealedByteMemory : Nat → UInt8 := memoryOf sealedByte fun _ => 0

theorem sealedByte_length : sealedByte.length = sizeofSealedData + 1 := by
  simp only [sealedByte, List.length_append, List.length_cons, List.length_replicate,
    List.length_nil]
  rfl

theorem headerAt_sealedByte : headerAt sealedByteMemory = sealedByte.take sizeofSealedData :=
  bytesOf_memoryOf (by rw [sealedByte_length]; omega) _

theorem declaredPayload_sealedByte : declaredPayload byteLibrary sealedByteMemory = 1 := by
  rw [declaredPayload, headerAt_sealedByte]
  decide +kernel

/-- The caller says that the sealed text ends behind its header. `UnsealData` reads the payload from
the memory behind it, and unseals it. -/
theorem unseals_behind_length :
    GoesBeyond byteLibrary sealedByteMemory 560 ∧
      (unsealData byteLibrary (fun _ => true) (some sealedByteMemory) (UInt32.ofNat 560)
        ⟨.make sgxKeypolicyMrenclave, []⟩).1 = .ok (some ⟨[], [7]⟩) ∧
      ¬ StaysInside byteLibrary (fun _ => true) (.make sgxKeypolicyMrenclave) sealedByteMemory
        560 := by
  have hreadable : ¬ Unreadable byteLibrary sealedByteMemory := by
    rw [Unreadable, headerAt_sealedByte]
    decide +kernel
  have hbeyond : GoesBeyond byteLibrary sealedByteMemory 560 := by
    refine .inr ?_
    rw [declaredPayload_sealedByte]
    decide
  have hpayload : payloadAt byteLibrary sealedByteMemory = [0xA5] := by
    rw [payloadAt, declaredPayload_sealedByte]
    rw [sealedByteMemory, bytesOf_memoryOf (Nat.le_of_eq sealedByte_length.symm)]
    decide +kernel
  have hlength : ¬ (UInt32.ofNat 560).toNat < sizeofSealedData := by decide
  obtain ⟨hresult, -⟩ := unsealData_of_opened byteLibrary (fun _ => true) hlength hreadable rfl rfl
    ⟨.make sgxKeypolicyMrenclave, []⟩
  have hopens : byteLibrary.opens (headerAt sealedByteMemory)
      (payloadAt byteLibrary sealedByteMemory) = (0, ⟨[], [7]⟩) := by
    apply byteLibrary_opens
    rw [hpayload, headerAt_sealedByte]
    decide +kernel
  rw [hopens] at hresult
  refine ⟨hbeyond, hresult, fun h => ?_⟩
  have hnone := h.refused hbeyond
  rw [hresult] at hnone
  cases hnone

end Ssgx.Sealing
