import Ssgx.Attestation.Quote
import Ssgx.Filesystem.ProtectedFile

/-!
# Sealing and unsealing

`SealHandler` of `ssgx_utils_t_seal_handler.h` and `SealHandler.cpp`: the setters, and both
overloads of `SealData` and of `UnsealData`.

The sealing functions of the SGX SDK are a parameter (`SealLibrary`). A sealed text is a header of
fixed size with a payload behind it; the header declares the sizes of the two parts of the payload.
The functions that unseal are given a pointer and no length. They read the header, and the payload
as far as the header declares it.

What is read through the pointer to the sealed data is kept on record, so that it can be compared
with the length that the caller gave. The two vectors for the parts are allocated before anything is
unsealed; where the heap of the enclave cannot hold them, `std::bad_alloc` is thrown.
-/

set_option autoImplicit false

namespace Ssgx.Sealing

open Ssgx.Support
open Ssgx.Attestation (sgxSuccess littleEndian fieldAt)
open Ssgx.Filesystem (SgxAttributes isValidKeyPolicy tsealDefaultFlagsmask tsealDefaultMiscmask
  sgxKeypolicyMrenclave)

/-- `UINT32_MAX`. -/
def uint32Max : UInt32 := 0xFFFFFFFF

/-- `sizeof(sgx_sealed_data_t)`: the key request, the offset of the plain text, the size of the
payload and its tag, and the reserved bytes between them. -/
def sizeofSealedData : Nat := 512 + (4 + 12) + (4 + 12 + 16)

/-- `SGX_FLAGS_INITTED`. -/
def sgxFlagsInitted : UInt64 := 0x1

/-- `SGX_FLAGS_DEBUG`. -/
def sgxFlagsDebug : UInt64 := 0x2

/-- `is_valid_attribute_mask`. -/
def isValidAttributeMask (attributeMask : SgxAttributes) : Bool :=
  !(decide (attributeMask.flags &&& sgxFlagsInitted = 0) ||
    decide (attributeMask.flags &&& sgxFlagsDebug = 0))

/-- `UnsealedData`. -/
structure UnsealedData where
  additionalMacText : List UInt8
  decryptedText : List UInt8
deriving DecidableEq

/-! ## The handler -/

/-- `SealHandler`. Its MAC text has a length that `uint32_t` holds, as `SetAdditionalMacText` is
given one. -/
structure SealHandler where
  keyPolicy : UInt16
  attributeMask : SgxAttributes
  miscMask : UInt32
  additionalMacText : { text : List UInt8 // text.length < 2 ^ 32 }
  lastError : Str

namespace SealHandler

/-- The constructor. -/
def make (keyPolicy : UInt16) : SealHandler where
  keyPolicy := keyPolicy
  attributeMask := ⟨tsealDefaultFlagsmask, 0x0⟩
  miscMask := tsealDefaultMiscmask
  additionalMacText := ⟨[], Nat.two_pow_pos 32⟩
  lastError := []

/-- `SetAttributeMask`. -/
def setAttributeMask (h : SealHandler) (attributeMask : SgxAttributes) : SealHandler :=
  { h with attributeMask := attributeMask }

/-- `SetMiscMask`. -/
def setMiscMask (h : SealHandler) (miscMask : UInt32) : SealHandler :=
  { h with miscMask := miscMask }

/-- `SetAdditionalMacText`. -/
def setAdditionalMacText (h : SealHandler) (macText : List UInt8) (length : UInt32) :
    SealHandler :=
  { h with
    additionalMacText := ⟨macText.take length.toNat,
      (List.length_take_le _ _).trans_lt length.toNat_lt⟩ }

end SealHandler

/-! ## The library -/

/-- The arguments of `sgx_seal_data_ex`. -/
structure SealArgs where
  keyPolicy : UInt16
  attributeMask : SgxAttributes
  miscMask : UInt32
  additionalMacText : List UInt8
  textToEncrypt : List UInt8
  sealedDataSize : UInt32
deriving DecidableEq

/-- The sealing functions of the SDK. `sgx_get_add_mac_txt_len` and `sgx_get_encrypt_txt_len` see
the header alone. `sgx_unseal_data` refuses some headers for themselves, with a status; else it
opens the payload that the header declares, and gives a status and the two parts. -/
structure SealLibrary where
  calcSealedDataSize : UInt32 → UInt32 → UInt32
  sealDataEx : SealArgs → UInt32 × List UInt8
  getAddMacTxtLen : List UInt8 → UInt32
  getEncryptTxtLen : List UInt8 → UInt32
  refuses : List UInt8 → Option { status : UInt32 // status ≠ sgxSuccess }
  opens : List UInt8 → List UInt8 → UInt32 × UnsealedData

/-! ## What a call reads and leaves -/

/-- A range of bytes behind a pointer. -/
structure ByteRange where
  offset : Nat
  count : Nat
deriving DecidableEq

/-- The range ends within a length. -/
def ByteRange.Within (r : ByteRange) (length : Nat) : Prop := r.offset + r.count ≤ length

/-- The handler, and what was read of the sealed data. -/
structure SealState where
  handler : SealHandler
  reads : List ByteRange

/-- `std::bad_alloc`. -/
inductive SealException where
  | badAlloc
deriving DecidableEq

/-- A method of the handler. -/
abbrev SealCall (α : Type) := Call SealException SealState α

/-- The bytes of a range. -/
def bytesOf (memory : Nat → UInt8) (offset count : Nat) : List UInt8 :=
  (List.range count).map fun i => memory (offset + i)

/-- The memory that a vector lies in. -/
def memoryOf (bytes : List UInt8) (behind : Nat → UInt8) (i : Nat) : UInt8 :=
  bytes.getD i (behind i)

theorem bytesOf_length (memory : Nat → UInt8) (offset count : Nat) :
    (bytesOf memory offset count).length = count := by
  rw [bytesOf, List.length_map, List.length_range]

/-- A range inside a vector is a part of the vector, whatever lies behind it. -/
theorem bytesOf_memoryOf {bytes : List UInt8} {offset count : Nat}
    (h : offset + count ≤ bytes.length) (behind : Nat → UInt8) :
    bytesOf (memoryOf bytes behind) offset count = (bytes.drop offset).take count := by
  apply List.ext_getElem
  · rw [bytesOf_length, List.length_take_of_le]
    rw [List.length_drop]
    omega
  · intro i hi _
    rw [bytesOf_length] at hi
    simp only [bytesOf, memoryOf, List.getElem_map, List.getElem_range, List.getElem_take,
      List.getElem_drop]
    rw [List.getD_eq_getElem?_getD, List.getElem?_eq_getElem (by omega), Option.getD_some]

/-- Read a range of the sealed data. -/
def readBytes (sealed : Nat → UInt8) (offset count : Nat) : SealCall (List UInt8) := fun s =>
  (.ok (bytesOf sealed offset count), { s with reads := ⟨offset, count⟩ :: s.reads })

/-- `last_error_` is set and `std::nullopt` returned. -/
def giveUp {α : Type} (what : Str) : SealCall (Option α) := fun s =>
  (.ok none, { s with handler := { s.handler with lastError := what } })

/-- Vectors of these sizes are allocated beside each other. -/
def allocate (holds : List Nat → Bool) (sizes : List Nat) : SealCall PUnit :=
  Call.raiseIf (holds sizes = false) .badAlloc

theorem allocate_of_holds {holds : List Nat → Bool} {sizes : List Nat} (h : holds sizes = true)
    (s : SealState) : allocate holds sizes s = (.ok ⟨⟩, s) :=
  Call.raiseIf_of_not (ne_false_of_eq_true h) _ s

theorem allocate_of_not_holds {holds : List Nat → Bool} {sizes : List Nat}
    (h : ¬ holds sizes = true) (s : SealState) :
    allocate holds sizes s = (.error .badAlloc, s) :=
  Call.raiseIf_of (eq_false_of_ne_true h) _ s

/-- A method that gives something has passed its check. -/
theorem checked_some_iff {α : Type} {p : Prop} [Decidable p] {what : Str} {x : SealCall (Option α)}
    {s : SealState} {a : α} :
    ((if p then giveUp what else x : SealCall (Option α)) s).1 = .ok (some a) ↔
      ¬ p ∧ (x s).1 = .ok (some a) := by
  by_cases hp : p
  · rw [if_pos hp]
    refine iff_of_false (fun h => ?_) fun h => h.1 hp
    cases h
  · rw [if_neg hp]
    exact (and_iff_right hp).symm

/-- A method that gives something had room for its vectors. -/
theorem allocated_some_iff {α : Type} {holds : List Nat → Bool} {sizes : List Nat}
    {f : PUnit → SealCall (Option α)} {s : SealState} {a : α} :
    ((allocate holds sizes >>= f) s).1 = .ok (some a) ↔
      holds sizes = true ∧ (f ⟨⟩ s).1 = .ok (some a) := by
  by_cases hholds : holds sizes = true
  · rw [Call.bind_of_ok (allocate_of_holds hholds s)]
    exact (and_iff_right hholds).symm
  · rw [Call.bind_of_error (allocate_of_not_holds hholds s)]
    refine iff_of_false (fun h => ?_) fun h => hholds h.1
    cases h

section Methods

variable (lib : SealLibrary) (holds : List Nat → Bool)

/-! ## Sealing -/

/-- What `SealData` hands to `sgx_seal_data_ex`. -/
def SealHandler.sealArgs (h : SealHandler) (textToEncrypt : List UInt8) (sealedDataSize : UInt32) :
    SealArgs where
  keyPolicy := h.keyPolicy
  attributeMask := h.attributeMask
  miscMask := h.miscMask
  additionalMacText := h.additionalMacText.1
  textToEncrypt := textToEncrypt
  sealedDataSize := sealedDataSize

/-- The size of the sealed data that `SealData` asks for. -/
def SealHandler.sealedDataSize (h : SealHandler) (length : UInt32) : UInt32 :=
  lib.calcSealedDataSize (UInt32.ofNat h.additionalMacText.1.length) length

/-- `SealData` of a pointer and a length. -/
def sealData (textToEncrypt : Option (List UInt8)) (length : UInt32) :
    SealCall (Option (List UInt8)) :=
  match textToEncrypt with
  | none => giveUp (str "Invalid input data for sealing.")
  | some text =>
      if length = 0 then giveUp (str "Invalid input data for sealing.")
      else do
        let s ← Call.read
        if isValidKeyPolicy s.handler.keyPolicy = false then giveUp (str "Invalid key policy.")
        else if isValidAttributeMask s.handler.attributeMask = false then
          giveUp (str "Invalid attribute mask.")
        else if s.handler.sealedDataSize lib length = uint32Max then
          giveUp (str "Failed to calculate sealed data size.")
        else do
          -- the vector for the sealed data
          allocate holds [(s.handler.sealedDataSize lib length).toNat]
          let sealed := lib.sealDataEx
            (s.handler.sealArgs (text.take length.toNat) (s.handler.sealedDataSize lib length))
          if sealed.1 ≠ sgxSuccess then
            giveUp (str "Sealing operation failed with error code: " ++ decimal sealed.1.toNat)
          else pure (some sealed.2)

/-- `SealData` of a vector. Its `size_t` length becomes a `uint32_t`. -/
def sealVector (textToEncrypt : List UInt8) : SealCall (Option (List UInt8)) :=
  sealData lib holds (some textToEncrypt) (UInt32.ofNat textToEncrypt.length)

/-! ## Unsealing -/

/-- `sgx_unseal_data`: the header, and behind it as much as it declares. -/
def sgxUnsealData (sealed : Nat → UInt8) : SealCall (UInt32 × UnsealedData) := do
  let header ← readBytes sealed 0 sizeofSealedData
  match lib.refuses header with
  | some status => pure (status.1, ⟨[], []⟩)
  | none => do
      let payload ← readBytes sealed sizeofSealedData
        ((lib.getEncryptTxtLen header).toNat + (lib.getAddMacTxtLen header).toNat)
      pure (lib.opens header payload)

/-- `UnsealData` behind the sizes that the header declares. -/
def unsealParts (sealed : Nat → UInt8) (addMacTextSize encryptedTextSize : UInt32) :
    SealCall (Option UnsealedData) := do
  allocate holds [addMacTextSize.toNat, encryptedTextSize.toNat]
  let unsealed ← sgxUnsealData lib sealed
  if unsealed.1 ≠ sgxSuccess then
    giveUp (str "Unsealing operation failed with error code: " ++ decimal unsealed.1.toNat)
  else pure (some unsealed.2)

/-- `UnsealData` of a pointer and a length. -/
def unsealData (sealedData : Option (Nat → UInt8)) (length : UInt32) :
    SealCall (Option UnsealedData) :=
  match sealedData with
  | none => giveUp (str "Invalid sealed data.")
  | some sealed =>
      -- the length is compared with the header, and not looked at again
      if length.toNat < sizeofSealedData then giveUp (str "Invalid sealed data.")
      else do
        let header ← readBytes sealed 0 sizeofSealedData
        if lib.getAddMacTxtLen header = uint32Max ∨ lib.getEncryptTxtLen header = uint32Max then
          giveUp (str "Failed to retrieve sealed data sizes.")
        else unsealParts lib holds sealed (lib.getAddMacTxtLen header) (lib.getEncryptTxtLen header)

/-- `UnsealData` of a vector, with other memory behind it. -/
def unsealVector (sealedData : List UInt8) (behind : Nat → UInt8) :
    SealCall (Option UnsealedData) :=
  unsealData lib holds (some (memoryOf sealedData behind)) (UInt32.ofNat sealedData.length)

end Methods

end Ssgx.Sealing
