import Ssgx.Sealing.UnsealBounds

/-!
# Sealed data come back

`UnsealData` of what `SealData` has made of a vector. `SealData` takes a `size_t` length as a
`uint32_t`, so of a longer vector it seals the part in front that the narrowed length covers.

What is relied on of the SDK is `SealLibrary.Conforms`: the size of sealed data is that of their
parts, and `sgx_unseal_data` undoes `sgx_seal_data_ex` for the lengths it was given.
-/

set_option autoImplicit false

namespace Ssgx.Sealing

open Ssgx.Support
open Ssgx.Attestation (sgxSuccess)
open Ssgx.Filesystem (isValidKeyPolicy sgxKeypolicyMrenclave)

/-! ## What the SDK promises -/

/-- The texts have lengths that `uint32_t` holds, and the size is the one that
`sgx_calc_sealed_data_size` gives for them. -/
structure SealArgs.WellSized (lib : SealLibrary) (args : SealArgs) : Prop where
  macText : args.additionalMacText.length < 2 ^ 32
  text : args.textToEncrypt.length < 2 ^ 32
  size : args.sealedDataSize = lib.calcSealedDataSize (UInt32.ofNat args.additionalMacText.length)
    (UInt32.ofNat args.textToEncrypt.length)
  sizeKnown : args.sealedDataSize ≠ uint32Max

/-- `sgx_unseal_data` gives the texts back, and the header tells their lengths. -/
structure SealLibrary.Undoes (lib : SealLibrary) (args : SealArgs) (sealed : List UInt8) :
    Prop where
  length : sealed.length = args.sealedDataSize.toNat
  macTextLen : lib.getAddMacTxtLen (sealed.take sizeofSealedData) =
    UInt32.ofNat args.additionalMacText.length
  textLen : lib.getEncryptTxtLen (sealed.take sizeofSealedData) =
    UInt32.ofNat args.textToEncrypt.length
  accepts : lib.refuses (sealed.take sizeofSealedData) = none
  opens : lib.opens (sealed.take sizeofSealedData) (sealed.drop sizeofSealedData) =
    (sgxSuccess, ⟨args.additionalMacText, args.textToEncrypt⟩)

/-- What is relied on of the SDK. -/
structure SealLibrary.Conforms (lib : SealLibrary) : Prop where
  calcSealedDataSize : ∀ macSize textSize, lib.calcSealedDataSize macSize textSize =
    if sizeofSealedData + macSize.toNat + textSize.toNat < 2 ^ 32 then
      UInt32.ofNat (sizeofSealedData + macSize.toNat + textSize.toNat)
    else uint32Max
  undoes : ∀ args sealed, args.WellSized lib → lib.sealDataEx args = (sgxSuccess, sealed) →
    lib.Undoes args sealed

/-! ## Sealing -/

section Sealing

variable {lib : SealLibrary} {holds : List Nat → Bool} {s : SealState}

/-- **What `SealData` gives** is what `sgx_seal_data_ex` has made of the text up to the length,
behind the checks. -/
theorem sealData_some_iff {text : List UInt8} {length : UInt32} {sealed : List UInt8} :
    (sealData lib holds (some text) length s).1 = .ok (some sealed) ↔
      length ≠ 0 ∧ isValidKeyPolicy s.handler.keyPolicy = true ∧
        isValidAttributeMask s.handler.attributeMask = true ∧
        s.handler.sealedDataSize lib length ≠ uint32Max ∧
        holds [(s.handler.sealedDataSize lib length).toNat] = true ∧
        lib.sealDataEx (s.handler.sealArgs (text.take length.toNat)
          (s.handler.sealedDataSize lib length)) = (sgxSuccess, sealed) := by
  rw [sealData, checked_some_iff, Call.read_bind_apply, checked_some_iff, checked_some_iff,
    checked_some_iff, allocated_some_iff, checked_some_iff, Bool.not_eq_false, Bool.not_eq_false,
    not_not, Prod.ext_iff]
  simp only [Call.pure_apply, Except.ok.injEq, Option.some.injEq, ne_eq]

end Sealing

/-! ## Sizes -/

section Sizes

variable {lib : SealLibrary} {args : SealArgs}

/-- The size of sealed data that is known is the sum of the parts. -/
theorem SealArgs.WellSized.sum (hargs : args.WellSized lib) (hlib : lib.Conforms) :
    sizeofSealedData + args.additionalMacText.length + args.textToEncrypt.length < 2 ^ 32 ∧
      args.sealedDataSize.toNat =
        sizeofSealedData + args.additionalMacText.length + args.textToEncrypt.length := by
  have hsize := hargs.size
  rw [hlib.calcSealedDataSize, UInt32.toNat_ofNat_of_lt' hargs.macText,
    UInt32.toNat_ofNat_of_lt' hargs.text] at hsize
  by_cases hsum : sizeofSealedData + args.additionalMacText.length + args.textToEncrypt.length <
      2 ^ 32
  · rw [if_pos hsum] at hsize
    exact ⟨hsum, by rw [hsize, UInt32.toNat_ofNat_of_lt' hsum]⟩
  · rw [if_neg hsum] at hsize
    exact absurd hsize hargs.sizeKnown

/-- A length that leaves room for a header is no `UINT32_MAX`. -/
theorem ofNat_ne_uint32Max {n : Nat} (h : sizeofSealedData + n < 2 ^ 32) :
    UInt32.ofNat n ≠ uint32Max := by
  intro hmax
  have htoNat := congrArg UInt32.toNat hmax
  rw [UInt32.toNat_ofNat_of_lt' ((Nat.le_add_left _ _).trans_lt h)] at htoNat
  rw [htoNat] at h
  exact absurd h (by decide)

end Sizes

/-! ## Unsealing what was sealed -/

section Unsealing

variable {lib : SealLibrary} {holds : List Nat → Bool} {args : SealArgs} {sealed : List UInt8}

/-- **Sealed data are opened**, where the heap holds the two texts. -/
theorem unsealVector_of_undoes (hlib : lib.Conforms) (hargs : args.WellSized lib)
    (h : lib.Undoes args sealed) (behind : Nat → UInt8) (s : SealState) :
    (unsealVector lib holds sealed behind s).1 =
      if holds [args.additionalMacText.length, args.textToEncrypt.length] = true then
        .ok (some ⟨args.additionalMacText, args.textToEncrypt⟩)
      else .error .badAlloc := by
  obtain ⟨hsum, hsize⟩ := hargs.sum hlib
  have hlength : sealed.length =
      sizeofSealedData + args.additionalMacText.length + args.textToEncrypt.length :=
    h.length.trans hsize
  have hheader : headerAt (memoryOf sealed behind) = sealed.take sizeofSealedData :=
    bytesOf_memoryOf (by omega) behind
  have hmac : lib.getAddMacTxtLen (headerAt (memoryOf sealed behind)) =
      UInt32.ofNat args.additionalMacText.length := hheader ▸ h.macTextLen
  have htext : lib.getEncryptTxtLen (headerAt (memoryOf sealed behind)) =
      UInt32.ofNat args.textToEncrypt.length := hheader ▸ h.textLen
  have hmacNat := UInt32.toNat_ofNat_of_lt' hargs.macText
  have htextNat := UInt32.toNat_ofNat_of_lt' hargs.text
  -- the length that `UnsealData` is given is not narrowed
  have hlong : ¬ (UInt32.ofNat sealed.length).toNat < sizeofSealedData := by
    have hlt : sealed.length < 2 ^ 32 := by omega
    rw [UInt32.toNat_ofNat_of_lt' hlt]
    omega
  have hreadable : ¬ Unreadable lib (memoryOf sealed behind) := by
    rw [Unreadable, hmac, htext, not_or]
    exact ⟨ofNat_ne_uint32Max (by omega), ofNat_ne_uint32Max (by omega)⟩
  have hparts : HoldsParts lib holds (memoryOf sealed behind) ↔
      holds [args.additionalMacText.length, args.textToEncrypt.length] = true := by
    rw [HoldsParts, hmac, htext, hmacNat, htextNat]
  -- the payload that is declared is all that stands behind the header
  have hpayload : payloadAt lib (memoryOf sealed behind) = sealed.drop sizeofSealedData := by
    have hdeclared : declaredPayload lib (memoryOf sealed behind) =
        (sealed.drop sizeofSealedData).length := by
      rw [declaredPayload, hmac, htext, hmacNat, htextNat, List.length_drop]
      omega
    rw [payloadAt, hdeclared, bytesOf_memoryOf (by rw [List.length_drop]; omega),
      List.take_length]
  by_cases hholds : holds [args.additionalMacText.length, args.textToEncrypt.length] = true
  · obtain ⟨hresult, -⟩ := unsealData_of_opened lib holds hlong hreadable (hparts.2 hholds)
      (hheader ▸ h.accepts) s
    rw [hheader, hpayload, h.opens, if_pos rfl] at hresult
    rw [if_pos hholds]
    exact hresult
  · obtain ⟨hresult, -⟩ := unsealData_of_not_holds lib holds hlong hreadable
      (mt hparts.1 hholds) s
    rw [if_neg hholds]
    exact hresult

/-- What `SealData` hands over for a text up to a length is of known sizes. -/
theorem wellSized_sealArgs (handler : SealHandler) {text : List UInt8} {length : UInt32}
    (hlength : length.toNat ≤ text.length)
    (hknown : handler.sealedDataSize lib length ≠ uint32Max) :
    (handler.sealArgs (text.take length.toNat) (handler.sealedDataSize lib length)).WellSized
      lib := by
  have htake : (text.take length.toNat).length = length.toNat := List.length_take_of_le hlength
  refine ⟨handler.additionalMacText.2, ?_, ?_, hknown⟩
  · exact htake.trans_lt length.toNat_lt
  · change _ = lib.calcSealedDataSize _ (UInt32.ofNat (text.take length.toNat).length)
    rw [htake, UInt32.ofNat_toNat]
    rfl

/-- **What comes back** of a vector that was sealed: the MAC text, and the text up to the narrowed
length. -/
theorem unsealVector_sealVector (hlib : lib.Conforms) {holdsThen : List Nat → Bool}
    {s : SealState} {plaintext : List UInt8}
    (h : (sealVector lib holdsThen plaintext s).1 = .ok (some sealed)) (behind : Nat → UInt8)
    (s' : SealState) :
    (unsealVector lib holds sealed behind s').1 =
      if holds [s.handler.additionalMacText.1.length, plaintext.length % 2 ^ 32] = true then
        .ok (some ⟨s.handler.additionalMacText.1, plaintext.take (plaintext.length % 2 ^ 32)⟩)
      else .error .badAlloc := by
  obtain ⟨-, -, -, hknown, -, hsealed⟩ := sealData_some_iff.1 h
  have htoNat : (UInt32.ofNat plaintext.length).toNat = plaintext.length % 2 ^ 32 :=
    UInt32.toNat_ofNat'
  have hle : plaintext.length % 2 ^ 32 ≤ plaintext.length := Nat.mod_le _ _
  have hargs := wellSized_sealArgs s.handler (htoNat ▸ hle) hknown
  have hundoes := hlib.undoes _ _ hargs hsealed
  rw [unsealVector_of_undoes hlib hargs hundoes behind s', SealHandler.sealArgs, htoNat,
    List.length_take_of_le hle]

end Unsealing

/-- **When a sealed vector comes back.** -/
theorem unsealVector_sealVector_iff {lib : SealLibrary} (hlib : lib.Conforms)
    {holdsThen holds : List Nat → Bool} {s : SealState} {plaintext sealed : List UInt8}
    (h : (sealVector lib holdsThen plaintext s).1 = .ok (some sealed)) (behind : Nat → UInt8)
    (s' : SealState) :
    (unsealVector lib holds sealed behind s').1 =
        .ok (some ⟨s.handler.additionalMacText.1, plaintext⟩) ↔
      plaintext.length < 2 ^ 32 ∧
        holds [s.handler.additionalMacText.1.length, plaintext.length] = true := by
  rw [unsealVector_sealVector hlib h]
  constructor
  · intro hback
    -- without room for the parts an exception would have come back
    split_ifs at hback with hholds
    have htake : plaintext.take (plaintext.length % 2 ^ 32) = plaintext := by
      simpa using hback
    -- the text that came back is as long as the narrowed length
    have hlength : plaintext.length % 2 ^ 32 = plaintext.length := by
      have := congrArg List.length htake
      rwa [List.length_take_of_le (Nat.mod_le _ _)] at this
    refine ⟨?_, hlength ▸ hholds⟩
    rw [← hlength]
    exact Nat.mod_lt _ (Nat.two_pow_pos 32)
  · rintro ⟨hlt, hholds⟩
    rw [Nat.mod_eq_of_lt hlt, if_pos hholds, List.take_length]

/-! ### A text of one byte, and one that is too long -/

theorem byteLibrary_undoes : byteLibrary.Undoes byteArgs sealedByte where
  length := by rw [sealedByte_length]; rfl
  macTextLen := by decide +kernel
  textLen := by decide +kernel
  accepts := rfl
  opens := byteLibrary_opens (List.take_append_drop _ _)

/-- A library that seals one text alone conforms where it undoes that. -/
theorem SealLibrary.Undoes.conforms {lib : SealLibrary} {args : SealArgs} {sealed : List UInt8}
    (h : lib.Undoes args sealed)
    (hsize : lib.calcSealedDataSize = byteLibrary.calcSealedDataSize)
    (honly : lib.sealDataEx = fun a => if a = args then (sgxSuccess, sealed) else (1, [])) :
    lib.Conforms where
  calcSealedDataSize := fun _ _ => by rw [hsize]; rfl
  undoes := by
    intro a bytes _ hcall
    rw [honly] at hcall
    by_cases hargs : a = args
    · subst hargs
      simp only [if_true] at hcall
      cases hcall
      exact h
    · simp only [if_neg hargs] at hcall
      cases hcall

theorem byteLibrary_conforms : byteLibrary.Conforms := byteLibrary_undoes.conforms rfl rfl

/-- A handler as it is constructed, before any call. -/
def freshState : SealState := ⟨.make sgxKeypolicyMrenclave, []⟩

theorem byteLibrary_sealDataEx {args : SealArgs} (h : args = byteArgs) :
    byteLibrary.sealDataEx args = (sgxSuccess, sealedByte) := if_pos h

/-- A vector of sevens whose length is 1 modulo `2 ^ 32` is sealed as one byte. -/
theorem sealVector_sevens (n : Nat) (h : n % 2 ^ 32 = 1) :
    (sealVector byteLibrary (fun _ => true) (List.replicate n 7) freshState).1 =
      .ok (some sealedByte) := by
  have hlength : UInt32.ofNat (List.replicate n (7 : UInt8)).length = 1 := by
    apply UInt32.toNat_inj.1
    rw [List.length_replicate, UInt32.toNat_ofNat', h]
    rfl
  have htake : (List.replicate n (7 : UInt8)).take (1 : UInt32).toNat = [7] := by
    have hle : 1 ≤ n := by omega
    change (List.replicate n (7 : UInt8)).take 1 = [7]
    rw [List.take_replicate, Nat.min_eq_left hle]
    rfl
  have hsize : freshState.handler.sealedDataSize byteLibrary 1 = 561 := by decide
  rw [sealVector, hlength, sealData_some_iff, htake, hsize]
  exact ⟨by decide, by decide, by decide, by decide, rfl, byteLibrary_sealDataEx rfl⟩

/-- What comes back of such a vector is one seven. -/
theorem unsealVector_sevens :
    (unsealVector byteLibrary (fun _ => true) sealedByte (fun _ => 0) freshState).1 =
      .ok (some ⟨[], [7]⟩) :=
  unsealVector_sealVector byteLibrary_conforms (sealVector_sevens 1 rfl) _ _

theorem sevens_truncated (n : Nat) (hn : n ≠ 1) :
    (unsealVector byteLibrary (fun _ => true) sealedByte (fun _ => 0) freshState).1 ≠
      .ok (some ⟨[], List.replicate n 7⟩) := by
  rw [unsealVector_sevens]
  intro h
  have htext : [7] = List.replicate n (7 : UInt8) := by simpa using h
  have hlength := congrArg List.length htext
  rw [List.length_replicate, List.length_singleton] at hlength
  exact hn hlength.symm

/-- Of a vector of `2 ^ 32 + 1` bytes one byte comes back. -/
theorem long_vector_truncated :
    byteLibrary.Conforms ∧
      (sealVector byteLibrary (fun _ => true) (List.replicate (2 ^ 32 + 1) 7) freshState).1 =
        .ok (some sealedByte) ∧
      (unsealVector byteLibrary (fun _ => true) sealedByte (fun _ => 0) freshState).1 ≠
        .ok (some ⟨[], List.replicate (2 ^ 32 + 1) 7⟩) :=
  ⟨byteLibrary_conforms, sealVector_sevens (2 ^ 32 + 1) rfl,
    sevens_truncated (2 ^ 32 + 1) (by decide)⟩

/-! ### A text of three bytes, with a MAC text -/

/-- A handler with a MAC text. -/
def noteHandler : SealHandler :=
  (SealHandler.make sgxKeypolicyMrenclave).setAdditionalMacText [1, 2] 2

/-- What it hands over to have a text of three bytes sealed. -/
def noteArgs : SealArgs := noteHandler.sealArgs [3, 4, 5] 565

/-- The text, sealed. -/
def sealedNote : List UInt8 :=
  List.replicate 512 0 ++
    3 :: (List.replicate 15 0 ++ 5 :: (List.replicate 31 0 ++ [0xC5, 0xC4, 0xC3, 1, 2]))

/-- The functions of the SDK, as they are on `noteArgs` and on what is made of it. -/
def noteLibrary : SealLibrary :=
  { byteLibrary with
    sealDataEx := fun args => if args = noteArgs then (sgxSuccess, sealedNote) else (1, [])
    opens := fun header payload =>
      if header ++ payload = sealedNote then (0, ⟨[1, 2], [3, 4, 5]⟩) else (0x3001, ⟨[], []⟩) }

theorem noteLibrary_opens {header payload : List UInt8} (h : header ++ payload = sealedNote) :
    noteLibrary.opens header payload = (0, ⟨[1, 2], [3, 4, 5]⟩) := if_pos h

theorem noteLibrary_sealDataEx {args : SealArgs} (h : args = noteArgs) :
    noteLibrary.sealDataEx args = (sgxSuccess, sealedNote) := if_pos h

theorem sealedNote_length : sealedNote.length = 565 := by
  simp only [sealedNote, List.length_append, List.length_cons, List.length_replicate,
    List.length_nil]

theorem noteLibrary_undoes : noteLibrary.Undoes noteArgs sealedNote where
  length := by rw [sealedNote_length]; rfl
  macTextLen := by decide +kernel
  textLen := by decide +kernel
  accepts := rfl
  opens := noteLibrary_opens (List.take_append_drop _ _)

theorem sealVector_note :
    (sealVector noteLibrary (fun _ => true) [3, 4, 5] ⟨noteHandler, []⟩).1 =
      .ok (some sealedNote) := by
  have hsize : noteHandler.sealedDataSize noteLibrary 3 = 565 := by decide
  rw [sealVector, sealData_some_iff, show UInt32.ofNat [(3 : UInt8), 4, 5].length = 3 from rfl,
    hsize]
  exact ⟨by decide, by decide, by decide, by decide, rfl, noteLibrary_sealDataEx rfl⟩

theorem unsealVector_sealVector_note :
    (unsealVector noteLibrary (fun _ => true) sealedNote (fun _ => 0) freshState).1 =
      .ok (some ⟨[1, 2], [3, 4, 5]⟩) :=
  (unsealVector_sealVector_iff (noteLibrary_undoes.conforms rfl rfl) sealVector_note _ _).2
    ⟨by decide, rfl⟩

end Ssgx.Sealing
