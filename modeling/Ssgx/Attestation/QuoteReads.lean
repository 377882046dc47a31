import Ssgx.Attestation.TimedReport
import Ssgx.Sealing.SealHandler
import Ssgx.Support.Trace

/-!
# What is read of a quote

Both `RemoteAttestor.cpp` cast the decoded report to `sgx_quote3_t*` and read three fields of it:
the attributes, `mr_enclave` and the report data. `Ssgx.Attestation.Quote` takes a field of a short
quote as far as it goes. Here `VerifyReport` and the verifications of a raw quote run again over the
memory that the report is decoded to, with whatever lies behind it, and what they read of it is
written down (`QuoteCall`). On a quote that holds the fields they end as they do there
(`readTrusted_end`, `readUntrusted_end`).

Nothing in the code compares the length of the quote with the struct. What keeps the reads inside
is that Intel's libraries reject a quote that is shorter than its fixed part. Outside the enclave
every field is read behind `tee_verify_quote`. In the enclave the attributes are read in front of
`sgx_tvl_verify_qve_report_and_identity`, on the word of the host alone (`quote_reads_inside_iff`).

The overloads for a `user_info` hand the report over to the one for 64 bytes, and read nothing of it
themselves.
-/

set_option autoImplicit false

namespace Ssgx.Attestation

open Ssgx.Support
open Ssgx.Sealing (ByteRange memoryOf bytesOf bytesOf_memoryOf)

/-! ## The fields -/

/-- `report_body.attributes`: the flags, and behind them `xfrm`. -/
def attributesField : ByteRange := ⟨96, 16⟩

/-- `report_body.mr_enclave.m`. -/
def mrEnclaveField : ByteRange := ⟨112, 32⟩

/-- `report_body.report_data.d`. -/
def reportDataField : ByteRange := ⟨368, 64⟩

/-- The header and the report body: the fields end here. -/
def fieldsEnd : Nat := 432

/-- `sizeof(sgx_quote3_t)`: behind the report body stands `signature_data_len`. -/
def sizeofQuote3 : Nat := 436

/-- What a verification ends in, other than a result: what `rand::RandomBytes` throws, or a copy to
memory that was not allocated. -/
inductive VerifyStop where
  | thrown (what : Str)
  | unallocated

/-- A call that reads a quote. The ranges that it has read are written down. -/
abbrev QuoteCall (α : Type) := Call VerifyStop (List ByteRange) α

/-- Read a field of the struct that a pointer is cast to. -/
def readField (memory : Nat → UInt8) (field : ByteRange) : QuoteCall (List UInt8) := do
  Call.note field
  pure (bytesOf memory field.offset field.count)

/-- `attributes.flags & SGX_FLAGS_DEBUG`, the flags being the first 8 bytes. -/
def DebugFlag (attributes : List UInt8) : Prop :=
  littleEndian (attributes.take 8) &&& sgxFlagsDebug ≠ 0

instance (attributes : List UInt8) : Decidable (DebugFlag attributes) := by
  unfold DebugFlag
  infer_instance

/-! ## The verifications -/

/-- `VerifyRawQuoteWithQvE` over the memory of the quote. -/
def readRawQuoteWithQvE (codecs : Codecs) (tvl : TvlArgs → UInt32) (calls : TrustedCalls)
    (quote : List UInt8) (memory : Nat → UInt8) : QuoteCall RawVerdict :=
  if quote.isEmpty then
    pure (.failed .invalidParameter initialExpiration (str "Parameter quote_report is null!"))
  else
    match calls.randomBytes with
    | some what => Call.raise (.thrown what)
    | none =>
        let io := calls.io
        if io.selfTarget ≠ sgxSuccess then
          pure (.failed .getTargetInfoFailed initialExpiration
            (str "Failed to call sgx_self_target(), sgx_status: 0x" ++
              hexText io.selfTarget.toNat))
        else if io.answer.status ≠ sgxSuccess then
          pure (.failed .oCallOperationException initialExpiration
            (str "Failed to call ssgx_ocall_verify_quote_data(), sgx_status: 0x" ++
              hexText io.answer.status.toNat))
        else if io.answer.ret ≠ 0 then
          pure (.failed .oCallOperationFailed io.answer.collateralExpirationStatus
            (str "Failed to call ssgx_ocall_verify_quote_data(), ret: " ++ toText io.answer.ret))
        else if io.answer.supplemental.isOutside = false then
          pure (.failed .bufferValidateFailed io.answer.collateralExpirationStatus
            (str "Failed to validate buffer p_quote_data, it is not outside of enclave."))
        else if io.answer.supplemental.copied ≠ [] ∧ io.mallocs = false then
          Call.raise .unallocated
        else do
          let attributes ← readField memory attributesField
          if DebugFlag attributes then
            pure (.failed .enclaveInDebugMode io.answer.collateralExpirationStatus
              (str "The enclave that generate this report is in Debug Mode."))
          else if tvl (io.tvlArgs quote) ≠ sgxSuccess then
            pure (.failed .qvEVerificationCallFailed io.answer.collateralExpirationStatus
              (str "Failed to call sgx_tvl_verify_qve_report_and_identity(), verify_qveid_ret: 0x"
                ++ hexText (tvl (io.tvlArgs quote)).toNat))
          else do
            let m ← readField memory mrEnclaveField
            pure ⟨.success, codecs.encodeToHex m, some io.answer.quoteVerificationResult,
              io.answer.collateralExpirationStatus, []⟩

/-- `VerifyRawQuote` over the memory of the quote. -/
def readRawQuote (codecs : Codecs) (io : UntrustedIo) (quote : List UInt8)
    (memory : Nat → UInt8) : QuoteCall RawVerdict :=
  if quote.isEmpty then
    pure (.failed .invalidParameter initialExpiration (str "Parameter quote_report is null!"))
  else if io.supplementSizeRet ≠ sgxSuccess then
    pure (.failed .getSupplementSizeCallException initialExpiration
      (str "Failed to call tee_get_supplemental_data_version_and_size()! ret: " ++
        decimal io.supplementSizeRet.toNat))
  else if io.supplementSize ≠ io.sizeofSupplemental then
    pure (.failed .getSupplementSizeFailed initialExpiration
      (str "supp_data.data_size is wrong, supp_data.data_size: " ++
        decimal io.supplementSize.toNat))
  else if io.mallocs = false then
    pure (.failed .mallocFailed initialExpiration
      (str "Failed to malloc supp_data.p_data, supp_data.data_size: " ++
        decimal io.supplementSize.toNat))
  else if io.verifyRet ≠ sgxSuccess then
    pure (.failed .qvEVerificationCallFailed io.collateralExpirationStatus
      (str "Failed to call tee_verify_quote()! ret: " ++ decimal io.verifyRet.toNat))
  else do
    let attributes ← readField memory attributesField
    if DebugFlag attributes then
      pure (.failed .enclaveInDebugMode io.collateralExpirationStatus
        (str "The enclave that generate this report is in Debug Mode."))
    else do
      let m ← readField memory mrEnclaveField
      pure ⟨.success, codecs.encodeToHex m, some io.quoteVerificationResult,
        io.collateralExpirationStatus, []⟩

/-- `VerifyReport` behind the verification of the raw quote, over the memory of the quote. -/
def RemoteAttestor.readJudge (texts : VerifyTexts) (attestor : RemoteAttestor)
    (userData : UserData) (memory : Nat → UInt8) (v : RawVerdict) (mrenclaveHex : Str) :
    QuoteCall (Bool × RemoteAttestor × Str) :=
  let attestor := { attestor with qvResult := v.qvResult }
  if v.code ≠ .success then
    pure (attestor.fails v.code (str "Failed to call VerifyRawQuoteWithQvE()! Detail: " ++ v.errMsg)
      mrenclaveHex)
  else
    match v.qvResult with
    | none =>
        pure (attestor.fails .unknown
          (str "Failed to call VerifyRawQuoteWithQvE()! Detail: unknown error") mrenclaveHex)
    | some verdict =>
        if verdict ∉ attestor.acceptedQvResults then
          pure (attestor.fails .verifyQuoteFailed
            (str "Failed to call VerifyRawQuoteWithQvE()! Detail: rejected QvResult, " ++
              texts.rejected verdict) mrenclaveHex)
        else if v.collateralExpirationStatus ≠ 0 then
          pure (attestor.fails .collateralExpired
            (str "Verification completed, but collateral is out of date based on " ++
              str "'expiration_check_date' you provided.") mrenclaveHex)
        else do
          let d ← readField memory reportDataField
          if d ≠ userData.toList then
            pure (attestor.fails .verifyUserDataFailed
              (str "Failed to validate user data in report") mrenclaveHex)
          else
            pure (true, { attestor with errorCode := .success }, v.mrenclaveHex)

/-- `VerifyReport` over a verification of raw quotes; `behind` is the memory behind the decoded
report. -/
def RemoteAttestor.readReport (texts : VerifyTexts) (codecs : Codecs)
    (readRaw : List UInt8 → (Nat → UInt8) → QuoteCall RawVerdict) (attestor : RemoteAttestor)
    (userData : UserData) (report mrenclaveHex : Str) (behind : Nat → UInt8) :
    QuoteCall (Bool × RemoteAttestor × Str) :=
  let attestor := { attestor with qvResult := none, errorMsg := [] }
  if report.isEmpty then
    pure (attestor.fails .invalidParameter texts.reportMissing mrenclaveHex)
  else
    match codecs.decodeFromBase64 report with
    | none =>
        pure (attestor.fails .invalidParameter
          (str "Parameter report is an invalid Base64 string.") mrenclaveHex)
    | some quote => do
        let v ← readRaw quote (memoryOf quote behind)
        attestor.readJudge texts userData (memoryOf quote behind) v mrenclaveHex

/-- `VerifyReport` of `t/RemoteAttestor.cpp`. -/
def RemoteAttestor.readTrusted (attestor : RemoteAttestor) (codecs : Codecs)
    (tvl : TvlArgs → UInt32) (calls : TrustedCalls) (userData : UserData)
    (report mrenclaveHex : Str) (behind : Nat → UInt8) : QuoteCall (Bool × RemoteAttestor × Str) :=
  attestor.readReport trustedTexts codecs (readRawQuoteWithQvE codecs tvl calls) userData report
    mrenclaveHex behind

/-- `VerifyReport` of `u/RemoteAttestor.cpp`. -/
def RemoteAttestor.readUntrusted (attestor : RemoteAttestor) (codecs : Codecs) (io : UntrustedIo)
    (userData : UserData) (report mrenclaveHex : Str) (behind : Nat → UInt8) :
    QuoteCall (Bool × RemoteAttestor × Str) :=
  attestor.readReport untrustedTexts codecs (readRawQuote codecs io) userData report mrenclaveHex
    behind

/-! ## On a quote that holds the fields -/

/-- What an optional result ends in; `none` stands for memory that was not allocated. -/
def endOf {α : Type} : Option α → Except VerifyStop α
  | some a => .ok a
  | none => .error .unallocated

/-- How `VerifyReport` ends. An exception leaves the verdict and the text of the error cleared. -/
def VerifyEnd.ofRead (attestor : RemoteAttestor) (mrenclaveHex : Str) :
    Except VerifyStop (Bool × RemoteAttestor × Str) → Option VerifyEnd
  | .ok result => some (.returns result)
  | .error (.thrown what) =>
      some ⟨.error what, { attestor with qvResult := none, errorMsg := [] }, mrenclaveHex⟩
  | .error .unallocated => none

theorem readField_endsIn (memory : Nat → UInt8) (field : ByteRange) :
    (readField memory field).EndsIn (.ok (bytesOf memory field.offset field.count)) :=
  fun _ => rfl

section Holds

variable {codecs : Codecs} {quote : List UInt8} {behind : Nat → UInt8}

/-- A field that the quote holds is the field of the quote. -/
theorem bytesOf_field {field : ByteRange} (h : field.Within quote.length) :
    bytesOf (memoryOf quote behind) field.offset field.count =
      fieldAt quote field.offset field.count := bytesOf_memoryOf h behind

/-- The flags are those of the quote. -/
theorem debugFlag_iff (h : attributesField.Within quote.length) :
    DebugFlag (bytesOf (memoryOf quote behind) attributesField.offset attributesField.count) ↔
      IsDebug quote := by
  have hflags : (fieldAt quote 96 16).take 8 = fieldAt quote 96 8 := by
    rw [fieldAt, fieldAt, List.take_take]
    rfl
  rw [bytesOf_field h, DebugFlag, IsDebug, attributesFlags, ← hflags]
  rfl

theorem readRawQuoteWithQvE_endsIn (tvl : TvlArgs → UInt32) {calls : TrustedCalls}
    (hrandom : calls.randomBytes = none) (hquote : quote = [] ∨ fieldsEnd ≤ quote.length) :
    (readRawQuoteWithQvE codecs tvl calls quote (memoryOf quote behind)).EndsIn
      (endOf (verifyRawQuoteWithQvE codecs tvl calls.io quote)) := by
  unfold readRawQuoteWithQvE verifyRawQuoteWithQvE
  simp only [hrandom, apply_ite endOf]
  by_cases hempty : quote = []
  · rw [if_pos (List.isEmpty_iff.2 hempty), if_pos (List.isEmpty_iff.2 hempty)]
    exact Call.endsIn_pure _
  rw [if_neg (mt List.isEmpty_iff.1 hempty), if_neg (mt List.isEmpty_iff.1 hempty)]
  have hlength : fieldsEnd ≤ quote.length := hquote.resolve_left hempty
  refine Call.endsIn_ite (Call.endsIn_pure _) ?_
  refine Call.endsIn_ite (Call.endsIn_pure _) ?_
  refine Call.endsIn_ite (Call.endsIn_pure _) ?_
  refine Call.endsIn_ite (Call.endsIn_pure _) ?_
  refine Call.endsIn_ite (Call.endsIn_raise _) ?_
  refine Call.endsIn_bind (readField_endsIn _ _) ?_
  rw [if_congr (debugFlag_iff (le_trans (by decide) hlength)) rfl rfl]
  refine Call.endsIn_ite (Call.endsIn_pure _) ?_
  refine Call.endsIn_ite (Call.endsIn_pure _) ?_
  refine Call.endsIn_bind (readField_endsIn _ _) ?_
  rw [bytesOf_field (le_trans (by decide) hlength)]
  exact Call.endsIn_pure _

theorem readRawQuote_endsIn (io : UntrustedIo) (hquote : quote = [] ∨ fieldsEnd ≤ quote.length) :
    (readRawQuote codecs io quote (memoryOf quote behind)).EndsIn
      (endOf (some (verifyRawQuote codecs io quote))) := by
  unfold readRawQuote verifyRawQuote
  simp only [apply_ite some, apply_ite endOf]
  by_cases hempty : quote = []
  · rw [if_pos (List.isEmpty_iff.2 hempty), if_pos (List.isEmpty_iff.2 hempty)]
    exact Call.endsIn_pure _
  rw [if_neg (mt List.isEmpty_iff.1 hempty), if_neg (mt List.isEmpty_iff.1 hempty)]
  have hlength : fieldsEnd ≤ quote.length := hquote.resolve_left hempty
  refine Call.endsIn_ite (Call.endsIn_pure _) ?_
  refine Call.endsIn_ite (Call.endsIn_pure _) ?_
  refine Call.endsIn_ite (Call.endsIn_pure _) ?_
  refine Call.endsIn_ite (Call.endsIn_pure _) ?_
  refine Call.endsIn_bind (readField_endsIn _ _) ?_
  rw [if_congr (debugFlag_iff (le_trans (by decide) hlength)) rfl rfl]
  refine Call.endsIn_ite (Call.endsIn_pure _) ?_
  refine Call.endsIn_bind (readField_endsIn _ _) ?_
  rw [bytesOf_field (le_trans (by decide) hlength)]
  exact Call.endsIn_pure _

/-- The judgement reads of a quote that was verified. -/
theorem readJudge_endsIn (texts : VerifyTexts) (attestor : RemoteAttestor) (userData : UserData)
    (v : RawVerdict) (mrenclaveHex : Str) (hquote : v.code = .success → fieldsEnd ≤ quote.length) :
    (attestor.readJudge texts userData (memoryOf quote behind) v mrenclaveHex).EndsIn
      (.ok (attestor.judge texts userData quote v mrenclaveHex)) := by
  unfold RemoteAttestor.readJudge RemoteAttestor.judge
  dsimp only
  by_cases hcode : v.code = .success
  · rw [if_neg (not_not.2 hcode), if_neg (not_not.2 hcode)]
    cases v.qvResult with
    | none => exact Call.endsIn_pure _
    | some verdict =>
        dsimp only
        simp only [apply_ite (@Except.ok VerifyStop (Bool × RemoteAttestor × Str))]
        refine Call.endsIn_ite (Call.endsIn_pure _) ?_
        refine Call.endsIn_ite (Call.endsIn_pure _) ?_
        refine Call.endsIn_bind (readField_endsIn _ _) ?_
        rw [bytesOf_field (le_trans (by decide) (hquote hcode))]
        exact Call.endsIn_ite (Call.endsIn_pure _) (Call.endsIn_pure _)
  · rw [if_pos hcode, if_pos hcode]
    exact Call.endsIn_pure _

/-- `VerifyReport` ends as it does over a verification of raw quotes that ends the same, and whose
successes are for quotes that hold the fields. -/
theorem readReport_endsIn (texts : VerifyTexts)
    {readRaw : List UInt8 → (Nat → UInt8) → QuoteCall RawVerdict}
    {verifyRaw : List UInt8 → Option RawVerdict} (attestor : RemoteAttestor) (userData : UserData)
    (report mrenclaveHex : Str)
    (hraw : ∀ quote, codecs.decodeFromBase64 report = some quote →
      (readRaw quote (memoryOf quote behind)).EndsIn (endOf (verifyRaw quote)))
    (hholds : ∀ quote v, codecs.decodeFromBase64 report = some quote → verifyRaw quote = some v →
      v.code = .success → fieldsEnd ≤ quote.length) :
    (attestor.readReport texts codecs readRaw userData report mrenclaveHex behind).EndsIn
      (endOf (attestor.verifyReport texts codecs verifyRaw userData report mrenclaveHex)) := by
  unfold RemoteAttestor.readReport RemoteAttestor.verifyReport
  simp only [apply_ite endOf]
  refine Call.endsIn_ite (Call.endsIn_pure _) ?_
  cases hdecode : codecs.decodeFromBase64 report with
  | none => exact Call.endsIn_pure _
  | some quote =>
      dsimp only
      have hend := hraw quote hdecode
      cases hv : verifyRaw quote with
      | none =>
          rw [hv] at hend
          exact Call.endsIn_bind_error hend
      | some v =>
          rw [hv] at hend
          exact Call.endsIn_bind hend
            (readJudge_endsIn _ _ _ _ _ fun hcode => hholds quote v hdecode hv hcode)

theorem ofRead_endOf (attestor : RemoteAttestor) (mrenclaveHex : Str)
    (result : Option (Bool × RemoteAttestor × Str)) :
    VerifyEnd.ofRead attestor mrenclaveHex (endOf result) = result.map .returns := by
  cases result with
  | none => rfl
  | some result => rfl

/-- A report that draws no nonce decodes to no quote, or to an empty one. -/
theorem eq_nil_of_not_draws {report : Str} (h : ¬ DrawsNonce codecs report)
    (hdecode : codecs.decodeFromBase64 report = some quote) : quote = [] := by
  by_contra hquote
  refine h ⟨quote, ?_, hdecode, hquote⟩
  rintro rfl
  exact hquote (codecs.decode_nil quote hdecode)

/-- **In the enclave** the reads change nothing about the end of `VerifyReport`, where the report
decodes to a quote that holds the fields. -/
theorem readTrusted_end (tvl : TvlArgs → UInt32) (calls : TrustedCalls)
    (attestor : RemoteAttestor) (userData : UserData) (report mrenclaveHex : Str)
    (hquote : ∀ quote, codecs.decodeFromBase64 report = some quote →
      quote = [] ∨ fieldsEnd ≤ quote.length) (reads : List ByteRange) :
    VerifyEnd.ofRead attestor mrenclaveHex
        (attestor.readTrusted codecs tvl calls userData report mrenclaveHex behind reads).1 =
      trustedUserData codecs tvl calls attestor userData report mrenclaveHex := by
  have hholds : ∀ quote v, codecs.decodeFromBase64 report = some quote →
      verifyRawQuoteWithQvE codecs tvl calls.io quote = some v → v.code = .success →
        fieldsEnd ≤ quote.length := fun quote v hdecode hv hcode =>
    (hquote quote hdecode).resolve_left (verifyRawQuoteWithQvE_success_iff.1 ⟨hv, hcode⟩).1
  unfold trustedUserData
  cases hrandom : calls.randomBytes with
  | none =>
      dsimp only
      rw [RemoteAttestor.readTrusted, readReport_endsIn trustedTexts attestor userData report
        mrenclaveHex (fun quote hdecode =>
          readRawQuoteWithQvE_endsIn tvl hrandom (hquote quote hdecode)) hholds reads]
      exact ofRead_endOf _ _ _
  | some what =>
      dsimp only
      by_cases hdraws : DrawsNonce codecs report
      · rw [if_pos hdraws]
        obtain ⟨quote, hreport, hdecode, hne⟩ := hdraws
        simp only [RemoteAttestor.readTrusted, RemoteAttestor.readReport, hdecode,
          readRawQuoteWithQvE, hrandom, if_neg (mt List.isEmpty_iff.1 hreport),
          if_neg (mt List.isEmpty_iff.1 hne)]
        rfl
      · rw [if_neg hdraws]
        -- no quote, no draw
        have hraw : ∀ quote, codecs.decodeFromBase64 report = some quote →
            (readRawQuoteWithQvE codecs tvl calls quote (memoryOf quote behind)).EndsIn
              (endOf (verifyRawQuoteWithQvE codecs tvl calls.io quote)) := by
          intro quote hdecode
          rw [eq_nil_of_not_draws hdraws hdecode]
          exact Call.endsIn_pure _
        rw [RemoteAttestor.readTrusted, readReport_endsIn trustedTexts attestor userData report
          mrenclaveHex hraw hholds reads]
        exact ofRead_endOf _ _ _

/-- **Outside the enclave** as well. -/
theorem readUntrusted_end (calls : UntrustedCalls) (attestor : RemoteAttestor)
    (userData : UserData) (report mrenclaveHex : Str)
    (hquote : ∀ quote, codecs.decodeFromBase64 report = some quote →
      quote = [] ∨ fieldsEnd ≤ quote.length) (reads : List ByteRange) :
    VerifyEnd.ofRead attestor mrenclaveHex
        (attestor.readUntrusted codecs calls.io userData report mrenclaveHex behind reads).1 =
      untrustedUserData codecs calls attestor userData report mrenclaveHex := by
  have hholds : ∀ quote v, codecs.decodeFromBase64 report = some quote →
      some (verifyRawQuote codecs calls.io quote) = some v → v.code = .success →
        fieldsEnd ≤ quote.length := fun quote v hdecode hv hcode =>
    (hquote quote hdecode).resolve_left (verifyRawQuote_success_iff.1 ⟨Option.some.inj hv, hcode⟩).1
  rw [RemoteAttestor.readUntrusted, readReport_endsIn untrustedTexts attestor userData report
    mrenclaveHex (fun quote hdecode => readRawQuote_endsIn calls.io (hquote quote hdecode)) hholds
    reads]
  exact ofRead_endOf _ _ _

end Holds

/-! ## What is read -/

/-- The calls in front of the copy of the supplemental data succeed. -/
structure TrustedIo.Answered (io : TrustedIo) : Prop where
  selfTarget : io.selfTarget = sgxSuccess
  status : io.answer.status = sgxSuccess
  ret : io.answer.ret = 0
  outside : io.answer.supplemental.isOutside = true

/-- The verification in the enclave fails in front of the copy. -/
def TrustedCalls.Declines (calls : TrustedCalls) : Prop :=
  calls.randomBytes = none ∧ ¬ calls.io.Answered

/-- The verification in the enclave comes to the attributes. -/
def TrustedCalls.Reaches (calls : TrustedCalls) : Prop :=
  calls.randomBytes = none ∧ calls.io.Answered ∧
    (calls.io.answer.supplemental.copied = [] ∨ calls.io.mallocs = true)

theorem readField_bind {α : Type} (memory : Nat → UInt8) (field : ByteRange)
    (f : List UInt8 → QuoteCall α) (reads : List ByteRange) :
    (readField memory field >>= f) reads =
      f (bytesOf memory field.offset field.count) (reads ++ [field]) := rfl

/-- A failure is no success, and reads nothing. -/
theorem failed_ends {code : ErrorCode} (h : code ≠ .success) (expiration : UInt32) (errMsg : Str)
    (reads : List ByteRange) :
    ∃ v, v.code ≠ .success ∧
      (pure (.failed code expiration errMsg) : QuoteCall RawVerdict) reads = (.ok v, reads) :=
  ⟨_, h, rfl⟩

section RawTrusted

variable (codecs : Codecs) (tvl : TvlArgs → UInt32) {calls : TrustedCalls} {quote : List UInt8}
  (hquote : quote ≠ []) (memory : Nat → UInt8) (reads : List ByteRange)

include hquote

/-- A call in front of the copy has failed: nothing is read. -/
theorem readRawQuoteWithQvE_declines (h : calls.Declines) :
    ∃ v, v.code ≠ .success ∧
      readRawQuoteWithQvE codecs tvl calls quote memory reads = (.ok v, reads) := by
  obtain ⟨hrandom, hanswered⟩ := h
  simp only [readRawQuoteWithQvE, if_neg (mt List.isEmpty_iff.1 hquote), hrandom]
  by_cases hself : calls.io.selfTarget = sgxSuccess
  swap
  · rw [if_pos hself]
    exact failed_ends (by decide) _ _ _
  rw [if_neg (not_not.2 hself)]
  by_cases hstatus : calls.io.answer.status = sgxSuccess
  swap
  · rw [if_pos hstatus]
    exact failed_ends (by decide) _ _ _
  rw [if_neg (not_not.2 hstatus)]
  by_cases hret : calls.io.answer.ret = 0
  swap
  · rw [if_pos hret]
    exact failed_ends (by decide) _ _ _
  rw [if_neg (not_not.2 hret)]
  by_cases houtside : calls.io.answer.supplemental.isOutside = false
  · rw [if_pos houtside]
    exact failed_ends (by decide) _ _ _
  · exact absurd ⟨hself, hstatus, hret, eq_true_of_ne_false houtside⟩ hanswered

/-- Behind calls that have succeeded stand the copy of the supplemental data and the reads. -/
theorem readRawQuoteWithQvE_answered (hrandom : calls.randomBytes = none)
    (hanswered : calls.io.Answered) :
    readRawQuoteWithQvE codecs tvl calls quote memory =
      (if calls.io.answer.supplemental.copied ≠ [] ∧ calls.io.mallocs = false then
         Call.raise .unallocated
       else do
         let attributes ← readField memory attributesField
         if DebugFlag attributes then
           pure (.failed .enclaveInDebugMode calls.io.answer.collateralExpirationStatus
             (str "The enclave that generate this report is in Debug Mode."))
         else if tvl (calls.io.tvlArgs quote) ≠ sgxSuccess then
           pure (.failed .qvEVerificationCallFailed calls.io.answer.collateralExpirationStatus
             (str "Failed to call sgx_tvl_verify_qve_report_and_identity(), verify_qveid_ret: 0x"
               ++ hexText (tvl (calls.io.tvlArgs quote)).toNat))
         else do
           let m ← readField memory mrEnclaveField
           pure ⟨.success, codecs.encodeToHex m, some calls.io.answer.quoteVerificationResult,
             calls.io.answer.collateralExpirationStatus, []⟩) := by
  simp only [readRawQuoteWithQvE, if_neg (mt List.isEmpty_iff.1 hquote), hrandom]
  rw [if_neg (not_not.2 hanswered.selfTarget), if_neg (not_not.2 hanswered.status),
    if_neg (not_not.2 hanswered.ret), if_neg (ne_false_of_eq_true hanswered.outside)]

/-- An exception, or a copy that goes nowhere: nothing is read. -/
theorem readRawQuoteWithQvE_stops (hdeclines : ¬ calls.Declines) (hreaches : ¬ calls.Reaches) :
    ∃ stop, readRawQuoteWithQvE codecs tvl calls quote memory reads = (.error stop, reads) := by
  cases hrandom : calls.randomBytes with
  | some what =>
      simp only [readRawQuoteWithQvE, if_neg (mt List.isEmpty_iff.1 hquote), hrandom]
      exact ⟨.thrown what, rfl⟩
  | none =>
      have hanswered : calls.io.Answered := not_not.1 fun h => hdeclines ⟨hrandom, h⟩
      have hcopies : calls.io.answer.supplemental.copied ≠ [] ∧ calls.io.mallocs = false := by
        have hnot : ¬ (calls.io.answer.supplemental.copied = [] ∨ calls.io.mallocs = true) :=
          fun h => hreaches ⟨hrandom, hanswered, h⟩
        rwa [not_or, Bool.not_eq_true] at hnot
      rw [readRawQuoteWithQvE_answered codecs tvl hquote memory hrandom hanswered, if_pos hcopies]
      exact ⟨.unallocated, rfl⟩

/-- The attributes are read first. Behind them the quote is refused, also by Intel's library, or
`mr_enclave` is read too. -/
theorem readRawQuoteWithQvE_reads (h : calls.Reaches) :
    (∃ v, v.code ≠ .success ∧ readRawQuoteWithQvE codecs tvl calls quote memory reads =
      (.ok v, reads ++ [attributesField])) ∨
    (tvl (calls.io.tvlArgs quote) = sgxSuccess ∧ ∃ v,
      readRawQuoteWithQvE codecs tvl calls quote memory reads =
        (.ok v, reads ++ [attributesField, mrEnclaveField])) := by
  obtain ⟨hrandom, hanswered, hcopies⟩ := h
  have hnot : ¬ (calls.io.answer.supplemental.copied ≠ [] ∧ calls.io.mallocs = false) := by
    rwa [not_and_or, not_not, Bool.not_eq_false]
  -- the read goes where the field lies, whatever the length of the quote
  rw [readRawQuoteWithQvE_answered codecs tvl hquote memory hrandom hanswered, if_neg hnot,
    readField_bind]
  by_cases hdebug : DebugFlag (bytesOf memory attributesField.offset attributesField.count)
  · rw [if_pos hdebug]
    exact .inl (failed_ends (by decide) _ _ _)
  rw [if_neg hdebug]
  by_cases htvl : tvl (calls.io.tvlArgs quote) = sgxSuccess
  · rw [if_neg (not_not.2 htvl), readField_bind, List.append_assoc]
    exact .inr ⟨htvl, _, rfl⟩
  · rw [if_pos htvl]
    exact .inl (failed_ends (by decide) _ _ _)

end RawTrusted

/-- **What the raw verification outside the enclave can do.** What it reads it reads of a quote that
`tee_verify_quote` has verified. -/
theorem readRawQuote_cases (codecs : Codecs) (io : UntrustedIo) (quote : List UInt8)
    (memory : Nat → UInt8) (reads : List ByteRange) :
    (∃ v, v.code ≠ .success ∧ readRawQuote codecs io quote memory reads = (.ok v, reads)) ∨
    (io.verifyRet = sgxSuccess ∧ ∃ v fields,
      fields ⊆ [attributesField, mrEnclaveField, reportDataField] ∧
        readRawQuote codecs io quote memory reads = (.ok v, reads ++ fields)) := by
  unfold readRawQuote
  split_ifs with hempty hsizeRet hsize hmallocs hverify
  · exact .inl (failed_ends (by decide) _ _ _)
  · exact .inl (failed_ends (by decide) _ _ _)
  · exact .inl (failed_ends (by decide) _ _ _)
  · exact .inl (failed_ends (by decide) _ _ _)
  · exact .inl (failed_ends (by decide) _ _ _)
  · refine .inr ⟨not_not.1 hverify, ?_⟩
    rw [readField_bind]
    by_cases hdebug : DebugFlag (bytesOf memory attributesField.offset attributesField.count)
    · rw [if_pos hdebug]
      exact ⟨_, [attributesField], by decide, rfl⟩
    · rw [if_neg hdebug, readField_bind, List.append_assoc]
      exact ⟨_, [attributesField, mrEnclaveField], by decide, rfl⟩

/-- **What the judgement can do.** It answers `false` to a failure, and reads nothing; else it reads
at most the report data. -/
theorem readJudge_cases (texts : VerifyTexts) (attestor : RemoteAttestor) (userData : UserData)
    (memory : Nat → UInt8) (v : RawVerdict) (mrenclaveHex : Str) (reads : List ByteRange) :
    (∃ attestor', attestor.readJudge texts userData memory v mrenclaveHex reads =
      (.ok (false, attestor', mrenclaveHex), reads)) ∨
    (v.code = .success ∧ ∃ result, attestor.readJudge texts userData memory v mrenclaveHex reads =
      (.ok result, reads ++ [reportDataField])) := by
  unfold RemoteAttestor.readJudge
  dsimp only
  by_cases hcode : v.code = .success
  swap
  · rw [if_pos hcode]
    exact .inl ⟨_, rfl⟩
  rw [if_neg (not_not.2 hcode)]
  cases v.qvResult with
  | none => exact .inl ⟨_, rfl⟩
  | some verdict =>
      dsimp only
      by_cases haccepted : verdict ∈ attestor.acceptedQvResults
      swap
      · rw [if_pos haccepted]
        exact .inl ⟨_, rfl⟩
      rw [if_neg (not_not.2 haccepted)]
      by_cases hexpired : v.collateralExpirationStatus = 0
      swap
      · rw [if_pos hexpired]
        exact .inl ⟨_, rfl⟩
      rw [if_neg (not_not.2 hexpired), readField_bind]
      refine .inr ⟨hcode, ?_⟩
      by_cases hdata : bytesOf memory reportDataField.offset reportDataField.count = userData.toList
      · rw [if_neg (not_not.2 hdata)]
        exact ⟨_, rfl⟩
      · rw [if_pos hdata]
        exact ⟨_, rfl⟩

/-! ## Reads inside the quote -/

/-- For a quote of this length every read is inside, and a quote that is too short for the fields
leads to `false`. -/
structure ReadsQuote (length : Nat)
    (r : Except VerifyStop (Bool × RemoteAttestor × Str) × List ByteRange) : Prop where
  within : ∀ field ∈ r.2, field.Within length
  short : length < fieldsEnd → ∃ attestor mrenclaveHex, r.1 = .ok (false, attestor, mrenclaveHex)

/-- The quote holds the fields; or the verification in the enclave fails in front of the attributes;
or it comes to them, and the quote holds these. -/
def TrustedCalls.Suffices (calls : TrustedCalls) (length : Nat) : Prop :=
  fieldsEnd ≤ length ∨ calls.Declines ∨ (calls.Reaches ∧ attributesField.Within length)

/-- Each field lies in front of the end of the fields. -/
theorem within_of_fieldsEnd {length : Nat} (h : fieldsEnd ≤ length) {field : ByteRange}
    (hfield : field ∈ [attributesField, mrEnclaveField, reportDataField]) :
    field.Within length := by
  have hend : ∀ field ∈ [attributesField, mrEnclaveField, reportDataField],
      field.offset + field.count ≤ fieldsEnd := by decide
  exact (hend field hfield).trans h

section Reads

variable {length : Nat} {reads : List ByteRange} {texts : VerifyTexts} {codecs : Codecs}
  {attestor : RemoteAttestor} {userData : UserData} {report mrenclaveHex : Str}
  {quote : List UInt8} {behind : Nat → UInt8}

/-- What was read in front of the judgement decides, if a success was for a quote that holds the
fields. -/
theorem readsQuote_judge_iff {v : RawVerdict} (hholds : v.code = .success → fieldsEnd ≤ length)
    (memory : Nat → UInt8) :
    ReadsQuote length (attestor.readJudge texts userData memory v mrenclaveHex reads) ↔
      ∀ field ∈ reads, field.Within length := by
  rcases readJudge_cases texts attestor userData memory v mrenclaveHex reads with
    ⟨attestor', hcall⟩ | ⟨hcode, result, hcall⟩
  · rw [hcall]
    exact ⟨fun h => h.within, fun hreads => ⟨hreads, fun _ => ⟨attestor', mrenclaveHex, rfl⟩⟩⟩
  · have hlength : fieldsEnd ≤ length := hholds hcode
    rw [hcall]
    refine ⟨fun h field hfield => h.within field (List.mem_append_left _ hfield), fun hreads => ?_⟩
    refine ⟨fun field hfield => ?_, fun hshort => absurd hlength (Nat.not_le.2 hshort)⟩
    rcases List.mem_append.1 hfield with hmem | hmem
    · exact hreads field hmem
    · refine within_of_fieldsEnd hlength ?_
      rw [List.mem_singleton.1 hmem]
      exact List.mem_cons_of_mem _ (List.mem_cons_of_mem _ List.mem_cons_self)

/-- Behind the decoding stand the verification of the raw quote and the judgement. -/
theorem readReport_of_decode
    (readRaw : List UInt8 → (Nat → UInt8) → QuoteCall RawVerdict)
    (hdecode : codecs.decodeFromBase64 report = some quote) (hquote : quote ≠ []) :
    attestor.readReport texts codecs readRaw userData report mrenclaveHex behind =
      (readRaw quote (memoryOf quote behind) >>= fun v =>
        { attestor with qvResult := none, errorMsg := [] }.readJudge texts userData
          (memoryOf quote behind) v mrenclaveHex) := by
  have hreport : report ≠ [] := by
    rintro rfl
    exact hquote (codecs.decode_nil quote hdecode)
  unfold RemoteAttestor.readReport
  simp only [hdecode, if_neg (mt List.isEmpty_iff.1 hreport)]

/-- In the enclave the reads stay inside, and a short quote leads to `false`, exactly where the
outcomes of the calls and the length suffice. -/
theorem readsQuote_trusted_iff {tvl : TvlArgs → UInt32}
    (htvl : ∀ args, args.quoteSize < sizeofQuote3 → tvl args ≠ sgxSuccess) (calls : TrustedCalls)
    (hdecode : codecs.decodeFromBase64 report = some quote) (hquote : quote ≠ []) :
    ReadsQuote quote.length
        (attestor.readTrusted codecs tvl calls userData report mrenclaveHex behind []) ↔
      calls.Suffices quote.length := by
  have hholds : tvl (calls.io.tvlArgs quote) = sgxSuccess → fieldsEnd ≤ quote.length := by
    intro hsuccess
    by_contra hshort
    refine htvl _ ?_ hsuccess
    simp only [TrustedIo.tvlArgs, fieldsEnd, sizeofQuote3] at hshort ⊢
    omega
  rw [RemoteAttestor.readTrusted, readReport_of_decode _ hdecode hquote]
  by_cases hdeclines : calls.Declines
  · obtain ⟨v, hcode, hraw⟩ :=
      readRawQuoteWithQvE_declines codecs tvl hquote (memoryOf quote behind) [] hdeclines
    rw [Call.bind_of_ok hraw, readsQuote_judge_iff fun h => absurd h hcode]
    exact iff_of_true (List.forall_mem_nil _) (.inr (.inl hdeclines))
  by_cases hreaches : calls.Reaches
  · rcases readRawQuoteWithQvE_reads codecs tvl hquote (memoryOf quote behind) [] hreaches with
      ⟨v, hcode, hraw⟩ | ⟨hsuccess, v, hraw⟩
    · -- the quote was refused behind the read of its attributes
      rw [Call.bind_of_ok hraw, readsQuote_judge_iff fun h => absurd h hcode, List.nil_append,
        List.forall_mem_singleton]
      constructor
      · exact fun hwithin => .inr (.inr ⟨hreaches, hwithin⟩)
      · rintro (hlength | hdeclines' | ⟨-, hwithin⟩)
        · exact within_of_fieldsEnd hlength List.mem_cons_self
        · exact absurd hdeclines' hdeclines
        · exact hwithin
    · have hlength : fieldsEnd ≤ quote.length := hholds hsuccess
      rw [Call.bind_of_ok hraw, readsQuote_judge_iff fun _ => hlength]
      refine iff_of_true (fun field hfield => ?_) (.inl hlength)
      exact within_of_fieldsEnd hlength (List.mem_append_left [reportDataField] hfield)
  · -- a quote that is too short leads to the exception, and not to `false`
    obtain ⟨stop, hraw⟩ :=
      readRawQuoteWithQvE_stops codecs tvl hquote (memoryOf quote behind) [] hdeclines hreaches
    rw [Call.bind_of_error hraw]
    constructor
    · intro h
      refine .inl (Nat.not_lt.1 fun hshort => ?_)
      obtain ⟨_, _, hfalse⟩ := h.short hshort
      cases hfalse
    · rintro (hlength | hdeclines' | ⟨hreaches', -⟩)
      · exact ⟨List.forall_mem_nil _, fun hshort => absurd hlength (Nat.not_le.2 hshort)⟩
      · exact absurd hdeclines' hdeclines
      · exact absurd hreaches' hreaches

/-- Outside the enclave the reads stay inside, and a short quote leads to `false`. -/
theorem readsQuote_untrusted {io : UntrustedIo}
    (hverify : quote.length < sizeofQuote3 → io.verifyRet ≠ sgxSuccess)
    (hdecode : codecs.decodeFromBase64 report = some quote) (hquote : quote ≠ []) :
    ReadsQuote quote.length
      (attestor.readUntrusted codecs io userData report mrenclaveHex behind []) := by
  rw [RemoteAttestor.readUntrusted, readReport_of_decode _ hdecode hquote]
  rcases readRawQuote_cases codecs io quote (memoryOf quote behind) [] with
    ⟨v, hcode, hraw⟩ | ⟨hsuccess, v, fields, hfields, hraw⟩
  · rw [Call.bind_of_ok hraw, readsQuote_judge_iff fun h => absurd h hcode]
    exact List.forall_mem_nil _
  · have hlength : fieldsEnd ≤ quote.length := by
      by_contra hshort
      exact hverify (lt_of_lt_of_le (Nat.not_le.1 hshort) (by decide)) hsuccess
    rw [Call.bind_of_ok hraw, readsQuote_judge_iff fun _ => hlength]
    exact fun field hfield => within_of_fieldsEnd hlength (hfields hfield)

end Reads

/-- **Both `VerifyReport` on a quote of any length**, for any outcome of the calls. Intel's
libraries reject a quote that is shorter than its fixed part. Outside the enclave that keeps every
read inside the quote. In the enclave it does so exactly where the quote holds the attributes, or
the host gives no answer on which they would be read; a quote that is too short then leads to
`false`, unless the call throws, or stops at the copy, in front of any answer. -/
theorem quote_reads_inside_iff {codecs : Codecs} {tvl : TvlArgs → UInt32}
    (htvl : ∀ args, args.quoteSize < sizeofQuote3 → tvl args ≠ sgxSuccess) (calls : TrustedCalls)
    {io : UntrustedIo} {report : Str} {quote : List UInt8}
    (hverify : quote.length < sizeofQuote3 → io.verifyRet ≠ sgxSuccess)
    (hdecode : codecs.decodeFromBase64 report = some quote) (hquote : quote ≠ [])
    (trusted untrusted : RemoteAttestor) (userData : UserData) (mrenclaveHex : Str)
    (behind : Nat → UInt8) :
    (ReadsQuote quote.length
        (trusted.readTrusted codecs tvl calls userData report mrenclaveHex behind []) ↔
      calls.Suffices quote.length) ∧
    ReadsQuote quote.length
      (untrusted.readUntrusted codecs io userData report mrenclaveHex behind []) :=
  ⟨readsQuote_trusted_iff htvl calls hdecode hquote,
    readsQuote_untrusted hverify hdecode hquote⟩

/-- `SGX_QL_ERROR_UNEXPECTED` for every quote that is shorter than its fixed part. -/
def rejectsShort (args : TvlArgs) : UInt32 :=
  if args.quoteSize < sizeofQuote3 then 0xE001 else sgxSuccess

theorem rejectsShort_ne {args : TvlArgs} (h : args.quoteSize < sizeofQuote3) :
    rejectsShort args ≠ sgxSuccess := by
  rw [rejectsShort, if_pos h]
  decide

/-- 200 bytes of zeros in base64. -/
def zerosReport : Str := List.replicate 267 'A' ++ str "="

/-- Base64 on `zerosReport`. -/
def zerosCodecs : Codecs :=
  .only zerosReport (List.replicate 200 0) (List.append_ne_nil_of_right_ne_nil _ (by decide))

/-- `tee_verify_quote` fails with `SGX_QL_ERROR_UNEXPECTED`. -/
def UntrustedIo.rejecting : UntrustedIo := { UntrustedIo.allGood with verifyRet := 0xE001 }

theorem trusted_allGood_reaches (timeNow : UInt64) :
    (TrustedCalls.allGood timeNow).Reaches := ⟨rfl, ⟨rfl, rfl, rfl, rfl⟩, .inl rfl⟩

/-- A quote of 200 bytes holds its attributes. -/
theorem quote_reads_inside_iff_zeros :
    ReadsQuote 200 (RemoteAttestor.trusted.readTrusted zerosCodecs rejectsShort (.allGood 0)
      (List.Vector.replicate 64 0) zerosReport [] (fun _ => 0) []) ∧
    ReadsQuote 200 (RemoteAttestor.untrusted.readUntrusted zerosCodecs .rejecting
      (List.Vector.replicate 64 0) zerosReport [] (fun _ => 0) []) := by
  have hverify : (List.replicate 200 (0 : UInt8)).length < sizeofQuote3 →
      UntrustedIo.rejecting.verifyRet ≠ sgxSuccess := fun _ => by decide
  have hdecode : zerosCodecs.decodeFromBase64 zerosReport = some (List.replicate 200 0) :=
    Codecs.decode_only _ _ _
  have h := quote_reads_inside_iff (fun _ => rejectsShort_ne) (.allGood 0) hverify hdecode
    (List.cons_ne_nil _ _) .trusted .untrusted (List.Vector.replicate 64 0) [] (fun _ => 0)
  rw [List.length_replicate] at h
  have hattributes : attributesField.Within 200 := by
    unfold ByteRange.Within
    decide
  exact ⟨h.1.2 (.inr (.inr ⟨trusted_allGood_reaches 0, hattributes⟩)), h.2⟩

/-- Base64 on a single byte. -/
def oneByteCodecs : Codecs := .only (str "AA==") [0] (by decide)

/-- The report is the text of one byte, and the host answers that everything is fine. The enclave
reads the attributes from the memory behind that byte before Intel's library is asked. -/
theorem one_byte_read_behind :
    (∀ args, args.quoteSize < sizeofQuote3 → rejectsShort args ≠ sgxSuccess) ∧
    oneByteCodecs.decodeFromBase64 (str "AA==") = some [0] ∧
    ¬ ReadsQuote 1 (RemoteAttestor.trusted.readTrusted oneByteCodecs rejectsShort (.allGood 0)
      (List.Vector.replicate 64 0) (str "AA==") [] (fun _ => 0) []) := by
  have hdecode : oneByteCodecs.decodeFromBase64 (str "AA==") = some [0] := Codecs.decode_only _ _ _
  refine ⟨fun _ => rejectsShort_ne, hdecode, fun h => ?_⟩
  rcases (readsQuote_trusted_iff (fun _ => rejectsShort_ne) (.allGood 0) hdecode
    (List.cons_ne_nil _ _)).1 h with hlength | hdeclines | ⟨-, hwithin⟩
  · exact absurd hlength (by decide)
  · exact hdeclines.2 (trusted_allGood_reaches 0).2.1
  · exact absurd hwithin (by unfold ByteRange.Within; decide)

end Ssgx.Attestation
