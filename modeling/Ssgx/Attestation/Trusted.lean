import Ssgx.Attestation.Quote

/-!
# The verification in the enclave

`VerifyRawQuoteWithQvE` of `t/RemoteAttestor.cpp`. The enclave draws a nonce and asks the host to
have the quote verified by Intel's QvE; the host gives back the results and a report of the QvE
about them, which the enclave has checked against the results by
`sgx_tvl_verify_qve_report_and_identity`.

`p_qve_report_info` crosses the border in both directions: behind the call it holds what the host
has put there, the nonce included.
-/

set_option autoImplicit false

namespace Ssgx.Attestation

open Ssgx.Support

/-- The random bytes of one verification. -/
abbrev Nonce := List.Vector UInt8 16

/-- `sgx_target_info_t`. -/
abbrev TargetInfo := List UInt8

/-- What a report of the QvE binds together. -/
structure QveReport where
  nonce : Nonce
  quote : List UInt8
  expirationCheckDate : Int
  collateralExpirationStatus : UInt32
  quoteVerificationResult : UInt32
  supplementalData : List UInt8
deriving DecidableEq

/-- `sgx_ql_qe_report_info_t`; `none` stands for bytes that are no report of a QvE. -/
structure QveReportInfo where
  nonce : Nonce
  appEnclaveTargetInfo : TargetInfo
  qeReport : Option QveReport

/-- The buffer that the host gives back, with its size. -/
inductive SupplementalBuffer where
  | null (size : UInt32)
  | outside (data : List UInt8)
  | inside

/-- What `ssgx_ocall_verify_quote_data` gives back. -/
structure VerifyQuoteAnswer where
  status : UInt32
  ret : Int
  qveReportInfo : QveReportInfo
  expirationCheckDate : Int
  collateralExpirationStatus : UInt32
  quoteVerificationResult : UInt32
  supplemental : SupplementalBuffer

/-- The outcomes of the calls of one verification: the random bytes, `sgx_self_target`, the answer
of the host, and whether there is memory for the supplemental data. -/
structure TrustedIo where
  nonce : Nonce
  selfTarget : UInt32
  targetInfo : TargetInfo
  answer : VerifyQuoteAnswer
  mallocs : Bool

/-- The arguments of `sgx_tvl_verify_qve_report_and_identity`. -/
structure TvlArgs where
  quote : List UInt8
  quoteSize : Nat
  qveReportInfo : QveReportInfo
  expirationCheckDate : Int
  collateralExpirationStatus : UInt32
  quoteVerificationResult : UInt32
  supplementalData : List UInt8
  supplementalDataSize : Nat
  qveIsvsvnThreshold : Nat

/-- `sgx_is_outside_enclave` of the buffer. -/
def SupplementalBuffer.isOutside : SupplementalBuffer → Bool
  | .null _ => true
  | .outside _ => true
  | .inside => false

/-- The copy of the supplemental data in the enclave. -/
def SupplementalBuffer.copied : SupplementalBuffer → List UInt8
  | .outside data => data
  | .null _ => []
  | .inside => []

/-- `supplemental_buff_size`. -/
def SupplementalBuffer.size : SupplementalBuffer → Nat
  | .outside data => data.length
  | .null size => size.toNat
  | .inside => 0

/-- The arguments of the check of the QvE's report: all of them come from the host but the quote. -/
def TrustedIo.tvlArgs (io : TrustedIo) (quote : List UInt8) : TvlArgs where
  quote := quote
  quoteSize := quote.length % 2 ^ 32
  qveReportInfo := io.answer.qveReportInfo
  expirationCheckDate := io.answer.expirationCheckDate
  collateralExpirationStatus := io.answer.collateralExpirationStatus
  quoteVerificationResult := io.answer.quoteVerificationResult
  supplementalData := io.answer.supplemental.copied
  supplementalDataSize := io.answer.supplemental.size
  qveIsvsvnThreshold := 6

/-- `VerifyRawQuoteWithQvE`: `none` where the copy goes to memory that was not allocated. -/
def verifyRawQuoteWithQvE (codecs : Codecs) (tvl : TvlArgs → UInt32) (io : TrustedIo)
    (quote : List UInt8) : Option RawVerdict :=
  if quote.isEmpty then
    some (.failed .invalidParameter initialExpiration (str "Parameter quote_report is null!"))
  else if io.selfTarget ≠ sgxSuccess then
    some (.failed .getTargetInfoFailed initialExpiration
      (str "Failed to call sgx_self_target(), sgx_status: 0x" ++ hexText io.selfTarget.toNat))
  else if io.answer.status ≠ sgxSuccess then
    some (.failed .oCallOperationException initialExpiration
      (str "Failed to call ssgx_ocall_verify_quote_data(), sgx_status: 0x" ++
        hexText io.answer.status.toNat))
  else if io.answer.ret ≠ 0 then
    some (.failed .oCallOperationFailed io.answer.collateralExpirationStatus
      (str "Failed to call ssgx_ocall_verify_quote_data(), ret: " ++ toText io.answer.ret))
  else if io.answer.supplemental.isOutside = false then
    some (.failed .bufferValidateFailed io.answer.collateralExpirationStatus
      (str "Failed to validate buffer p_quote_data, it is not outside of enclave."))
  else if io.answer.supplemental.copied ≠ [] ∧ io.mallocs = false then none
  else if IsDebug quote then
    some (.failed .enclaveInDebugMode io.answer.collateralExpirationStatus
      (str "The enclave that generate this report is in Debug Mode."))
  else if tvl (io.tvlArgs quote) ≠ sgxSuccess then
    some (.failed .qvEVerificationCallFailed io.answer.collateralExpirationStatus
      (str "Failed to call sgx_tvl_verify_qve_report_and_identity(), verify_qveid_ret: 0x" ++
        hexText (tvl (io.tvlArgs quote)).toNat))
  else
    some ⟨.success, codecs.encodeToHex (mrEnclave quote), some io.answer.quoteVerificationResult,
      io.answer.collateralExpirationStatus, []⟩

/-! ## What it decides -/

/-- The calls of the verification succeed, and the QvE's report fits what the host has given back.
-/
structure TrustedIo.Verifies (tvl : TvlArgs → UInt32) (io : TrustedIo) (quote : List UInt8) :
    Prop where
  selfTarget : io.selfTarget = sgxSuccess
  status : io.answer.status = sgxSuccess
  ret : io.answer.ret = 0
  outside : io.answer.supplemental.isOutside = true
  copies : io.answer.supplemental.copied = [] ∨ io.mallocs = true
  report : tvl (io.tvlArgs quote) = sgxSuccess

/-- **The verification in the enclave** ends in success exactly for a quote that is there, is of no
debug enclave, and verifies. -/
theorem verifyRawQuoteWithQvE_success_iff {codecs : Codecs} {tvl : TvlArgs → UInt32}
    {io : TrustedIo} {quote : List UInt8} {v : RawVerdict} :
    (verifyRawQuoteWithQvE codecs tvl io quote = some v ∧ v.code = .success) ↔
      quote ≠ [] ∧ io.Verifies tvl quote ∧ ¬ IsDebug quote ∧
        v = ⟨.success, codecs.encodeToHex (mrEnclave quote),
          some io.answer.quoteVerificationResult, io.answer.collateralExpirationStatus, []⟩ := by
  have hfailed {code : ErrorCode} {expiration : UInt32} {errMsg : Str} (hcode : code ≠ .success) :
      some (.failed code expiration errMsg) = some v → ¬ v.code = .success :=
    fun h => RawVerdict.failed_code hcode (Option.some.inj h)
  have hnone : none = some v → ¬ v.code = .success := fun h => nomatch h
  rw [verifyRawQuoteWithQvE, checked_iff (hfailed (by decide)), checked_iff (hfailed (by decide)),
    checked_iff (hfailed (by decide)), checked_iff (hfailed (by decide)),
    checked_iff (hfailed (by decide)), checked_iff hnone,
    checked_iff (hfailed (by decide)), checked_iff (hfailed (by decide)), List.isEmpty_iff, not_not,
    not_not, not_not, Bool.not_eq_false, not_and_or, not_not, Bool.not_eq_false, not_not,
    Option.some.injEq]
  constructor
  · rintro ⟨hsome, hself, hstatus, hret, houtside, hcopies, hdebug, htvl, rfl, -⟩
    exact ⟨hsome, ⟨hself, hstatus, hret, houtside, hcopies, htvl⟩, hdebug, rfl⟩
  · rintro ⟨hsome, h, hdebug, rfl⟩
    exact ⟨hsome, h.selfTarget, h.status, h.ret, h.outside, h.copies, hdebug, h.report, rfl, rfl⟩

end Ssgx.Attestation
