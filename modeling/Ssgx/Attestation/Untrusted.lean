import Ssgx.Attestation.Quote

/-!
# The verification outside the enclave

`VerifyRawQuote` of `u/RemoteAttestor.cpp`. It asks the DCAP library for the size of the
supplemental data and has it verify the quote without a QvE; the verdict and the expiration status
are the library's own.
-/

set_option autoImplicit false

namespace Ssgx.Attestation

open Ssgx.Support

/-- The outcomes of the calls of one verification: `tee_get_supplemental_data_version_and_size` with
the size it gives, whether there is memory for the supplemental data, and `tee_verify_quote` with
its out parameters. `sizeofSupplemental` is the size of `sgx_ql_qv_supplemental_t`. -/
structure UntrustedIo where
  supplementSizeRet : UInt32
  supplementSize : UInt32
  sizeofSupplemental : UInt32
  mallocs : Bool
  verifyRet : UInt32
  collateralExpirationStatus : UInt32
  quoteVerificationResult : UInt32

/-- `VerifyRawQuote`. -/
def verifyRawQuote (codecs : Codecs) (io : UntrustedIo) (quote : List UInt8) : RawVerdict :=
  if quote.isEmpty then
    .failed .invalidParameter initialExpiration (str "Parameter quote_report is null!")
  else if io.supplementSizeRet ≠ sgxSuccess then
    .failed .getSupplementSizeCallException initialExpiration
      (str "Failed to call tee_get_supplemental_data_version_and_size()! ret: " ++
        decimal io.supplementSizeRet.toNat)
  else if io.supplementSize ≠ io.sizeofSupplemental then
    .failed .getSupplementSizeFailed initialExpiration
      (str "supp_data.data_size is wrong, supp_data.data_size: " ++ decimal io.supplementSize.toNat)
  else if io.mallocs = false then
    .failed .mallocFailed initialExpiration
      (str "Failed to malloc supp_data.p_data, supp_data.data_size: " ++
        decimal io.supplementSize.toNat)
  else if io.verifyRet ≠ sgxSuccess then
    .failed .qvEVerificationCallFailed io.collateralExpirationStatus
      (str "Failed to call tee_verify_quote()! ret: " ++ decimal io.verifyRet.toNat)
  else if IsDebug quote then
    .failed .enclaveInDebugMode io.collateralExpirationStatus
      (str "The enclave that generate this report is in Debug Mode.")
  else
    ⟨.success, codecs.encodeToHex (mrEnclave quote), some io.quoteVerificationResult,
      io.collateralExpirationStatus, []⟩

/-! ## What it decides -/

/-- The calls of the verification succeed. -/
structure UntrustedIo.Verifies (io : UntrustedIo) : Prop where
  supplementSizeRet : io.supplementSizeRet = sgxSuccess
  supplementSize : io.supplementSize = io.sizeofSupplemental
  mallocs : io.mallocs = true
  verifyRet : io.verifyRet = sgxSuccess

/-- **The verification outside the enclave** ends in success exactly for a quote that is there, is
of no debug enclave, and verifies. -/
theorem verifyRawQuote_success_iff {codecs : Codecs} {io : UntrustedIo} {quote : List UInt8}
    {v : RawVerdict} :
    (verifyRawQuote codecs io quote = v ∧ v.code = .success) ↔
      quote ≠ [] ∧ io.Verifies ∧ ¬ IsDebug quote ∧
        v = ⟨.success, codecs.encodeToHex (mrEnclave quote), some io.quoteVerificationResult,
          io.collateralExpirationStatus, []⟩ := by
  have hfailed {code : ErrorCode} {expiration : UInt32} {errMsg : Str} (hcode : code ≠ .success) :
      .failed code expiration errMsg = v → ¬ v.code = .success := RawVerdict.failed_code hcode
  rw [verifyRawQuote, checked_iff (hfailed (by decide)), checked_iff (hfailed (by decide)),
    checked_iff (hfailed (by decide)), checked_iff (hfailed (by decide)),
    checked_iff (hfailed (by decide)), checked_iff (hfailed (by decide)), List.isEmpty_iff,
    not_not, not_not, Bool.not_eq_false, not_not]
  constructor
  · rintro ⟨hsome, hsizeRet, hsize, hmallocs, hverify, hdebug, rfl, -⟩
    exact ⟨hsome, ⟨hsizeRet, hsize, hmallocs, hverify⟩, hdebug, rfl⟩
  · rintro ⟨hsome, h, hdebug, rfl⟩
    exact ⟨hsome, h.supplementSizeRet, h.supplementSize, h.mallocs, h.verifyRet, hdebug, rfl, rfl⟩

end Ssgx.Attestation
