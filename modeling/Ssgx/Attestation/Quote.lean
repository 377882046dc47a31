import Mathlib.Data.Vector.Basic
import Ssgx.Support.Text

/-!
# Quotes

The types of `ssgx_attestation_share.h`, the parts of a quote that the two attestors read, and what
both verifications of a raw quote leave for `VerifyReport` (`RawVerdict`).

Base64 and hex come with the cryptography library; what the attestors rely on is in `Codecs`. The
offsets are those of `sgx_quote3_t`: a header of 48 bytes and a report body. A quote that is shorter
is read here as far as it goes; the code reads memory behind it.
-/

set_option autoImplicit false

namespace Ssgx.Attestation

open Ssgx.Support

/-- `ErrorCode`. -/
inductive ErrorCode where
  | success
  | invalidParameter
  | getTargetInfoFailed
  | createReportFailed
  | oCallOperationException
  | oCallOperationFailed
  | bufferValidateFailed
  | verifyQuoteFailed
  | verifyUserDataFailed
  | verifyTimeStampFailed
  | enclaveInDebugMode
  | qvEVerificationCallFailed
  | collateralExpired
  | initializationFailed
  | getQuoteSizeFailed
  | getQuoteDataFailed
  | mallocFailed
  | setLoadPolicyFailed
  | getSupplementSizeCallException
  | getSupplementSizeFailed
  | supplementSizeIsWrong
  | unknown
deriving DecidableEq

/-- `QvResult`. -/
inductive QvResult where
  | ok
  | configNeeded
  | outOfDate
  | outOfDateConfigNeeded
  | invalidSignature
  | revoked
  | unspecified
  | swHardeningNeeded
  | configAndSwHardeningNeeded
  | tdRelaunchAdvised
  | tdRelaunchAdvisedConfigNeeded
deriving DecidableEq

/-- `FromQvResult`. The switch has a case for every enumerator, and does not come to its end. -/
def fromQvResult : QvResult → UInt32
  | .ok => 0x0000
  | .configNeeded => 0xA001
  | .outOfDate => 0xA002
  | .outOfDateConfigNeeded => 0xA003
  | .invalidSignature => 0xA004
  | .revoked => 0xA005
  | .unspecified => 0xA006
  | .swHardeningNeeded => 0xA007
  | .configAndSwHardeningNeeded => 0xA008
  | .tdRelaunchAdvised => 0xA009
  | .tdRelaunchAdvisedConfigNeeded => 0xA00A

/-- `base64::DecodeFromBase64`, which may throw, and `hex::EncodeToHex`. No text decodes to no
quote. -/
structure Codecs where
  decodeFromBase64 : Str → Option (List UInt8)
  encodeToHex : List UInt8 → Str
  decode_nil : ∀ quote, decodeFromBase64 [] = some quote → quote = []

/-- Bytes in the order of their weight. -/
def littleEndian : List UInt8 → Nat
  | [] => 0
  | b :: bs => b.toNat + 256 * littleEndian bs

/-- The bytes of a field. -/
def fieldAt (quote : List UInt8) (offset length : Nat) : List UInt8 :=
  (quote.drop offset).take length

/-- `report_body.attributes.flags`. -/
def attributesFlags (quote : List UInt8) : Nat := littleEndian (fieldAt quote 96 8)

/-- `report_body.mr_enclave.m`. -/
def mrEnclave (quote : List UInt8) : List UInt8 := fieldAt quote 112 32

/-- `report_body.report_data.d`. -/
def reportData (quote : List UInt8) : List UInt8 := fieldAt quote 368 64

/-- `SGX_FLAGS_DEBUG`. -/
def sgxFlagsDebug : Nat := 0x2

/-- The quote is of an enclave in debug mode. -/
def IsDebug (quote : List UInt8) : Prop := attributesFlags quote &&& sgxFlagsDebug ≠ 0

instance (quote : List UInt8) : Decidable (IsDebug quote) := by
  unfold IsDebug
  infer_instance

/-- A quote of a production enclave: `attributes.flags` are those of an initialised 64-bit enclave,
every other byte is zero. -/
def productionQuote : List UInt8 := List.replicate 96 0 ++ 5 :: List.replicate 339 0

/-- `SGX_SUCCESS` and `SGX_QL_SUCCESS`. -/
def sgxSuccess : UInt32 := 0

/-- The code a verification of a raw quote returns, and its out parameters behind the call. -/
structure RawVerdict where
  code : ErrorCode
  mrenclaveHex : Str
  qvResult : Option UInt32
  collateralExpirationStatus : UInt32
  errMsg : Str

/-- A verification that fails: the expiration status may be written, the other results are not. -/
def RawVerdict.failed (code : ErrorCode) (collateralExpirationStatus : UInt32) (errMsg : Str) :
    RawVerdict :=
  ⟨code, [], none, collateralExpirationStatus, errMsg⟩

/-- A check that ends in what cannot be meant is passed. -/
theorem checked_iff {α : Type} {p q : Prop} [Decidable p] {x y z : α} (hx : x = z → ¬ q) :
    ((if p then x else y) = z ∧ q) ↔ ¬ p ∧ y = z ∧ q := by
  by_cases hp : p
  · rw [if_pos hp]
    exact iff_of_false (fun h => hx h.1 h.2) fun h => h.1 hp
  · rw [if_neg hp]
    exact (and_iff_right hp).symm

/-- A verification that fails is no success. -/
theorem RawVerdict.failed_code {v : RawVerdict} {code : ErrorCode} {expiration : UInt32}
    {errMsg : Str} (hcode : code ≠ .success) (h : .failed code expiration errMsg = v) :
    ¬ v.code = .success := h ▸ hcode

/-- The expiration status that `VerifyReport` starts with. -/
def initialExpiration : UInt32 := 1

end Ssgx.Attestation
