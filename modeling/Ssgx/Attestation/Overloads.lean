import Ssgx.Attestation.Attestor
import Ssgx.Boundary.Getters

/-!
# The overloads of the attestors

`CreateReport` of `t/RemoteAttestor.cpp`, and the overloads of `CreateReport` and `VerifyReport` for
a `user_info` and for a `user_info` with a timestamp. The overloads of `VerifyReport` are the same
in `u/RemoteAttestor.cpp`: there the overload for 64 bytes that they end in is another, and so is
the clock. Both are parameters here (`RemoteAttestor.verify`), and `trustedVerify` and
`untrustedVerify` give them.

A call may throw, and what it has written by then stays (`VerifyEnd`). In the enclave
`rand::RandomBytes` and `DateTime::Now` throw. SHA-256 and Base64 come with the cryptography library
and are parameters. A `user_info` is any bytes.

The outcomes of the calls inside a `CreateReport` come with it (`CreateIo`); a host gives them
(`createReport_ofHost`). `Verifies` says what the overloads rely on of the overload for 64 bytes,
and both have it (`trustedUserData_verifies`, `untrustedUserData_verifies`).
-/

set_option autoImplicit false

namespace Ssgx.Attestation

open Ssgx.Support
open Ssgx.Boundary (HostCall HostWorld)

/-! ## What a report is made for -/

/-- The bytes of an ASCII text. -/
def asciiBytes (text : Str) : List UInt8 := text.map fun c => UInt8.ofNat c.toNat

/-- `new_user_info`: the timestamp stands behind the `user_info`. -/
def timedUserInfo (userInfo : List UInt8) (timestamp : UInt64) : List UInt8 :=
  userInfo ++ asciiBytes (str "&time=" ++ decimal timestamp.toNat)

/-- `CSHA256` over the whole text. -/
abbrev Sha256 := List UInt8 → List.Vector UInt8 32

/-- The 64 bytes for a text: its digest, and zeros behind it. -/
def userDataOf (sha256 : Sha256) (userInfo : List UInt8) : UserData :=
  ⟨(sha256 userInfo).toList ++ List.replicate 32 0, by
    rw [List.length_append, List.Vector.toList_length, List.length_replicate]⟩

/-! ## `CreateReport` -/

/-- The outcomes of the calls of one `CreateReport`. The quote is of a report over the user data. -/
structure CreateIo where
  targetStatus : UInt32
  targetRet : Int
  reportStatus : UInt32
  quoteStatus : UInt32
  quoteRet : Int
  outside : Bool
  quote : UserData → List UInt8

section CreateReport

variable (encodeToBase64 : List UInt8 → Str) (sha256 : Sha256)

/-- `CreateReport` for 64 bytes: what it returns, the attestor and `report` behind the call. It
leaves `error_code_` alone where it succeeds. -/
def RemoteAttestor.createReport (attestor : RemoteAttestor) (io : CreateIo) (userData : UserData)
    (report : Str) : Bool × RemoteAttestor × Str :=
  let attestor := { attestor with errorMsg := [] }
  if io.targetStatus ≠ sgxSuccess then
    attestor.fails .oCallOperationFailed
      (str "Failed to call ssgx_ocall_get_qe_target_info(), sgx_status: 0x" ++
        hexText io.targetStatus.toNat) report
  else if io.targetRet ≠ 0 then
    attestor.fails .getTargetInfoFailed
      (str "Failed to call ssgx_ocall_get_qe_target_info(), ret: " ++ toText io.targetRet) report
  else if io.reportStatus ≠ sgxSuccess then
    attestor.fails .createReportFailed
      (str "Failed to call sgx_create_report(), sgx_status: 0x" ++ hexText io.reportStatus.toNat)
      report
  else if io.quoteStatus ≠ sgxSuccess then
    attestor.fails .oCallOperationException
      (str "Failed to call ssgx_ocall_create_quote_data(), sgx_status: 0x" ++
        hexText io.quoteStatus.toNat) report
  else if io.quoteRet ≠ 0 then
    attestor.fails .oCallOperationFailed
      (str "Failed to call ssgx_ocall_create_quote_data(), ret: " ++ toText io.quoteRet) report
  else if io.outside = false then
    attestor.fails .bufferValidateFailed
      (str "Failed to validate buffer p_quote_data, it is not outside of enclave.") report
  else (true, attestor, encodeToBase64 (io.quote userData))

/-- `CreateReport` for a `user_info`. -/
def RemoteAttestor.createReportFor (attestor : RemoteAttestor) (io : CreateIo)
    (userInfo : List UInt8) (report : Str) : Bool × RemoteAttestor × Str :=
  if userInfo.isEmpty then
    attestor.fails .invalidParameter (str "Parameter user_info must be provided.") report
  else attestor.createReport encodeToBase64 io (userDataOf sha256 userInfo) report

/-- `CreateReport` for a `user_info` with a timestamp. -/
def RemoteAttestor.createReportTimed (attestor : RemoteAttestor) (io : CreateIo)
    (userInfo : List UInt8) (timestamp : UInt64) (report : Str) : Bool × RemoteAttestor × Str :=
  if userInfo.isEmpty then
    attestor.fails .invalidParameter (str "Parameter user_info must be provided.") report
  else
    attestor.createReportFor encodeToBase64 sha256 io (timedUserInfo userInfo timestamp) report

end CreateReport

/-! ## `CreateReport` and the host -/

/-- The outcomes of the calls as a host answers them: the first answer is about the target, the
second brings the buffer of the quote, whatever the report is for. -/
def CreateIo.ofHost (outside : Nat → Nat → Bool) (created : UInt32) (w : HostWorld) : CreateIo where
  targetStatus := w.answer.status
  targetRet := w.answer.ret
  reportStatus := created
  quoteStatus := w.answered.answer.status
  quoteRet := w.answered.answer.ret
  outside := outside w.answered.pointer.address w.answered.answer.uint32
  quote := fun _ => w.answered.answered.bytesAt w.answered.pointer 0 w.answered.answer.uint32

/-- What `CreateReport` makes of the quote, or of the error. -/
def RemoteAttestor.reports (encodeToBase64 : List UInt8 → Str) (attestor : RemoteAttestor)
    (report : Str) : Except (ErrorCode × Str) (List UInt8) → Bool × RemoteAttestor × Str
  | .ok quote => (true, { attestor with errorMsg := [] }, encodeToBase64 quote)
  | .error (errorCode, errorMsg) => attestor.fails errorCode errorMsg report

section FromHost

variable (encodeToBase64 : List UInt8 → Str) (attestor : RemoteAttestor) (report : Str)

/-- The call ends as one that fetches the quote through the host's buffers does. -/
def EndsAs (fetch : HostCall (Except (ErrorCode × Str) (List UInt8))) (w : HostWorld)
    (ends : Bool × RemoteAttestor × Str) : Prop :=
  ∃ result, (fetch w).1 = .ok result ∧ ends = attestor.reports encodeToBase64 report result

variable {encodeToBase64 attestor report} {w : HostWorld} {ends : Bool × RemoteAttestor × Str}

theorem endsAs_error (errorCode : ErrorCode) (errorMsg : Str) :
    EndsAs encodeToBase64 attestor report (pure (.error (errorCode, errorMsg))) w
      (RemoteAttestor.fails { attestor with errorMsg := [] } errorCode errorMsg report) :=
  ⟨_, rfl, rfl⟩

theorem endsAs_ite {p : Prop} [Decidable p]
    {x y : HostCall (Except (ErrorCode × Str) (List UInt8))} {ends' : Bool × RemoteAttestor × Str}
    (hx : EndsAs encodeToBase64 attestor report x w ends)
    (hy : EndsAs encodeToBase64 attestor report y w ends') :
    EndsAs encodeToBase64 attestor report (if p then x else y) w (if p then ends else ends') := by
  by_cases h : p
  · rw [if_pos h, if_pos h]
    exact hx
  · rw [if_neg h, if_neg h]
    exact hy

/-- Behind an ocall it goes on in the world that was answered. -/
theorem endsAs_ocall {f : Boundary.HostAnswer × Boundary.HostPointer →
      HostCall (Except (ErrorCode × Str) (List UInt8))}
    (h : EndsAs encodeToBase64 attestor report (f (w.answer, w.pointer)) w.answered ends) :
    EndsAs encodeToBase64 attestor report (Boundary.ocall >>= f) w ends := h

/-- **Both readings of `CreateReport` agree.** With the outcomes that a host gives, it ends as its
work on the host's buffers does, which returns on every host. -/
theorem createReport_ofHost (outside : Nat → Nat → Bool) (created : UInt32) (userData : UserData) :
    EndsAs encodeToBase64 attestor report (Boundary.createReport outside created) w
      (attestor.createReport encodeToBase64 (.ofHost outside created w) userData report) := by
  apply endsAs_ocall
  apply endsAs_ite (endsAs_error _ _)
  apply endsAs_ite (endsAs_error _ _)
  apply endsAs_ite (endsAs_error _ _)
  apply endsAs_ocall
  apply endsAs_ite (endsAs_error _ _)
  apply endsAs_ite (endsAs_error _ _)
  -- the check of the buffer is on record from here on
  refine endsAs_ite (w := w.answered.answered.note (.checked w.answered.pointer
    w.answered.answer.uint32 _)) (endsAs_error _ _) ?_
  exact ⟨_, Boundary.freeOutside_bind_fst _ _ _ _, rfl⟩

end FromHost

/-! ## `VerifyReport` -/

/-- How a call ends: its answer or an exception, and the attestor and `mrenclave_hex` behind it. -/
structure VerifyEnd where
  answer : Except Str Bool
  attestor : RemoteAttestor
  mrenclaveHex : Str

/-- A call that returns. -/
def VerifyEnd.returns (result : Bool × RemoteAttestor × Str) : VerifyEnd :=
  ⟨.ok result.1, result.2.1, result.2.2⟩

/-- `VerifyReport` for 64 bytes; `none` stands for a call that goes to memory that was not
allocated. -/
abbrev VerifyUserData := RemoteAttestor → UserData → Str → Str → Option VerifyEnd

/-- The overloads of `VerifyReport`. -/
inductive VerifyCall where
  | userData (userData : UserData)
  | userInfo (userInfo : List UInt8)
  | timed (userInfo : List UInt8) (timestamp validitySeconds : UInt64)

/-- `time_now - timestamp > validity_seconds`, in 64 bits. -/
def Expired (timeNow timestamp validitySeconds : UInt64) : Prop :=
  validitySeconds < timeNow - timestamp

instance (timeNow timestamp validitySeconds : UInt64) :
    Decidable (Expired timeNow timestamp validitySeconds) :=
  inferInstanceAs (Decidable (validitySeconds < timeNow - timestamp))

section VerifyReport

variable (sha256 : Sha256) (verifyUserData : VerifyUserData)

/-- `VerifyReport` for a `user_info`. -/
def RemoteAttestor.verifyReportFor (attestor : RemoteAttestor) (userInfo : List UInt8)
    (report mrenclaveHex : Str) : Option VerifyEnd :=
  let attestor := { attestor with qvResult := none }
  if userInfo.isEmpty then
    some (.returns (attestor.fails .invalidParameter (str "Parameter user_info must be provided.")
      mrenclaveHex))
  else if report.isEmpty then
    some (.returns (attestor.fails .invalidParameter (str "Parameter report must be provided.")
      mrenclaveHex))
  else verifyUserData attestor (userDataOf sha256 userInfo) report mrenclaveHex

/-- `VerifyReport` for a `user_info` with a timestamp behind the verification of the report: the
clock is read, and may throw. -/
def VerifyEnd.checkTime (e : VerifyEnd) (clock : Except Str UInt64)
    (timestamp validitySeconds : UInt64) : VerifyEnd :=
  match clock with
  | .error what => { e with answer := .error what }
  | .ok timeNow =>
      if Expired timeNow timestamp validitySeconds then
        .returns (e.attestor.fails .verifyTimeStampFailed (str "Report is expired!") e.mrenclaveHex)
      else e

/-- `VerifyReport` for a `user_info` with a timestamp. -/
def RemoteAttestor.verifyReportTimed (attestor : RemoteAttestor) (clock : Except Str UInt64)
    (userInfo : List UInt8) (timestamp validitySeconds : UInt64) (report mrenclaveHex : Str) :
    Option VerifyEnd :=
  let attestor := { attestor with qvResult := none }
  if userInfo.isEmpty then
    some (.returns (attestor.fails .invalidParameter (str "Parameter user_info must be provided.")
      mrenclaveHex))
  else
    match attestor.verifyReportFor sha256 verifyUserData (timedUserInfo userInfo timestamp) report
      mrenclaveHex with
    | none => none
    | some e =>
        match e.answer with
        | .ok true => some (e.checkTime clock timestamp validitySeconds)
        | _ => some e

/-- The overloads, over that for 64 bytes and the clock. -/
def RemoteAttestor.verify (attestor : RemoteAttestor) (clock : Except Str UInt64)
    (call : VerifyCall) (report mrenclaveHex : Str) : Option VerifyEnd :=
  match call with
  | .userData userData => verifyUserData attestor userData report mrenclaveHex
  | .userInfo userInfo =>
      attestor.verifyReportFor sha256 verifyUserData userInfo report mrenclaveHex
  | .timed userInfo timestamp validitySeconds =>
      attestor.verifyReportTimed sha256 verifyUserData clock userInfo timestamp validitySeconds
        report mrenclaveHex

end VerifyReport

/-- The outcomes of the calls of one verification in the enclave: what `rand::RandomBytes` throws,
where it does, the other calls, and what `DateTime::Now` throws or gives. -/
structure TrustedCalls where
  randomBytes : Option Str
  io : TrustedIo
  now : Except Str UInt64

/-- The outcomes of the calls of one verification outside the enclave, and what `time` gives. -/
structure UntrustedCalls where
  io : UntrustedIo
  now : UInt64

/-- The report decodes to a quote for which a nonce is drawn. -/
def DrawsNonce (codecs : Codecs) (report : Str) : Prop :=
  ∃ quote, report ≠ [] ∧ codecs.decodeFromBase64 report = some quote ∧ quote ≠ []

instance (codecs : Codecs) (report : Str) : Decidable (DrawsNonce codecs report) :=
  match h : codecs.decodeFromBase64 report with
  | none => .isFalse fun ⟨_, _, hdecode, _⟩ => by rw [h] at hdecode; cases hdecode
  | some quote =>
      decidable_of_iff (report ≠ [] ∧ quote ≠ [])
        ⟨fun ⟨hreport, hquote⟩ => ⟨quote, hreport, h, hquote⟩,
          fun ⟨quote', hreport, hdecode, hquote⟩ =>
            ⟨hreport, by rw [h] at hdecode; cases hdecode; exact hquote⟩⟩

/-- `VerifyReport` of `t/RemoteAttestor.cpp` for 64 bytes, with the exception of the draw of the
nonce. -/
def trustedUserData (codecs : Codecs) (tvl : TvlArgs → UInt32) (calls : TrustedCalls) :
    VerifyUserData := fun attestor userData report mrenclaveHex =>
  match calls.randomBytes with
  | none =>
      (trustedVerifyReport codecs tvl attestor calls.io userData report mrenclaveHex).map .returns
  | some what =>
      if DrawsNonce codecs report then
        some ⟨.error what, { attestor with qvResult := none, errorMsg := [] }, mrenclaveHex⟩
      else
        (trustedVerifyReport codecs tvl attestor calls.io userData report mrenclaveHex).map .returns

/-- `VerifyReport` of `u/RemoteAttestor.cpp` for 64 bytes. -/
def untrustedUserData (codecs : Codecs) (calls : UntrustedCalls) : VerifyUserData :=
  fun attestor userData report mrenclaveHex =>
    (untrustedVerifyReport codecs attestor calls.io userData report mrenclaveHex).map .returns

/-- The overloads of `t/RemoteAttestor.cpp`. -/
def trustedVerify (sha256 : Sha256) (codecs : Codecs) (tvl : TvlArgs → UInt32)
    (calls : TrustedCalls) (attestor : RemoteAttestor) (call : VerifyCall)
    (report mrenclaveHex : Str) : Option VerifyEnd :=
  attestor.verify sha256 (trustedUserData codecs tvl calls) calls.now call report mrenclaveHex

/-- The overloads of `u/RemoteAttestor.cpp`. -/
def untrustedVerify (sha256 : Sha256) (codecs : Codecs) (calls : UntrustedCalls)
    (attestor : RemoteAttestor) (call : VerifyCall) (report mrenclaveHex : Str) :
    Option VerifyEnd :=
  attestor.verify sha256 (untrustedUserData codecs calls) (.ok calls.now) call report mrenclaveHex

/-- The call returns this answer. -/
def Answers (result : Option VerifyEnd) (answer : Bool) : Prop :=
  ∃ e, result = some e ∧ e.answer = .ok answer

/-! ## What the overload for 64 bytes does -/

/-- The report decodes to a quote whose raw verdict passes for the user data, and has this hash. -/
def ReportPasses (codecs : Codecs) (verifyRaw : List UInt8 → Option RawVerdict)
    (accepted : Finset UInt32) (userData : UserData) (report hash : Str) : Prop :=
  ∃ quote v, report ≠ [] ∧ codecs.decodeFromBase64 report = some quote ∧
    verifyRaw quote = some v ∧ v.Passes accepted quote userData ∧ v.mrenclaveHex = hash

/-- The report passes in the enclave. -/
def TrustedCalls.Passes (codecs : Codecs) (tvl : TvlArgs → UInt32) (calls : TrustedCalls)
    (accepted : Finset UInt32) (userData : UserData) (report hash : Str) : Prop :=
  calls.randomBytes = none ∧
    ReportPasses codecs (verifyRawQuoteWithQvE codecs tvl calls.io) accepted userData report hash

/-- The report passes outside the enclave. -/
def UntrustedCalls.Passes (codecs : Codecs) (calls : UntrustedCalls) (accepted : Finset UInt32)
    (userData : UserData) (report hash : Str) : Prop :=
  ReportPasses codecs (fun quote => some (verifyRawQuote codecs calls.io quote)) accepted userData
    report hash

/-- What ends in `false` with an error, in an exception, or not at all. -/
def Refused (attestor : RemoteAttestor) (mrenclaveHex : Str) (result : Option VerifyEnd) : Prop :=
  result = none ∨
    (∃ errorCode errorMsg qvResult, errorCode ≠ .success ∧ result =
      some ⟨.ok false, ⟨errorCode, errorMsg, qvResult, attestor.acceptedQvResults⟩, mrenclaveHex⟩) ∨
    ∃ what, result =
      some ⟨.error what, { attestor with qvResult := none, errorMsg := [] }, mrenclaveHex⟩

/-- Where what is refused ends, `mrenclave_hex` is what it was, it is not accepted, and the error of
an answer is no success. -/
theorem Refused.ended {attestor : RemoteAttestor} {mrenclaveHex : Str} {result : Option VerifyEnd}
    {e : VerifyEnd} (h : Refused attestor mrenclaveHex result) (he : result = some e) :
    e.mrenclaveHex = mrenclaveHex ∧ e.answer ≠ .ok true ∧
      (e.answer = .ok false → e.attestor.errorCode ≠ .success) := by
  rcases h with hnone | ⟨_, _, _, hcode, hcall⟩ | ⟨_, hcall⟩
  · cases hnone.symm.trans he
  · cases hcall.symm.trans he
    exact ⟨rfl, (fun h => nomatch h), fun _ => hcode⟩
  · cases hcall.symm.trans he
    exact ⟨rfl, (fun h => nomatch h), fun h => nomatch h⟩

/-- A verification for 64 bytes accepts the reports that pass, and then writes their hash; any other
it refuses, and leaves `mrenclave_hex` alone. -/
structure Verifies (verifyUserData : VerifyUserData)
    (passes : Finset UInt32 → UserData → Str → Str → Prop) : Prop where
  present : ∀ accepted userData report hash, passes accepted userData report hash → report ≠ []
  accepts : ∀ attestor userData report mrenclaveHex hash,
    passes attestor.acceptedQvResults userData report hash →
      ∃ qvResult, verifyUserData attestor userData report mrenclaveHex =
        some ⟨.ok true, ⟨.success, [], qvResult, attestor.acceptedQvResults⟩, hash⟩
  refuses : ∀ attestor userData report mrenclaveHex,
    (∀ hash, ¬ passes attestor.acceptedQvResults userData report hash) →
      Refused attestor mrenclaveHex (verifyUserData attestor userData report mrenclaveHex)

/-- `VerifyReport` over any verification of raw quotes. -/
theorem verifyReport_verifies (texts : VerifyTexts) (codecs : Codecs)
    (verifyRaw : List UInt8 → Option RawVerdict) :
    Verifies (fun attestor userData report mrenclaveHex =>
      (attestor.verifyReport texts codecs verifyRaw userData report mrenclaveHex).map .returns)
      (ReportPasses codecs verifyRaw) where
  present := by
    rintro accepted userData report hash ⟨quote, v, hreport, -⟩
    exact hreport
  accepts := by
    rintro attestor userData report mrenclaveHex hash
      ⟨quote, v, hreport, hdecode, hraw, hpasses, rfl⟩
    rcases verifyReport_cases texts codecs verifyRaw attestor userData report mrenclaveHex with
      ⟨quote', v', -, hdecode', hraw', -, hcall⟩ | ⟨hnone, -⟩
    · obtain rfl := Option.some.inj (hdecode.symm.trans hdecode')
      obtain rfl := Option.some.inj (hraw.symm.trans hraw')
      rw [hcall]
      exact ⟨v.qvResult, rfl⟩
    · exact absurd hpasses (hnone quote v hreport hdecode hraw)
  refuses := by
    intro attestor userData report mrenclaveHex hnot
    rcases verifyReport_cases texts codecs verifyRaw attestor userData report mrenclaveHex with
      ⟨quote, v, hreport, hdecode, hraw, hpasses, -⟩ | ⟨-, hcall | ⟨code, msg, qv, hcode, hcall⟩⟩
    · exact absurd ⟨quote, v, hreport, hdecode, hraw, hpasses, rfl⟩ (hnot v.mrenclaveHex)
    · rw [hcall]
      exact .inl rfl
    · rw [hcall]
      exact .inr (.inl ⟨code, msg, qv, hcode, rfl⟩)

theorem untrustedUserData_verifies (codecs : Codecs) (calls : UntrustedCalls) :
    Verifies (untrustedUserData codecs calls) (calls.Passes codecs) :=
  verifyReport_verifies untrustedTexts codecs _

theorem trustedUserData_verifies (codecs : Codecs) (tvl : TvlArgs → UInt32) (calls : TrustedCalls) :
    Verifies (trustedUserData codecs tvl calls) (calls.Passes codecs tvl) := by
  have hverifies := verifyReport_verifies trustedTexts codecs
    (verifyRawQuoteWithQvE codecs tvl calls.io)
  cases hrandom : calls.randomBytes with
  | none =>
      have heq : trustedUserData codecs tvl calls = fun attestor userData report mrenclaveHex =>
          (trustedVerifyReport codecs tvl attestor calls.io userData report mrenclaveHex).map
            .returns := by
        funext attestor userData report mrenclaveHex
        simp only [trustedUserData, hrandom]
      rw [heq]
      refine ⟨fun _ _ _ _ h => hverifies.present _ _ _ _ h.2, ?_, ?_⟩
      · intro attestor userData report mrenclaveHex hash hpasses
        exact hverifies.accepts attestor userData report mrenclaveHex hash hpasses.2
      · intro attestor userData report mrenclaveHex hnot
        refine hverifies.refuses attestor userData report mrenclaveHex fun hash hpasses => ?_
        exact hnot hash ⟨hrandom, hpasses⟩
  | some what =>
      refine ⟨fun _ _ _ _ h => hverifies.present _ _ _ _ h.2, ?_, ?_⟩
      · rintro attestor userData report mrenclaveHex hash ⟨hnone, -⟩
        rw [hrandom] at hnone
        cases hnone
      · rintro attestor userData report mrenclaveHex -
        simp only [trustedUserData, hrandom]
        split_ifs with hdraws
        · exact .inr (.inr ⟨what, rfl⟩)
        · -- without a draw there is no quote that could pass
          apply hverifies.refuses attestor userData report mrenclaveHex
          rintro hash ⟨quote, v, hreport, hdecode, hraw, hpasses, -⟩
          refine hdraws ⟨quote, hreport, hdecode, ?_⟩
          exact (verifyRawQuoteWithQvE_success_iff.1 ⟨hraw, hpasses.code⟩).1

/-! ## What the overloads do -/

/-- The user data that a call is for. -/
def VerifyCall.data (sha256 : Sha256) : VerifyCall → UserData
  | .userData given => given
  | .userInfo text => userDataOf sha256 text
  | .timed text timestamp _ => userDataOf sha256 (timedUserInfo text timestamp)

/-- The call comes to the overload for 64 bytes, as far as the `user_info` goes. -/
def VerifyCall.Given : VerifyCall → Prop
  | .userData _ => True
  | .userInfo text => text ≠ []
  | .timed text _ _ => text ≠ []

/-- The time of the call is not read, or the report is expired. -/
def VerifyCall.TimeFails (clock : Except Str UInt64) : VerifyCall → Prop
  | .userData _ => False
  | .userInfo _ => False
  | .timed _ timestamp validitySeconds =>
      ∀ timeNow, clock = .ok timeNow → Expired timeNow timestamp validitySeconds

section Verify

variable (sha256 : Sha256) {verifyUserData : VerifyUserData}
  {passes : Finset UInt32 → UserData → Str → Str → Prop} {attestor : RemoteAttestor}
  {clock : Except Str UInt64} {call : VerifyCall} {report mrenclaveHex : Str}

theorem timedUserInfo_ne_nil (userInfo : List UInt8) (timestamp : UInt64) :
    timedUserInfo userInfo timestamp ≠ [] :=
  List.append_ne_nil_of_right_ne_nil _ (List.cons_ne_nil _ _)

/-- An error that a call ends in. -/
theorem refused_fails {errorCode : ErrorCode} (h : errorCode ≠ .success) (errorMsg : Str)
    (qvResult : Option UInt32) :
    Refused attestor mrenclaveHex (some (.returns
      ({ attestor with qvResult := qvResult }.fails errorCode errorMsg mrenclaveHex))) :=
  .inr (.inl ⟨errorCode, errorMsg, qvResult, h, rfl⟩)

/-- **`VerifyReport` for a `user_info`** is the overload for 64 bytes, where there is a `user_info`.
-/
theorem verifyReportFor_cases (hverifies : Verifies verifyUserData passes) (userInfo : List UInt8)
    (attestor : RemoteAttestor) (report mrenclaveHex : Str) :
    (∃ hash qvResult, userInfo ≠ [] ∧
      passes attestor.acceptedQvResults (userDataOf sha256 userInfo) report hash ∧
      attestor.verifyReportFor sha256 verifyUserData userInfo report mrenclaveHex =
        some ⟨.ok true, ⟨.success, [], qvResult, attestor.acceptedQvResults⟩, hash⟩) ∨
    ((∀ hash, userInfo ≠ [] →
        ¬ passes attestor.acceptedQvResults (userDataOf sha256 userInfo) report hash) ∧
      Refused attestor mrenclaveHex
        (attestor.verifyReportFor sha256 verifyUserData userInfo report mrenclaveHex)) := by
  simp only [RemoteAttestor.verifyReportFor]
  by_cases huser : userInfo = []
  · rw [if_pos (List.isEmpty_iff.2 huser)]
    exact .inr ⟨fun _ hne => absurd huser hne, refused_fails (by decide) _ _⟩
  rw [if_neg (mt List.isEmpty_iff.1 huser)]
  by_cases hreport : report = []
  · rw [if_pos (List.isEmpty_iff.2 hreport)]
    refine .inr ⟨fun hash _ h => ?_, refused_fails (by decide) _ _⟩
    exact hverifies.present _ _ _ _ h hreport
  rw [if_neg (mt List.isEmpty_iff.1 hreport)]
  by_cases hpasses : ∃ hash,
      passes attestor.acceptedQvResults (userDataOf sha256 userInfo) report hash
  · obtain ⟨hash, hpasses⟩ := hpasses
    obtain ⟨qvResult, hcall⟩ := hverifies.accepts { attestor with qvResult := none } _ report
      mrenclaveHex hash hpasses
    exact .inl ⟨hash, qvResult, huser, hpasses, hcall⟩
  · refine .inr ⟨fun hash _ h => hpasses ⟨hash, h⟩, ?_⟩
    exact hverifies.refuses { attestor with qvResult := none } _ report mrenclaveHex
      fun hash h => hpasses ⟨hash, h⟩

/-- The clock decides about a report that passes. -/
theorem checkTime_cases (e : VerifyEnd) (clock : Except Str UInt64) (userInfo : List UInt8)
    (timestamp validitySeconds : UInt64) :
    (¬ (VerifyCall.timed userInfo timestamp validitySeconds).TimeFails clock ∧
      e.checkTime clock timestamp validitySeconds = e) ∨
    ((VerifyCall.timed userInfo timestamp validitySeconds).TimeFails clock ∧
      ((∃ what, e.checkTime clock timestamp validitySeconds = { e with answer := .error what }) ∨
        e.checkTime clock timestamp validitySeconds =
          .returns (e.attestor.fails .verifyTimeStampFailed (str "Report is expired!")
            e.mrenclaveHex))) := by
  cases clock with
  | error what => exact .inr ⟨(fun _ h => nomatch h), .inl ⟨what, rfl⟩⟩
  | ok timeNow =>
      simp only [VerifyEnd.checkTime]
      by_cases hexpired : Expired timeNow timestamp validitySeconds
      · refine .inr ⟨fun timeNow' h => ?_, .inr (if_pos hexpired)⟩
        cases h
        exact hexpired
      · exact .inl ⟨fun h => hexpired (h timeNow rfl), if_neg hexpired⟩

/-- **What a call of `VerifyReport` can do.** It accepts a report that passes for the user data of
the call, and writes its hash; or the report passes and the time does not, and the hash is written
although the call fails or throws; or it refuses. -/
theorem verify_cases (hverifies : Verifies verifyUserData passes) (attestor : RemoteAttestor)
    (clock : Except Str UInt64) (call : VerifyCall) (report mrenclaveHex : Str) :
    (∃ hash qvResult, call.Given ∧
      passes attestor.acceptedQvResults (call.data sha256) report hash ∧ ¬ call.TimeFails clock ∧
      attestor.verify sha256 verifyUserData clock call report mrenclaveHex =
        some ⟨.ok true, ⟨.success, [], qvResult, attestor.acceptedQvResults⟩, hash⟩) ∨
    (∃ hash e, call.Given ∧
      passes attestor.acceptedQvResults (call.data sha256) report hash ∧ call.TimeFails clock ∧
      attestor.verify sha256 verifyUserData clock call report mrenclaveHex = some e ∧
      e.mrenclaveHex = hash ∧ ((∃ what, e.answer = .error what) ∨
        (e.answer = .ok false ∧ e.attestor.errorCode = .verifyTimeStampFailed))) ∨
    ((∀ hash, call.Given → ¬ passes attestor.acceptedQvResults (call.data sha256) report hash) ∧
      Refused attestor mrenclaveHex
        (attestor.verify sha256 verifyUserData clock call report mrenclaveHex)) := by
  cases call with
  | userData userData =>
      by_cases hpasses : ∃ hash, passes attestor.acceptedQvResults userData report hash
      · obtain ⟨hash, hpasses⟩ := hpasses
        obtain ⟨qvResult, hcall⟩ := hverifies.accepts attestor _ report mrenclaveHex hash hpasses
        exact .inl ⟨hash, qvResult, trivial, hpasses, id, hcall⟩
      · refine .inr (.inr ⟨fun hash _ h => hpasses ⟨hash, h⟩, ?_⟩)
        exact hverifies.refuses attestor _ report mrenclaveHex fun hash h => hpasses ⟨hash, h⟩
  | userInfo userInfo =>
      rcases verifyReportFor_cases sha256 hverifies userInfo attestor report mrenclaveHex
        with ⟨hash, qvResult, hgiven, hpasses, hcall⟩ | ⟨hnot, hrefused⟩
      · exact .inl ⟨hash, qvResult, hgiven, hpasses, id, hcall⟩
      · exact .inr (.inr ⟨hnot, hrefused⟩)
  | timed userInfo timestamp validitySeconds =>
      simp only [RemoteAttestor.verify, RemoteAttestor.verifyReportTimed]
      by_cases huser : userInfo = []
      · rw [if_pos (List.isEmpty_iff.2 huser)]
        exact .inr (.inr ⟨fun _ hgiven => absurd huser hgiven, refused_fails (by decide) _ _⟩)
      rw [if_neg (mt List.isEmpty_iff.1 huser)]
      rcases verifyReportFor_cases sha256 hverifies (timedUserInfo userInfo timestamp)
        { attestor with qvResult := none } report mrenclaveHex
        with ⟨hash, qvResult, -, hpasses, hcall⟩ | ⟨hnot, hrefused⟩
      · rw [hcall]
        dsimp only
        rcases checkTime_cases
          ⟨.ok true, ⟨.success, [], qvResult, attestor.acceptedQvResults⟩, hash⟩
          clock userInfo timestamp validitySeconds with ⟨htime, heq⟩ | ⟨htime, ⟨what, heq⟩ | heq⟩
        · rw [heq]
          exact .inl ⟨hash, qvResult, huser, hpasses, htime, rfl⟩
        · rw [heq]
          exact .inr (.inl ⟨hash, _, huser, hpasses, htime, rfl, rfl, .inl ⟨what, rfl⟩⟩)
        · rw [heq]
          exact .inr (.inl ⟨hash, _, huser, hpasses, htime, rfl, rfl, .inr ⟨rfl, rfl⟩⟩)
      · refine .inr (.inr ⟨fun hash _ => hnot hash (timedUserInfo_ne_nil _ _), ?_⟩)
        -- what is refused comes back as it is
        rcases hrefused with hnone | ⟨code, msg, qv, hcode, hcall⟩ | ⟨what, hcall⟩
        · rw [hnone]
          exact .inl rfl
        · rw [hcall]
          exact .inr (.inl ⟨code, msg, qv, hcode, rfl⟩)
        · rw [hcall]
          exact .inr (.inr ⟨what, rfl⟩)

/-- **Which reports a call accepts**: exactly those that pass for its user data, where it has a
`user_info` and the time does not fail. -/
theorem verify_answers_iff (hverifies : Verifies verifyUserData passes) (attestor : RemoteAttestor)
    (clock : Except Str UInt64) (call : VerifyCall) (report mrenclaveHex : Str) :
    Answers (attestor.verify sha256 verifyUserData clock call report mrenclaveHex) true ↔
      call.Given ∧ ¬ call.TimeFails clock ∧
        ∃ hash, passes attestor.acceptedQvResults (call.data sha256) report hash := by
  rcases verify_cases sha256 hverifies attestor clock call report mrenclaveHex with
    ⟨hash, _, hgiven, hpasses, htime, hcall⟩ | ⟨_, e, -, -, htime, hcall, -, hend⟩ |
      ⟨hnot, hrefused⟩
  · exact iff_of_true ⟨_, hcall, rfl⟩ ⟨hgiven, htime, hash, hpasses⟩
  · refine iff_of_false ?_ fun h => h.2.1 htime
    rintro ⟨e', he', hanswer⟩
    obtain rfl := Option.some.inj (hcall.symm.trans he')
    rcases hend with ⟨what, hend⟩ | ⟨hend, -⟩
    · cases hend.symm.trans hanswer
    · cases hend.symm.trans hanswer
  · refine iff_of_false ?_ ?_
    · rintro ⟨e, he, hanswer⟩
      exact (hrefused.ended he).2.1 hanswer
    · rintro ⟨hgiven, -, hash, hpasses⟩
      exact hnot hash hgiven hpasses

end Verify

end Ssgx.Attestation
