import Ssgx.Attestation.TimedReport

/-!
# The error of the last call

All overloads of `CreateReport` and `VerifyReport` of `t/RemoteAttestor.cpp` write the same
`error_code_` and `error_msg_`. A call tells how it went (`Tells`) if behind one that returned true
the code is `Success` and the text empty, and behind one that returned false the code is another,
whatever the attestor held before.

`CreateReport` clears the text and does not write the code where it succeeds. So the calls of a run
tell how they went exactly if every `CreateReport` that gets a report starts with the code `Success`
(`errorState_tells_iff`).
-/

set_option autoImplicit false

namespace Ssgx.Attestation

open Ssgx.Support

/-! ## The calls -/

/-- The overloads of `CreateReport`. -/
inductive CreateCall where
  | userData (userData : UserData)
  | userInfo (userInfo : List UInt8)
  | timed (userInfo : List UInt8) (timestamp : UInt64)

/-- The overloads of `CreateReport`. -/
def RemoteAttestor.create (encodeToBase64 : List UInt8 → Str) (sha256 : Sha256)
    (attestor : RemoteAttestor) (io : CreateIo) (call : CreateCall) (report : Str) :
    Bool × RemoteAttestor × Str :=
  match call with
  | .userData userData => attestor.createReport encodeToBase64 io userData report
  | .userInfo userInfo => attestor.createReportFor encodeToBase64 sha256 io userInfo report
  | .timed userInfo timestamp =>
      attestor.createReportTimed encodeToBase64 sha256 io userInfo timestamp report

/-- A call on the attestor of an enclave. The outcomes of the calls inside come with it. -/
inductive ReportOp where
  | setAcceptableResults (acceptedResults : List QvResult)
  | create (io : CreateIo) (call : CreateCall) (report : Str)
  | verify (calls : TrustedCalls) (call : VerifyCall) (report mrenclaveHex : Str)

/-- The libraries that the attestor is built on. -/
structure Libraries where
  encodeToBase64 : List UInt8 → Str
  sha256 : Sha256
  codecs : Codecs
  tvl : TvlArgs → UInt32

/-- How a call ends: its answer, if it has one, or an exception, and the attestor behind it. -/
def Libraries.outcome (lib : Libraries) (attestor : RemoteAttestor) :
    ReportOp → Option (Except Str (Option Bool) × RemoteAttestor)
  | .setAcceptableResults acceptedResults =>
      some (.ok none, attestor.setAcceptableResults acceptedResults)
  | .create io call report =>
      let created := attestor.create lib.encodeToBase64 lib.sha256 io call report
      some (.ok (some created.1), created.2.1)
  | .verify calls call report mrenclaveHex =>
      (trustedVerify lib.sha256 lib.codecs lib.tvl calls attestor call report mrenclaveHex).map
        fun e => (e.answer.map some, e.attestor)

/-- The attestor behind a call; the old one stands in where the call does not return. -/
def Libraries.step (lib : Libraries) (attestor : RemoteAttestor) (op : ReportOp) : RemoteAttestor :=
  match lib.outcome attestor op with
  | none => attestor
  | some (_, attestor') => attestor'

/-! ## What a call tells -/

/-- The attestor with another error in it. -/
def RemoteAttestor.withError (attestor : RemoteAttestor) (errorCode : ErrorCode) (errorMsg : Str) :
    RemoteAttestor :=
  { attestor with errorCode := errorCode, errorMsg := errorMsg }

/-- The error behind a call says what it returned. An error behind `false` is that of the call: it
is the same whatever error was there before. -/
structure Libraries.Tells (lib : Libraries) (attestor : RemoteAttestor) (op : ReportOp) : Prop where
  success : ∀ attestor', lib.outcome attestor op = some (.ok (some true), attestor') →
    attestor'.errorCode = .success ∧ attestor'.errorMsg = []
  failure : ∀ attestor', lib.outcome attestor op = some (.ok (some false), attestor') →
    attestor'.errorCode ≠ .success ∧ ∀ errorCode errorMsg,
      lib.outcome (attestor.withError errorCode errorMsg) op = some (.ok (some false), attestor')

/-- Every call of a `CreateReport` succeeds. -/
structure CreateIo.Works (io : CreateIo) : Prop where
  targetStatus : io.targetStatus = sgxSuccess
  targetRet : io.targetRet = 0
  reportStatus : io.reportStatus = sgxSuccess
  quoteStatus : io.quoteStatus = sgxSuccess
  quoteRet : io.quoteRet = 0
  outside : io.outside = true

/-- The text, where there is one, is not empty. -/
def CreateCall.Given : CreateCall → Prop
  | .userData _ => True
  | .userInfo text => text ≠ []
  | .timed text _ => text ≠ []

/-- A `CreateReport` that gets a report is made with the code `Success`. -/
def CreatesFromSuccess (attestor : RemoteAttestor) : ReportOp → Prop
  | .create io call _ => call.Given → io.Works → attestor.errorCode = .success
  | _ => True

/-! ## `CreateReport` -/

section Create

variable (encodeToBase64 : List UInt8 → Str) (sha256 : Sha256)

/-- The user data that a report is created for. -/
def CreateCall.data : CreateCall → UserData
  | .userData given => given
  | .userInfo text => userDataOf sha256 text
  | .timed text timestamp => userDataOf sha256 (timedUserInfo text timestamp)

/-- The call fails with an error of its own, whatever the attestor held before. -/
def FailsAlways (create : RemoteAttestor → Str → Bool × RemoteAttestor × Str) : Prop :=
  ∃ errorCode errorMsg, errorCode ≠ .success ∧
    ∀ attestor report, create attestor report = attestor.fails errorCode errorMsg report

/-- A missing `user_info`. -/
theorem failsAlways_missing {text : List UInt8} (htext : text = [])
    (rest : RemoteAttestor → Str → Bool × RemoteAttestor × Str) :
    FailsAlways fun attestor report =>
      if text.isEmpty then
        attestor.fails .invalidParameter (str "Parameter user_info must be provided.") report
      else rest attestor report :=
  ⟨.invalidParameter, _, by decide, fun _ _ => if_pos (List.isEmpty_iff.2 htext)⟩

/-- **`CreateReport` for 64 bytes** gets a report where every call succeeds. -/
theorem createReport_of_works {io : CreateIo} (h : io.Works) (attestor : RemoteAttestor)
    (userData : UserData) (report : Str) :
    attestor.createReport encodeToBase64 io userData report =
      (true, { attestor with errorMsg := [] }, encodeToBase64 (io.quote userData)) := by
  simp only [RemoteAttestor.createReport]
  rw [if_neg (not_not_intro h.targetStatus), if_neg (not_not_intro h.targetRet),
    if_neg (not_not_intro h.reportStatus), if_neg (not_not_intro h.quoteStatus),
    if_neg (not_not_intro h.quoteRet), if_neg (by simp [h.outside])]

/-- Else its error is that of the first call that does not. -/
theorem createReport_failsAlways {io : CreateIo} (h : ¬ io.Works) (userData : UserData) :
    FailsAlways fun attestor report =>
      attestor.createReport encodeToBase64 io userData report := by
  simp only [RemoteAttestor.createReport]
  by_cases htarget : io.targetStatus = sgxSuccess
  swap
  · exact ⟨.oCallOperationFailed, _, by decide, fun _ _ => if_pos htarget⟩
  simp only [if_neg (not_not_intro htarget)]
  by_cases hret : io.targetRet = 0
  swap
  · exact ⟨.getTargetInfoFailed, _, by decide, fun _ _ => if_pos hret⟩
  simp only [if_neg (not_not_intro hret)]
  by_cases hcreated : io.reportStatus = sgxSuccess
  swap
  · exact ⟨.createReportFailed, _, by decide, fun _ _ => if_pos hcreated⟩
  simp only [if_neg (not_not_intro hcreated)]
  by_cases hquote : io.quoteStatus = sgxSuccess
  swap
  · exact ⟨.oCallOperationException, _, by decide, fun _ _ => if_pos hquote⟩
  simp only [if_neg (not_not_intro hquote)]
  by_cases hquoteRet : io.quoteRet = 0
  swap
  · exact ⟨.oCallOperationFailed, _, by decide, fun _ _ => if_pos hquoteRet⟩
  simp only [if_neg (not_not_intro hquoteRet)]
  by_cases houtside : io.outside = false
  · exact ⟨.bufferValidateFailed, _, by decide, fun _ _ => if_pos houtside⟩
  · exact absurd ⟨htarget, hret, hcreated, hquote, hquoteRet,
      Bool.eq_true_of_not_eq_false houtside⟩ h

/-- With a text, every overload is that for 64 bytes. -/
theorem create_of_given {call : CreateCall} (h : call.Given) (attestor : RemoteAttestor)
    (io : CreateIo) (report : Str) :
    attestor.create encodeToBase64 sha256 io call report =
      attestor.createReport encodeToBase64 io (call.data sha256) report := by
  cases call with
  | userData userData => rfl
  | userInfo text => exact if_neg (mt List.isEmpty_iff.1 h)
  | timed text timestamp =>
      have htimed := mt List.isEmpty_iff.1 (timedUserInfo_ne_nil text timestamp)
      exact (if_neg (mt List.isEmpty_iff.1 h)).trans (if_neg htimed)

/-- **A call of `CreateReport` that gets a report.** -/
theorem create_gets {call : CreateCall} {io : CreateIo} (hgiven : call.Given) (hworks : io.Works)
    (attestor : RemoteAttestor) (report : Str) :
    attestor.create encodeToBase64 sha256 io call report =
      (true, { attestor with errorMsg := [] }, encodeToBase64 (io.quote (call.data sha256))) := by
  rw [create_of_given encodeToBase64 sha256 hgiven]
  exact createReport_of_works encodeToBase64 hworks attestor (call.data sha256) report

/-- **A call of `CreateReport` that gets none.** -/
theorem create_failsAlways {call : CreateCall} {io : CreateIo} (h : ¬ (call.Given ∧ io.Works)) :
    FailsAlways fun attestor report =>
      attestor.create encodeToBase64 sha256 io call report := by
  by_cases hgiven : call.Given
  · have hworks : ¬ io.Works := fun hworks => h ⟨hgiven, hworks⟩
    simp only [create_of_given encodeToBase64 sha256 hgiven]
    exact createReport_failsAlways encodeToBase64 hworks (call.data sha256)
  · cases call with
    | userData userData => exact absurd trivial hgiven
    | userInfo text => exact failsAlways_missing (not_not.1 hgiven) _
    | timed text timestamp => exact failsAlways_missing (not_not.1 hgiven) _

end Create

/-! ## `VerifyReport` -/

section Verify

variable {texts : VerifyTexts} {codecs : Codecs} {attestor : RemoteAttestor}

/-- A judgement does not look at the error that was there before, and writes its own code. -/
theorem judge_withError (errorCode : ErrorCode) (userData : UserData) (quote : List UInt8)
    (v : RawVerdict) (hex : Str) :
    RemoteAttestor.judge texts (attestor.withError errorCode attestor.errorMsg) userData quote v
      hex = attestor.judge texts userData quote v hex := by
  simp only [RemoteAttestor.judge, RemoteAttestor.withError]
  by_cases hcode : v.code = .success
  · rw [if_neg (not_not_intro hcode), if_neg (not_not_intro hcode)]
    cases v.qvResult with
    | none => rfl
    | some verdict =>
        exact ite_congr rfl (fun _ => rfl) fun _ => ite_congr rfl (fun _ => rfl) fun _ =>
          ite_congr rfl (fun _ => rfl) fun _ => rfl
  · rw [if_pos hcode, if_pos hcode]
    rfl

/-- Nor does the overload for 64 bytes. -/
theorem verifyReport_withError (verifyRaw : List UInt8 → Option RawVerdict) (errorCode : ErrorCode)
    (errorMsg : Str) (userData : UserData) (report hex : Str) :
    (attestor.withError errorCode errorMsg).verifyReport texts codecs verifyRaw userData report
        hex =
      attestor.verifyReport texts codecs verifyRaw userData report hex := by
  simp only [RemoteAttestor.verifyReport]
  by_cases hreport : report.isEmpty
  · rw [if_pos hreport, if_pos hreport]
    rfl
  · rw [if_neg hreport, if_neg hreport]
    cases codecs.decodeFromBase64 report with
    | none => rfl
    | some quote =>
        dsimp only
        refine congrArg (fun f => (verifyRaw quote).map f) (funext fun v => ?_)
        exact @judge_withError texts { attestor with qvResult := none, errorMsg := [] } errorCode
          userData quote v hex

/-- A verification forgets the error that was there before, where it returns. -/
def Forgets (verify : RemoteAttestor → Option VerifyEnd) : Prop :=
  ∀ (attestor : RemoteAttestor) errorCode errorMsg e b, verify attestor = some e →
    e.answer = .ok b → verify (attestor.withError errorCode errorMsg) = some e

theorem trustedUserData_forgets (tvl : TvlArgs → UInt32) (calls : TrustedCalls)
    (userData : UserData) (report hex : Str) :
    Forgets fun attestor => trustedUserData codecs tvl calls attestor userData report hex := by
  intro attestor errorCode errorMsg e b he hanswer
  simp only [trustedUserData] at he ⊢
  have hsame : trustedVerifyReport codecs tvl (attestor.withError errorCode errorMsg) calls.io
      userData report hex = trustedVerifyReport codecs tvl attestor calls.io userData report hex :=
    verifyReport_withError _ errorCode errorMsg userData report hex
  rw [hsame]
  cases hrandom : calls.randomBytes with
  | none =>
      rw [hrandom] at he
      exact he
  | some what =>
      rw [hrandom] at he
      dsimp only at he ⊢
      by_cases hdraws : DrawsNonce codecs report
      · -- the draw throws, so nothing is returned
        rw [if_pos hdraws] at he
        cases he
        cases hanswer
      · rw [if_neg hdraws] at he ⊢
        exact he

/-- The overload for a `user_info` forgets where that for 64 bytes does. -/
theorem verifyReportFor_forgets {sha256 : Sha256} {verifyUserData : VerifyUserData}
    {report hex : Str}
    (h : ∀ userData, Forgets fun attestor => verifyUserData attestor userData report hex)
    (text : List UInt8) :
    Forgets fun attestor => attestor.verifyReportFor sha256 verifyUserData text report hex := by
  intro attestor errorCode errorMsg e b he hanswer
  simp only [RemoteAttestor.verifyReportFor] at he ⊢
  by_cases htext : text.isEmpty
  · rw [if_pos htext] at he ⊢
    exact he
  rw [if_neg htext] at he ⊢
  by_cases hreport : report.isEmpty
  · rw [if_pos hreport] at he ⊢
    exact he
  rw [if_neg hreport] at he ⊢
  exact h _ { attestor with qvResult := none } errorCode errorMsg e b he hanswer

theorem verify_forgets {sha256 : Sha256} {verifyUserData : VerifyUserData} {report hex : Str}
    (h : ∀ userData, Forgets fun attestor => verifyUserData attestor userData report hex)
    (clock : Except Str UInt64) (call : VerifyCall) :
    Forgets fun attestor => attestor.verify sha256 verifyUserData clock call report hex := by
  cases call with
  | userData userData => exact h userData
  | userInfo text => exact verifyReportFor_forgets h text
  | timed text timestamp validitySeconds =>
      intro attestor errorCode errorMsg e b he hanswer
      simp only [RemoteAttestor.verify, RemoteAttestor.verifyReportTimed] at he ⊢
      by_cases htext : text.isEmpty
      · rw [if_pos htext] at he ⊢
        exact he
      rw [if_neg htext] at he ⊢
      cases hinner : RemoteAttestor.verifyReportFor sha256 verifyUserData
          { attestor with qvResult := none } (timedUserInfo text timestamp) report hex with
      | none =>
          rw [hinner] at he
          cases he
      | some inner =>
          rw [hinner] at he
          dsimp only at he
          cases hended : inner.answer with
          | error what =>
              -- what throws inside is returned as it is, and is no answer
              rw [hended] at he
              cases he
              rw [hended] at hanswer
              cases hanswer
          | ok b' =>
              -- the verification inside forgot the error, and the clock does not look at it
              have hsame : RemoteAttestor.verifyReportFor sha256 verifyUserData
                  { attestor.withError errorCode errorMsg with qvResult := none }
                  (timedUserInfo text timestamp) report hex = some inner :=
                verifyReportFor_forgets h _ { attestor with qvResult := none } errorCode errorMsg
                  inner b' hinner hended
              rw [hsame]
              exact he

end Verify

/-! ## What every call tells -/

section Tells

variable (lib : Libraries) {attestor : RemoteAttestor}

theorem setAcceptableResults_tells (acceptedResults : List QvResult) :
    lib.Tells attestor (.setAcceptableResults acceptedResults) where
  success := fun _ h => by cases h
  failure := fun _ h => by cases h

theorem outcome_verify_iff {calls : TrustedCalls} {call : VerifyCall} {report hex : Str} {b : Bool}
    {attestor' : RemoteAttestor} :
    lib.outcome attestor (.verify calls call report hex) = some (.ok (some b), attestor') ↔
      ∃ e, trustedVerify lib.sha256 lib.codecs lib.tvl calls attestor call report hex = some e ∧
        e.answer = .ok b ∧ e.attestor = attestor' := by
  simp only [Libraries.outcome, Option.map_eq_some_iff, Prod.mk.injEq]
  refine exists_congr fun e => and_congr_right fun _ => and_congr_left fun _ => ?_
  cases e.answer with
  | error what => exact iff_of_false (fun h => nomatch h) (fun h => nomatch h)
  | ok b' =>
      simp only [Except.map, Except.ok.injEq, Option.some.injEq]

/-- What the error behind a `VerifyReport` is. -/
theorem trustedVerify_errorCode {calls : TrustedCalls} {call : VerifyCall} {report hex : Str}
    {e : VerifyEnd}
    (h : trustedVerify lib.sha256 lib.codecs lib.tvl calls attestor call report hex = some e) :
    (e.answer = .ok true → e.attestor.errorCode = .success ∧ e.attestor.errorMsg = []) ∧
      (e.answer = .ok false → e.attestor.errorCode ≠ .success) := by
  rcases verify_cases lib.sha256 (trustedUserData_verifies lib.codecs lib.tvl calls) attestor
    calls.now call report hex with ⟨_, _, -, -, -, hcall⟩ | ⟨_, e', -, -, -, hcall, -, hend⟩ |
      ⟨-, hrefused⟩
  · cases h.symm.trans hcall
    exact ⟨fun _ => ⟨rfl, rfl⟩, fun hanswer => nomatch hanswer⟩
  · obtain rfl := Option.some.inj (h.symm.trans hcall)
    rcases hend with ⟨what, hend⟩ | ⟨hend, hcode⟩
    · rw [hend]
      exact ⟨(fun hanswer => nomatch hanswer), fun hanswer => nomatch hanswer⟩
    · rw [hend, hcode]
      exact ⟨(fun hanswer => nomatch hanswer), fun _ hsuccess => nomatch hsuccess⟩
  · obtain ⟨-, hnot, hcode⟩ := hrefused.ended h
    exact ⟨fun hanswer => absurd hanswer hnot, hcode⟩

/-- **A `VerifyReport` tells how it went.** -/
theorem verify_tells (calls : TrustedCalls) (call : VerifyCall) (report hex : Str) :
    lib.Tells attestor (.verify calls call report hex) := by
  have hforgets : Forgets fun attestor =>
      trustedVerify lib.sha256 lib.codecs lib.tvl calls attestor call report hex :=
    verify_forgets (fun userData => trustedUserData_forgets lib.tvl calls userData report hex)
      calls.now call
  constructor
  · intro attestor' h
    obtain ⟨e, he, hanswer, rfl⟩ := (outcome_verify_iff lib).1 h
    exact (trustedVerify_errorCode lib he).1 hanswer
  · intro attestor' h
    obtain ⟨e, he, hanswer, rfl⟩ := (outcome_verify_iff lib).1 h
    refine ⟨(trustedVerify_errorCode lib he).2 hanswer, fun errorCode errorMsg => ?_⟩
    have hsame := hforgets attestor errorCode errorMsg e false he hanswer
    exact (outcome_verify_iff lib).2 ⟨e, hsame, hanswer, rfl⟩

/-- **A `CreateReport` tells how it went**, except where it gets a report and the code before it was
not `Success`. -/
theorem create_tells_iff (io : CreateIo) (call : CreateCall) (report : Str) :
    lib.Tells attestor (.create io call report) ↔
      CreatesFromSuccess attestor (.create io call report) := by
  by_cases hgets : call.Given ∧ io.Works
  · have hcreated := create_gets lib.encodeToBase64 lib.sha256 hgets.1 hgets.2
    constructor
    · intro htells _ _
      have hend : lib.outcome attestor (.create io call report) =
          some (.ok (some true), { attestor with errorMsg := [] }) := by
        simp only [Libraries.outcome, hcreated]
      exact (htells.success _ hend).1
    · intro hcode
      constructor
      · intro attestor' h
        simp only [Libraries.outcome, hcreated] at h
        cases h
        exact ⟨hcode hgets.1 hgets.2, rfl⟩
      · intro attestor' h
        simp only [Libraries.outcome, hcreated] at h
        cases h
  · obtain ⟨errorCode, errorMsg, hne, hfails⟩ :=
      create_failsAlways lib.encodeToBase64 lib.sha256 hgets
    refine iff_of_true ?_ fun hgiven hworks => absurd ⟨hgiven, hworks⟩ hgets
    constructor
    · intro attestor' h
      simp only [Libraries.outcome, hfails, RemoteAttestor.fails] at h
      cases h
    · intro attestor' h
      simp only [Libraries.outcome, hfails, RemoteAttestor.fails] at h ⊢
      cases h
      exact ⟨hne, fun _ _ => rfl⟩

/-- One call. -/
theorem tells_iff (op : ReportOp) : lib.Tells attestor op ↔ CreatesFromSuccess attestor op := by
  cases op with
  | setAcceptableResults acceptedResults =>
      exact iff_of_true (setAcceptableResults_tells lib acceptedResults) trivial
  | create io call report => exact create_tells_iff lib io call report
  | verify calls call report hex =>
      exact iff_of_true (verify_tells lib calls call report hex) trivial

end Tells

/-- **When the error is that of the last call.** In every run of calls on one attestor, every call
tells how it went exactly if every `CreateReport` that gets a report is made with the code
`Success`. -/
theorem errorState_tells_iff (lib : Libraries) (ops : List ReportOp) :
    Along lib.step lib.Tells RemoteAttestor.trusted ops ↔
      Along lib.step CreatesFromSuccess RemoteAttestor.trusted ops :=
  along_congr (fun _ op => tells_iff lib op) _ ops

/-- The calls of a `CreateReport` all work. -/
def CreateIo.working : CreateIo where
  targetStatus := sgxSuccess
  targetRet := 0
  reportStatus := sgxSuccess
  quoteStatus := sgxSuccess
  quoteRet := 0
  outside := true
  quote := fun _ => sampleQuote

/-- The libraries, on the report for `a` and the timestamp 100. -/
def sampleLibraries : Libraries where
  encodeToBase64 := fun _ => sampleReport
  sha256 := sampleSha256
  codecs := sampleCodecs
  tvl := fun _ => sgxSuccess

/-- The first call on a new attestor is a `CreateReport` that returns true; the code behind it is
`Unknown`. -/
theorem created_report_unknown :
    ¬ Along sampleLibraries.step sampleLibraries.Tells RemoteAttestor.trusted
      [.create .working (.timed [97] 100) []] := by
  rintro ⟨htells, -⟩
  have hworks : CreateIo.working.Works := ⟨rfl, rfl, rfl, rfl, rfl, rfl⟩
  have hcode := (create_tells_iff _ _ _ _).1 htells (List.cons_ne_nil _ _) hworks
  cases hcode

end Ssgx.Attestation
