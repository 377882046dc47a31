import Mathlib.Data.Finset.Dedup
import Mathlib.Data.Finset.Insert
import Ssgx.Attestation.Trusted
import Ssgx.Attestation.Untrusted
import Ssgx.Support.Run

/-!
# The two attestors

`RemoteAttestor` of `t/RemoteAttestor.cpp` and of `u/RemoteAttestor.cpp`: the constructors,
`SetAcceptableResults` and `VerifyReport` for user data of 64 bytes.

The two `VerifyReport` differ in two texts and in the verification of the raw quote they call. The
constructors differ in the set of accepted results. A lemma says what `VerifyReport` accepts over
any verification of raw quotes (`verifyReport_true_iff`), and the runs of an attestor are simulated
by the runs of its accepted set alone (`accepted_runFrom`).
-/

set_option autoImplicit false

namespace Ssgx.Attestation

open Ssgx.Support

/-- The 64 bytes a report is made for. -/
abbrev UserData := List.Vector UInt8 64

/-- `RemoteAttestor`. -/
structure RemoteAttestor where
  errorCode : ErrorCode
  errorMsg : Str
  qvResult : Option UInt32
  acceptedQvResults : Finset UInt32

/-- The constructor of the enclave's attestor. -/
def RemoteAttestor.trusted : RemoteAttestor where
  errorCode := .unknown
  errorMsg := []
  qvResult := none
  acceptedQvResults := {fromQvResult .ok}

/-- The constructor of the attestor outside the enclave. It leaves the accepted set empty. -/
def RemoteAttestor.untrusted : RemoteAttestor where
  errorCode := .unknown
  errorMsg := []
  qvResult := none
  acceptedQvResults := ∅

/-- The set that `SetAcceptableResults` installs. -/
def acceptedOf (acceptedResults : List QvResult) : Finset UInt32 :=
  if acceptedResults.isEmpty then {fromQvResult .ok}
  else (acceptedResults.map fromQvResult).toFinset

/-- `SetAcceptableResults`. -/
def RemoteAttestor.setAcceptableResults (attestor : RemoteAttestor)
    (acceptedResults : List QvResult) : RemoteAttestor :=
  { attestor with acceptedQvResults := acceptedOf acceptedResults }

/-- The texts in which the two `VerifyReport` differ. -/
structure VerifyTexts where
  reportMissing : Str
  rejected : UInt32 → Str

/-- `return false` behind an error. -/
def RemoteAttestor.fails (attestor : RemoteAttestor) (errorCode : ErrorCode) (errorMsg : Str)
    (mrenclaveHex : Str) : Bool × RemoteAttestor × Str :=
  (false, { attestor with errorCode := errorCode, errorMsg := errorMsg }, mrenclaveHex)

/-- `VerifyReport` behind the verification of the raw quote. -/
def RemoteAttestor.judge (texts : VerifyTexts) (attestor : RemoteAttestor) (userData : UserData)
    (quote : List UInt8) (v : RawVerdict) (mrenclaveHex : Str) : Bool × RemoteAttestor × Str :=
  let attestor := { attestor with qvResult := v.qvResult }
  -- `qv_result_` is set whatever the code says
  if v.code ≠ .success then
    attestor.fails v.code (str "Failed to call VerifyRawQuoteWithQvE()! Detail: " ++ v.errMsg)
      mrenclaveHex
  else
    match v.qvResult with
    | none =>
        attestor.fails .unknown
          (str "Failed to call VerifyRawQuoteWithQvE()! Detail: unknown error") mrenclaveHex
    | some verdict =>
        if verdict ∉ attestor.acceptedQvResults then
          attestor.fails .verifyQuoteFailed
            (str "Failed to call VerifyRawQuoteWithQvE()! Detail: rejected QvResult, " ++
              texts.rejected verdict) mrenclaveHex
        -- an accepted verdict does not excuse expired collateral
        else if v.collateralExpirationStatus ≠ 0 then
          attestor.fails .collateralExpired
            (str "Verification completed, but collateral is out of date based on " ++
              str "'expiration_check_date' you provided.") mrenclaveHex
        else if reportData quote ≠ userData.toList then
          attestor.fails .verifyUserDataFailed (str "Failed to validate user data in report")
            mrenclaveHex
        else
          (true, { attestor with errorCode := .success }, v.mrenclaveHex)

/-- `VerifyReport` over a verification of raw quotes: what it returns, the attestor and
`mrenclave_hex` behind the call. -/
def RemoteAttestor.verifyReport (texts : VerifyTexts) (codecs : Codecs)
    (verifyRaw : List UInt8 → Option RawVerdict) (attestor : RemoteAttestor) (userData : UserData)
    (report : Str) (mrenclaveHex : Str) : Option (Bool × RemoteAttestor × Str) :=
  let attestor := { attestor with qvResult := none, errorMsg := [] }
  if report.isEmpty then
    some (attestor.fails .invalidParameter texts.reportMissing mrenclaveHex)
  else
    match codecs.decodeFromBase64 report with
    | none =>
        some (attestor.fails .invalidParameter
          (str "Parameter report is an invalid Base64 string.") mrenclaveHex)
    | some quote =>
        (verifyRaw quote).map fun v => attestor.judge texts userData quote v mrenclaveHex

/-- The texts of `t/RemoteAttestor.cpp`. -/
def trustedTexts : VerifyTexts where
  reportMissing := str "Parameter report is null!"
  rejected := fun verdict => str "0x" ++ hexText verdict.toNat

/-- The texts of `u/RemoteAttestor.cpp`. -/
def untrustedTexts : VerifyTexts where
  reportMissing := str "Parameter report must be provided."
  rejected := fun verdict => decimal verdict.toNat

/-- `VerifyReport` of `t/RemoteAttestor.cpp`. -/
def trustedVerifyReport (codecs : Codecs) (tvl : TvlArgs → UInt32) (attestor : RemoteAttestor)
    (io : TrustedIo) (userData : UserData) (report : Str) (mrenclaveHex : Str) :
    Option (Bool × RemoteAttestor × Str) :=
  attestor.verifyReport trustedTexts codecs (verifyRawQuoteWithQvE codecs tvl io) userData report
    mrenclaveHex

/-- `VerifyReport` of `u/RemoteAttestor.cpp`. -/
def untrustedVerifyReport (codecs : Codecs) (attestor : RemoteAttestor) (io : UntrustedIo)
    (userData : UserData) (report : Str) (mrenclaveHex : Str) :
    Option (Bool × RemoteAttestor × Str) :=
  attestor.verifyReport untrustedTexts codecs (fun quote => some (verifyRawQuote codecs io quote))
    userData report mrenclaveHex

/-! ## What a verification accepts -/

/-- The raw verification succeeded with an accepted verdict, nothing has expired, and the report was
made for the user data. -/
structure RawVerdict.Passes (v : RawVerdict) (accepted : Finset UInt32) (quote : List UInt8)
    (userData : UserData) : Prop where
  code : v.code = .success
  verdict : ∃ verdict ∈ accepted, v.qvResult = some verdict
  expiration : v.collateralExpirationStatus = 0
  reportData : reportData quote = userData.toList

/-- What a judgement can be: positive for a raw verdict that passes, else an error. -/
theorem judge_cases (texts : VerifyTexts) (attestor : RemoteAttestor) (userData : UserData)
    (quote : List UInt8) (v : RawVerdict) (mrenclaveHex : Str) :
    (v.Passes attestor.acceptedQvResults quote userData ∧
      attestor.judge texts userData quote v mrenclaveHex =
        (true, { attestor with qvResult := v.qvResult, errorCode := .success },
          v.mrenclaveHex)) ∨
    (¬ v.Passes attestor.acceptedQvResults quote userData ∧
      ∃ errorCode errorMsg, errorCode ≠ .success ∧
        attestor.judge texts userData quote v mrenclaveHex =
          { attestor with qvResult := v.qvResult }.fails errorCode errorMsg mrenclaveHex) := by
  unfold RemoteAttestor.judge
  dsimp only
  -- one case for each check, in the order of the code
  by_cases hcode : v.code = .success
  · rw [if_neg (not_not.2 hcode)]
    cases hresult : v.qvResult with
    | none =>
        refine Or.inr ⟨fun h => ?_, .unknown, _, by decide, rfl⟩
        obtain ⟨verdict, -, hverdict⟩ := h.verdict
        rw [hresult] at hverdict
        cases hverdict
    | some verdict =>
        dsimp only
        by_cases haccepted : verdict ∈ attestor.acceptedQvResults
        · rw [if_neg (not_not.2 haccepted)]
          by_cases hexpired : v.collateralExpirationStatus = 0
          · rw [if_neg (not_not.2 hexpired)]
            by_cases hdata : reportData quote = userData.toList
            · rw [if_neg (not_not.2 hdata)]
              exact Or.inl ⟨⟨hcode, ⟨verdict, haccepted, hresult⟩, hexpired, hdata⟩, rfl⟩
            · rw [if_pos hdata]
              exact Or.inr ⟨fun h => hdata h.reportData, .verifyUserDataFailed, _, by decide, rfl⟩
          · rw [if_pos hexpired]
            exact Or.inr ⟨fun h => hexpired h.expiration, .collateralExpired, _, by decide, rfl⟩
        · rw [if_pos haccepted]
          refine Or.inr ⟨fun h => ?_, .verifyQuoteFailed, _, by decide, rfl⟩
          obtain ⟨verdict', hmem, hverdict'⟩ := h.verdict
          obtain rfl := Option.some.inj (hresult.symm.trans hverdict')
          exact haccepted hmem
  · rw [if_pos hcode]
    exact Or.inr ⟨fun h => hcode h.code, _, _, hcode, rfl⟩

/-- **What `VerifyReport` can do.** It accepts, for a report that decodes to a quote whose raw
verdict passes; or it fails and leaves `mrenclave_hex` and the accepted set alone; or it does not
return. -/
theorem verifyReport_cases (texts : VerifyTexts) (codecs : Codecs)
    (verifyRaw : List UInt8 → Option RawVerdict) (attestor : RemoteAttestor) (userData : UserData)
    (report mrenclaveHex : Str) :
    (∃ quote v, report ≠ [] ∧ codecs.decodeFromBase64 report = some quote ∧
      verifyRaw quote = some v ∧ v.Passes attestor.acceptedQvResults quote userData ∧
      attestor.verifyReport texts codecs verifyRaw userData report mrenclaveHex =
        some (true, ⟨.success, [], v.qvResult, attestor.acceptedQvResults⟩, v.mrenclaveHex)) ∨
    ((∀ quote v, report ≠ [] → codecs.decodeFromBase64 report = some quote →
        verifyRaw quote = some v → ¬ v.Passes attestor.acceptedQvResults quote userData) ∧
      (attestor.verifyReport texts codecs verifyRaw userData report mrenclaveHex = none ∨
        ∃ errorCode errorMsg qvResult, errorCode ≠ .success ∧
          attestor.verifyReport texts codecs verifyRaw userData report mrenclaveHex =
            some (false, ⟨errorCode, errorMsg, qvResult, attestor.acceptedQvResults⟩,
              mrenclaveHex))) := by
  unfold RemoteAttestor.verifyReport
  dsimp only
  by_cases hempty : report = []
  · rw [if_pos (List.isEmpty_iff.2 hempty)]
    exact Or.inr ⟨fun _ _ hne => absurd hempty hne,
      Or.inr ⟨.invalidParameter, _, none, by decide, rfl⟩⟩
  · rw [if_neg (mt List.isEmpty_iff.1 hempty)]
    cases hdecode : codecs.decodeFromBase64 report with
    | none =>
        refine Or.inr ⟨fun _ _ _ hquote => ?_, Or.inr ⟨.invalidParameter, _, none, by decide, rfl⟩⟩
        cases hquote
    | some quote =>
        dsimp only
        cases hraw : verifyRaw quote with
        | none =>
            -- the raw verification did not return
            refine Or.inr ⟨fun quote' v _ hquote hv => ?_, Or.inl rfl⟩
            obtain rfl := Option.some.inj hquote
            rw [hraw] at hv
            cases hv
        | some v =>
            rcases judge_cases texts { attestor with qvResult := none, errorMsg := [] } userData
              quote v mrenclaveHex with ⟨hpasses, hjudge⟩ | ⟨hfails, code, msg, hcode, hjudge⟩
            · exact Or.inl ⟨quote, v, hempty, rfl, hraw, hpasses,
                by rw [Option.map_some, hjudge]⟩
            · refine Or.inr ⟨fun quote' v' _ hquote hv => ?_,
                Or.inr ⟨code, msg, v.qvResult, hcode, by rw [Option.map_some, hjudge]; rfl⟩⟩
              obtain rfl := Option.some.inj hquote
              obtain rfl := Option.some.inj (hraw.symm.trans hv)
              exact hfails

section VerifyReport

variable {texts : VerifyTexts} {codecs : Codecs} {verifyRaw : List UInt8 → Option RawVerdict}
  {attestor attestor' : RemoteAttestor} {userData : UserData} {report hex hex' : Str} {b : Bool}

/-- `VerifyReport` returns true, with this hash, exactly for a report that decodes to a quote whose
raw verdict passes and has this hash. -/
theorem verifyReport_true_iff :
    (∃ attestor', attestor.verifyReport texts codecs verifyRaw userData report hex =
        some (true, attestor', hex')) ↔
      ∃ quote v, report ≠ [] ∧ codecs.decodeFromBase64 report = some quote ∧
        verifyRaw quote = some v ∧ v.Passes attestor.acceptedQvResults quote userData ∧
        hex' = v.mrenclaveHex := by
  rcases verifyReport_cases texts codecs verifyRaw attestor userData report hex with
    ⟨quote, v, hreport, hdecode, hraw, hpasses, hcall⟩ | ⟨hnone, hcall⟩
  · constructor
    · rintro ⟨attestor', h⟩
      rw [hcall] at h
      cases h
      exact ⟨quote, v, hreport, hdecode, hraw, hpasses, rfl⟩
    · rintro ⟨quote', v', -, hdecode', hraw', -, rfl⟩
      obtain rfl := Option.some.inj (hdecode.symm.trans hdecode')
      obtain rfl := Option.some.inj (hraw.symm.trans hraw')
      exact ⟨_, hcall⟩
  · constructor
    · rintro ⟨attestor', h⟩
      rcases hcall with hcall | ⟨_, _, _, -, hcall⟩
      · rw [hcall] at h
        cases h
      · rw [hcall] at h
        cases h
    · rintro ⟨quote, v, hreport, hdecode, hraw, hpasses, -⟩
      exact absurd hpasses (hnone quote v hreport hdecode hraw)

/-- `VerifyReport` leaves the accepted set alone. -/
theorem verifyReport_acceptedQvResults
    (h : attestor.verifyReport texts codecs verifyRaw userData report hex =
      some (b, attestor', hex')) :
    attestor'.acceptedQvResults = attestor.acceptedQvResults := by
  rcases verifyReport_cases texts codecs verifyRaw attestor userData report hex with
    ⟨_, _, -, -, -, -, hcall⟩ | ⟨-, hcall | ⟨_, _, _, -, hcall⟩⟩
  all_goals
    rw [hcall] at h
    cases h
  · rfl
  · rfl

end VerifyReport

/-! ## Runs of an attestor -/

/-- The calls on an attestor. The outcomes of the calls inside a verification come with it. -/
inductive AttestorOp (Io : Type) where
  | setAcceptableResults (acceptedResults : List QvResult)
  | verifyReport (io : Io) (userData : UserData) (report : Str) (mrenclaveHex : Str)

/-- The attestor behind one call. A verification that does not return leaves no attestor to call;
the old one stands in for it. -/
def attestorStep {Io : Type}
    (verify : RemoteAttestor → Io → UserData → Str → Str → Option (Bool × RemoteAttestor × Str))
    (attestor : RemoteAttestor) : AttestorOp Io → RemoteAttestor
  | .setAcceptableResults acceptedResults => attestor.setAcceptableResults acceptedResults
  | .verifyReport io userData report mrenclaveHex =>
      match verify attestor io userData report mrenclaveHex with
      | none => attestor
      | some (_, attestor', _) => attestor'

/-- The enclave's attestor behind the calls. -/
def trustedRun (codecs : Codecs) (tvl : TvlArgs → UInt32) (ops : List (AttestorOp TrustedIo)) :
    RemoteAttestor :=
  runFrom (attestorStep (trustedVerifyReport codecs tvl)) .trusted ops

/-- The attestor outside the enclave behind the calls. -/
def untrustedRun (codecs : Codecs) (ops : List (AttestorOp UntrustedIo)) : RemoteAttestor :=
  runFrom (attestorStep (untrustedVerifyReport codecs)) .untrusted ops

/-- What a call does to the accepted set. -/
def acceptedStep {Io : Type} (accepted : Finset UInt32) : AttestorOp Io → Finset UInt32
  | .setAcceptableResults acceptedResults => acceptedOf acceptedResults
  | .verifyReport _ _ _ _ => accepted

section Runs

variable {Io : Type}
  {verify : RemoteAttestor → Io → UserData → Str → Str → Option (Bool × RemoteAttestor × Str)}

/-- A verification that leaves the accepted set alone. -/
def LeavesAccepted
    (verify : RemoteAttestor → Io → UserData → Str → Str → Option (Bool × RemoteAttestor × Str)) :
    Prop :=
  ∀ attestor io userData report hex b attestor' hex',
    verify attestor io userData report hex = some (b, attestor', hex') →
      attestor'.acceptedQvResults = attestor.acceptedQvResults

/-- One call acts on the accepted set as `acceptedStep`. -/
theorem accepted_attestorStep (hverify : LeavesAccepted verify) (attestor : RemoteAttestor)
    (op : AttestorOp Io) :
    (attestorStep verify attestor op).acceptedQvResults =
      acceptedStep attestor.acceptedQvResults op := by
  cases op with
  | setAcceptableResults acceptedResults => rfl
  | verifyReport io userData report hex =>
      unfold attestorStep
      dsimp only
      split
      · rfl
      · next b attestor' hex' hcall => exact hverify _ _ _ _ _ _ _ _ hcall

/-- **The accepted set runs on its own**, by the simulation rule. -/
theorem accepted_runFrom (hverify : LeavesAccepted verify) (attestor : RemoteAttestor)
    (ops : List (AttestorOp Io)) :
    (runFrom (attestorStep verify) attestor ops).acceptedQvResults =
      runFrom acceptedStep attestor.acceptedQvResults ops :=
  part_runFrom (accepted_attestorStep hverify) attestor ops

end Runs

theorem accepted_trustedRun (codecs : Codecs) (tvl : TvlArgs → UInt32)
    (ops : List (AttestorOp TrustedIo)) :
    (trustedRun codecs tvl ops).acceptedQvResults = runFrom acceptedStep {fromQvResult .ok} ops :=
  accepted_runFrom (fun _ _ _ _ _ _ _ _ h => verifyReport_acceptedQvResults h) _ ops

theorem accepted_untrustedRun (codecs : Codecs) (ops : List (AttestorOp UntrustedIo)) :
    (untrustedRun codecs ops).acceptedQvResults = runFrom acceptedStep ∅ ops :=
  accepted_runFrom (fun _ _ _ _ _ _ _ _ h => verifyReport_acceptedQvResults h) _ ops

end Ssgx.Attestation
