import Ssgx.Arbiter.Reports

/-!
# The millionaires

`Millionaire` of the sample's host, and `main`. A millionaire verifies the report of a `Prepare` and
saves the arbiter's key from it, encrypts its wealth for that key and signs the ciphertext, and
verifies the report of the result.

Every verification makes a new `RemoteAttestor` and calls `VerifyReport` without
`SetAcceptableResults`. The attestor outside the enclave accepts no verdict then: no report passes,
and `main` ends at the first verification (`main_never_succeeds`).

With the arbiter's key saved, an honest request is judged by the values of the two texts
(`honest_comparison`).
-/

set_option autoImplicit false

namespace Ssgx.Arbiter

open Ssgx.Support
open Ssgx.Attestation (Codecs Expired Libraries RemoteAttestor UntrustedCalls UntrustedIo UserData
  VerifyEnd asciiBytes sgxSuccess timedUserInfo untrustedUserData untrustedUserData_verifies
  untrustedVerify untrustedVerifyReport userDataOf verify_cases)
open Ssgx.Decimal (BigDecimal Mpd maxPrec)

/-! ## A millionaire -/

/-- `Millionaire`. -/
structure Millionaire (Key : Type) where
  privateKey : Key
  publicKeyHex : List UInt8
  wealth : List UInt8
  arbiterPublicKeyHex : List UInt8

section

variable {Point Key : Type} (suite : HostSuite Point Key) (lib : Libraries)

/-- The constructor with `GenerateKeyPair`, for the random private key. -/
def Millionaire.new (privateKey : Key) (wealth : List UInt8) : Millionaire Key where
  privateKey := privateKey
  publicKeyHex := suite.encodeToHex (suite.encodeFull (suite.publicKey privateKey))
  wealth := wealth
  arbiterPublicKeyHex := []

/-- `VerifyQuoteUntrusted`: its result and `mr_enclave_in_report`, or what `VerifyReport` throws. -/
def verifyQuoteUntrusted (calls : UntrustedCalls) (quote : Str) (timestamp : UInt64)
    (userInfo : List UInt8) (mrEnclaveInReport : Str) : Option (Except Str (Int × Str)) :=
  (untrustedVerify lib.sha256 lib.codecs calls .untrusted (.timed userInfo timestamp 100) quote
    mrEnclaveInReport).map fun e =>
      e.answer.map fun ok => (if ok then 0 else -1, e.mrenclaveHex)

/-- `VerifyQuoteAndSaveArbiterPublicKey`. -/
def Millionaire.verifyQuoteAndSaveArbiterPublicKey (m : Millionaire Key) (calls : UntrustedCalls)
    (oneTimeAccessToken : List UInt8) (quote : Str) (timestamp : UInt64)
    (arbiterPublicKey peerPublicKey : List UInt8) (mrEnclaveInReport : Str) :
    Option (Except Str (Int × Str)) × Millionaire Key :=
  let userInfo := prepareUserInfo m.publicKeyHex peerPublicKey arbiterPublicKey oneTimeAccessToken
  match verifyQuoteUntrusted lib calls quote timestamp userInfo mrEnclaveInReport with
  | some (.ok (ret, mrEnclave)) =>
      if ret ≠ 0 then (some (.ok (-1, mrEnclave)), m)
      else (some (.ok (0, mrEnclave)), { m with arbiterPublicKeyHex := arbiterPublicKey })
  | ended => (ended, m)

/-- `VerifyQuoteAndShowResult`. -/
def verifyQuoteAndShowResult (calls : UntrustedCalls) (oneTimeAccessToken : List UInt8)
    (quote : Str) (timestamp : UInt64) (aliceVsBobResult : List UInt8) (mrEnclaveInReport : Str) :
    Option (Except Str (Int × Str)) :=
  (verifyQuoteUntrusted lib calls quote timestamp (aliceVsBobResult ++ oneTimeAccessToken)
    mrEnclaveInReport).map fun ended => ended.map fun (ret, mrEnclave) =>
      (if ret ≠ 0 then -1 else 0, mrEnclave)

/-- `EncryptAndSignWealth`, for the random numbers of the two calls: its result, `ciphertext` and
`signature`. `point` is what the default constructor of `CurvePoint` makes. -/
def Millionaire.encryptAndSignWealth (m : Millionaire Key) (point : Point)
    (eciesSeed ecdsaSeed : List UInt8) : Int × Option (List UInt8) × Option (List UInt8) :=
  match suite.decodeFull point (suite.decodeFromHex m.arbiterPublicKeyHex) with
  | (false, _) => (-1, none, none)
  | (true, arbiterPubkey) =>
      match suite.encryptPack eciesSeed arbiterPubkey m.wealth with
      | none => (-2, none, none)
      | some ciphertextBin =>
          let ciphertext := suite.encodeToHex ciphertextBin
          let signatureBin := suite.sign ecdsaSeed m.privateKey (lib.sha256 ciphertext)
          (0, some ciphertext, some (suite.encodeToHex signatureBin))

end

/-! ## No report passes -/

section

variable {Point Key : Type} (lib : Libraries)

/-- Outside the enclave the verification of a raw quote always comes to an end. -/
theorem untrustedVerifyReport_isSome (codecs : Codecs) (attestor : RemoteAttestor)
    (io : UntrustedIo) (userData : UserData) (report hex : Str) :
    (untrustedVerifyReport codecs attestor io userData report hex).isSome := by
  simp only [untrustedVerifyReport, RemoteAttestor.verifyReport]
  by_cases hempty : report.isEmpty
  · rw [if_pos hempty]
    rfl
  · rw [if_neg hempty]
    cases codecs.decodeFromBase64 report with
    | none => rfl
    | some quote => rfl

/-- So does `VerifyReport` for a text and a timestamp. -/
theorem untrustedVerify_returns (calls : UntrustedCalls) (attestor : RemoteAttestor)
    (userInfo : List UInt8) (timestamp validitySeconds : UInt64) (report hex : Str) :
    ∃ result, untrustedVerify lib.sha256 lib.codecs calls attestor
      (.timed userInfo timestamp validitySeconds) report hex = some (.returns result) := by
  simp only [untrustedVerify, RemoteAttestor.verify, RemoteAttestor.verifyReportTimed]
  by_cases huser : userInfo.isEmpty
  · rw [if_pos huser]
    exact ⟨_, rfl⟩
  rw [if_neg huser]
  have hinner : ∃ result, RemoteAttestor.verifyReportFor lib.sha256
      (untrustedUserData lib.codecs calls) { attestor with qvResult := none }
      (timedUserInfo userInfo timestamp) report hex = some (.returns result) := by
    simp only [RemoteAttestor.verifyReportFor]
    split_ifs
    · exact ⟨_, rfl⟩
    · exact ⟨_, rfl⟩
    · obtain ⟨result, hresult⟩ := Option.isSome_iff_exists.1 (untrustedVerifyReport_isSome
        lib.codecs { attestor with qvResult := none } calls.io
        (userDataOf lib.sha256 (timedUserInfo userInfo timestamp)) report hex)
      exact ⟨result, congrArg (Option.map VerifyEnd.returns) hresult⟩
  obtain ⟨⟨answer, result⟩, hinner⟩ := hinner
  rw [hinner]
  cases answer with
  | false => exact ⟨_, rfl⟩
  | true =>
      by_cases hexpired : Expired calls.now timestamp validitySeconds
      · exact ⟨_, congrArg some (if_pos hexpired)⟩
      · exact ⟨_, congrArg some (if_neg hexpired)⟩

/-- A new attestor outside the enclave refuses every report. -/
theorem new_untrusted_refuses (calls : UntrustedCalls) (userInfo : List UInt8)
    (timestamp validitySeconds : UInt64) (report hex : Str) :
    ∃ attestor, untrustedVerify lib.sha256 lib.codecs calls .untrusted
      (.timed userInfo timestamp validitySeconds) report hex = some ⟨.ok false, attestor, hex⟩ := by
  have hpasses : ∀ userData hash, ¬ calls.Passes lib.codecs
      RemoteAttestor.untrusted.acceptedQvResults userData report hash := by
    rintro userData hash ⟨_, _, -, -, -, hraw, -⟩
    obtain ⟨verdict, hmem, -⟩ := hraw.verdict
    exact absurd hmem (Finset.notMem_empty verdict)
  obtain ⟨⟨answer, attestor, hash⟩, hreturns⟩ := untrustedVerify_returns lib calls .untrusted
    userInfo timestamp validitySeconds report hex
  rcases verify_cases lib.sha256 (untrustedUserData_verifies lib.codecs calls) .untrusted
    (.ok calls.now) (.timed userInfo timestamp validitySeconds) report hex with
    ⟨_, _, _, hpass, -⟩ | ⟨_, _, _, hpass, -⟩ | ⟨-, hrefused⟩
  · exact absurd hpass (hpasses _ _)
  · exact absurd hpass (hpasses _ _)
  · obtain ⟨hhex, hanswer, -⟩ := hrefused.ended hreturns
    cases answer with
    | false => exact ⟨attestor, hreturns.trans (congrArg some (by rw [← hhex]; rfl))⟩
    | true => exact absurd rfl hanswer

/-- **No quote is verified.** -/
theorem verifyQuoteUntrusted_refuses (calls : UntrustedCalls) (quote : Str) (timestamp : UInt64)
    (userInfo : List UInt8) (mrEnclaveInReport : Str) :
    verifyQuoteUntrusted lib calls quote timestamp userInfo mrEnclaveInReport =
      some (.ok (-1, mrEnclaveInReport)) := by
  obtain ⟨attestor, hrefuses⟩ := new_untrusted_refuses lib calls userInfo timestamp 100 quote
    mrEnclaveInReport
  rw [verifyQuoteUntrusted, hrefuses]
  rfl

end

/-! ## The host -/

section

variable {Point Key : Type} (suite : HostSuite Point Key) (lib : Libraries)

/-- What `main` calls: `sgx_create_enclave`, the random private keys, the two ecalls, the clock and
the library of each of the four verifications, and the random numbers of the encryptions. -/
structure MainIo (Point Key : Type) where
  created : UInt32
  aliceKey : Key
  bobKey : Key
  createTeePubkey : List UInt8 → List UInt8 → UInt32 × Int × TeePubkeyOut
  whoIsRicher : Request → UInt32 × Int × WhoIsRicherOut
  aliceSaves : UntrustedCalls
  bobSaves : UntrustedCalls
  aliceShows : UntrustedCalls
  bobShows : UntrustedCalls
  point : Point
  seeds : Fin 4 → List UInt8

/-- `main` behind the two saved keys. -/
def mainCompares (io : MainIo Point Key) (alice bob : Millionaire Key) (token : List UInt8)
    (mrEnclave : Str) : Option Int :=
  match alice.encryptAndSignWealth suite lib io.point (io.seeds 0) (io.seeds 1),
    bob.encryptAndSignWealth suite lib io.point (io.seeds 2) (io.seeds 3) with
  | (0, some aliceCiphertext, some aliceSignature), (0, some bobCiphertext, some bobSignature) =>
      match io.whoIsRicher
          ⟨token, aliceCiphertext, aliceSignature, bobCiphertext, bobSignature⟩ with
      | (status, ret, out) =>
          if status ≠ sgxSuccess ∨ ret ≠ 0 then some (-3)
          else
            match out with
            | ⟨some result, some quote, some timestamp⟩ =>
                match verifyQuoteAndShowResult lib io.aliceShows token quote timestamp result
                    mrEnclave with
                | some (.ok (0, mrEnclave)) =>
                    match verifyQuoteAndShowResult lib io.bobShows token quote timestamp result
                        mrEnclave with
                    | some (.ok (0, _)) => some ret
                    | some (.ok _) => some (-3)
                    | _ => none
                | some (.ok _) => some (-3)
                | _ => none
            | _ => none
  | _, _ => some (-3)

/-- `main` behind the first ecall: both verify the report and save the arbiter's key. -/
def mainSaves (io : MainIo Point Key) (alice bob : Millionaire Key) :
    UInt32 × Int × TeePubkeyOut → Option Int
  | (status, ret, out) =>
      if status ≠ sgxSuccess ∨ ret ≠ 0 then some (-2)
      else
        match out with
        | ⟨some arbiterHex, some quote, some timestamp, some token⟩ =>
            match alice.verifyQuoteAndSaveArbiterPublicKey lib io.aliceSaves token quote timestamp
                arbiterHex bob.publicKeyHex [] with
            | (some (.ok (0, mrEnclave)), alice) =>
                match bob.verifyQuoteAndSaveArbiterPublicKey lib io.bobSaves token quote timestamp
                    arbiterHex alice.publicKeyHex mrEnclave with
                | (some (.ok (0, mrEnclave)), bob) =>
                    mainCompares suite lib io alice bob token mrEnclave
                | (some (.ok _), _) => some (-3)
                | _ => none
            | (some (.ok _), _) => some (-3)
            | _ => none
        | _ => none

/-- Alice and Bob, as `main` makes them. -/
def MainIo.alice (io : MainIo Point Key) : Millionaire Key :=
  .new suite io.aliceKey (asciiBytes (str "111.23"))

def MainIo.bob (io : MainIo Point Key) : Millionaire Key :=
  .new suite io.bobKey (asciiBytes (str "112.23"))

/-- `main`: what it returns. `none` stands for an exception, and for an ecall that returned 0
without its outputs. -/
def main (io : MainIo Point Key) : Option Int :=
  if io.created ≠ sgxSuccess then some (-1)
  else
    mainSaves suite lib io (io.alice suite) (io.bob suite)
      (io.createTeePubkey (io.alice suite).publicKeyHex (io.bob suite).publicKeyHex)

/-- The four outputs are there. -/
def TeePubkeyOut.Complete (out : TeePubkeyOut) : Prop :=
  out.arbiterPublicKeyHex ≠ none ∧ out.quoteReport ≠ none ∧ out.prepTimestamp ≠ none ∧
    out.oneTimeAccessToken ≠ none

/-- The ecall returns 0 with all of them. -/
theorem TeePubkeyOut.complete_of_returns {copies : TeePubkeyCopies} {result : Option Prepared}
    {out : TeePubkeyOut} (h : createTeePubkeyReturns copies result = .ok (0, out)) :
    out.Complete := by
  obtain ⟨key, report, token⟩ := copies
  cases result with
  | none => cases h
  | some p =>
      rcases key with what | key
      · cases h
      rcases report with what | report
      · cases key <;> cases h
      rcases token with what | token
      · cases key <;> cases report <;> cases h
      · cases key <;> cases report <;> cases token <;> cases h
        simp [TeePubkeyOut.Complete]

/-- No arbiter's key is saved. -/
theorem saves_nothing (m : Millionaire Key) (calls : UntrustedCalls) (token : List UInt8)
    (quote : Str) (timestamp : UInt64) (arbiterKey peerKey : List UInt8) (mrEnclave : Str) :
    m.verifyQuoteAndSaveArbiterPublicKey lib calls token quote timestamp arbiterKey peerKey
      mrEnclave = (some (.ok (-1, mrEnclave)), m) := by
  simp only [Millionaire.verifyQuoteAndSaveArbiterPublicKey, verifyQuoteUntrusted_refuses]
  rfl

/-- **`main` never gets to the comparison.** Whatever the enclave, the quote library and the clock
answer: where the enclave is made and the first ecall gives its outputs, `main` returns `-3` at the
first verification. -/
theorem main_never_succeeds (io : MainIo Point Key) :
    (io.created ≠ sgxSuccess → main suite lib io = some (-1)) ∧
    (io.created = sgxSuccess → ∀ status ret out,
      io.createTeePubkey (io.alice suite).publicKeyHex (io.bob suite).publicKeyHex =
        (status, ret, out) →
      (status ≠ sgxSuccess ∨ ret ≠ 0 → main suite lib io = some (-2)) ∧
      (status = sgxSuccess → ret = 0 → out.Complete → main suite lib io = some (-3))) := by
  constructor
  · intro hcreated
    exact if_pos hcreated
  · intro hcreated status ret out hecall
    rw [main, if_neg (not_not_intro hcreated), hecall]
    constructor
    · intro hfails
      exact if_pos hfails
    · rintro rfl rfl hcomplete
      obtain ⟨arbiterHex, quote, timestamp, token⟩ := out
      obtain ⟨harbiter, hquote, htimestamp, htoken⟩ := hcomplete
      obtain ⟨arbiterHex, rfl⟩ := Option.ne_none_iff_exists'.1 harbiter
      obtain ⟨quote, rfl⟩ := Option.ne_none_iff_exists'.1 hquote
      obtain ⟨timestamp, rfl⟩ := Option.ne_none_iff_exists'.1 htimestamp
      obtain ⟨token, rfl⟩ := Option.ne_none_iff_exists'.1 htoken
      simp only [mainSaves, saves_nothing]
      rfl

end

/-- What the first ecall of the sample writes. -/
def sampleTeePubkeyOut : TeePubkeyOut :=
  ⟨some sampleArbiter, some sampleSessionReport, some (UInt64.toInt64 100).toUInt64,
    some sampleToken⟩

/-- A host on which the first ecall works. -/
def sampleMainIo : MainIo UInt8 UInt8 where
  created := sgxSuccess
  aliceKey := 1
  bobKey := 2
  createTeePubkey _ _ := (sgxSuccess, 0, sampleTeePubkeyOut)
  whoIsRicher _ := (sgxSuccess, 0, ⟨some aliceIsNotRicher, some sampleResultReport, some 150⟩)
  aliceSaves := ⟨.allGood, 150⟩
  bobSaves := ⟨.allGood, 150⟩
  aliceShows := ⟨.allGood, 150⟩
  bobShows := ⟨.allGood, 150⟩
  point := 0
  seeds _ := []

/-- The report is the right one, the verdict is `Ok`, and `main` ends. -/
theorem sample_main_fails : main sampleSuite sessionLibraries sampleMainIo = some (-3) := by
  have hends := (main_never_succeeds sampleSuite sessionLibraries sampleMainIo).2 rfl sgxSuccess 0
    _ rfl
  have hreturns : createTeePubkeyReturns allCopied (some samplePrepared) =
      .ok (0, sampleTeePubkeyOut) := rfl
  exact hends.2 rfl rfl (TeePubkeyOut.complete_of_returns hreturns)

/-! ## Honest millionaires -/

section

variable {Point Key : Type} {suite : HostSuite Point Key} {lib : Libraries} {mpd : Mpd}

/-- A millionaire that has saved the arbiter's key. -/
def Millionaire.saved (m : Millionaire Key) (arbiterPublicKeyHex : List UInt8) : Millionaire Key :=
  { m with arbiterPublicKeyHex := arbiterPublicKeyHex }

/-- What an honest millionaire sends passes the signature check, and decrypts to its wealth. -/
theorem decrypts_of_encryptAndSign (hworks : suite.Works) {m : Millionaire Key} {arbiterKey : Key}
    (hkey : m.arbiterPublicKeyHex =
      suite.encodeToHex (suite.encodeFull (suite.publicKey arbiterKey)))
    {point : Point} {eciesSeed ecdsaSeed ciphertext signature : List UInt8}
    (hsent : m.encryptAndSignWealth suite lib point eciesSeed ecdsaSeed =
      (0, some ciphertext, some signature)) (behind : List UInt8) :
    verifySignatureAndDecrypt suite.toSuite lib arbiterKey (suite.publicKey m.privateKey) ciphertext
      signature behind = some m.wealth := by
  simp only [Millionaire.encryptAndSignWealth, hkey, hworks.hex, hworks.point] at hsent
  rcases hencrypt : suite.encryptPack eciesSeed (suite.publicKey arbiterKey) m.wealth with
    _ | ciphertextBin
  · rw [hencrypt] at hsent
    simp at hsent
  rw [hencrypt] at hsent
  simp only [Prod.mk.injEq, Option.some.injEq, true_and] at hsent
  obtain ⟨rfl, rfl⟩ := hsent
  -- the signature is read whole, and nothing behind it
  have hread : (suite.decodeFromHex (suite.encodeToHex (suite.sign ecdsaSeed m.privateKey
      (lib.sha256 (suite.encodeToHex ciphertextBin)))) ++ 0 :: behind).take 64 =
        suite.sign ecdsaSeed m.privateKey (lib.sha256 (suite.encodeToHex ciphertextBin)) := by
    rw [hworks.hex]
    exact List.take_left' (hworks.signature _ _ _)
  simp only [verifySignatureAndDecrypt]
  rw [hread, hworks.ecdsa, if_neg (by decide), hworks.hex]
  exact hworks.ecies _ _ _ _ hencrypt

/-- **Honest millionaires get the right answer.** They name their keys to a `Prepare` that opens a
session, and each encrypts its wealth for the key of the session and signs the ciphertext. Then
`Compare` judges the request by the values of the two texts, and where the clock and the report
work, it answers so. -/
theorem honest_comparison (hworks : suite.Works) (hmpd : mpd.Conforms) {aliceKey bobKey : Key}
    {aliceWealth bobWealth : List UInt8} {x y : BigDecimal}
    (hx : BigDecimal.ofString mpd (some (cString aliceWealth)) = .ok x)
    (hy : BigDecimal.ofString mpd (some (cString bobWealth)) = .ok y)
    {start ready : TrustedArbiter Point Key} {prepareIo : PrepareIo Key} {outputs : Prepared}
    (hprepares : Prepares suite.toSuite lib start
      (Millionaire.new suite aliceKey aliceWealth).publicKeyHex
      (Millionaire.new suite bobKey bobWealth).publicKeyHex prepareIo (.ok (some outputs)) ready)
    {point : Point} {seed₁ seed₂ seed₃ seed₄ aliceC aliceS bobC bobS : List UInt8}
    (halice : ((Millionaire.new suite aliceKey aliceWealth).saved
      outputs.arbiterPubkeyHex).encryptAndSignWealth suite lib point seed₁ seed₂ =
        (0, some aliceC, some aliceS))
    (hbob : ((Millionaire.new suite bobKey bobWealth).saved
      outputs.arbiterPubkeyHex).encryptAndSignWealth suite lib point seed₃ seed₄ =
        (0, some bobC, some bobS)) (io : CompareIo) :
    ∃ m n greater, Numeral.parse maxPrec (cString aliceWealth) = some (.finite m) ∧
      Numeral.parse maxPrec (cString bobWealth) = some (.finite n) ∧
      (greater = true ↔ n.value < m.value) ∧
      ready.Judges suite.toSuite lib mpd ⟨outputs.oneTimeAccessToken, aliceC, aliceS, bobC, bobS⟩ io
        greater ∧
      ∀ now attestor report, io.now = .ok now →
        resultReport lib greater outputs.oneTimeAccessToken now.toInt64 io.report =
          (true, attestor, report) →
        (TrustedArbiter.compare suite.toSuite lib mpd
          ⟨outputs.oneTimeAccessToken, aliceC, aliceS, bobC, bobS⟩ io ready).1 =
            .ok (some ⟨resultText greater, report, now.toInt64⟩) := by
  obtain ⟨m, haliceText, hm⟩ := BigDecimal.has_of_ofString_text hmpd hx
  obtain ⟨n, hbobText, hn⟩ := BigDecimal.has_of_ofString_text hmpd hy
  obtain ⟨greater, hgreater, hexact⟩ := isGreater_of_has hmpd hm hn
  cases hprepares with
  | reported alice bob privkey now token report attestor hdecodeAlice hdecodeBob =>
      -- the keys that were named are decoded to those of the millionaires
      have halicePoint : alice = suite.publicKey aliceKey := by
        simp only [Suite.decodes, Millionaire.new, hworks.hex, hworks.point, Prod.mk.injEq,
          true_and] at hdecodeAlice
        exact hdecodeAlice.symm
      have hbobPoint : bob = suite.publicKey bobKey := by
        simp only [Suite.decodes, Millionaire.new, hworks.hex, hworks.point, Prod.mk.injEq,
          true_and] at hdecodeBob
        exact hdecodeBob.symm
      subst halicePoint hbobPoint
      have hjudges : TrustedArbiter.Judges suite.toSuite lib mpd
          { start.drawn suite.toSuite (suite.publicKey aliceKey) (suite.publicKey bobKey) privkey
              now.toInt64 (suite.encodeToHex token.toList) with isReady := true }
          ⟨suite.encodeToHex token.toList, aliceC, aliceS, bobC, bobS⟩ io greater := by
        refine ⟨rfl, aliceWealth, bobWealth, x, y, ?_, ?_, ?_, ?_, hgreater⟩
        · exact decrypts_of_encryptAndSign hworks rfl halice io.behindAlice
        · exact decrypts_of_encryptAndSign hworks rfl hbob io.behindBob
        · exact wealthOf_of_ofString hx
        · exact wealthOf_of_ofString hy
      refine ⟨m, n, greater, haliceText, hbobText, hexact, hjudges, ?_⟩
      intro now' attestor' report' hnow' hreport'
      rw [compare_of_judges suite.toSuite lib mpd hjudges]
      exact congrArg Prod.fst (finishCompare_of_report lib hnow' hreport')

end

/-- Alice has `7` and Bob has `12`, and the answer is that she is not richer. -/
theorem sample_honest_comparison :
    (TrustedArbiter.compare sampleSuite.toSuite sessionLibraries Mpd.reference sampleRequest
      sampleCompareIo (sampleReady sampleStart)).1 = .ok (some sampleCompared) := by
  have hprepares : Prepares sampleSuite.toSuite sessionLibraries sampleStart
      (Millionaire.new sampleSuite 1 sampleAliceWealth).publicKeyHex
      (Millionaire.new sampleSuite 2 sampleBobWealth).publicKeyHex samplePrepareIo
      (.ok (some samplePrepared)) (sampleReady sampleStart) :=
    prepares_of_eq (sample_prepare sampleStart)
  have hsent : ∀ (key : UInt8) (wealth : List UInt8),
      ((Millionaire.new sampleSuite key wealth).saved sampleArbiter).encryptAndSignWealth
          sampleSuite sessionLibraries 0 [] [] =
        (0, some (sampleCiphertext wealth), some (sampleSignature key wealth)) := by
    intro key wealth
    have hpoint : sampleSuite.decodeFull 0 (sampleSuite.decodeFromHex sampleArbiter) = (true, 3) :=
      sample_decodes 0 3
    simp only [Millionaire.encryptAndSignWealth, Millionaire.saved, hpoint]
    rfl
  obtain ⟨m, n, greater, hm, hn, hexact, -, hanswers⟩ := honest_comparison sampleSuite_works
    Mpd.reference_conforms ofString_aliceWealth ofString_bobWealth hprepares
    (hsent 1 sampleAliceWealth) (hsent 2 sampleBobWealth) sampleCompareIo
  cases greater with
  | false =>
      obtain ⟨attestor, hreport⟩ := sample_resultReport
      exact hanswers 150 attestor sampleResultReport rfl hreport
  | true =>
      -- seven is not more than twelve
      have hseven : Numeral.parse maxPrec (cString sampleAliceWealth) =
          some (.finite ⟨false, 7, 0⟩) := Numeral.parse_toSci maxPrec ⟨false, 7, 0⟩
      have htwelve : Numeral.parse maxPrec (cString sampleBobWealth) =
          some (.finite ⟨false, 12, 0⟩) := Numeral.parse_toSci maxPrec ⟨false, 12, 0⟩
      cases hseven.symm.trans hm
      cases htwelve.symm.trans hn
      exact absurd (hexact.1 rfl) (lt_asymm seven_lt_twelve)

end Ssgx.Arbiter
