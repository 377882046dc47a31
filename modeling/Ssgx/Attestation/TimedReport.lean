import Ssgx.Attestation.Overloads
import Ssgx.Attestation.Policy

/-!
# Reports with a timestamp

`VerifyReport` with a timestamp subtracts the timestamp from the time, in 64 bits, and compares the
difference with the validity. For a timestamp in the future the difference wraps around
(`expired_iff`), and then it is large, but not larger than every validity (`timed_window_iff`).

The hash of the enclave is written by the overload inside, before the time is read. What the caller
finds in `mrenclave_hex` where a call fails or throws is in `keepsHex_iff`.
-/

set_option autoImplicit false

namespace Ssgx.Attestation

open Ssgx.Support

/-! ## The window -/

/-- The time is not before the timestamp, and not after the end of the validity. -/
def InWindow (timestamp validitySeconds timeNow : UInt64) : Prop :=
  timestamp.toNat ≤ timeNow.toNat ∧ timeNow.toNat ≤ timestamp.toNat + validitySeconds.toNat

/-- **What the subtraction decides.** Behind the timestamp it is the end of the validity; before it,
the difference is short of 2^64 by as much as the timestamp is ahead. -/
theorem expired_iff (timeNow timestamp validitySeconds : UInt64) :
    Expired timeNow timestamp validitySeconds ↔
      (timestamp.toNat ≤ timeNow.toNat ∧
        timestamp.toNat + validitySeconds.toNat < timeNow.toNat) ∨
      (timeNow.toNat < timestamp.toNat ∧
        validitySeconds.toNat < 2 ^ 64 + timeNow.toNat - timestamp.toNat) := by
  have hnow := timeNow.toNat_lt
  have htimestamp := timestamp.toNat_lt
  rw [Expired, UInt64.lt_iff_toNat_lt, UInt64.toNat_sub]
  by_cases hle : timestamp.toNat ≤ timeNow.toNat
  · have hwrap : (2 ^ 64 - timestamp.toNat + timeNow.toNat) % 2 ^ 64 =
        timeNow.toNat - timestamp.toNat := by omega
    rw [hwrap]
    omega
  · have hwrap : (2 ^ 64 - timestamp.toNat + timeNow.toNat) % 2 ^ 64 =
        2 ^ 64 + timeNow.toNat - timestamp.toNat := by omega
    rw [hwrap]
    omega

/-- The timestamp is not ahead of the time, or not by so much less than 2^64 that the validity
covers the wrapped difference. -/
def NoWrappedWindow (timestamp validitySeconds timeNow : UInt64) : Prop :=
  timeNow.toNat < timestamp.toNat →
    validitySeconds.toNat < 2 ^ 64 + timeNow.toNat - timestamp.toNat

/-- The comparison is that with the window exactly where it does not accept a wrapped difference. -/
theorem not_expired_iff_inWindow_iff (timeNow timestamp validitySeconds : UInt64) :
    (¬ Expired timeNow timestamp validitySeconds ↔ InWindow timestamp validitySeconds timeNow) ↔
      NoWrappedWindow timestamp validitySeconds timeNow := by
  rw [expired_iff, InWindow, NoWrappedWindow]
  omega

section Verify

variable {sha256 : Sha256} {verifyUserData : VerifyUserData} {attestor : RemoteAttestor}
  {userInfo : List UInt8} {timestamp : UInt64} {report hex : Str}

/-- A report that passes is accepted exactly if it is not expired. -/
theorem timed_answers_iff (hgiven : userInfo ≠ [])
    (hinner : Answers (attestor.verifyReportFor sha256 verifyUserData
      (timedUserInfo userInfo timestamp) report hex) true) (timeNow validitySeconds : UInt64) :
    Answers (attestor.verifyReportTimed sha256 verifyUserData (.ok timeNow) userInfo timestamp
      validitySeconds report hex) true ↔ ¬ Expired timeNow timestamp validitySeconds := by
  obtain ⟨e, he, htrue⟩ := hinner
  have htimed : attestor.verifyReportTimed sha256 verifyUserData (.ok timeNow) userInfo timestamp
      validitySeconds report hex = some (e.checkTime (.ok timeNow) timestamp validitySeconds) := by
    -- the overload inside clears the last result once more
    have hreset : { attestor with qvResult := none }.verifyReportFor sha256 verifyUserData
        (timedUserInfo userInfo timestamp) report hex = some e := he
    simp only [RemoteAttestor.verifyReportTimed]
    rw [if_neg (mt List.isEmpty_iff.1 hgiven), hreset]
    dsimp only
    rw [htrue]
  rw [htimed]
  by_cases hexpired : Expired timeNow timestamp validitySeconds
  · refine iff_of_false ?_ (not_not_intro hexpired)
    rintro ⟨e', he', hanswer⟩
    simp only [VerifyEnd.checkTime, if_pos hexpired, Option.some.injEq] at he'
    subst he'
    cases hanswer
  · refine iff_of_true ⟨e, ?_, htrue⟩ hexpired
    simp only [VerifyEnd.checkTime, if_neg hexpired]

theorem trusted_timed_answers_iff {codecs : Codecs} {tvl : TvlArgs → UInt32}
    {calls : TrustedCalls} {timeNow : UInt64} (hnow : calls.now = .ok timeNow)
    (hgiven : userInfo ≠ [])
    (hinner : Answers (trustedVerify sha256 codecs tvl calls attestor
      (.userInfo (timedUserInfo userInfo timestamp)) report hex) true) (validitySeconds : UInt64) :
    Answers (trustedVerify sha256 codecs tvl calls attestor
      (.timed userInfo timestamp validitySeconds) report hex) true ↔
        ¬ Expired timeNow timestamp validitySeconds := by
  rw [trustedVerify, hnow]
  exact timed_answers_iff hgiven hinner timeNow validitySeconds

theorem untrusted_timed_answers_iff {codecs : Codecs} {calls : UntrustedCalls}
    (hgiven : userInfo ≠ [])
    (hinner : Answers (untrustedVerify sha256 codecs calls attestor
      (.userInfo (timedUserInfo userInfo timestamp)) report hex) true) (validitySeconds : UInt64) :
    Answers (untrustedVerify sha256 codecs calls attestor
      (.timed userInfo timestamp validitySeconds) report hex) true ↔
        ¬ Expired calls.now timestamp validitySeconds :=
  timed_answers_iff hgiven hinner calls.now validitySeconds

end Verify

/-! ## A report for a timestamp -/

/-- SHA-256 of `a&time=100`. -/
def sampleDigest : List.Vector UInt8 32 :=
  ⟨[209, 188, 38, 96, 165, 76, 114, 13, 225, 130, 141, 118, 120, 13, 122, 20, 77, 104, 45, 184, 211,
    76, 202, 145, 144, 114, 143, 192, 15, 70, 154, 135], rfl⟩

/-- SHA-256 on `a&time=100`. -/
def sampleSha256 : Sha256 := fun text =>
  if text = asciiBytes (str "a&time=100") then sampleDigest else List.Vector.replicate 32 0

/-- A quote of a production enclave with the digest in its report data. -/
def sampleQuote : List UInt8 :=
  List.replicate 96 0 ++
    5 :: (List.replicate 271 0 ++ (sampleDigest.toList ++ List.replicate 36 0))

/-- `sampleQuote` in base64. -/
def sampleReport : Str :=
  List.replicate 128 'A' ++ (str "BQ" ++ (List.replicate 360 'A' ++
    (str "DRvCZgpUxyDeGCjXZ4DXoUTWgtuNNMypGQco/AD0aahw" ++ (List.replicate 48 'A' ++ str "=="))))

/-- Base64 on `sampleReport`. -/
def sampleCodecs : Codecs :=
  .only sampleReport sampleQuote (List.append_ne_nil_of_right_ne_nil _ (by decide))

theorem sampleCodecs_decode : sampleCodecs.decodeFromBase64 sampleReport = some sampleQuote :=
  Codecs.decode_only _ _ _

/-- Every call succeeds, at a time. -/
def TrustedCalls.allGood (timeNow : UInt64) : TrustedCalls := ⟨none, .allGood, .ok timeNow⟩

/-- Every call succeeds, at a time. -/
def UntrustedCalls.allGood (timeNow : UInt64) : UntrustedCalls := ⟨.allGood, timeNow⟩

/-- The hash that is written for `sampleQuote`. -/
def sampleHash : Str := sampleCodecs.encodeToHex (mrEnclave sampleQuote)

theorem sampleQuote_reportData :
    reportData sampleQuote = (userDataOf sampleSha256 (timedUserInfo [97] 100)).toList := by
  decide +kernel

theorem sample_trusted_passes (timeNow : UInt64) :
    (TrustedCalls.allGood timeNow).Passes sampleCodecs (fun _ => sgxSuccess)
      RemoteAttestor.trusted.acceptedQvResults
      (userDataOf sampleSha256 (timedUserInfo [97] 100)) sampleReport sampleHash := by
  have hraw := (@verifyRawQuoteWithQvE_success_iff sampleCodecs (fun _ => sgxSuccess) .allGood
    sampleQuote ⟨.success, sampleHash, some 0, 0, []⟩).2
    ⟨by decide, ⟨rfl, rfl, rfl, rfl, .inl rfl, rfl⟩, by decide, rfl⟩
  exact ⟨rfl, sampleQuote, _, List.append_ne_nil_of_right_ne_nil _ (by decide),
    sampleCodecs_decode, hraw.1,
    ⟨rfl, ⟨0, Finset.mem_singleton_self _, rfl⟩, rfl, sampleQuote_reportData⟩, rfl⟩

theorem sample_untrusted_passes (timeNow : UInt64) :
    (UntrustedCalls.allGood timeNow).Passes sampleCodecs
      RemoteAttestor.trusted.acceptedQvResults
      (userDataOf sampleSha256 (timedUserInfo [97] 100)) sampleReport sampleHash := by
  have hraw := (@verifyRawQuote_success_iff sampleCodecs .allGood sampleQuote
    ⟨.success, sampleHash, some 0, 0, []⟩).2
    ⟨by decide, ⟨rfl, rfl, rfl, rfl⟩, by decide, rfl⟩
  exact ⟨sampleQuote, _, List.append_ne_nil_of_right_ne_nil _ (by decide),
    sampleCodecs_decode, congrArg some hraw.1,
    ⟨rfl, ⟨0, Finset.mem_singleton_self _, rfl⟩, rfl, sampleQuote_reportData⟩, rfl⟩

theorem sample_trusted_answers (timeNow : UInt64) :
    Answers (trustedVerify sampleSha256 sampleCodecs (fun _ => sgxSuccess) (.allGood timeNow)
      .trusted (.userInfo (timedUserInfo [97] 100)) sampleReport []) true :=
  (verify_answers_iff _ (trustedUserData_verifies _ _ _) _ _ _ _ _).2
    ⟨timedUserInfo_ne_nil _ _, id, sampleHash, sample_trusted_passes timeNow⟩

theorem sample_untrusted_answers (timeNow : UInt64) :
    Answers (untrustedVerify sampleSha256 sampleCodecs (.allGood timeNow) .trusted
      (.userInfo (timedUserInfo [97] 100)) sampleReport []) true :=
  (verify_answers_iff _ (untrustedUserData_verifies _ _) _ _ _ _ _).2
    ⟨timedUserInfo_ne_nil _ _, id, sampleHash, sample_untrusted_passes timeNow⟩

/-! ## Both attestors -/

/-- **The window of a report.** Where the report itself passes, both attestors accept it exactly in
the window of its timestamp, if and only if the validity does not cover a wrapped difference. -/
theorem timed_window_iff (sha256 : Sha256) (codecs : Codecs) (tvl : TvlArgs → UInt32)
    (attestor : RemoteAttestor) {userInfo : List UInt8} (hgiven : userInfo ≠ [])
    (timestamp validitySeconds timeNow : UInt64) (report hex : Str) :
    (∀ calls : TrustedCalls, calls.now = .ok timeNow →
      Answers (trustedVerify sha256 codecs tvl calls attestor
        (.userInfo (timedUserInfo userInfo timestamp)) report hex) true →
      ((Answers (trustedVerify sha256 codecs tvl calls attestor
          (.timed userInfo timestamp validitySeconds) report hex) true ↔
            InWindow timestamp validitySeconds timeNow) ↔
        NoWrappedWindow timestamp validitySeconds timeNow)) ∧
    (∀ calls : UntrustedCalls, calls.now = timeNow →
      Answers (untrustedVerify sha256 codecs calls attestor
        (.userInfo (timedUserInfo userInfo timestamp)) report hex) true →
      ((Answers (untrustedVerify sha256 codecs calls attestor
          (.timed userInfo timestamp validitySeconds) report hex) true ↔
            InWindow timestamp validitySeconds timeNow) ↔
        NoWrappedWindow timestamp validitySeconds timeNow)) := by
  constructor
  · intro calls hnow hinner
    rw [trusted_timed_answers_iff hnow hgiven hinner]
    exact not_expired_iff_inWindow_iff timeNow timestamp validitySeconds
  · rintro calls rfl hinner
    rw [untrusted_timed_answers_iff hgiven hinner]
    exact not_expired_iff_inWindow_iff calls.now timestamp validitySeconds

theorem sample_timed_window :
    (Answers (trustedVerify sampleSha256 sampleCodecs (fun _ => sgxSuccess) (.allGood 150) .trusted
        (.timed [97] 100 60) sampleReport []) true ↔ InWindow 100 60 150) ∧
      (Answers (untrustedVerify sampleSha256 sampleCodecs (.allGood 150) .trusted
        (.timed [97] 100 60) sampleReport []) true ↔ InWindow 100 60 150) := by
  have hwindow : NoWrappedWindow 100 60 150 := by
    intro hlt
    exact absurd hlt (by decide)
  have hboth := timed_window_iff sampleSha256 sampleCodecs (fun _ => sgxSuccess) .trusted
    (List.cons_ne_nil 97 []) 100 60 150 sampleReport []
  have htrusted := hboth.1 (.allGood 150) rfl (sample_trusted_answers 150)
  have huntrusted := hboth.2 (.allGood 150) rfl (sample_untrusted_answers 150)
  exact ⟨htrusted.2 hwindow, huntrusted.2 hwindow⟩

/-- The report is from one second in the future, and the validity is as long as it can be: both
attestors accept it. -/
theorem future_report_accepted :
    ¬ InWindow 100 18446744073709551615 99 ∧
      Answers (trustedVerify sampleSha256 sampleCodecs (fun _ => sgxSuccess) (.allGood 99) .trusted
        (.timed [97] 100 18446744073709551615) sampleReport []) true ∧
      Answers (untrustedVerify sampleSha256 sampleCodecs (.allGood 99) .trusted
        (.timed [97] 100 18446744073709551615) sampleReport []) true := by
  have hgiven : ([97] : List UInt8) ≠ [] := List.cons_ne_nil _ _
  have hexpired : ¬ Expired 99 100 18446744073709551615 := by decide
  have htrusted := trusted_timed_answers_iff rfl hgiven (sample_trusted_answers 99)
    18446744073709551615
  have huntrusted := untrusted_timed_answers_iff hgiven (sample_untrusted_answers 99)
    18446744073709551615
  refine ⟨?_, htrusted.2 hexpired, huntrusted.2 hexpired⟩
  intro h
  exact absurd h.1 (by decide)

/-! ## The hash that is written -/

/-- Where a call fails or throws, `mrenclave_hex` is what it was. -/
def KeepsHex (result : Option VerifyEnd) (mrenclaveHex : Str) : Prop :=
  ∀ e, result = some e → e.answer ≠ .ok true → e.mrenclaveHex = mrenclaveHex

/-- A refused call leaves `mrenclave_hex` alone. -/
theorem Refused.keepsHex {attestor : RemoteAttestor} {hex : Str} {result : Option VerifyEnd}
    (h : Refused attestor hex result) : KeepsHex result hex := by
  intro e he _
  exact (h.ended he).1

/-- A verification for 64 bytes writes one hash. -/
theorem Verifies.hash_unique {verifyUserData : VerifyUserData}
    {passes : Finset UInt32 → UserData → Str → Str → Prop}
    (hverifies : Verifies verifyUserData passes) (attestor : RemoteAttestor) {userData : UserData}
    {report hash hash' : Str} (h : passes attestor.acceptedQvResults userData report hash)
    (h' : passes attestor.acceptedQvResults userData report hash') : hash = hash' := by
  obtain ⟨qv, hcall⟩ := hverifies.accepts attestor userData report [] hash h
  obtain ⟨qv', hcall'⟩ := hverifies.accepts attestor userData report [] hash' h'
  exact congrArg VerifyEnd.mrenclaveHex (Option.some.inj (hcall.symm.trans hcall'))

/-- **Who finds a hash behind a call that fails.** Exactly the caller of the overload with a
timestamp whose report passes while the time does not, and who had another hash before. -/
theorem keepsHex_verify_iff (sha256 : Sha256) {verifyUserData : VerifyUserData}
    {passes : Finset UInt32 → UserData → Str → Str → Prop}
    (hverifies : Verifies verifyUserData passes) (attestor : RemoteAttestor)
    (clock : Except Str UInt64) (call : VerifyCall) (report hex : Str) :
    KeepsHex (attestor.verify sha256 verifyUserData clock call report hex) hex ↔
      ¬ (call.Given ∧ call.TimeFails clock ∧ ∃ hash,
        passes attestor.acceptedQvResults (call.data sha256) report hash ∧ hash ≠ hex) := by
  rcases verify_cases sha256 hverifies attestor clock call report hex with
    ⟨hash, qvResult, -, -, htime, hcall⟩ | ⟨hash, e, hgiven, hpasses, htime, hcall, hhash, hend⟩ |
      ⟨hnot, hrefused⟩
  · refine iff_of_true ?_ fun h => htime h.2.1
    intro e he hne
    rw [hcall] at he
    cases he
    exact absurd rfl hne
  · have hne : e.answer ≠ .ok true := by
      rcases hend with ⟨what, hend⟩ | ⟨hend, -⟩
      · simp [hend]
      · simp [hend]
    constructor
    · rintro hkeeps ⟨-, -, hash', hpasses', hdiffers⟩
      refine hdiffers ((hverifies.hash_unique attestor hpasses' hpasses).trans ?_)
      exact hhash.symm.trans (hkeeps e hcall hne)
    · intro h e' he' _
      rw [hcall, Option.some.injEq] at he'
      subst he'
      by_contra hdiffers
      exact h ⟨hgiven, htime, hash, hpasses, hhash ▸ hdiffers⟩
  · apply iff_of_true hrefused.keepsHex
    rintro ⟨hgiven, -, hash, hpasses, -⟩
    exact hnot hash hgiven hpasses

/-- **What a failed call leaves of `mrenclave_hex`**, for every overload of both attestors. -/
theorem keepsHex_iff (sha256 : Sha256) (codecs : Codecs) (tvl : TvlArgs → UInt32)
    (attestor : RemoteAttestor) (call : VerifyCall) (report hex : Str) :
    (∀ calls : TrustedCalls,
      KeepsHex (trustedVerify sha256 codecs tvl calls attestor call report hex) hex ↔
        ¬ (call.Given ∧ call.TimeFails calls.now ∧ ∃ hash,
          calls.Passes codecs tvl attestor.acceptedQvResults (call.data sha256) report hash ∧
            hash ≠ hex)) ∧
    (∀ calls : UntrustedCalls,
      KeepsHex (untrustedVerify sha256 codecs calls attestor call report hex) hex ↔
        ¬ (call.Given ∧ call.TimeFails (.ok calls.now) ∧ ∃ hash,
          calls.Passes codecs attestor.acceptedQvResults (call.data sha256) report hash ∧
            hash ≠ hex)) := by
  constructor
  · intro calls
    exact keepsHex_verify_iff sha256 (trustedUserData_verifies codecs tvl calls) attestor calls.now
      call report hex
  · intro calls
    exact keepsHex_verify_iff sha256 (untrustedUserData_verifies codecs calls) attestor
      (.ok calls.now) call report hex

/-- The report passes and expired 40 seconds ago, or the clock throws: the call fails, and its hash
is in what was an empty string. -/
theorem expired_report_writes_hash :
    ¬ KeepsHex (trustedVerify sampleSha256 sampleCodecs (fun _ => sgxSuccess) (.allGood 150)
        .trusted (.timed [97] 100 10) sampleReport []) [] ∧
      ¬ KeepsHex (trustedVerify sampleSha256 sampleCodecs (fun _ => sgxSuccess)
        { TrustedCalls.allGood 150 with
          now := .error (str "Failed in ssgx_ocall_time (error code: 1)") }
        .trusted (.timed [97] 100 10) sampleReport []) [] ∧
      ¬ KeepsHex (untrustedVerify sampleSha256 sampleCodecs (.allGood 150) .trusted
        (.timed [97] 100 10) sampleReport []) [] := by
  have hgiven : ([97] : List UInt8) ≠ [] := List.cons_ne_nil _ _
  have hexpired : Expired 150 100 10 := by decide
  have hhash : sampleHash ≠ [] := by decide
  refine ⟨?_, ?_, ?_⟩
  · rw [trustedVerify, keepsHex_verify_iff _ (trustedUserData_verifies _ _ _), not_not]
    refine ⟨hgiven, fun timeNow hnow => ?_, sampleHash, sample_trusted_passes 150, hhash⟩
    cases hnow
    exact hexpired
  · rw [trustedVerify, keepsHex_verify_iff _ (trustedUserData_verifies _ _ _), not_not]
    exact ⟨hgiven, (fun _ hnow => nomatch hnow), sampleHash, sample_trusted_passes 150, hhash⟩
  · rw [untrustedVerify, keepsHex_verify_iff _ (untrustedUserData_verifies _ _), not_not]
    refine ⟨hgiven, fun timeNow hnow => ?_, sampleHash, sample_untrusted_passes 150, hhash⟩
    cases hnow
    exact hexpired

end Ssgx.Attestation
