import Ssgx.Attestation.Binding
import Ssgx.Arbiter.Parties

/-!
# What the reports of the arbiter are bound to

A report of `Prepare` is for the two keys, the smaller first, the arbiter's key and the token, one
behind the other without a mark in between; a report of `Compare` is for the result and the token.
Both are hashed with their timestamp behind them. A millionaire puts the text together again from
what it knows and was told.

With keys of one length the text of a `Prepare` determines the two keys up to their order, and the
rest (`prepareUserInfo_eq_iff`). The kind of a report is not in it: a report of `Prepare` passes
for the token of the session and a result whose text is that of the keys (`session_report_binding`).

The theorems are about `VerifyReport` where every check but the one of the user data is passed
(`AnswersExactly`). The attestors of the sample's host never get that far: they accept no verdict.
-/

set_option autoImplicit false

namespace Ssgx.Arbiter

open Ssgx.Support
open Ssgx.Attestation (Answers AnswersExactly CreateIo IsDebug Libraries NoCollision RemoteAttestor
  UntrustedCalls UserData VerifyCall answersExactly_of_created attributesFlags fieldAt reportData
  timedUserInfo untrustedVerify userDataOf verifyRawQuote_success_iff)
open Ssgx.Decimal (Mpd)

/-! ## The text of a `Prepare` -/

theorem lt_antisymm_bytes {a b : List UInt8} (hab : ¬ a < b) (hba : ¬ b < a) : a = b :=
  List.le_antisymm (List.not_lt.1 hba) (List.not_lt.1 hab)

/-- The order in which the keys are named does not matter. -/
theorem prepareUserInfo_swap (aliceHex bobHex arbiterHex token : List UInt8) :
    prepareUserInfo bobHex aliceHex arbiterHex token =
      prepareUserInfo aliceHex bobHex arbiterHex token := by
  simp only [prepareUserInfo]
  by_cases hab : aliceHex < bobHex
  · rw [if_pos hab, if_neg (List.lt_asymm hab)]
  · by_cases hba : bobHex < aliceHex
    · rw [if_neg hab, if_pos hba]
    · rw [lt_antisymm_bytes hab hba]

/-- **What the text of a `Prepare` determines**, with keys of one length. -/
theorem prepareUserInfo_eq_iff {a b a' b' key key' token token' : List UInt8}
    (hab : b.length = a.length) (ha' : a'.length = a.length) (hb' : b'.length = a.length)
    (hkey : key'.length = key.length) (htoken : token'.length = token.length) :
    prepareUserInfo a b key token = prepareUserInfo a' b' key' token' ↔
      ((a' = a ∧ b' = b) ∨ (a' = b ∧ b' = a)) ∧ key' = key ∧ token' = token := by
  constructor
  · intro h
    simp only [prepareUserInfo] at h
    obtain ⟨hfront, htokens⟩ := List.append_inj' h htoken.symm
    obtain ⟨hkeys, hkeyEq⟩ := List.append_inj' hfront hkey.symm
    refine ⟨?_, hkeyEq.symm, htokens.symm⟩
    -- either order on each side, and all four keys have one length
    split_ifs at hkeys
    · obtain ⟨h₁, h₂⟩ := List.append_inj hkeys ha'.symm
      exact .inl ⟨h₁.symm, h₂.symm⟩
    · obtain ⟨h₁, h₂⟩ := List.append_inj hkeys hb'.symm
      exact .inr ⟨h₂.symm, h₁.symm⟩
    · obtain ⟨h₁, h₂⟩ := List.append_inj hkeys (hab.trans ha'.symm)
      exact .inr ⟨h₁.symm, h₂.symm⟩
    · obtain ⟨h₁, h₂⟩ := List.append_inj hkeys (hab.trans hb'.symm)
      exact .inl ⟨h₂.symm, h₁.symm⟩
  · rintro ⟨⟨rfl, rfl⟩ | ⟨rfl, rfl⟩, rfl, rfl⟩
    · rfl
    · exact prepareUserInfo_swap _ _ _ _

/-! ## The checks of the millionaires -/

/-- The platform makes the quote for this text and timestamp. -/
def DeliversFor (lib : Libraries) (io : CreateIo) (userInfo : List UInt8) (timestamp : UInt64) :
    Prop :=
  io.Delivers lib (userDataOf lib.sha256 (timedUserInfo userInfo timestamp))

/-- Their hashed texts have no collision. -/
def Apart (lib : Libraries) (userInfo userInfo' : List UInt8) (timestamp timestamp' : UInt64) :
    Prop :=
  NoCollision lib.sha256 (timedUserInfo userInfo timestamp) (timedUserInfo userInfo' timestamp')

/-- A created report is accepted for a text and a timestamp under a condition, if that says that
they are the ones it is for. -/
theorem answersExactly_of_iff {lib : Libraries} {io : CreateIo} {userInfo userInfo' : List UInt8}
    {timestamp timestamp' : UInt64} {attestor attestor' : RemoteAttestor} {report report₀ : Str}
    {condition : Prop}
    (hcreated : attestor.createReportTimed lib.encodeToBase64 lib.sha256 io userInfo timestamp
      report₀ = (true, attestor', report)) (hdelivers : DeliversFor lib io userInfo timestamp)
    (hapart : Apart lib userInfo userInfo' timestamp timestamp') (validitySeconds : UInt64)
    (hiff : condition ↔ userInfo = userInfo' ∧ timestamp = timestamp') :
    AnswersExactly lib (.timed userInfo' timestamp' validitySeconds) report condition := by
  have hreport : attestor.create lib.encodeToBase64 lib.sha256 io (.timed userInfo timestamp)
      report₀ = (true, attestor', report) := hcreated
  rw [hiff]
  exact answersExactly_of_created hreport hdelivers hapart validitySeconds

section

variable {Point Key : Type} {suite : Suite Point Key} {lib : Libraries} {mpd : Mpd}

/-- The text of a session. -/
def Session.userInfo (session : Session) : List UInt8 :=
  prepareUserInfo session.aliceHex session.bobHex session.outputs.arbiterPubkeyHex
    session.outputs.oneTimeAccessToken

/-- The timestamp of a session, as the host gets it. -/
def Session.timestamp (session : Session) : UInt64 := session.outputs.prepareTimestamp.toUInt64

/-- **What the report of a session is bound to.** Where the other checks are passed, it is accepted
for a text that a millionaire puts together from keys of one length exactly with the two keys of the
session, in either order, its arbiter key, its token and its timestamp. One that takes the report
for that of a result accepts it exactly for the keys in the place of the result. -/
theorem session_report_binding {self arbiter : TrustedArbiter Point Key} {session : Session}
    {io : PrepareIo Key}
    (hprepares : Prepares suite lib self session.aliceHex session.bobHex io
      (.ok (some session.outputs)) arbiter)
    (hdelivers : DeliversFor lib io.report session.userInfo session.timestamp)
    (hlength : session.bobHex.length = session.aliceHex.length)
    (timestamp validitySeconds : UInt64) :
    (∀ own peer key token : List UInt8, own.length = session.aliceHex.length →
      peer.length = session.aliceHex.length →
      key.length = session.outputs.arbiterPubkeyHex.length →
      token.length = session.outputs.oneTimeAccessToken.length →
      Apart lib session.userInfo (prepareUserInfo own peer key token) session.timestamp timestamp →
      AnswersExactly lib (.timed (prepareUserInfo own peer key token) timestamp validitySeconds)
        session.outputs.quoteReport
        (((own = session.aliceHex ∧ peer = session.bobHex) ∨
          (own = session.bobHex ∧ peer = session.aliceHex)) ∧
        key = session.outputs.arbiterPubkeyHex ∧ token = session.outputs.oneTimeAccessToken ∧
        timestamp = session.timestamp)) ∧
    (∀ result token : List UInt8, token.length = session.outputs.oneTimeAccessToken.length →
      Apart lib session.userInfo (result ++ token) session.timestamp timestamp →
      AnswersExactly lib (.timed (result ++ token) timestamp validitySeconds)
        session.outputs.quoteReport
        (result = prepareUserInfo session.aliceHex session.bobHex
            session.outputs.arbiterPubkeyHex [] ∧
          token = session.outputs.oneTimeAccessToken ∧ timestamp = session.timestamp)) := by
  obtain ⟨aliceHex, bobHex, outputs⟩ := session
  have hcreated : ∃ attestor, RemoteAttestor.trusted.createReportTimed lib.encodeToBase64 lib.sha256
      io.report (Session.userInfo ⟨aliceHex, bobHex, outputs⟩)
      (Session.timestamp ⟨aliceHex, bobHex, outputs⟩) [] =
        (true, attestor, outputs.quoteReport) := by
    cases hprepares with
    | reported _ _ _ _ _ _ attestor _ _ _ _ _ hreport => exact ⟨attestor, hreport⟩
  obtain ⟨attestor, hcreated⟩ := hcreated
  constructor
  · intro own peer key token hown hpeer hkey htoken hapart
    apply answersExactly_of_iff hcreated hdelivers hapart
    rw [Session.userInfo, prepareUserInfo_eq_iff hlength hown hpeer hkey htoken,
      @eq_comm _ (Session.timestamp _)]
    simp only [and_assoc]
  · intro result token htoken hapart
    have hsplit : Session.userInfo ⟨aliceHex, bobHex, outputs⟩ =
        prepareUserInfo aliceHex bobHex outputs.arbiterPubkeyHex [] ++
          outputs.oneTimeAccessToken := by
      simp only [Session.userInfo, prepareUserInfo, List.append_nil]
    apply answersExactly_of_iff hcreated hdelivers hapart
    rw [hsplit]
    constructor
    · rintro ⟨rfl, rfl, rfl⟩
      exact ⟨rfl, rfl⟩
    · rintro ⟨heq, htime⟩
      obtain ⟨hresult, htokens⟩ := List.append_inj' heq htoken.symm
      exact ⟨hresult.symm, htokens.symm, htime.symm⟩

end

/-- The quotes have the report data they are made for. -/
theorem reportData_quoteFor (userData : UserData) :
    reportData (quoteFor userData) = userData.toList := by
  have hfront : (List.replicate 96 (0 : UInt8) ++ 5 :: List.replicate 271 0).length = 368 := by
    rw [List.length_append, List.length_cons, List.length_replicate, List.length_replicate]
  have hquote : quoteFor userData = (List.replicate 96 0 ++ 5 :: List.replicate 271 0) ++
      (userData.toList ++ List.replicate 4 0) := by
    rw [quoteFor, List.append_assoc, List.cons_append]
  rw [reportData, fieldAt, hquote, List.drop_left' hfront]
  exact List.take_left' userData.toList_length

/-- The platform makes the quotes that the libraries know. -/
theorem delivers_of_decodes {userInfo : List UInt8} {timestamp : UInt64} {quote : List UInt8}
    (hquote : quoteFor (userDataOf sessionSha256 (timedUserInfo userInfo timestamp)) = quote)
    (hdecodes : decodeReports (encodeReports quote) = some quote) :
    DeliversFor sessionLibraries workingReport userInfo timestamp := by
  have hdecode : sessionLibraries.codecs.decodeFromBase64 = decodeReports := rfl
  have hencode : sessionLibraries.encodeToBase64 = encodeReports := rfl
  have hsha : sessionLibraries.sha256 = sessionSha256 := rfl
  have hmakes : workingReport.quote = quoteFor := rfl
  rw [DeliversFor, hsha]
  refine ⟨reportData_quoteFor _, ?_⟩
  rw [hdecode, hencode, hmakes, hquote]
  exact hdecodes

theorem sample_session_delivers :
    DeliversFor sessionLibraries workingReport sampleUserInfo 100 := by
  have hquote : quoteFor (userDataOf sessionSha256 (timedUserInfo sampleUserInfo 100)) =
      sampleSessionQuote := rfl
  apply delivers_of_decodes hquote
  rw [encodeReports_session sampleSessionQuote_ne]
  exact decodeReports_session

theorem sample_result_delivers :
    DeliversFor sessionLibraries workingReport sampleResult 150 := by
  have hquote : quoteFor (userDataOf sessionSha256 (timedUserInfo sampleResult 150)) =
      sampleResultQuote := rfl
  apply delivers_of_decodes hquote
  rw [encodeReports_result]
  exact decodeReports_result

/-- The session of the sample. -/
def sampleSession : Session := ⟨sampleAlice, sampleBob, samplePrepared⟩

/-- An attestor outside the enclave that was told to accept the verdict `Ok`. -/
def acceptingAttestor : RemoteAttestor := { RemoteAttestor.untrusted with acceptedQvResults := {0} }

/-- The quotes are of no debug enclave. -/
theorem quoteFor_not_debug (userData : UserData) : ¬ IsDebug (quoteFor userData) := by
  have hflags : attributesFlags (quoteFor userData) = 5 := by
    have hquote : quoteFor userData = (List.replicate 96 0 ++ [5, 0, 0, 0, 0, 0, 0, 0]) ++
        (List.replicate 264 0 ++ (userData.toList ++ List.replicate 4 0)) := by
      simp only [quoteFor, List.append_assoc]
      rfl
    rw [attributesFlags, fieldAt, hquote, List.append_assoc,
      List.drop_left' (List.length_replicate)]
    rfl
  rw [IsDebug, hflags]
  decide

/-- A report with such a quote passes every check but the one of the user data. -/
theorem sample_othersPass {report : Str} {userData : UserData} (hne : report ≠ [])
    (hdecodes : decodeReports report = some (quoteFor userData)) {call : VerifyCall}
    (htime : ¬ call.TimeFails (.ok 150)) :
    (UntrustedCalls.allGood 150).OthersPass sessionLibraries acceptingAttestor call report := by
  have hsome : quoteFor userData ≠ [] :=
    List.append_ne_nil_of_right_ne_nil _ (List.cons_ne_nil _ _)
  have hraw := (@verifyRawQuote_success_iff sessionLibraries.codecs .allGood (quoteFor userData)
    _).2 ⟨hsome, ⟨rfl, rfl, rfl, rfl⟩, quoteFor_not_debug userData, rfl⟩
  exact ⟨htime, _, _, hne, hdecodes, congrArg some hraw.1,
    ⟨rfl, ⟨0, Finset.mem_singleton_self _, rfl⟩, rfl⟩⟩

/-- Bob accepts the report for his key and Alice's. -/
theorem sample_session_accepted :
    Answers (untrustedVerify sessionLibraries.sha256 sessionLibraries.codecs (.allGood 150)
      acceptingAttestor
      (.timed (prepareUserInfo sampleBob sampleAlice sampleArbiter sampleToken) 100 100)
      sampleSessionReport []) true := by
  have hprepares : Prepares sampleSuite.toSuite sessionLibraries sampleStart sampleSession.aliceHex
      sampleSession.bobHex samplePrepareIo (.ok (some sampleSession.outputs)) _ :=
    prepares_of_eq (sample_prepare sampleStart)
  have htime : sampleSession.timestamp = 100 := UInt64.toUInt64_toInt64 100
  have hdelivers : DeliversFor sessionLibraries samplePrepareIo.report sampleSession.userInfo
      sampleSession.timestamp := htime ▸ sample_session_delivers
  obtain ⟨-, huntrusted⟩ := (session_report_binding hprepares hdelivers rfl 100 100).1 sampleBob
    sampleAlice sampleArbiter sampleToken rfl rfl rfl rfl fun _ => by
      rw [htime, Session.userInfo, prepareUserInfo_swap sampleAlice sampleBob]
      rfl
  have hfresh : ¬ (VerifyCall.timed (prepareUserInfo sampleBob sampleAlice sampleArbiter
      sampleToken) 100 100).TimeFails (.ok 150) := fun h => absurd (h 150 rfl) (by decide)
  exact (huntrusted (.allGood 150) acceptingAttestor []
    (sample_othersPass (reportWith_ne_nil _) decodeReports_session hfresh)).2
    ⟨.inr ⟨rfl, rfl⟩, rfl, rfl, htime.symm⟩

section

variable {Point Key : Type} {suite : Suite Point Key} {lib : Libraries} {mpd : Mpd}

/-- **What the report of a result is bound to.** Where the other checks are passed, it is accepted,
with tokens of one length, exactly for the result, the token and the timestamp. -/
theorem result_report_binding {self arbiter : TrustedArbiter Point Key} {request : Request}
    {io : CompareIo} {outputs : Compared}
    (hcompares : Compares suite lib mpd self request io (.ok (some outputs)) arbiter)
    (hdelivers : DeliversFor lib io.report
      (outputs.comparisonResult ++ request.oneTimeAccessToken) outputs.compareTimestamp.toUInt64)
    {result token : List UInt8} {timestamp : UInt64}
    (htoken : token.length = request.oneTimeAccessToken.length)
    (hapart : Apart lib (outputs.comparisonResult ++ request.oneTimeAccessToken) (result ++ token)
      outputs.compareTimestamp.toUInt64 timestamp) (validitySeconds : UInt64) :
    AnswersExactly lib (.timed (result ++ token) timestamp validitySeconds) outputs.quoteReport
      (result = outputs.comparisonResult ∧ token = request.oneTimeAccessToken ∧
        timestamp = outputs.compareTimestamp.toUInt64) := by
  have hcreated : ∃ attestor, RemoteAttestor.trusted.createReportTimed lib.encodeToBase64 lib.sha256
      io.report (outputs.comparisonResult ++ request.oneTimeAccessToken)
      outputs.compareTimestamp.toUInt64 [] = (true, attestor, outputs.quoteReport) := by
    cases hcompares with
    | accepted greater now report attestor hjudges hnow hreport =>
        rw [hjudges.token]
        exact ⟨attestor, hreport⟩
  obtain ⟨attestor, hcreated⟩ := hcreated
  apply answersExactly_of_iff hcreated hdelivers hapart
  constructor
  · rintro ⟨rfl, rfl, rfl⟩
    exact ⟨rfl, rfl⟩
  · rintro ⟨heq, htime⟩
    obtain ⟨hresult, htokens⟩ := List.append_inj' heq htoken.symm
    exact ⟨hresult.symm, htokens.symm, htime.symm⟩

end

/-- The result of the sample is accepted for the token. -/
theorem sample_result_accepted :
    Answers (untrustedVerify sessionLibraries.sha256 sessionLibraries.codecs (.allGood 150)
      acceptingAttestor (.timed (aliceIsNotRicher ++ sampleToken) 150 100)
      sampleResultReport []) true := by
  have hcompares : Compares sampleSuite.toSuite sessionLibraries Mpd.reference
      (sampleReady sampleStart) sampleRequest sampleCompareIo (.ok (some sampleCompared)) _ :=
    compares_of_eq (sample_compare sampleStart)
  have htime : sampleCompared.compareTimestamp.toUInt64 = 150 := UInt64.toUInt64_toInt64 150
  have hdelivers : DeliversFor sessionLibraries sampleCompareIo.report
      (sampleCompared.comparisonResult ++ sampleRequest.oneTimeAccessToken)
      sampleCompared.compareTimestamp.toUInt64 := by
    rw [htime]
    exact sample_result_delivers
  have hapart : Apart sessionLibraries
      (sampleCompared.comparisonResult ++ sampleRequest.oneTimeAccessToken)
      (aliceIsNotRicher ++ sampleToken) sampleCompared.compareTimestamp.toUInt64 150 := fun _ => by
    rw [htime]
    rfl
  obtain ⟨-, huntrusted⟩ := result_report_binding hcompares hdelivers rfl hapart 100
  have hfresh : ¬ (VerifyCall.timed (aliceIsNotRicher ++ sampleToken) 150 100).TimeFails
      (.ok 150) := fun h => absurd (h 150 rfl) (by decide)
  exact (huntrusted (.allGood 150) acceptingAttestor []
    (sample_othersPass (reportWith_ne_nil _) decodeReports_result hfresh)).2
    ⟨rfl, rfl, htime.symm⟩

end Ssgx.Arbiter
