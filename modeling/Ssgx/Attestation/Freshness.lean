import Ssgx.Attestation.Trusted
import Ssgx.Support.Challenge
import Ssgx.Support.Run

/-!
# Freshness of the verifications in the enclave

A report of the QvE binds a nonce, a quote, and the results for it; nobody but the QvE can make one.
The host has it make reports, for any nonce and at any time, keeps them all, and answers the calls
of the enclave with bytes of its choice. `sgx_tvl_verify_qve_report_and_identity` accepts a report
that the QvE has made and that says what the other arguments say, the nonce of `qve_report_info`
among them (`tvlOf`).

A run is a list of reports made and of calls of `VerifyRawQuoteWithQvE`. A call is fresh when the
report it accepted was made for the nonce it drew itself. Nothing in the code compares this nonce
with the one that comes back from the host: the calls of a run are fresh exactly when the host hands
the nonce back unchanged (`fresh_along_iff`), and then no report is accepted twice
(`acceptedReports_nodup`).
-/

set_option autoImplicit false

namespace Ssgx.Attestation

open Ssgx.Support

/-! ## The reports of the QvE -/

/-- The report says what the arguments say. -/
structure QveReport.Matches (r : QveReport) (args : TvlArgs) : Prop where
  nonce : r.nonce = args.qveReportInfo.nonce
  quote : r.quote = args.quote.take args.quoteSize
  expirationCheckDate : r.expirationCheckDate = args.expirationCheckDate
  collateralExpirationStatus : r.collateralExpirationStatus = args.collateralExpirationStatus
  quoteVerificationResult : r.quoteVerificationResult = args.quoteVerificationResult
  supplementalData : r.supplementalData = args.supplementalData
  supplementalDataSize : r.supplementalData.length = args.supplementalDataSize

instance (r : QveReport) (args : TvlArgs) : Decidable (r.Matches args) :=
  decidable_of_iff
    (r.nonce = args.qveReportInfo.nonce ∧ r.quote = args.quote.take args.quoteSize ∧
      r.expirationCheckDate = args.expirationCheckDate ∧
      r.collateralExpirationStatus = args.collateralExpirationStatus ∧
      r.quoteVerificationResult = args.quoteVerificationResult ∧
      r.supplementalData = args.supplementalData ∧
      r.supplementalData.length = args.supplementalDataSize)
    ⟨fun ⟨h₁, h₂, h₃, h₄, h₅, h₆, h₇⟩ => ⟨h₁, h₂, h₃, h₄, h₅, h₆, h₇⟩,
      fun ⟨h₁, h₂, h₃, h₄, h₅, h₆, h₇⟩ => ⟨h₁, h₂, h₃, h₄, h₅, h₆, h₇⟩⟩

/-- `sgx_tvl_verify_qve_report_and_identity`, with the reports that the QvE has made and the error
codes it gives for any other. -/
def tvlOf (failure : TvlArgs → { code : UInt32 // code ≠ sgxSuccess }) (issued : List QveReport)
    (args : TvlArgs) : UInt32 :=
  match args.qveReportInfo.qeReport with
  | none => (failure args).1
  | some r => if r ∈ issued ∧ r.Matches args then sgxSuccess else (failure args).1

/-- An accepted report is one that the QvE has made, and it says what the arguments say. -/
theorem tvlOf_eq_success_iff {failure : TvlArgs → { code : UInt32 // code ≠ sgxSuccess }}
    {issued : List QveReport} {args : TvlArgs} :
    tvlOf failure issued args = sgxSuccess ↔
      ∃ r, args.qveReportInfo.qeReport = some r ∧ r ∈ issued ∧ r.Matches args := by
  simp only [tvlOf]
  cases args.qveReportInfo.qeReport with
  | none =>
      refine ⟨fun h => absurd h (failure args).2, ?_⟩
      rintro ⟨r, hnone, -⟩
      cases hnone
  | some r =>
      dsimp only
      by_cases h : r ∈ issued ∧ r.Matches args
      · rw [if_pos h]
        exact ⟨fun _ => ⟨r, rfl, h⟩, fun _ => rfl⟩
      · rw [if_neg h]
        refine ⟨fun hcode => absurd hcode (failure args).2, ?_⟩
        rintro ⟨r', hr, hrest⟩
        obtain rfl := Option.some.inj hr
        exact absurd hrest h

/-! ## Runs -/

/-- The QvE makes a report for the host, or the enclave calls `VerifyRawQuoteWithQvE`. A report that
is made during a call comes before the call in the list. -/
inductive HostEvent where
  | issue (r : QveReport)
  | verify (quote : List UInt8) (io : TrustedIo)

/-- The reports made so far, and the rounds of the calls: the nonce of each call that drew one, with
the report it accepted. -/
structure HostState where
  issued : List QveReport
  rounds : List (Round Nonce QveReport)

/-- Nothing has happened. -/
def HostState.start : HostState := ⟨[], []⟩

section Runs

variable (codecs : Codecs) (failure : TvlArgs → { code : UInt32 // code ≠ sgxSuccess })

/-- The report that a call accepts, where it ends in success. -/
def acceptedReport (s : HostState) (quote : List UInt8) (io : TrustedIo) : Option QveReport :=
  match verifyRawQuoteWithQvE codecs (tvlOf failure s.issued) io quote with
  | none => none
  | some v => if v.code = .success then io.answer.qveReportInfo.qeReport else none

/-- What an event does. A call for no quote comes back before it draws a nonce. -/
def hostStep (s : HostState) : HostEvent → HostState
  | .issue r => { s with issued := r :: s.issued }
  | .verify quote io =>
      if quote.isEmpty then s
      else { s with rounds := ⟨io.nonce, acceptedReport codecs failure s quote io⟩ :: s.rounds }

/-- A call draws a nonce that no call before it drew. -/
def NonceNew (s : HostState) : HostEvent → Prop
  | .issue _ => True
  | .verify quote io => quote ≠ [] → io.nonce ∉ drawnChallenges s.rounds

/-- The result `v` of a call comes from the report `r`, and `r` was made for the nonce that the call
drew, and for none of an earlier call. -/
structure FreshResult (s : HostState) (quote : List UInt8) (io : TrustedIo) (v : RawVerdict)
    (r : QveReport) : Prop where
  handedBack : io.answer.qveReportInfo.qeReport = some r
  issued : r ∈ s.issued
  matching : r.Matches (io.tvlArgs quote)
  verdict : v.qvResult = some r.quoteVerificationResult
  expiration : v.collateralExpirationStatus = r.collateralExpirationStatus
  nonce : r.nonce = io.nonce
  notEarlier : r.nonce ∉ drawnChallenges s.rounds

/-- A call that ends in success has a fresh result. -/
def Fresh (s : HostState) : HostEvent → Prop
  | .issue _ => True
  | .verify quote io => ∀ v,
      verifyRawQuoteWithQvE codecs (tvlOf failure s.issued) io quote = some v → v.code = .success →
        ∃ r, FreshResult s quote io v r

/-- In the answer to a call that passes every check, the host hands back the nonce it was given. -/
def NonceKept (s : HostState) : HostEvent → Prop
  | .issue _ => True
  | .verify quote io => quote ≠ [] → io.Verifies (tvlOf failure s.issued) quote → ¬ IsDebug quote →
      io.answer.qveReportInfo.nonce = io.nonce

end Runs

section Freshness

variable {codecs : Codecs} {failure : TvlArgs → { code : UInt32 // code ≠ sgxSuccess }}
  {s : HostState} {quote : List UInt8} {io : TrustedIo}

/-! ## One call -/

/-- A call ends in success with the results of a report that the QvE has made, for the nonce that
came back from the host. -/
theorem success_report {v : RawVerdict}
    (h : verifyRawQuoteWithQvE codecs (tvlOf failure s.issued) io quote = some v)
    (hcode : v.code = .success) :
    ∃ r, io.answer.qveReportInfo.qeReport = some r ∧ r ∈ s.issued ∧ r.Matches (io.tvlArgs quote) ∧
      v.qvResult = some r.quoteVerificationResult ∧
      v.collateralExpirationStatus = r.collateralExpirationStatus := by
  obtain ⟨-, hverifies, -, rfl⟩ := verifyRawQuoteWithQvE_success_iff.1 ⟨h, hcode⟩
  obtain ⟨r, hhanded, hissued, hmatches⟩ := tvlOf_eq_success_iff.1 hverifies.report
  have hverdict : r.quoteVerificationResult = io.answer.quoteVerificationResult :=
    hmatches.quoteVerificationResult
  have hstatus : r.collateralExpirationStatus = io.answer.collateralExpirationStatus :=
    hmatches.collateralExpirationStatus
  refine ⟨r, hhanded, hissued, hmatches, ?_, hstatus.symm⟩
  rw [hverdict]

/-- **One call** with a new nonce is fresh exactly when the host keeps the nonce. -/
theorem fresh_iff_nonceKept {event : HostEvent} (hnew : NonceNew s event) :
    Fresh codecs failure s event ↔ NonceKept failure s event := by
  cases event with
  | issue r => exact Iff.rfl
  | verify quote io =>
      constructor
      · intro hfresh hpresent hverifies hdebug
        obtain ⟨hcall, hcode⟩ :=
          verifyRawQuoteWithQvE_success_iff.2 ⟨hpresent, hverifies, hdebug, rfl⟩
        -- the report matches the nonce that came back, and is fresh for the one that was drawn
        obtain ⟨r, hr⟩ := hfresh _ hcall hcode
        calc io.answer.qveReportInfo.nonce = r.nonce := hr.matching.nonce.symm
          _ = io.nonce := hr.nonce
      · intro hkept v hcall hcode
        obtain ⟨hpresent, hverifies, hdebug, -⟩ :=
          verifyRawQuoteWithQvE_success_iff.1 ⟨hcall, hcode⟩
        obtain ⟨r, hhanded, hissued, hmatches, hverdict, hexpiration⟩ := success_report hcall hcode
        -- nothing but the answer of the host links the report to the nonce of the call
        have hnonce : r.nonce = io.nonce :=
          hmatches.nonce.trans (hkept hpresent hverifies hdebug)
        refine ⟨r, hhanded, hissued, hmatches, hverdict, hexpiration, hnonce, ?_⟩
        rw [hnonce]
        exact hnew hpresent

/-- The report of a fresh call answers the nonce of the call. -/
theorem acceptedReport_answered (hfresh : Fresh codecs failure s (.verify quote io)) :
    (Round.mk io.nonce (acceptedReport codecs failure s quote io)).Answered QveReport.nonce := by
  intro r hr
  dsimp only at hr
  simp only [acceptedReport] at hr
  split at hr
  · cases hr
  · next v hcall =>
      split_ifs at hr with hcode
      obtain ⟨r', hr'⟩ := hfresh v hcall hcode
      obtain rfl := Option.some.inj (hr.symm.trans hr'.handedBack)
      exact hr'.nonce

/-! ## All calls -/

/-- No nonce was drawn twice, and every accepted report was made for the nonce of its call. -/
structure Answered (s : HostState) : Prop where
  noncesDiffer : (drawnChallenges s.rounds).Nodup
  answered : ∀ round ∈ s.rounds, round.Answered QveReport.nonce

/-- A fresh call with a new nonce keeps `Answered`. -/
theorem answered_step (s : HostState) (event : HostEvent)
    (h : NonceNew s event ∧ Fresh codecs failure s event) (hs : Answered s) :
    Answered (hostStep codecs failure s event) := by
  cases event with
  | issue r => exact ⟨hs.noncesDiffer, hs.answered⟩
  | verify quote io =>
      unfold hostStep
      dsimp only
      by_cases hempty : quote = []
      · rw [if_pos (List.isEmpty_iff.2 hempty)]
        exact hs
      · rw [if_neg (mt List.isEmpty_iff.1 hempty)]
        constructor
        · exact List.nodup_cons.2 ⟨h.1 hempty, hs.noncesDiffer⟩
        · intro round hround
          -- the round of this call answers by freshness, the rounds before it by the invariant
          rcases List.mem_cons.1 hround with rfl | hold
          · exact acceptedReport_answered h.2
          · exact hs.answered round hold

/-- **No replay.** In a run whose calls draw different nonces and are fresh, no report of the QvE is
accepted twice. -/
theorem acceptedReports_nodup {events : List HostEvent}
    (hnew : Along (hostStep codecs failure) NonceNew .start events)
    (hfresh : Along (hostStep codecs failure) (Fresh codecs failure) .start events) :
    (acceptedTokens (runFrom (hostStep codecs failure) .start events).rounds).Nodup := by
  have hend : Answered (runFrom (hostStep codecs failure) .start events) :=
    invariant_runFrom answered_step (hnew.and hfresh) ⟨List.nodup_nil, fun _ h => by cases h⟩
  exact acceptedTokens_nodup hend.answered hend.noncesDiffer

end Freshness

/-- **Freshness.** In a run whose calls draw different nonces, from any reports and calls before it,
the calls are fresh exactly when the host hands back the nonce in the answer to every call that
passes the checks. -/
theorem fresh_along_iff (codecs : Codecs)
    (failure : TvlArgs → { code : UInt32 // code ≠ sgxSuccess }) {s : HostState}
    {events : List HostEvent} (hnew : Along (hostStep codecs failure) NonceNew s events) :
    Along (hostStep codecs failure) (Fresh codecs failure) s events ↔
      Along (hostStep codecs failure) (NonceKept failure) s events :=
  hnew.congr fun _ _ => fresh_iff_nonceKept

/-! ### An honest host, and one that replays -/

/-- A report of the QvE on `productionQuote` with the verdict `Ok`. -/
def reportFor (nonce : UInt8) : QveReport :=
  ⟨List.Vector.replicate 16 nonce, productionQuote, 1700000000, 0, 0, [0]⟩

/-- A call that draws the nonce `own`. The host answers with the report for the nonce `given`. -/
def callAnswered (own given : UInt8) : TrustedIo where
  nonce := List.Vector.replicate 16 own
  selfTarget := 0
  targetInfo := []
  answer := ⟨0, 0, ⟨List.Vector.replicate 16 given, [], some (reportFor given)⟩, 1700000000, 0, 0,
    .outside [0]⟩
  mallocs := true

/-- No text is base64 here; the runs below decode none. -/
def hexOnly : Codecs where
  decodeFromBase64 := fun _ => none
  encodeToHex := fun bytes =>
    bytes.flatMap fun b => [Nat.digitChar (b.toNat / 16), Nat.digitChar (b.toNat % 16)]
  decode_nil := fun _ h => by cases h

/-- `SGX_QL_ERROR_UNEXPECTED` for every report that is not accepted. -/
def unexpected (_args : TvlArgs) : { code : UInt32 // code ≠ sgxSuccess } := ⟨0xE001, by decide⟩

/-- A call whose answer brings a report that the QvE has made passes every check. -/
theorem callAnswered_verifies {failure : TvlArgs → { code : UInt32 // code ≠ sgxSuccess }}
    {issued : List QveReport} (own : UInt8) {given : UInt8} (h : reportFor given ∈ issued) :
    (callAnswered own given).Verifies (tvlOf failure issued) productionQuote := by
  have hlength : productionQuote.length < 2 ^ 32 := by
    simp only [productionQuote, List.length_append, List.length_cons, List.length_replicate]
    decide
  have hquote : productionQuote = productionQuote.take (productionQuote.length % 2 ^ 32) := by
    rw [Nat.mod_eq_of_lt hlength, List.take_length]
  exact ⟨rfl, rfl, rfl, rfl, Or.inr rfl, tvlOf_eq_success_iff.2
    ⟨reportFor given, rfl, h, rfl, hquote, rfl, rfl, rfl, rfl, rfl⟩⟩

theorem honest_run_fresh :
    Along (hostStep hexOnly unexpected) (Fresh hexOnly unexpected) .start
      [.issue (reportFor 1), .verify productionQuote (callAnswered 1 1), .issue (reportFor 2),
        .verify productionQuote (callAnswered 2 2)] := by
  refine (fresh_along_iff hexOnly unexpected ?_).2 ?_
  · exact ⟨trivial, fun _ => List.not_mem_nil, trivial, fun _ => by decide, trivial⟩
  · exact ⟨trivial, fun _ _ _ => rfl, trivial, fun _ _ _ => rfl, trivial⟩

/-- The second call draws another nonce than the first. The host answers it with the report for the
first call, and puts the nonce of the first call in `qve_report_info`. -/
def replayingRun : List HostEvent :=
  [.issue (reportFor 1), .verify productionQuote (callAnswered 1 1),
    .verify productionQuote (callAnswered 2 1)]

/-- The second call of `replayingRun` ends in success with the report for the first. -/
theorem earlier_report_replayed :
    Along (hostStep hexOnly unexpected) NonceNew .start replayingRun ∧
      ¬ Along (hostStep hexOnly unexpected) (Fresh hexOnly unexpected) .start replayingRun := by
  refine ⟨⟨trivial, fun _ => List.not_mem_nil, fun _ => by decide, trivial⟩, fun h => ?_⟩
  obtain ⟨-, -, hfresh, -⟩ := h
  obtain ⟨hcall, hcode⟩ := verifyRawQuoteWithQvE_success_iff.2
    ⟨by decide, callAnswered_verifies 2 List.mem_cons_self, by decide, rfl⟩
  obtain ⟨r, hr⟩ := hfresh _ hcall hcode
  obtain rfl := Option.some.inj hr.handedBack
  exact absurd hr.nonce (by decide)

end Ssgx.Attestation
