import Mathlib.Data.Set.Insert
import Ssgx.Attestation.Attestor

/-!
# The acceptance policy

What `VerifyReport` is for: a report is accepted when it decodes to a quote, the quote verifies, its
enclave is not a debug enclave, nothing has expired, the verdict is one of the accepted results, and
the quote was made for the user data (`Accepts`). The accepted results are those of the last call of
`SetAcceptableResults`; only `Ok` is accepted where the last call names none or there was no call
(`policySet`).

The enclave's attestor follows the policy. The attestor outside the enclave starts with the empty
set and not with `Ok`: it follows the policy as soon as `SetAcceptableResults` was called
(`bothFollow_iff`), and before that it accepts nothing (`fresh_untrusted_rejects`).
-/

set_option autoImplicit false

namespace Ssgx.Attestation

open Ssgx.Support

/-! ## The policy -/

/-- What the verification of a quote gave. -/
structure QuoteOutcome where
  verdict : UInt32
  collateralExpirationStatus : UInt32

/-- The policy accepts the report on account of this quote. -/
structure Accepts (codecs : Codecs) (accepted : Set UInt32)
    (gives : List UInt8 → QuoteOutcome → Prop) (userData : UserData) (report : Str)
    (quote : List UInt8) : Prop where
  decodes : codecs.decodeFromBase64 report = some quote
  present : quote ≠ []
  verified : ∃ outcome, gives quote outcome ∧ outcome.verdict ∈ accepted ∧
    outcome.collateralExpirationStatus = 0
  notDebug : ¬ IsDebug quote
  madeFor : reportData quote = userData.toList

/-- The accepted results after calls of `SetAcceptableResults` with these lists. -/
def policySet (calls : List (List QvResult)) : Set UInt32 :=
  match calls.getLast? with
  | none => {fromQvResult .ok}
  | some [] => {fromQvResult .ok}
  | some acceptedResults => {verdict | ∃ result ∈ acceptedResults, fromQvResult result = verdict}

/-- The lists of the calls of `SetAcceptableResults` in a run. -/
def setCalls {Io : Type} (ops : List (AttestorOp Io)) : List (List QvResult) :=
  ops.filterMap fun op =>
    match op with
    | .setAcceptableResults acceptedResults => some acceptedResults
    | .verifyReport _ _ _ _ => none

/-- The call returns true, and gives out this hash. -/
def ReturnsTrue (result : Option (Bool × RemoteAttestor × Str)) (hex : Str) : Prop :=
  ∃ attestor, result = some (true, attestor, hex)

/-- The call returns true exactly where the policy accepts, with the hash of the accepted quote. -/
def Follows (codecs : Codecs) (accepted : Set UInt32) (gives : List UInt8 → QuoteOutcome → Prop)
    (userData : UserData) (report : Str) (result : Option (Bool × RemoteAttestor × Str)) : Prop :=
  ∀ hex, ReturnsTrue result hex ↔
    ∃ quote, Accepts codecs accepted gives userData report quote ∧
      hex = codecs.encodeToHex (mrEnclave quote)

/-- What the calls of a verification in the enclave give for a quote. -/
def TrustedIo.Gives (tvl : TvlArgs → UInt32) (io : TrustedIo) (quote : List UInt8)
    (outcome : QuoteOutcome) : Prop :=
  io.Verifies tvl quote ∧
    outcome = ⟨io.answer.quoteVerificationResult, io.answer.collateralExpirationStatus⟩

/-- What the calls of a verification outside the enclave give. -/
def UntrustedIo.Gives (io : UntrustedIo) (_quote : List UInt8) (outcome : QuoteOutcome) : Prop :=
  io.Verifies ∧ outcome = ⟨io.quoteVerificationResult, io.collateralExpirationStatus⟩

/-! ## The accepted set of a run -/

theorem mem_acceptedOf {acceptedResults : List QvResult} {verdict : UInt32} :
    verdict ∈ acceptedOf acceptedResults ↔ verdict ∈ policySet [acceptedResults] := by
  cases acceptedResults with
  | nil => exact Finset.mem_singleton
  | cons result rest =>
      show verdict ∈ ((result :: rest).map fromQvResult).toFinset ↔
        ∃ result' ∈ result :: rest, fromQvResult result' = verdict
      rw [List.mem_toFinset, List.mem_map]

/-- Only the last call counts. -/
theorem runFrom_acceptedStep {Io : Type} (accepted : Finset UInt32) (ops : List (AttestorOp Io)) :
    runFrom acceptedStep accepted ops =
      match (setCalls ops).getLast? with
      | none => accepted
      | some acceptedResults => acceptedOf acceptedResults := by
  induction ops generalizing accepted with
  | nil => rfl
  | cons op ops ih =>
      cases op with
      | setAcceptableResults acceptedResults =>
          show runFrom acceptedStep (acceptedOf acceptedResults) ops =
            match (acceptedResults :: setCalls ops).getLast? with
            | none => accepted
            | some results => acceptedOf results
          rw [ih, List.getLast?_cons]
          cases (setCalls ops).getLast? with
          | none => rfl
          | some results => rfl
      | verifyReport io userData report hex => exact ih accepted

/-- Behind a call of `SetAcceptableResults`, or from `Ok` on, the accepted set is the policy's. -/
theorem mem_runFrom_acceptedStep {Io : Type} {accepted : Finset UInt32}
    {ops : List (AttestorOp Io)} (h : setCalls ops ≠ [] ∨ accepted = {fromQvResult .ok})
    (verdict : UInt32) :
    verdict ∈ runFrom acceptedStep accepted ops ↔ verdict ∈ policySet (setCalls ops) := by
  rw [runFrom_acceptedStep]
  simp only [policySet]
  cases hlast : (setCalls ops).getLast? with
  | none =>
      have hnone : setCalls ops = [] := List.getLast?_eq_none_iff.1 hlast
      rcases h with hcall | rfl
      · exact absurd hnone hcall
      · exact Finset.mem_singleton
  | some acceptedResults => exact mem_acceptedOf

/-! ## The attestors follow it -/

section Follows

variable {texts : VerifyTexts} {codecs : Codecs} {verifyRaw : List UInt8 → Option RawVerdict}
  {gives : List UInt8 → QuoteOutcome → Prop} {attestor : RemoteAttestor} {userData : UserData}
  {report hex : Str}

/-- `VerifyReport` follows the policy of its accepted set, over every verification of raw quotes
that succeeds for the quotes that are there, verify and are of no debug enclave. -/
theorem verifyReport_follows
    (hraw : ∀ quote v, (verifyRaw quote = some v ∧ v.code = .success) ↔
      quote ≠ [] ∧ ¬ IsDebug quote ∧ ∃ outcome, gives quote outcome ∧
        v = ⟨.success, codecs.encodeToHex (mrEnclave quote), some outcome.verdict,
          outcome.collateralExpirationStatus, []⟩) :
    Follows codecs ↑attestor.acceptedQvResults gives userData report
      (attestor.verifyReport texts codecs verifyRaw userData report hex) := by
  intro hex'
  simp only [ReturnsTrue]
  rw [verifyReport_true_iff]
  constructor
  · rintro ⟨quote, v, -, hdecode, hv, hpasses, rfl⟩
    obtain ⟨hpresent, hdebug, outcome, hgives, rfl⟩ := (hraw quote v).1 ⟨hv, hpasses.code⟩
    obtain ⟨verdict, haccepted, hverdict⟩ := hpasses.verdict
    obtain rfl := Option.some.inj hverdict
    exact ⟨quote, ⟨hdecode, hpresent, ⟨outcome, hgives, haccepted, hpasses.expiration⟩, hdebug,
      hpasses.reportData⟩, rfl⟩
  · rintro ⟨quote, h, rfl⟩
    obtain ⟨outcome, hgives, haccepted, hexpiration⟩ := h.verified
    obtain ⟨hv, hcode⟩ := (hraw quote _).2 ⟨h.present, h.notDebug, outcome, hgives, rfl⟩
    -- an empty report decodes to no quote, and the policy asks for one
    have hreport : report ≠ [] := by
      rintro rfl
      exact h.present (codecs.decode_nil quote h.decodes)
    exact ⟨quote, _, hreport, h.decodes, hv,
      ⟨hcode, ⟨outcome.verdict, haccepted, rfl⟩, hexpiration, h.madeFor⟩, rfl⟩

theorem trustedVerifyReport_follows {tvl : TvlArgs → UInt32} {io : TrustedIo} :
    Follows codecs ↑attestor.acceptedQvResults (io.Gives tvl) userData report
      (trustedVerifyReport codecs tvl attestor io userData report hex) := by
  apply verifyReport_follows
  intro quote v
  rw [verifyRawQuoteWithQvE_success_iff]
  constructor
  · rintro ⟨hpresent, hverifies, hdebug, rfl⟩
    exact ⟨hpresent, hdebug, _, ⟨hverifies, rfl⟩, rfl⟩
  · rintro ⟨hpresent, hdebug, outcome, ⟨hverifies, rfl⟩, rfl⟩
    exact ⟨hpresent, hverifies, hdebug, rfl⟩

theorem untrustedVerifyReport_follows {io : UntrustedIo} :
    Follows codecs ↑attestor.acceptedQvResults io.Gives userData report
      (untrustedVerifyReport codecs attestor io userData report hex) := by
  apply verifyReport_follows
  intro quote v
  rw [Option.some.injEq, verifyRawQuote_success_iff]
  constructor
  · rintro ⟨hpresent, hverifies, hdebug, rfl⟩
    exact ⟨hpresent, hdebug, _, ⟨hverifies, rfl⟩, rfl⟩
  · rintro ⟨hpresent, hdebug, outcome, ⟨hverifies, rfl⟩, rfl⟩
    exact ⟨hpresent, hverifies, hdebug, rfl⟩

/-- Two accepted sets with the same members give the same policy. -/
theorem Follows.congr {accepted accepted' : Set UInt32}
    {result : Option (Bool × RemoteAttestor × Str)}
    (h : Follows codecs accepted gives userData report result)
    (hsets : ∀ verdict, verdict ∈ accepted ↔ verdict ∈ accepted') :
    Follows codecs accepted' gives userData report result := by
  rwa [Set.ext hsets] at h

end Follows

/-- The enclave's attestor follows the policy behind every run. -/
theorem trustedRun_follows (codecs : Codecs) (tvl : TvlArgs → UInt32)
    (ops : List (AttestorOp TrustedIo)) (io : TrustedIo) (userData : UserData) (report hex : Str) :
    Follows codecs (policySet (setCalls ops)) (io.Gives tvl) userData report
      (trustedVerifyReport codecs tvl (trustedRun codecs tvl ops) io userData report hex) := by
  apply trustedVerifyReport_follows.congr
  intro verdict
  rw [Finset.mem_coe, accepted_trustedRun]
  exact mem_runFrom_acceptedStep (Or.inr rfl) verdict

/-- The attestor outside the enclave follows the policy behind every run in which
`SetAcceptableResults` was called. -/
theorem untrustedRun_follows (codecs : Codecs) {ops : List (AttestorOp UntrustedIo)}
    (hcalls : setCalls ops ≠ []) (io : UntrustedIo) (userData : UserData) (report hex : Str) :
    Follows codecs (policySet (setCalls ops)) io.Gives userData report
      (untrustedVerifyReport codecs (untrustedRun codecs ops) io userData report hex) := by
  apply untrustedVerifyReport_follows.congr
  intro verdict
  rw [Finset.mem_coe, accepted_untrustedRun]
  exact mem_runFrom_acceptedStep (Or.inl hcalls) verdict

/-- Before the first call of `SetAcceptableResults` the attestor outside the enclave accepts
nothing. -/
theorem fresh_untrusted_rejects (codecs : Codecs) {ops : List (AttestorOp UntrustedIo)}
    (hcalls : setCalls ops = []) (io : UntrustedIo) (userData : UserData) (report hex hex' : Str) :
    ¬ ReturnsTrue
      (untrustedVerifyReport codecs (untrustedRun codecs ops) io userData report hex) hex' := by
  intro h
  obtain ⟨quote, haccepts, -⟩ := (untrustedVerifyReport_follows hex').1 h
  obtain ⟨outcome, -, hmem, -⟩ := haccepts.verified
  -- the accepted set is still the empty one of the constructor
  rw [Finset.mem_coe, accepted_untrustedRun, runFrom_acceptedStep, hcalls] at hmem
  exact absurd hmem (Finset.notMem_empty outcome.verdict)

/-! ## Both attestors -/

/-- Both attestors, each behind a run of its own, follow the policy on a report, and with the same
accepted results and the same outcome for its quote they give the same answer. -/
structure BothFollow (codecs : Codecs) (tvl : TvlArgs → UInt32)
    (trustedOps : List (AttestorOp TrustedIo)) (untrustedOps : List (AttestorOp UntrustedIo))
    (trustedIo : TrustedIo) (untrustedIo : UntrustedIo) (userData : UserData)
    (report hex : Str) : Prop where
  trusted : Follows codecs (policySet (setCalls trustedOps)) (trustedIo.Gives tvl) userData report
    (trustedVerifyReport codecs tvl (trustedRun codecs tvl trustedOps) trustedIo userData report
      hex)
  untrusted : Follows codecs (policySet (setCalls untrustedOps)) untrustedIo.Gives userData report
    (untrustedVerifyReport codecs (untrustedRun codecs untrustedOps) untrustedIo userData report
      hex)
  sameAnswer : policySet (setCalls trustedOps) = policySet (setCalls untrustedOps) →
    (∀ quote, codecs.decodeFromBase64 report = some quote →
      ∀ outcome, trustedIo.Gives tvl quote outcome ↔ untrustedIo.Gives quote outcome) →
    ∀ hex', ReturnsTrue
      (trustedVerifyReport codecs tvl (trustedRun codecs tvl trustedOps) trustedIo userData report
        hex) hex' ↔
      ReturnsTrue
        (untrustedVerifyReport codecs (untrustedRun codecs untrustedOps) untrustedIo userData report
          hex) hex'

/-- The policy depends on the outcomes for the quote of the report only. -/
theorem Accepts.of_gives {codecs : Codecs} {accepted : Set UInt32}
    {gives gives' : List UInt8 → QuoteOutcome → Prop} {userData : UserData} {report : Str}
    {quote : List UInt8} (h : Accepts codecs accepted gives userData report quote)
    (hgives : ∀ outcome, gives quote outcome → gives' quote outcome) :
    Accepts codecs accepted gives' userData report quote := by
  obtain ⟨outcome, hgave, hrest⟩ := h.verified
  exact ⟨h.decodes, h.present, ⟨outcome, hgives outcome hgave, hrest⟩, h.notDebug, h.madeFor⟩

/-- Two calls that follow the policy with the same accepted results and the same outcome for the
quote of the report give the same answer. -/
theorem Follows.sameAnswer {codecs : Codecs} {accepted : Set UInt32}
    {gives gives' : List UInt8 → QuoteOutcome → Prop} {userData : UserData} {report : Str}
    {result result' : Option (Bool × RemoteAttestor × Str)}
    (h : Follows codecs accepted gives userData report result)
    (h' : Follows codecs accepted gives' userData report result')
    (hgives : ∀ quote, codecs.decodeFromBase64 report = some quote →
      ∀ outcome, gives quote outcome ↔ gives' quote outcome) (hex : Str) :
    ReturnsTrue result hex ↔ ReturnsTrue result' hex := by
  rw [h hex, h' hex]
  constructor
  · rintro ⟨quote, haccepts, hhash⟩
    exact ⟨quote, haccepts.of_gives fun outcome => (hgives quote haccepts.decodes outcome).1, hhash⟩
  · rintro ⟨quote, haccepts, hhash⟩
    exact ⟨quote, haccepts.of_gives fun outcome => (hgives quote haccepts.decodes outcome).2, hhash⟩

/-- **The acceptance policy.** Both attestors follow it exactly when `SetAcceptableResults` was
called on the attestor outside the enclave, or the policy that accepts `Ok` alone rejects the
report. -/
theorem bothFollow_iff (codecs : Codecs) (tvl : TvlArgs → UInt32)
    (trustedOps : List (AttestorOp TrustedIo)) (untrustedOps : List (AttestorOp UntrustedIo))
    (trustedIo : TrustedIo) (untrustedIo : UntrustedIo) (userData : UserData) (report hex : Str) :
    BothFollow codecs tvl trustedOps untrustedOps trustedIo untrustedIo userData report hex ↔
      setCalls untrustedOps ≠ [] ∨
        ∀ quote, ¬ Accepts codecs {fromQvResult .ok} untrustedIo.Gives userData report quote := by
  constructor
  · intro h
    by_cases hcalls : setCalls untrustedOps = []
    -- a report that the policy accepts would have to be accepted by a set that is empty
    · refine Or.inr fun quote haccepts => ?_
      have hfollows := h.untrusted
      rw [hcalls] at hfollows
      exact fresh_untrusted_rejects codecs hcalls untrustedIo userData report hex _
        ((hfollows _).2 ⟨quote, haccepts, rfl⟩)
    · exact Or.inl hcalls
  · intro h
    have htrusted := trustedRun_follows codecs tvl trustedOps trustedIo userData report hex
    have huntrusted : Follows codecs (policySet (setCalls untrustedOps)) untrustedIo.Gives userData
        report (untrustedVerifyReport codecs (untrustedRun codecs untrustedOps) untrustedIo userData
          report hex) := by
      by_cases hcalls : setCalls untrustedOps = []
      · -- nothing is accepted, and the policy rejects the report
        rcases h with hcall | hrejects
        · exact absurd hcalls hcall
        · intro hex'
          rw [hcalls]
          refine ⟨fun htrue => absurd htrue
            (fresh_untrusted_rejects codecs hcalls untrustedIo userData report hex hex'), ?_⟩
          rintro ⟨quote, haccepts, -⟩
          exact absurd haccepts (hrejects quote)
      · exact untrustedRun_follows codecs hcalls untrustedIo userData report hex
    refine ⟨htrusted, huntrusted, fun hsets hgives => ?_⟩
    rw [hsets] at htrusted
    exact htrusted.sameAnswer huntrusted hgives

/-! ### A fresh attestor outside the enclave -/

/-- `productionQuote` in base64. -/
def productionReport : Str :=
  List.replicate 128 'A' ++ str "BQAA" ++ List.replicate 448 'A' ++ str "AA=="

/-- Base64 on one report, and hex. -/
def Codecs.only (report : Str) (quote : List UInt8) (h : report ≠ []) : Codecs where
  decodeFromBase64 := fun text => if text = report then some quote else none
  encodeToHex := fun bytes =>
    bytes.flatMap fun b => [Nat.digitChar (b.toNat / 16), Nat.digitChar (b.toNat % 16)]
  decode_nil := by
    intro quote' hquote
    rw [if_neg h.symm] at hquote
    cases hquote

theorem Codecs.decode_only (report : Str) (quote : List UInt8) (h : report ≠ []) :
    (Codecs.only report quote h).decodeFromBase64 report = some quote := if_pos rfl

/-- Base64 on `productionReport`. -/
def productionCodecs : Codecs :=
  .only productionReport productionQuote (List.append_ne_nil_of_right_ne_nil _ (by decide))

/-- Every call succeeds, the verdict is `Ok`, nothing has expired. -/
def UntrustedIo.allGood : UntrustedIo := ⟨0, 336, 336, true, 0, 0, 0⟩

/-- A host that answers with the verdict `Ok`. -/
def TrustedIo.allGood : TrustedIo :=
  ⟨List.Vector.replicate 16 7, 0, [], ⟨0, 0, ⟨List.Vector.replicate 16 7, [], none⟩, 0, 0, 0,
    .outside []⟩, true⟩

/-- Nobody called `SetAcceptableResults`. The report verifies with `Ok`, and the attestor outside
the enclave rejects it. -/
theorem fresh_untrusted_rejects_ok :
    ¬ BothFollow productionCodecs (fun _ => sgxSuccess) [] [] .allGood .allGood
      (List.Vector.replicate 64 0) productionReport [] := by
  intro h
  have haccepts : Accepts productionCodecs {fromQvResult .ok} UntrustedIo.allGood.Gives
      (List.Vector.replicate 64 0) productionReport productionQuote :=
    ⟨Codecs.decode_only _ _ _, by decide, ⟨⟨0, 0⟩, ⟨⟨rfl, rfl, rfl, rfl⟩, rfl⟩, rfl, rfl⟩,
      by decide, by decide⟩
  exact fresh_untrusted_rejects productionCodecs rfl .allGood _ _ _ _
    ((h.untrusted _).2 ⟨_, haccepts, rfl⟩)

end Ssgx.Attestation
