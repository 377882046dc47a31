import Mathlib.Data.List.Basic
import Ssgx.Attestation.ErrorState
import Ssgx.Support.Digits

/-!
# What a report is bound to

A report for a `user_info` is bound to the SHA-256 digest of it, and one for a `user_info` with a
timestamp to the digest of `user_info&time=` with the timestamp in decimal. The timestamp can be
read from the end of that text, as its digits have no `=` (`timedUserInfo_injective`): two such
texts are the same only for the same `user_info` and timestamp.

The two ways are not kept apart: the text with a timestamp is a `user_info` like any other
(`bindings_meet_iff`).

`VerifyReport` accepts a report that passes its other checks exactly if the report data is that of
its own text (`trusted_answers_iff_check`, `untrusted_answers_iff_check`).
-/

set_option autoImplicit false

namespace Ssgx.Attestation

open Ssgx.Support

/-! ## The text with a timestamp -/

/-- A text is split at the last place of a mark that the rest does not have. -/
theorem split_at_last {α : Type} {m : α} {front front' rest rest' : List α} (h : m ∉ rest)
    (h' : m ∉ rest') (heq : front ++ m :: rest = front' ++ m :: rest') :
    front = front' ∧ rest = rest' := by
  rcases List.append_eq_append_iff.1 heq with ⟨gap, hfront, hrest⟩ | ⟨gap, hfront, hrest⟩
  · cases gap with
    | nil => exact ⟨by rw [hfront, List.append_nil], (List.cons.inj hrest).2⟩
    | cons c gap =>
        -- the mark of the right side would stand in the rest of the left
        rw [(List.cons.inj hrest).2] at h
        exact absurd (List.mem_append_right _ List.mem_cons_self) h
  · cases gap with
    | nil => exact ⟨by rw [hfront, List.append_nil], (List.cons.inj hrest).2.symm⟩
    | cons c gap =>
        rw [(List.cons.inj hrest).2] at h'
        exact absurd (List.mem_append_right _ List.mem_cons_self) h'

theorem asciiBytes_append (front back : Str) :
    asciiBytes (front ++ back) = asciiBytes front ++ asciiBytes back := List.map_append

/-- The byte of a digit is its code. -/
theorem toNat_digit_byte {c : Char} (h : c.isDigit = true) :
    (UInt8.ofNat c.toNat).toNat = c.toNat := by
  obtain ⟨-, hle⟩ := (isDigit_iff c).1 h
  rw [UInt8.toNat_ofNat']
  omega

/-- The digits can be read back from their bytes. -/
theorem chars_asciiBytes {digits : Str} (h : AllDigits digits) :
    (asciiBytes digits).map (fun b => Char.ofNat b.toNat) = digits := by
  rw [asciiBytes, List.map_map]
  refine (List.map_congr_left fun c hc => ?_).trans (List.map_id digits)
  rw [Function.comp_apply, toNat_digit_byte (h c hc), Char.ofNat_toNat, id]

/-- No digit is `=`. -/
theorem equals_not_mem_digits {digits : Str} (h : AllDigits digits) :
    (61 : UInt8) ∉ asciiBytes digits := by
  intro hmem
  obtain ⟨c, hc, hbyte⟩ := List.mem_map.1 hmem
  have hcode := toNat_digit_byte (h c hc)
  rw [hbyte] at hcode
  obtain ⟨-, hle⟩ := (isDigit_iff c).1 (h c hc)
  have h61 : (61 : UInt8).toNat = 61 := rfl
  omega

theorem timedUserInfo_eq (userInfo : List UInt8) (timestamp : UInt64) :
    timedUserInfo userInfo timestamp =
      (userInfo ++ asciiBytes (str "&time")) ++ 61 :: asciiBytes (decimal timestamp.toNat) := by
  have hmark : asciiBytes (str "&time=") = asciiBytes (str "&time") ++ [61] := rfl
  rw [timedUserInfo, asciiBytes_append, hmark]
  simp only [List.append_assoc, List.singleton_append]

/-- **The text with a timestamp determines both.** -/
theorem timedUserInfo_injective {userInfo userInfo' : List UInt8} {timestamp timestamp' : UInt64}
    (h : timedUserInfo userInfo timestamp = timedUserInfo userInfo' timestamp') :
    userInfo = userInfo' ∧ timestamp = timestamp' := by
  rw [timedUserInfo_eq, timedUserInfo_eq] at h
  obtain ⟨hfront, hdigits⟩ := split_at_last (equals_not_mem_digits (allDigits_decimal _))
    (equals_not_mem_digits (allDigits_decimal _)) h
  refine ⟨List.append_cancel_right hfront, ?_⟩
  have hchars := congrArg (List.map fun b : UInt8 => Char.ofNat b.toNat) hdigits
  rw [chars_asciiBytes (allDigits_decimal _), chars_asciiBytes (allDigits_decimal _)] at hchars
  exact UInt64.toNat_inj.1 (decimal_injective hchars)

/-! ## The check of the user data -/

/-- The two texts have no collision. -/
def NoCollision (sha256 : Sha256) (text text' : List UInt8) : Prop :=
  sha256 text = sha256 text' → text = text'

/-- The `memcmp` of `VerifyReport`: the report data of the quote is the user data of the call. -/
def UserDataCheck (codecs : Codecs) (report : Str) (userData : UserData) : Prop :=
  ∃ quote, codecs.decodeFromBase64 report = some quote ∧ reportData quote = userData.toList

/-- The platform makes a quote with the report data it is given, and Base64 decodes to the quote. -/
structure CreateIo.Delivers (io : CreateIo) (lib : Libraries) (userData : UserData) : Prop where
  quoted : reportData (io.quote userData) = userData.toList
  decodes : lib.codecs.decodeFromBase64 (lib.encodeToBase64 (io.quote userData)) =
    some (io.quote userData)

theorem userDataOf_inj {sha256 : Sha256} {text text' : List UInt8} :
    (userDataOf sha256 text).toList = (userDataOf sha256 text').toList ↔
      sha256 text = sha256 text' := by
  constructor
  · intro h
    exact Subtype.ext (List.append_cancel_right h)
  · intro h
    exact congrArg (fun d : List.Vector UInt8 32 => d.toList ++ List.replicate 32 0) h

/-- A created report is that of the quote for its user data. -/
theorem created_report {encodeToBase64 : List UInt8 → Str} {sha256 : Sha256}
    {attestor attestor' : RemoteAttestor} {io : CreateIo} {call : CreateCall} {report report' : Str}
    (h : attestor.create encodeToBase64 sha256 io call report = (true, attestor', report')) :
    call.Given ∧ report' = encodeToBase64 (io.quote (call.data sha256)) := by
  by_cases hgets : call.Given ∧ io.Works
  · rw [create_gets encodeToBase64 sha256 hgets.1 hgets.2] at h
    cases h
    exact ⟨hgets.1, rfl⟩
  · obtain ⟨_, _, -, hfails⟩ := create_failsAlways encodeToBase64 sha256 hgets
    dsimp only at hfails
    rw [hfails] at h
    cases h

/-- **The check compares the texts**: a report for one text passes it for another exactly if they
are the same. -/
theorem userDataCheck_iff {lib : Libraries} {io : CreateIo} {text text' : List UInt8}
    (hdelivers : io.Delivers lib (userDataOf lib.sha256 text))
    (hsha : NoCollision lib.sha256 text text') :
    UserDataCheck lib.codecs (lib.encodeToBase64 (io.quote (userDataOf lib.sha256 text)))
      (userDataOf lib.sha256 text') ↔ text = text' := by
  constructor
  · rintro ⟨quote, hdecode, hdata⟩
    obtain rfl := Option.some.inj (hdelivers.decodes.symm.trans hdecode)
    exact hsha (userDataOf_inj.1 (hdelivers.quoted.symm.trans hdata))
  · rintro rfl
    exact ⟨_, hdelivers.decodes, hdelivers.quoted⟩

/-! ## The check within `VerifyReport` -/

/-- The raw verification succeeded with an accepted verdict, and nothing has expired. -/
structure RawVerdict.Clears (v : RawVerdict) (accepted : Finset UInt32) : Prop where
  code : v.code = .success
  verdict : ∃ verdict ∈ accepted, v.qvResult = some verdict
  expiration : v.collateralExpirationStatus = 0

/-- The report decodes to a quote with a raw verdict that clears. -/
def ReportClears (codecs : Codecs) (verifyRaw : List UInt8 → Option RawVerdict)
    (accepted : Finset UInt32) (report : Str) : Prop :=
  ∃ quote v, report ≠ [] ∧ codecs.decodeFromBase64 report = some quote ∧
    verifyRaw quote = some v ∧ v.Clears accepted

/-- Every check but that of the user data is passed in the enclave. -/
def TrustedCalls.OthersPass (lib : Libraries) (calls : TrustedCalls) (attestor : RemoteAttestor)
    (call : VerifyCall) (report : Str) : Prop :=
  calls.randomBytes = none ∧ ¬ call.TimeFails calls.now ∧
    ReportClears lib.codecs (verifyRawQuoteWithQvE lib.codecs lib.tvl calls.io)
      attestor.acceptedQvResults report

/-- Every check but that of the user data is passed outside the enclave. -/
def UntrustedCalls.OthersPass (lib : Libraries) (calls : UntrustedCalls)
    (attestor : RemoteAttestor) (call : VerifyCall) (report : Str) : Prop :=
  ¬ call.TimeFails (.ok calls.now) ∧
    ReportClears lib.codecs (fun quote => some (verifyRawQuote lib.codecs calls.io quote))
      attestor.acceptedQvResults report

/-- A report that clears passes exactly if its report data is the user data. -/
theorem ReportClears.passes_iff {codecs : Codecs} {verifyRaw : List UInt8 → Option RawVerdict}
    {accepted : Finset UInt32} {report : Str} (h : ReportClears codecs verifyRaw accepted report)
    (userData : UserData) :
    (∃ hash, ReportPasses codecs verifyRaw accepted userData report hash) ↔
      UserDataCheck codecs report userData := by
  constructor
  · rintro ⟨hash, quote, v, -, hdecode, -, hpasses, -⟩
    exact ⟨quote, hdecode, hpasses.reportData⟩
  · rintro ⟨quote', hdecode', hdata⟩
    obtain ⟨quote, v, hreport, hdecode, hraw, hclears⟩ := h
    obtain rfl := Option.some.inj (hdecode.symm.trans hdecode')
    exact ⟨v.mrenclaveHex, quote, v, hreport, hdecode, hraw,
      ⟨hclears.code, hclears.verdict, hclears.expiration, hdata⟩, rfl⟩

/-- **In the enclave the check of the user data decides**, where the others are passed. -/
theorem trusted_answers_iff_check {lib : Libraries} {calls : TrustedCalls}
    {attestor : RemoteAttestor} {call : VerifyCall} {report : Str}
    (h : calls.OthersPass lib attestor call report) (hex : Str) :
    Answers (trustedVerify lib.sha256 lib.codecs lib.tvl calls attestor call report hex) true ↔
      call.Given ∧ UserDataCheck lib.codecs report (call.data lib.sha256) := by
  obtain ⟨hrandom, htime, hclears⟩ := h
  rw [trustedVerify, verify_answers_iff _ (trustedUserData_verifies _ _ _), and_iff_right htime,
    ← hclears.passes_iff]
  refine and_congr_right fun _ => exists_congr fun hash => ?_
  exact and_iff_right hrandom

/-- **Outside the enclave as well.** -/
theorem untrusted_answers_iff_check {lib : Libraries} {calls : UntrustedCalls}
    {attestor : RemoteAttestor} {call : VerifyCall} {report : Str}
    (h : calls.OthersPass lib attestor call report) (hex : Str) :
    Answers (untrustedVerify lib.sha256 lib.codecs calls attestor call report hex) true ↔
      call.Given ∧ UserDataCheck lib.codecs report (call.data lib.sha256) := by
  obtain ⟨htime, hclears⟩ := h
  rw [untrustedVerify, verify_answers_iff _ (untrustedUserData_verifies _ _), and_iff_right htime,
    ← hclears.passes_iff]
  rfl

/-- Where the other checks are passed, both attestors answer true exactly under the condition. -/
def AnswersExactly (lib : Libraries) (call : VerifyCall) (report : Str) (condition : Prop) : Prop :=
  (∀ (calls : TrustedCalls) (attestor : RemoteAttestor) hex,
    calls.OthersPass lib attestor call report →
    (Answers (trustedVerify lib.sha256 lib.codecs lib.tvl calls attestor call report hex) true ↔
      condition)) ∧
  ∀ (calls : UntrustedCalls) (attestor : RemoteAttestor) hex,
    calls.OthersPass lib attestor call report →
    (Answers (untrustedVerify lib.sha256 lib.codecs calls attestor call report hex) true ↔
      condition)

/-- A call answers as its check of the user data does, if it is given a `user_info`. -/
theorem answersExactly_of_check {lib : Libraries} {call : VerifyCall} {report : Str}
    {condition : Prop}
    (hcheck : UserDataCheck lib.codecs report (call.data lib.sha256) ↔ condition) :
    AnswersExactly lib call report (call.Given ∧ condition) := by
  constructor
  · intro calls attestor hex hothers
    exact (trusted_answers_iff_check hothers hex).trans (and_congr_right fun _ => hcheck)
  · intro calls attestor hex hothers
    exact (untrusted_answers_iff_check hothers hex).trans (and_congr_right fun _ => hcheck)

/-! ## Reports with a timestamp -/

/-- A report for one `user_info` and timestamp passes the check for another exactly if they are
equal. -/
theorem timedCheck_iff {lib : Libraries} {io : CreateIo} {userInfo userInfo' : List UInt8}
    {timestamp timestamp' : UInt64}
    (hdelivers : io.Delivers lib (userDataOf lib.sha256 (timedUserInfo userInfo timestamp)))
    (hsha : NoCollision lib.sha256 (timedUserInfo userInfo timestamp)
      (timedUserInfo userInfo' timestamp')) :
    UserDataCheck lib.codecs
        (lib.encodeToBase64
          (io.quote (userDataOf lib.sha256 (timedUserInfo userInfo timestamp))))
        (userDataOf lib.sha256 (timedUserInfo userInfo' timestamp')) ↔
      userInfo = userInfo' ∧ timestamp = timestamp' := by
  refine (userDataCheck_iff hdelivers hsha).trans ⟨timedUserInfo_injective, ?_⟩
  rintro ⟨rfl, rfl⟩
  rfl

/-- A created report is accepted exactly for the `user_info` and the timestamp that it is for. -/
theorem answersExactly_of_created {lib : Libraries} {creator creator' : RemoteAttestor}
    {io : CreateIo} {userInfo userInfo' : List UInt8} {timestamp timestamp' : UInt64}
    {report₀ report : Str}
    (hcreated : creator.create lib.encodeToBase64 lib.sha256 io (.timed userInfo timestamp)
      report₀ = (true, creator', report))
    (hdelivers : io.Delivers lib (userDataOf lib.sha256 (timedUserInfo userInfo timestamp)))
    (hsha : NoCollision lib.sha256 (timedUserInfo userInfo timestamp)
      (timedUserInfo userInfo' timestamp')) (validitySeconds : UInt64) :
    AnswersExactly lib (.timed userInfo' timestamp' validitySeconds) report
      (userInfo = userInfo' ∧ timestamp = timestamp') := by
  obtain ⟨hgiven, rfl⟩ := created_report hcreated
  have hcheck : UserDataCheck lib.codecs _
      ((VerifyCall.timed userInfo' timestamp' validitySeconds).data lib.sha256) ↔
        userInfo = userInfo' ∧ timestamp = timestamp' := timedCheck_iff hdelivers hsha
  -- equal texts are not empty
  have hwhole : (VerifyCall.timed userInfo' timestamp' validitySeconds).Given ∧
      userInfo = userInfo' ∧ timestamp = timestamp' ↔
        userInfo = userInfo' ∧ timestamp = timestamp' := by
    refine and_iff_right_of_imp ?_
    rintro ⟨rfl, -⟩
    exact hgiven
  have hanswers := answersExactly_of_check hcheck
  rwa [hwhole] at hanswers

/-- **What a report with a timestamp is bound to.** The hashed texts are the same only for the same
`user_info` and timestamp; and a report for one pair passes the check of the user data, and where
the other checks are passed the whole of `VerifyReport`, for another pair exactly if they are equal.
-/
theorem timed_binding (lib : Libraries) (userInfo userInfo' : List UInt8)
    (timestamp timestamp' validitySeconds : UInt64) :
    (timedUserInfo userInfo timestamp = timedUserInfo userInfo' timestamp' →
      userInfo = userInfo' ∧ timestamp = timestamp') ∧
    ∀ (creator creator' : RemoteAttestor) (io : CreateIo) (report₀ report : Str),
      creator.create lib.encodeToBase64 lib.sha256 io (.timed userInfo timestamp) report₀ =
        (true, creator', report) →
      io.Delivers lib (userDataOf lib.sha256 (timedUserInfo userInfo timestamp)) →
      NoCollision lib.sha256 (timedUserInfo userInfo timestamp)
        (timedUserInfo userInfo' timestamp') →
      (UserDataCheck lib.codecs report
          ((VerifyCall.timed userInfo' timestamp' validitySeconds).data lib.sha256) ↔
        userInfo = userInfo' ∧ timestamp = timestamp') ∧
      (∀ (calls : TrustedCalls) (attestor : RemoteAttestor) hex,
        calls.OthersPass lib attestor (.timed userInfo' timestamp' validitySeconds) report →
        (Answers (trustedVerify lib.sha256 lib.codecs lib.tvl calls attestor
            (.timed userInfo' timestamp' validitySeconds) report hex) true ↔
          userInfo = userInfo' ∧ timestamp = timestamp')) ∧
      (∀ (calls : UntrustedCalls) (attestor : RemoteAttestor) hex,
        calls.OthersPass lib attestor (.timed userInfo' timestamp' validitySeconds) report →
        (Answers (untrustedVerify lib.sha256 lib.codecs calls attestor
            (.timed userInfo' timestamp' validitySeconds) report hex) true ↔
          userInfo = userInfo' ∧ timestamp = timestamp')) := by
  refine ⟨timedUserInfo_injective, ?_⟩
  intro creator creator' io report₀ report hcreated hdelivers hsha
  have hanswers := answersExactly_of_created hcreated hdelivers hsha validitySeconds
  obtain ⟨-, rfl⟩ := created_report hcreated
  exact ⟨timedCheck_iff hdelivers hsha, hanswers⟩

/-- SHA-256 of `b` and of `b&time=100`. -/
def otherDigest : List.Vector UInt8 32 :=
  ⟨[62, 35, 232, 22, 0, 57, 89, 74, 51, 137, 79, 101, 100, 225, 177, 52, 139, 189, 122, 0, 136,
    212, 44, 74, 203, 115, 238, 174, 213, 156, 0, 157], rfl⟩

def otherTimedDigest : List.Vector UInt8 32 :=
  ⟨[45, 246, 84, 188, 154, 84, 38, 131, 228, 119, 78, 67, 38, 1, 188, 180, 60, 82, 13, 211, 98,
    213, 95, 171, 241, 146, 112, 126, 0, 93, 240, 23], rfl⟩

/-- SHA-256 on three texts. -/
def bindingSha256 : Sha256 := fun text =>
  if text = [98] then otherDigest
  else if text = asciiBytes (str "b&time=100") then otherTimedDigest
  else sampleSha256 text

/-- The libraries, on the report for `a` and the timestamp 100. -/
def bindingLibraries : Libraries := { sampleLibraries with sha256 := bindingSha256 }

/-- The attestor behind the first `CreateReport`. -/
def createdAttestor : RemoteAttestor := { RemoteAttestor.trusted with errorMsg := [] }

theorem sample_created (call : CreateCall) (hgiven : call.Given) :
    RemoteAttestor.trusted.create bindingLibraries.encodeToBase64 bindingLibraries.sha256 .working
      call [] = (true, createdAttestor, sampleReport) :=
  create_gets _ _ hgiven ⟨rfl, rfl, rfl, rfl, rfl, rfl⟩ .trusted []

theorem sample_delivers :
    CreateIo.working.Delivers bindingLibraries
      (userDataOf bindingSha256 (timedUserInfo [97] 100)) where
  quoted := by decide +kernel
  decodes := sampleCodecs_decode

theorem sample_othersPass (call : VerifyCall) (htime : ¬ call.TimeFails (.ok 150)) :
    (TrustedCalls.allGood 150).OthersPass bindingLibraries .trusted call sampleReport := by
  obtain ⟨hrandom, quote, v, hreport, hdecode, hraw, hpasses, -⟩ := sample_trusted_passes 150
  exact ⟨hrandom, htime, quote, v, hreport, hdecode, hraw,
    ⟨hpasses.code, hpasses.verdict, hpasses.expiration⟩⟩

/-- The report for `a` is not accepted for `b`. -/
theorem sample_timed_binding :
    ¬ Answers (trustedVerify bindingSha256 sampleCodecs (fun _ => sgxSuccess) (.allGood 150)
      .trusted (.timed [98] 100 60) sampleReport []) true := by
  have hsha : NoCollision bindingSha256 (timedUserInfo [97] 100) (timedUserInfo [98] 100) := by
    intro h
    exact absurd h (by decide)
  have htime : ¬ (VerifyCall.timed [98] 100 60).TimeFails (.ok 150) := by
    intro h
    exact absurd (h 150 rfl) (by decide)
  have hcreated := sample_created (.timed [97] 100) (List.cons_ne_nil _ _)
  have hbinding := timed_binding bindingLibraries [97] [98] 100 100 60
  obtain ⟨-, htrusted, -⟩ := hbinding.2 _ _ _ _ _ hcreated sample_delivers hsha
  intro h
  have hsame := (htrusted (.allGood 150) .trusted [] (sample_othersPass _ htime)).1 h
  exact absurd hsame.1 (by decide)

/-! ## Reports with and without a timestamp -/

/-- **Where the two ways of binding meet.** A report for a `user_info` is accepted for a `user_info`
with a timestamp exactly if that is not empty and the other is the text of the two; and a report for
a `user_info` with a timestamp is accepted for a `user_info` exactly if that is the text of the two.
-/
theorem bindings_meet_iff (lib : Libraries) (creator creator' : RemoteAttestor) (io : CreateIo)
    (text userInfo : List UInt8) (timestamp : UInt64) (report₀ report : Str)
    (validitySeconds : UInt64) :
    (creator.create lib.encodeToBase64 lib.sha256 io (.userInfo text) report₀ =
        (true, creator', report) →
      io.Delivers lib (userDataOf lib.sha256 text) →
      NoCollision lib.sha256 text (timedUserInfo userInfo timestamp) →
      AnswersExactly lib (.timed userInfo timestamp validitySeconds) report
        (userInfo ≠ [] ∧ text = timedUserInfo userInfo timestamp)) ∧
    (creator.create lib.encodeToBase64 lib.sha256 io (.timed userInfo timestamp) report₀ =
        (true, creator', report) →
      io.Delivers lib (userDataOf lib.sha256 (timedUserInfo userInfo timestamp)) →
      NoCollision lib.sha256 (timedUserInfo userInfo timestamp) text →
      AnswersExactly lib (.userInfo text) report (text = timedUserInfo userInfo timestamp)) := by
  constructor
  · intro hcreated hdelivers hsha
    obtain ⟨-, rfl⟩ := created_report hcreated
    exact answersExactly_of_check (userDataCheck_iff hdelivers hsha)
  · intro hcreated hdelivers hsha
    obtain ⟨-, rfl⟩ := created_report hcreated
    have hcheck : UserDataCheck lib.codecs _ ((VerifyCall.userInfo text).data lib.sha256) ↔
        text = timedUserInfo userInfo timestamp :=
      (userDataCheck_iff hdelivers hsha).trans eq_comm
    have hanswers := answersExactly_of_check hcheck
    -- the text of the two is not empty
    have hgiven : (VerifyCall.userInfo text).Given ∧ text = timedUserInfo userInfo timestamp ↔
        text = timedUserInfo userInfo timestamp := by
      refine and_iff_right_of_imp ?_
      rintro rfl
      exact timedUserInfo_ne_nil _ _
    rwa [hgiven] at hanswers

/-- The report for `a` and the timestamp 100 is accepted for the `user_info` `a&time=100` and not
for `b`, and the report for that `user_info` is accepted for `a` and the timestamp. -/
theorem sample_bindings_meet :
    Answers (trustedVerify bindingSha256 sampleCodecs (fun _ => sgxSuccess) (.allGood 150)
        .trusted (.userInfo (timedUserInfo [97] 100)) sampleReport []) true ∧
      ¬ Answers (trustedVerify bindingSha256 sampleCodecs (fun _ => sgxSuccess) (.allGood 150)
        .trusted (.userInfo [98]) sampleReport []) true ∧
      Answers (trustedVerify bindingSha256 sampleCodecs (fun _ => sgxSuccess) (.allGood 150)
        .trusted (.timed [97] 100 60) sampleReport []) true := by
  have htimed := sample_created (.timed [97] 100) (List.cons_ne_nil _ _)
  have huntimed := sample_created (.userInfo (timedUserInfo [97] 100)) (timedUserInfo_ne_nil _ _)
  have hmeet := bindings_meet_iff bindingLibraries .trusted createdAttestor .working
    (timedUserInfo [97] 100) [97] 100 [] sampleReport 60
  have htime : ¬ (VerifyCall.timed [97] 100 60).TimeFails (.ok 150) := by
    intro h
    exact absurd (h 150 rfl) (by decide)
  refine ⟨?_, ?_, ?_⟩
  · obtain ⟨htrusted, -⟩ := hmeet.2 htimed sample_delivers fun _ => rfl
    exact (htrusted (.allGood 150) .trusted [] (sample_othersPass _ id)).2 rfl
  · have hsha : NoCollision bindingSha256 (timedUserInfo [97] 100) [98] := by
      intro h
      exact absurd h (by decide)
    obtain ⟨htrusted, -⟩ := (bindings_meet_iff bindingLibraries .trusted createdAttestor .working
      [98] [97] 100 [] sampleReport 60).2 htimed sample_delivers hsha
    intro h
    exact absurd ((htrusted (.allGood 150) .trusted [] (sample_othersPass _ id)).1 h) (by decide)
  · obtain ⟨htrusted, -⟩ := hmeet.1 huntimed sample_delivers fun _ => rfl
    exact (htrusted (.allGood 150) .trusted [] (sample_othersPass _ htime)).2
      ⟨List.cons_ne_nil _ _, rfl⟩

/-- A report for the `user_info` `a&time=100` is accepted for `a` and the timestamp 100, and a
report for these is accepted for the `user_info`. -/
theorem bindings_not_disjoint :
    (RemoteAttestor.trusted.create bindingLibraries.encodeToBase64 bindingLibraries.sha256 .working
        (.userInfo (asciiBytes (str "a&time=100"))) [] = (true, createdAttestor, sampleReport) ∧
      Answers (trustedVerify bindingSha256 sampleCodecs (fun _ => sgxSuccess) (.allGood 150)
        .trusted (.timed [97] 100 60) sampleReport []) true) ∧
    RemoteAttestor.trusted.create bindingLibraries.encodeToBase64 bindingLibraries.sha256 .working
        (.timed [97] 100) [] = (true, createdAttestor, sampleReport) ∧
      Answers (trustedVerify bindingSha256 sampleCodecs (fun _ => sgxSuccess) (.allGood 150)
        .trusted (.userInfo (asciiBytes (str "a&time=100"))) sampleReport []) true := by
  have hcheck : UserDataCheck bindingLibraries.codecs sampleReport
      (userDataOf bindingSha256 (timedUserInfo [97] 100)) :=
    ⟨_, sample_delivers.decodes, sample_delivers.quoted⟩
  have htime : ¬ (VerifyCall.timed [97] 100 60).TimeFails (.ok 150) := by
    intro h
    exact absurd (h 150 rfl) (by decide)
  refine ⟨⟨sample_created _ (List.cons_ne_nil _ _), ?_⟩,
    sample_created _ (List.cons_ne_nil _ _), ?_⟩
  · exact (trusted_answers_iff_check (sample_othersPass _ htime) []).2
      ⟨List.cons_ne_nil _ _, hcheck⟩
  · exact (trusted_answers_iff_check (sample_othersPass _ id) []).2
      ⟨List.cons_ne_nil _ _, hcheck⟩

end Ssgx.Attestation
