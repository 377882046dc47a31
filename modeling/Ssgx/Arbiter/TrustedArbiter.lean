import Ssgx.Attestation.ErrorState
import Ssgx.Decimal.Order
import Ssgx.Support.Call

/-!
# The arbiter of the millionaires

`TrustedArbiter` of the sample `millionaire_problem`, and the two ecalls over it. `Prepare` takes
the public keys of Alice and Bob, draws a private key and a one-time token, and has a report made
over the keys and the token. `Compare` takes the token back with the two ciphertexts, each signed,
and tells who is richer.

Each of the functions holds the arbiter's mutex. The cryptography library is a parameter (`Suite`),
and the outcomes of the calls inside come with a call. What a function has written by the time it
returns false or throws stays.

A spec lemma for each function says what it can do (`prepare_cases`, `compare_cases`).
-/

set_option autoImplicit false

namespace Ssgx.Arbiter

open Ssgx.Support
open Ssgx.Attestation (CreateIo Libraries RemoteAttestor Sha256 UserData asciiBytes sgxSuccess
  timedUserInfo userDataOf)
open Ssgx.Decimal (BigDecimal Mpd)

/-! ## The libraries -/

/-- The cryptography library over P-256, with points `Point` and private keys `Key`. `DecodeFull` is
called on a point and may change it also where it fails. -/
structure Suite (Point Key : Type) where
  decodeFromHex : List UInt8 → List UInt8
  encodeToHex : List UInt8 → List UInt8
  decodeFull : Point → List UInt8 → Bool × Point
  encodeFull : Point → List UInt8
  publicKey : Key → Point
  verify : Point → List.Vector UInt8 32 → List UInt8 → Bool
  decryptPack : Key → List UInt8 → Option (List UInt8)

/-- The library as the host uses it as well; `EncryptPack` and `Sign` draw random numbers. -/
structure HostSuite (Point Key : Type) extends Suite Point Key where
  encryptPack : List UInt8 → Point → List UInt8 → Option (List UInt8)
  sign : List UInt8 → Key → List.Vector UInt8 32 → List UInt8

/-- What the library promises: each function undoes its partner. -/
structure HostSuite.Works {Point Key : Type} (suite : HostSuite Point Key) : Prop where
  hex : ∀ bytes, suite.decodeFromHex (suite.encodeToHex bytes) = bytes
  point : ∀ before point, suite.decodeFull before (suite.encodeFull point) = (true, point)
  ecies : ∀ seed privkey plaintext ciphertext,
    suite.encryptPack seed (suite.publicKey privkey) plaintext = some ciphertext →
      suite.decryptPack privkey ciphertext = some plaintext
  ecdsa : ∀ seed privkey digest,
    suite.verify (suite.publicKey privkey) digest (suite.sign seed privkey digest) = true
  signature : ∀ seed privkey digest, (suite.sign seed privkey digest).length = 64

/-- The bytes up to the first NUL, as `c_str()` gives them to a reader of C strings. -/
def cString (text : List UInt8) : Str := (text.takeWhile (· ≠ 0)).map fun b => Char.ofNat b.toNat

/-! ## The arbiter -/

/-- `TrustedArbiter`. -/
structure TrustedArbiter (Point Key : Type) where
  oneTimeAccessToken : List UInt8
  arbiterPrivkey : Key
  arbiterPubkey : Point
  alicePubkey : Point
  bobPubkey : Point
  prepareTimestamp : Int64
  compareTimestamp : Int64
  isReady : Bool

/-- The outcomes of the calls of one `Prepare`: the random key and the random bytes of the token,
the clock, and those of `CreateReport`. -/
structure PrepareIo (Key : Type) where
  privkey : Except Str Key
  now : Except Str UInt64
  token : Except Str (List.Vector UInt8 16)
  report : CreateIo

/-- The outputs of a `Prepare` that returns true. -/
structure Prepared where
  arbiterPubkeyHex : List UInt8
  quoteReport : Str
  prepareTimestamp : Int64
  oneTimeAccessToken : List UInt8

/-- The arguments of `Compare`. -/
structure Request where
  oneTimeAccessToken : List UInt8
  aliceCiphertext : List UInt8
  aliceSignature : List UInt8
  bobCiphertext : List UInt8
  bobSignature : List UInt8

/-- The outcomes of the calls of one `Compare`: what the memory holds behind the decoded signatures,
the clock, and those of `CreateReport`. -/
structure CompareIo where
  behindAlice : List UInt8
  behindBob : List UInt8
  now : Except Str UInt64
  report : CreateIo

/-- The outputs of a `Compare` that returns true. -/
structure Compared where
  comparisonResult : List UInt8
  quoteReport : Str
  compareTimestamp : Int64
deriving DecidableEq

/-- A call that throws where its outcome says so. -/
def outcome {σ α : Type} : Except Str α → Call Str σ α
  | .ok a => pure a
  | .error what => Call.raise what

/-- The text that a report of `Prepare` is made for: the smaller key comes first. -/
def prepareUserInfo (aliceHex bobHex arbiterHex token : List UInt8) : List UInt8 :=
  (if aliceHex < bobHex then aliceHex ++ bobHex else bobHex ++ aliceHex) ++ arbiterHex ++ token

def aliceIsRicher : List UInt8 := asciiBytes (str "Alice is richer")

def aliceIsNotRicher : List UInt8 := asciiBytes (str "Alice is not richer than Bob")

section

variable {Point Key : Type}

/-- The constructor. The members that it leaves uninitialised are given. -/
def TrustedArbiter.new (privkey : Key) (point : Point) (timestamp : Int64) :
    TrustedArbiter Point Key where
  oneTimeAccessToken := []
  arbiterPrivkey := privkey
  arbiterPubkey := point
  alicePubkey := point
  bobPubkey := point
  prepareTimestamp := timestamp
  compareTimestamp := timestamp
  isReady := false

/-- A call on the arbiter. -/
abbrev ArbiterCall (Point Key α : Type) := Call Str (TrustedArbiter Point Key) α

variable (suite : Suite Point Key) (lib : Libraries) (mpd : Mpd)

/-- `VerifySignatureAndDecrypt`: the plaintext, if it returns true. `ecdsa::Verify` takes a pointer
to the decoded signature and reads 64 bytes from there. -/
def verifySignatureAndDecrypt (privkey : Key) (pubkey : Point)
    (ciphertext signature behind : List UInt8) : Option (List UInt8) :=
  let read := (suite.decodeFromHex signature ++ 0 :: behind).take 64
  if suite.verify pubkey (lib.sha256 ciphertext) read = false then none
  else suite.decryptPack privkey (suite.decodeFromHex ciphertext)

/-- `Prepare` behind the keys: the report, and the arbiter is ready. -/
def TrustedArbiter.finishPrepare (aliceHex bobHex : List UInt8) (io : PrepareIo Key) :
    ArbiterCall Point Key (Option Prepared) := do
  let self ← Call.read
  let arbiterHex := suite.encodeToHex (suite.encodeFull self.arbiterPubkey)
  let userInfo := prepareUserInfo aliceHex bobHex arbiterHex self.oneTimeAccessToken
  match RemoteAttestor.trusted.createReportTimed lib.encodeToBase64 lib.sha256 io.report userInfo
      self.prepareTimestamp.toUInt64 [] with
  | (false, _, _) => pure none
  | (true, _, report) => do
      Call.update fun self => { self with isReady := true }
      pure (some ⟨arbiterHex, report, self.prepareTimestamp, self.oneTimeAccessToken⟩)

/-- `Prepare`: its outputs, if it returns true. -/
def TrustedArbiter.prepare (aliceHex bobHex : List UInt8) (io : PrepareIo Key) :
    ArbiterCall Point Key (Option Prepared) := do
  let self ← Call.read
  let alice := suite.decodeFull self.alicePubkey (suite.decodeFromHex aliceHex)
  Call.update fun self => { self with alicePubkey := alice.2 }
  if alice.1 = false then pure none
  else do
    let bob := suite.decodeFull self.bobPubkey (suite.decodeFromHex bobHex)
    Call.update fun self => { self with bobPubkey := bob.2 }
    if bob.1 = false then pure none
    else do
      let privkey ← outcome io.privkey
      Call.update fun self =>
        { self with arbiterPrivkey := privkey, arbiterPubkey := suite.publicKey privkey }
      let now ← outcome io.now
      Call.update fun self => { self with prepareTimestamp := now.toInt64 }
      let token ← outcome io.token
      Call.update fun self =>
        { self with oneTimeAccessToken := suite.encodeToHex token.toList }
      TrustedArbiter.finishPrepare suite lib aliceHex bobHex io

/-- The wealth of a plaintext; the constructor of `BigDecimal` throws where it is no number. -/
def wealthOf (plaintext : List UInt8) : Except Str BigDecimal :=
  match BigDecimal.ofString mpd (some (cString plaintext)) with
  | .ok wealth => .ok wealth
  | .error (.thrown _ text) => .error text
  | .error .undefined => .error []

/-- Whether Alice has more. -/
def isGreater (aliceWealth bobWealth : BigDecimal) : Except Str Bool :=
  match BigDecimal.greater mpd aliceWealth bobWealth with
  | .ok greater => .ok greater
  | .error (.thrown _ text) => .error text
  | .error .undefined => .error []

/-- `Compare` behind the two wealths: the clock and the report. -/
def TrustedArbiter.finishCompare (comparisonResult : List UInt8) (io : CompareIo) :
    ArbiterCall Point Key (Option Compared) := do
  let now ← outcome io.now
  Call.update fun self => { self with compareTimestamp := now.toInt64 }
  let self ← Call.read
  match RemoteAttestor.trusted.createReportTimed lib.encodeToBase64 lib.sha256 io.report
      (comparisonResult ++ self.oneTimeAccessToken) self.compareTimestamp.toUInt64 [] with
  | (false, _, _) => pure none
  | (true, _, report) => pure (some ⟨comparisonResult, report, self.compareTimestamp⟩)

/-- `Compare`: its outputs, if it returns true. -/
def TrustedArbiter.compare (request : Request) (io : CompareIo) :
    ArbiterCall Point Key (Option Compared) := do
  Call.update fun self => { self with isReady := false }
  let self ← Call.read
  if request.oneTimeAccessToken ≠ self.oneTimeAccessToken then pure none
  else
    match verifySignatureAndDecrypt suite lib self.arbiterPrivkey self.alicePubkey
        request.aliceCiphertext request.aliceSignature io.behindAlice with
    | none => pure none
    | some alicePlaintext => do
        let aliceWealth ← outcome (wealthOf mpd alicePlaintext)
        match verifySignatureAndDecrypt suite lib self.arbiterPrivkey self.bobPubkey
            request.bobCiphertext request.bobSignature io.behindBob with
        | none => pure none
        | some bobPlaintext => do
            let bobWealth ← outcome (wealthOf mpd bobPlaintext)
            let greater ← outcome (isGreater mpd aliceWealth bobWealth)
            TrustedArbiter.finishCompare lib (if greater then aliceIsRicher else aliceIsNotRicher)
              io

end

/-! ## What the functions can do -/

section

variable {Point Key : Type} (suite : Suite Point Key) (lib : Libraries) (mpd : Mpd)

@[simp] theorem outcome_ok_bind {σ α β : Type} (a : α) (f : α → Call Str σ β) (s : σ) :
    (outcome (.ok a) >>= f) s = f a s := rfl

@[simp] theorem outcome_error_bind {σ α β : Type} (what : Str) (f : α → Call Str σ β) (s : σ) :
    (outcome (.error what) >>= f) s = (.error what, s) := rfl

/-- The point that a text stands for, called on this point. -/
def Suite.decodes (suite : Suite Point Key) (before : Point) (hex : List UInt8) (point : Point) :
    Prop :=
  suite.decodeFull before (suite.decodeFromHex hex) = (true, point)

/-- The text is no point, and the object is this point behind the attempt. -/
def Suite.refuses (suite : Suite Point Key) (before : Point) (hex : List UInt8) (point : Point) :
    Prop :=
  suite.decodeFull before (suite.decodeFromHex hex) = (false, point)

/-- The arbiter with the keys of a session that is not reported yet. -/
def TrustedArbiter.drawn (self : TrustedArbiter Point Key) (alice bob : Point) (privkey : Key)
    (timestamp : Int64) (token : List UInt8) : TrustedArbiter Point Key :=
  { self with
    oneTimeAccessToken := token
    arbiterPrivkey := privkey
    arbiterPubkey := suite.publicKey privkey
    alicePubkey := alice
    bobPubkey := bob
    prepareTimestamp := timestamp }

/-- The report of a session. -/
def sessionReport (aliceHex bobHex : List UInt8) (privkey : Key) (timestamp : Int64)
    (token : List UInt8) (io : CreateIo) : Bool × RemoteAttestor × Str :=
  RemoteAttestor.trusted.createReportTimed lib.encodeToBase64 lib.sha256 io
    (prepareUserInfo aliceHex bobHex
      (suite.encodeToHex (suite.encodeFull (suite.publicKey privkey))) token)
    timestamp.toUInt64 []

/-- What a `Prepare` can do: how it ends, and the arbiter behind it. -/
inductive Prepares (self : TrustedArbiter Point Key) (aliceHex bobHex : List UInt8)
    (io : PrepareIo Key) : Except Str (Option Prepared) → TrustedArbiter Point Key → Prop
  | aliceRefused (alice : Point) (halice : suite.refuses self.alicePubkey aliceHex alice) :
      Prepares self aliceHex bobHex io (.ok none) { self with alicePubkey := alice }
  | bobRefused (alice bob : Point) (halice : suite.decodes self.alicePubkey aliceHex alice)
      (hbob : suite.refuses self.bobPubkey bobHex bob) :
      Prepares self aliceHex bobHex io (.ok none)
        { self with alicePubkey := alice, bobPubkey := bob }
  | threw (what : Str) (behind : TrustedArbiter Point Key) :
      Prepares self aliceHex bobHex io (.error what) behind
  | unreported (alice bob : Point) (privkey : Key) (now : UInt64) (token : List.Vector UInt8 16)
      (halice : suite.decodes self.alicePubkey aliceHex alice)
      (hbob : suite.decodes self.bobPubkey bobHex bob) (hprivkey : io.privkey = .ok privkey)
      (hnow : io.now = .ok now) (htoken : io.token = .ok token)
      (hreport : (sessionReport suite lib aliceHex bobHex privkey now.toInt64
        (suite.encodeToHex token.toList) io.report).1 = false) :
      Prepares self aliceHex bobHex io (.ok none)
        (self.drawn suite alice bob privkey now.toInt64 (suite.encodeToHex token.toList))
  | reported (alice bob : Point) (privkey : Key) (now : UInt64) (token : List.Vector UInt8 16)
      (report : Str) (attestor : RemoteAttestor)
      (halice : suite.decodes self.alicePubkey aliceHex alice)
      (hbob : suite.decodes self.bobPubkey bobHex bob) (hprivkey : io.privkey = .ok privkey)
      (hnow : io.now = .ok now) (htoken : io.token = .ok token)
      (hreport : sessionReport suite lib aliceHex bobHex privkey now.toInt64
        (suite.encodeToHex token.toList) io.report = (true, attestor, report)) :
      Prepares self aliceHex bobHex io
        (.ok (some ⟨suite.encodeToHex (suite.encodeFull (suite.publicKey privkey)), report,
          now.toInt64, suite.encodeToHex token.toList⟩))
        { self.drawn suite alice bob privkey now.toInt64 (suite.encodeToHex token.toList) with
          isReady := true }

/-- The last part of `Prepare`, by what `CreateReport` answers. -/
theorem finishPrepare_apply (aliceHex bobHex : List UInt8) (io : PrepareIo Key)
    (self : TrustedArbiter Point Key) :
    TrustedArbiter.finishPrepare suite lib aliceHex bobHex io self =
      match RemoteAttestor.trusted.createReportTimed lib.encodeToBase64 lib.sha256 io.report
          (prepareUserInfo aliceHex bobHex (suite.encodeToHex (suite.encodeFull self.arbiterPubkey))
            self.oneTimeAccessToken) self.prepareTimestamp.toUInt64 [] with
      | (false, _, _) => (.ok none, self)
      | (true, _, report) =>
          (.ok (some ⟨suite.encodeToHex (suite.encodeFull self.arbiterPubkey), report,
            self.prepareTimestamp, self.oneTimeAccessToken⟩), { self with isReady := true }) := by
  simp only [TrustedArbiter.finishPrepare, Call.read_bind_apply]
  rcases RemoteAttestor.trusted.createReportTimed lib.encodeToBase64 lib.sha256 io.report
    (prepareUserInfo aliceHex bobHex (suite.encodeToHex (suite.encodeFull self.arbiterPubkey))
      self.oneTimeAccessToken) self.prepareTimestamp.toUInt64 [] with ⟨created, attestor, report⟩
  cases created with
  | false => rfl
  | true => rfl

/-- **What `Prepare` can do.** -/
theorem prepare_cases (aliceHex bobHex : List UInt8) (io : PrepareIo Key)
    (self : TrustedArbiter Point Key) :
    Prepares suite lib self aliceHex bobHex io
      (TrustedArbiter.prepare suite lib aliceHex bobHex io self).1
      (TrustedArbiter.prepare suite lib aliceHex bobHex io self).2 := by
  simp only [TrustedArbiter.prepare, Call.read_bind_apply, Call.update_bind_apply]
  rcases halice : suite.decodeFull self.alicePubkey (suite.decodeFromHex aliceHex) with ⟨a, alice⟩
  cases a with
  | false => exact .aliceRefused alice halice
  | true =>
      rcases hbob : suite.decodeFull self.bobPubkey (suite.decodeFromHex bobHex) with ⟨b, bob⟩
      cases b with
      | false => exact .bobRefused alice bob halice hbob
      | true =>
          -- from here on an outcome that throws ends the call
          rcases hprivkey : io.privkey with what | privkey
          · exact .threw what _
          rcases hnow : io.now with what | now
          · exact .threw what _
          rcases htoken : io.token with what | token
          · exact .threw what _
          show Prepares suite lib self aliceHex bobHex io
            (TrustedArbiter.finishPrepare suite lib aliceHex bobHex io
              (self.drawn suite alice bob privkey now.toInt64 (suite.encodeToHex token.toList))).1
            (TrustedArbiter.finishPrepare suite lib aliceHex bobHex io
              (self.drawn suite alice bob privkey now.toInt64 (suite.encodeToHex token.toList))).2
          rw [finishPrepare_apply]
          rcases hreport : sessionReport suite lib aliceHex bobHex privkey now.toInt64
            (suite.encodeToHex token.toList) io.report with ⟨created, attestor, report⟩
          have hcreated := hreport
          rw [sessionReport] at hcreated
          simp only [TrustedArbiter.drawn, hcreated]
          cases created with
          | false =>
              exact .unreported alice bob privkey now token halice hbob hprivkey hnow htoken
                (congrArg Prod.fst hreport)
          | true =>
              exact .reported alice bob privkey now token report attestor halice hbob hprivkey hnow
                htoken hreport

theorem prepares_of_eq {suite : Suite Point Key} {lib : Libraries} {aliceHex bobHex : List UInt8}
    {io : PrepareIo Key} {self behind : TrustedArbiter Point Key}
    {result : Except Str (Option Prepared)}
    (h : TrustedArbiter.prepare suite lib aliceHex bobHex io self = (result, behind)) :
    Prepares suite lib self aliceHex bobHex io result behind := by
  have hcases := prepare_cases suite lib aliceHex bobHex io self
  rwa [h] at hcases

/-- `Prepare` with two keys, where everything works. -/
theorem prepare_opens {self : TrustedArbiter Point Key} {aliceHex bobHex : List UInt8}
    {io : PrepareIo Key} {alice bob : Point} {privkey : Key} {now : UInt64}
    {token : List.Vector UInt8 16} {attestor : RemoteAttestor} {report : Str}
    (halice : suite.decodes self.alicePubkey aliceHex alice)
    (hbob : suite.decodes self.bobPubkey bobHex bob) (hprivkey : io.privkey = .ok privkey)
    (hnow : io.now = .ok now) (htoken : io.token = .ok token)
    (hreport : sessionReport suite lib aliceHex bobHex privkey now.toInt64
      (suite.encodeToHex token.toList) io.report = (true, attestor, report)) :
    TrustedArbiter.prepare suite lib aliceHex bobHex io self =
      (.ok (some ⟨suite.encodeToHex (suite.encodeFull (suite.publicKey privkey)), report,
          now.toInt64, suite.encodeToHex token.toList⟩),
        { self.drawn suite alice bob privkey now.toInt64 (suite.encodeToHex token.toList) with
          isReady := true }) := by
  rw [Suite.decodes] at halice hbob
  rw [sessionReport] at hreport
  simp only [TrustedArbiter.prepare, Call.read_bind_apply, Call.update_bind_apply, halice, hbob,
    hprivkey, hnow, htoken]
  rw [if_neg (by decide), Call.update_bind_apply, if_neg (by decide)]
  simp only [outcome_ok_bind, Call.update_bind_apply]
  rw [finishPrepare_apply]
  simp only [hreport]
  rfl

/-- The request has the token, and ciphertexts of two wealths that are signed by the two keys. Alice
has more if `greater` says so. -/
structure TrustedArbiter.Judges (arbiter : TrustedArbiter Point Key) (request : Request)
    (io : CompareIo) (greater : Bool) : Prop where
  token : request.oneTimeAccessToken = arbiter.oneTimeAccessToken
  wealths : ∃ alicePlaintext bobPlaintext aliceWealth bobWealth,
    verifySignatureAndDecrypt suite lib arbiter.arbiterPrivkey arbiter.alicePubkey
      request.aliceCiphertext request.aliceSignature io.behindAlice = some alicePlaintext ∧
    verifySignatureAndDecrypt suite lib arbiter.arbiterPrivkey arbiter.bobPubkey
      request.bobCiphertext request.bobSignature io.behindBob = some bobPlaintext ∧
    wealthOf mpd alicePlaintext = .ok aliceWealth ∧ wealthOf mpd bobPlaintext = .ok bobWealth ∧
    isGreater mpd aliceWealth bobWealth = .ok greater

/-- The text of a result. -/
def resultText (greater : Bool) : List UInt8 :=
  if greater then aliceIsRicher else aliceIsNotRicher

/-- The report of a result. -/
def resultReport (greater : Bool) (token : List UInt8) (timestamp : Int64) (io : CreateIo) :
    Bool × RemoteAttestor × Str :=
  RemoteAttestor.trusted.createReportTimed lib.encodeToBase64 lib.sha256 io
    (resultText greater ++ token) timestamp.toUInt64 []

/-- What a `Compare` can do: how it ends, and the arbiter behind it. -/
inductive Compares (arbiter : TrustedArbiter Point Key) (request : Request) (io : CompareIo) :
    Except Str (Option Compared) → TrustedArbiter Point Key → Prop
  | refused (hnot : ∀ greater, ¬ arbiter.Judges suite lib mpd request io greater) :
      Compares arbiter request io (.ok none) { arbiter with isReady := false }
  | threw (what : Str) (behind : TrustedArbiter Point Key) :
      Compares arbiter request io (.error what) behind
  | unreported (greater : Bool) (now : UInt64)
      (hjudges : arbiter.Judges suite lib mpd request io greater) (hnow : io.now = .ok now)
      (hreport : (resultReport lib greater arbiter.oneTimeAccessToken now.toInt64 io.report).1 =
        false) :
      Compares arbiter request io (.ok none)
        { arbiter with isReady := false, compareTimestamp := now.toInt64 }
  | accepted (greater : Bool) (now : UInt64) (report : Str) (attestor : RemoteAttestor)
      (hjudges : arbiter.Judges suite lib mpd request io greater) (hnow : io.now = .ok now)
      (hreport : resultReport lib greater arbiter.oneTimeAccessToken now.toInt64 io.report =
        (true, attestor, report)) :
      Compares arbiter request io (.ok (some ⟨resultText greater, report, now.toInt64⟩))
        { arbiter with isReady := false, compareTimestamp := now.toInt64 }

/-- The last part of `Compare`, on a request that was judged. -/
theorem finishCompare_cases {arbiter : TrustedArbiter Point Key} {request : Request}
    {io : CompareIo} {greater : Bool} (hjudges : arbiter.Judges suite lib mpd request io greater) :
    Compares suite lib mpd arbiter request io
      (TrustedArbiter.finishCompare lib (resultText greater) io
        { arbiter with isReady := false }).1
      (TrustedArbiter.finishCompare lib (resultText greater) io
        { arbiter with isReady := false }).2 := by
  simp only [TrustedArbiter.finishCompare]
  rcases hnow : io.now with what | now
  · exact .threw what _
  simp only [outcome_ok_bind, Call.update_bind_apply, Call.read_bind_apply]
  rcases hreport : resultReport lib greater arbiter.oneTimeAccessToken now.toInt64 io.report with
    ⟨created, attestor, report⟩
  have hcreated := hreport
  rw [resultReport] at hcreated
  simp only [hcreated]
  cases created with
  | false => exact .unreported greater now hjudges hnow (congrArg Prod.fst hreport)
  | true => exact .accepted greater now report attestor hjudges hnow hreport

/-- `Compare` of a request that is judged. -/
theorem compare_of_judges {arbiter : TrustedArbiter Point Key} {request : Request} {io : CompareIo}
    {greater : Bool} (hjudges : arbiter.Judges suite lib mpd request io greater) :
    TrustedArbiter.compare suite lib mpd request io arbiter =
      TrustedArbiter.finishCompare lib (resultText greater) io
        { arbiter with isReady := false } := by
  obtain ⟨alicePlaintext, bobPlaintext, aliceWealth, bobWealth, halice, hbob, haliceWealth,
    hbobWealth, hgreater⟩ := hjudges.wealths
  simp only [TrustedArbiter.compare, Call.read_bind_apply, Call.update_bind_apply]
  rw [if_neg (not_not_intro hjudges.token), halice]
  dsimp only
  rw [haliceWealth, outcome_ok_bind, hbob]
  dsimp only
  rw [hbobWealth, outcome_ok_bind, hgreater, outcome_ok_bind]
  rfl

/-- The last part of `Compare` where the report is created. -/
theorem finishCompare_of_report {greater : Bool} {io : CompareIo} {now : UInt64} {report : Str}
    {attestor : RemoteAttestor} {arbiter : TrustedArbiter Point Key} (hnow : io.now = .ok now)
    (hreport : resultReport lib greater arbiter.oneTimeAccessToken now.toInt64 io.report =
      (true, attestor, report)) :
    TrustedArbiter.finishCompare lib (resultText greater) io arbiter =
      (.ok (some ⟨resultText greater, report, now.toInt64⟩),
        { arbiter with compareTimestamp := now.toInt64 }) := by
  rw [resultReport] at hreport
  simp only [TrustedArbiter.finishCompare, hnow, outcome_ok_bind, Call.update_bind_apply,
    Call.read_bind_apply, hreport]
  rfl

/-- **What `Compare` can do.** -/
theorem compare_cases (request : Request) (io : CompareIo) (arbiter : TrustedArbiter Point Key) :
    Compares suite lib mpd arbiter request io
      (TrustedArbiter.compare suite lib mpd request io arbiter).1
      (TrustedArbiter.compare suite lib mpd request io arbiter).2 := by
  simp only [TrustedArbiter.compare, Call.read_bind_apply, Call.update_bind_apply]
  by_cases htoken : request.oneTimeAccessToken = arbiter.oneTimeAccessToken
  · rw [if_neg (not_not_intro htoken)]
    rcases halice : verifySignatureAndDecrypt suite lib arbiter.arbiterPrivkey arbiter.alicePubkey
      request.aliceCiphertext request.aliceSignature io.behindAlice with _ | alicePlaintext
    · refine .refused fun greater hjudges => ?_
      obtain ⟨_, _, _, _, hplain, -⟩ := hjudges.wealths
      rw [halice] at hplain
      cases hplain
    · dsimp only
      rcases haliceWealth : wealthOf mpd alicePlaintext with what | aliceWealth
      · exact .threw what _
      rw [outcome_ok_bind]
      rcases hbob : verifySignatureAndDecrypt suite lib arbiter.arbiterPrivkey arbiter.bobPubkey
        request.bobCiphertext request.bobSignature io.behindBob with _ | bobPlaintext
      · refine .refused fun greater hjudges => ?_
        obtain ⟨_, _, _, _, -, hplain, -⟩ := hjudges.wealths
        rw [hbob] at hplain
        cases hplain
      · dsimp only
        rcases hbobWealth : wealthOf mpd bobPlaintext with what | bobWealth
        · exact .threw what _
        rw [outcome_ok_bind]
        rcases hgreater : isGreater mpd aliceWealth bobWealth with what | greater
        · exact .threw what _
        rw [outcome_ok_bind]
        have hjudges : arbiter.Judges suite lib mpd request io greater :=
          ⟨htoken, alicePlaintext, bobPlaintext, aliceWealth, bobWealth, halice, hbob, haliceWealth,
            hbobWealth, hgreater⟩
        exact finishCompare_cases suite lib mpd hjudges
  · rw [if_pos htoken]
    exact .refused fun greater hjudges => htoken hjudges.token

theorem compares_of_eq {suite : Suite Point Key} {lib : Libraries} {mpd : Mpd} {request : Request}
    {io : CompareIo} {arbiter behind : TrustedArbiter Point Key}
    {result : Except Str (Option Compared)}
    (h : TrustedArbiter.compare suite lib mpd request io arbiter = (result, behind)) :
    Compares suite lib mpd arbiter request io result behind := by
  have hcases := compare_cases suite lib mpd request io arbiter
  rwa [h] at hcases

end

theorem wealthOf_of_ofString {mpd : Mpd} {plaintext : List UInt8} {x : BigDecimal}
    (h : BigDecimal.ofString mpd (some (cString plaintext)) = .ok x) :
    wealthOf mpd plaintext = .ok x := by
  simp only [wealthOf, h]

/-- The two wealths are compared by their values. -/
theorem isGreater_of_has {mpd : Mpd} (hmpd : mpd.Conforms) {x y : BigDecimal} {m n : Number}
    (hx : x.Has m) (hy : y.Has n) : ∃ greater, isGreater mpd x y = .ok greater ∧
      (greater = true ↔ n.value < m.value) := by
  have hcompare := BigDecimal.compare_of_data hmpd hx.data hy.data
  have hgreater : BigDecimal.greater mpd x y = _ :=
    BigDecimal.comparison_of_ok hcompare .greater
  refine ⟨_, by rw [isGreater, hgreater], Decimal.Comparison.ofOrder_compare .greater m n⟩

/-! ## Two millionaires -/

/-- A hexadecimal digit, and its value. -/
def hexDigit (n : Nat) : UInt8 := UInt8.ofNat (if n < 10 then 48 + n else 87 + n)

def hexValue (c : UInt8) : Nat := if c.toNat < 58 then c.toNat - 48 else c.toNat - 87

def hexOfBytes (bytes : List UInt8) : List UInt8 :=
  bytes.flatMap fun b => [hexDigit (b.toNat / 16), hexDigit (b.toNat % 16)]

def bytesOfHex : List UInt8 → List UInt8
  | high :: low :: rest => UInt8.ofNat (16 * hexValue high + hexValue low) :: bytesOfHex rest
  | _ => []

theorem hexValue_hexDigit : ∀ n < 16, hexValue (hexDigit n) = n := by decide

theorem bytesOfHex_hexOfBytes (bytes : List UInt8) : bytesOfHex (hexOfBytes bytes) = bytes := by
  induction bytes with
  | nil => rfl
  | cons b bytes ih =>
      have hb := b.toNat_lt
      have hbyte : UInt8.ofNat (16 * hexValue (hexDigit (b.toNat / 16)) +
          hexValue (hexDigit (b.toNat % 16))) = b := by
        rw [hexValue_hexDigit _ (by omega), hexValue_hexDigit _ (by omega), Nat.div_add_mod,
          UInt8.ofNat_toNat]
      show UInt8.ofNat _ :: bytesOfHex (hexOfBytes bytes) = b :: bytes
      rw [hbyte, ih]

/-- The full encoding of a point, with one byte of it in use, and a signature. -/
def pointBytes (p : UInt8) : List UInt8 := 4 :: p :: List.replicate 63 0

def signatureBytes (key : UInt8) (digest : List.Vector UInt8 32) : List UInt8 :=
  key :: (digest.toList ++ List.replicate 31 0)

/-- A library with points and keys of one byte. -/
def sampleSuite : HostSuite UInt8 UInt8 where
  decodeFromHex := bytesOfHex
  encodeToHex := hexOfBytes
  decodeFull before bytes :=
    if bytes = pointBytes (bytes.getD 1 0) then (true, bytes.getD 1 0) else (false, before)
  encodeFull := pointBytes
  publicKey key := key
  verify point digest signature := signature = signatureBytes point digest
  decryptPack key ciphertext :=
    match ciphertext with
    | [] => none
    | key' :: plaintext => if key' = key then some plaintext else none
  encryptPack _ point plaintext := some (point :: plaintext)
  sign _ key digest := signatureBytes key digest

theorem sampleSuite_works : sampleSuite.Works where
  hex := bytesOfHex_hexOfBytes
  point before point := if_pos rfl
  ecies := by
    intro seed privkey plaintext ciphertext h
    cases h
    exact if_pos rfl
  ecdsa seed privkey digest := decide_eq_true rfl
  signature := by
    intro seed privkey digest
    show (signatureBytes privkey digest).length = 64
    rw [signatureBytes, List.length_cons, List.length_append, List.Vector.toList_length,
      List.length_replicate]

/-- The key texts of Alice, of Bob and of the arbiter, and the text of the token. -/
def sampleAlice : List UInt8 := hexOfBytes (pointBytes 1)

def sampleBob : List UInt8 := hexOfBytes (pointBytes 2)

def sampleArbiter : List UInt8 := hexOfBytes (pointBytes 3)

def sampleToken : List UInt8 := hexOfBytes (List.replicate 16 7)

/-- The texts of the two reports. -/
def sampleUserInfo : List UInt8 :=
  prepareUserInfo sampleAlice sampleBob sampleArbiter sampleToken

def sampleResult : List UInt8 := aliceIsNotRicher ++ sampleToken

/-- SHA-256 of the first with the time 100, of the second with the time 150, and of the texts `0337`
and `033132`. -/
def sessionDigest : List.Vector UInt8 32 :=
  ⟨[103, 226, 119, 107, 240, 173, 173, 106, 85, 230, 41, 146, 13, 249, 131, 4, 103, 208, 183, 40,
    248, 104, 45, 59, 191, 201, 207, 186, 194, 184, 130, 121], rfl⟩

def resultDigest : List.Vector UInt8 32 :=
  ⟨[228, 111, 125, 177, 253, 4, 40, 167, 97, 117, 249, 120, 123, 217, 18, 197, 211, 236, 244, 88,
    243, 237, 75, 205, 126, 152, 146, 197, 200, 194, 42, 185], rfl⟩

def aliceDigest : List.Vector UInt8 32 :=
  ⟨[200, 245, 236, 192, 138, 58, 145, 74, 187, 241, 246, 4, 255, 167, 248, 70, 108, 42, 95, 188,
    135, 88, 179, 176, 235, 111, 187, 236, 215, 84, 108, 73], rfl⟩

def bobDigest : List.Vector UInt8 32 :=
  ⟨[205, 187, 145, 38, 26, 36, 129, 224, 181, 10, 89, 203, 134, 38, 155, 34, 146, 103, 61, 252, 1,
    146, 129, 96, 69, 170, 199, 35, 18, 200, 134, 53], rfl⟩

/-- A quote of a production enclave for this user data. -/
def quoteFor (userData : UserData) : List UInt8 :=
  List.replicate 96 0 ++ 5 :: (List.replicate 271 0 ++ (userData.toList ++ List.replicate 4 0))

/-- It in base64, where the digest is in `tail`. -/
def reportWith (tail : Str) : Str :=
  List.replicate 128 'A' ++ (str "BQ" ++ (List.replicate 360 'A' ++
    (tail ++ (List.replicate 48 'A' ++ str "=="))))

def sampleSessionReport : Str := reportWith (str "Bn4ndr8K2talXmKZIN+YMEZ9C3KPhoLTu/yc+6wriCeQ")

def sampleResultReport : Str := reportWith (str "Dkb32x/QQop2F1+Xh72RLF0+z0WPPtS81+mJLFyMIquQ")

/-- Alice has `7` and Bob has `12`. -/
def sampleAliceWealth : List UInt8 := [55]

def sampleBobWealth : List UInt8 := [49, 50]

/-- The text of the ciphertext of a wealth, for the arbiter's key 3. -/
def sampleCiphertext (wealth : List UInt8) : List UInt8 := hexOfBytes (3 :: wealth)

/-- SHA-256 on four texts. -/
def sessionSha256 : Sha256 := fun text =>
  if text = timedUserInfo sampleUserInfo 100 then sessionDigest
  else if text = timedUserInfo sampleResult 150 then resultDigest
  else if text = sampleCiphertext sampleAliceWealth then aliceDigest
  else bobDigest

/-- The quotes of the two reports. -/
def sampleSessionQuote : List UInt8 :=
  quoteFor (userDataOf sessionSha256 (timedUserInfo sampleUserInfo 100))

def sampleResultQuote : List UInt8 :=
  quoteFor (userDataOf sessionSha256 (timedUserInfo sampleResult 150))

theorem reportWith_ne_nil (tail : Str) : reportWith tail ≠ [] :=
  List.append_ne_nil_of_right_ne_nil _ (List.cons_ne_nil _ _)

/-- Base64 on the two reports. -/
def encodeReports (quote : List UInt8) : Str :=
  if quote = sampleResultQuote then sampleResultReport else sampleSessionReport

theorem encodeReports_session (h : sampleSessionQuote ≠ sampleResultQuote) :
    encodeReports sampleSessionQuote = sampleSessionReport := if_neg h

theorem encodeReports_result : encodeReports sampleResultQuote = sampleResultReport := if_pos rfl

def decodeReports (text : Str) : Option (List UInt8) :=
  if text = sampleSessionReport then some sampleSessionQuote
  else if text = sampleResultReport then some sampleResultQuote
  else none

theorem decodeReports_session : decodeReports sampleSessionReport = some sampleSessionQuote :=
  if_pos rfl

theorem decodeReports_result : decodeReports sampleResultReport = some sampleResultQuote := by
  have hne : sampleResultReport ≠ sampleSessionReport := by decide +kernel
  exact (if_neg hne).trans (if_pos rfl)

theorem decodeReports_nil (quote : List UInt8) (h : decodeReports [] = some quote) :
    quote = [] := by
  have hsession : ([] : Str) ≠ sampleSessionReport := (reportWith_ne_nil _).symm
  have hresult : ([] : Str) ≠ sampleResultReport := (reportWith_ne_nil _).symm
  rw [decodeReports, if_neg hsession, if_neg hresult] at h
  cases h

/-- The libraries, on the two reports. -/
def sessionLibraries : Libraries where
  encodeToBase64 := encodeReports
  sha256 := sessionSha256
  codecs :=
    { decodeFromBase64 := decodeReports
      encodeToHex := fun bytes => (hexOfBytes bytes).map fun c => Char.ofNat c.toNat
      decode_nil := decodeReports_nil }
  tvl := fun _ => sgxSuccess

/-- The calls of a `CreateReport` all work, and the quote is for the user data. -/
def workingReport : CreateIo := { CreateIo.working with quote := quoteFor }

/-- A `Prepare` where everything works, with the key 3 and the time 100. -/
def samplePrepareIo : PrepareIo UInt8 where
  privkey := .ok 3
  now := .ok 100
  token := .ok (List.Vector.replicate 16 7)
  report := workingReport

/-- The outputs of the `Prepare`. -/
def samplePrepared : Prepared :=
  ⟨sampleArbiter, sampleSessionReport, UInt64.toInt64 100, sampleToken⟩

/-- The text of the signature over it. -/
def sampleSignature (key : UInt8) (wealth : List UInt8) : List UInt8 :=
  hexOfBytes (signatureBytes key (sessionSha256 (sampleCiphertext wealth)))

/-- The request of the two. -/
def sampleRequest : Request where
  oneTimeAccessToken := sampleToken
  aliceCiphertext := sampleCiphertext sampleAliceWealth
  aliceSignature := sampleSignature 1 sampleAliceWealth
  bobCiphertext := sampleCiphertext sampleBobWealth
  bobSignature := sampleSignature 2 sampleBobWealth

/-- A `Compare` where everything works, at the time 150. -/
def sampleCompareIo : CompareIo := ⟨[], [], .ok 150, workingReport⟩

/-- The outputs of the `Compare`. -/
def sampleCompared : Compared := ⟨aliceIsNotRicher, sampleResultReport, UInt64.toInt64 150⟩

/-- The arbiter behind the `Prepare`, from any arbiter. -/
def sampleReady (start : TrustedArbiter UInt8 UInt8) : TrustedArbiter UInt8 UInt8 :=
  { start.drawn sampleSuite.toSuite 1 2 3 (UInt64.toInt64 100) sampleToken with isReady := true }

theorem sessionSha256_session :
    sessionSha256 (timedUserInfo sampleUserInfo 100) = sessionDigest := if_pos rfl

theorem sessionSha256_result :
    sessionSha256 (timedUserInfo sampleResult 150) = resultDigest := by
  have hne : timedUserInfo sampleResult 150 ≠ timedUserInfo sampleUserInfo 100 := by
    intro h
    exact absurd (congrArg List.length h) (by decide +kernel)
  exact (if_neg hne).trans (if_pos rfl)

theorem sampleSessionQuote_ne : sampleSessionQuote ≠ sampleResultQuote := by
  rw [sampleSessionQuote, sampleResultQuote, userDataOf, userDataOf]
  intro h
  have hbyte := congrArg (fun quote : List UInt8 => quote[368]?) h
  simp only [sessionSha256_session, sessionSha256_result] at hbyte
  exact absurd hbyte (by decide +kernel)

/-- `CreateReport` of the platform, for a text. -/
theorem createReportTimed_working {userInfo : List UInt8} (h : userInfo ≠ [])
    (timestamp : UInt64) :
    ∃ attestor, RemoteAttestor.trusted.createReportTimed sessionLibraries.encodeToBase64
      sessionLibraries.sha256 workingReport userInfo timestamp [] =
        (true, attestor, sessionLibraries.encodeToBase64 (workingReport.quote
          (userDataOf sessionLibraries.sha256 (timedUserInfo userInfo timestamp)))) := by
  have hworks : workingReport.Works := ⟨rfl, rfl, rfl, rfl, rfl, rfl⟩
  have hgiven : (Attestation.CreateCall.timed userInfo timestamp).Given := h
  have hcreate := Attestation.create_gets sessionLibraries.encodeToBase64 sessionLibraries.sha256
    hgiven hworks .trusted []
  exact ⟨_, hcreate⟩

/-- The report of the session. -/
theorem sample_sessionReport :
    ∃ attestor, sessionReport sampleSuite.toSuite sessionLibraries sampleAlice sampleBob 3
      (UInt64.toInt64 100) sampleToken workingReport = (true, attestor, sampleSessionReport) := by
  have hne : sampleUserInfo ≠ [] := by decide +kernel
  have hquote : workingReport.quote (userDataOf sessionLibraries.sha256
      (timedUserInfo sampleUserInfo 100)) = sampleSessionQuote := rfl
  have hencode : sessionLibraries.encodeToBase64 = encodeReports := rfl
  obtain ⟨attestor, hreport⟩ := createReportTimed_working hne 100
  rw [hquote, hencode, encodeReports_session sampleSessionQuote_ne, ← hencode] at hreport
  refine ⟨attestor, ?_⟩
  rw [sessionReport, UInt64.toUInt64_toInt64]
  exact hreport

/-- The report of the result. -/
theorem sample_resultReport :
    ∃ attestor, resultReport sessionLibraries false sampleToken (UInt64.toInt64 150) workingReport =
      (true, attestor, sampleResultReport) := by
  have hne : sampleResult ≠ [] := by decide +kernel
  have hquote : workingReport.quote (userDataOf sessionLibraries.sha256
      (timedUserInfo sampleResult 150)) = sampleResultQuote := rfl
  have hencode : sessionLibraries.encodeToBase64 = encodeReports := rfl
  obtain ⟨attestor, hreport⟩ := createReportTimed_working hne 150
  rw [hquote, hencode, encodeReports_result, ← hencode] at hreport
  refine ⟨attestor, ?_⟩
  rw [resultReport, UInt64.toUInt64_toInt64]
  exact hreport

theorem sample_decodes (before point : UInt8) :
    sampleSuite.toSuite.decodes before (hexOfBytes (pointBytes point)) point := by
  show sampleSuite.decodeFull before (bytesOfHex (hexOfBytes (pointBytes point))) = _
  rw [bytesOfHex_hexOfBytes]
  exact sampleSuite_works.point before point

/-- The session is opened. -/
theorem sample_prepare (start : TrustedArbiter UInt8 UInt8) :
    TrustedArbiter.prepare sampleSuite.toSuite sessionLibraries sampleAlice sampleBob
      samplePrepareIo start = (.ok (some samplePrepared), sampleReady start) := by
  have halice : sampleSuite.toSuite.decodes start.alicePubkey sampleAlice 1 := sample_decodes _ 1
  have hbob : sampleSuite.toSuite.decodes start.bobPubkey sampleBob 2 := sample_decodes _ 2
  have hprivkey : samplePrepareIo.privkey = .ok 3 := rfl
  have hnow : samplePrepareIo.now = .ok 100 := rfl
  have htoken : samplePrepareIo.token = .ok (List.Vector.replicate 16 7) := rfl
  obtain ⟨attestor, hreport⟩ := sample_sessionReport
  have hopens := prepare_opens sampleSuite.toSuite sessionLibraries halice hbob hprivkey hnow htoken
    hreport
  exact hopens

/-- A signature is verified, and the ciphertext decrypts to the wealth. -/
theorem sample_decrypts (key : UInt8) (wealth behind : List UInt8) :
    verifySignatureAndDecrypt sampleSuite.toSuite sessionLibraries 3 key (sampleCiphertext wealth)
      (sampleSignature key wealth) behind = some wealth := by
  have hread : (sampleSuite.decodeFromHex (sampleSignature key wealth) ++ 0 :: behind).take 64 =
      signatureBytes key (sessionSha256 (sampleCiphertext wealth)) := by
    show (bytesOfHex (sampleSignature key wealth) ++ 0 :: behind).take 64 = _
    rw [sampleSignature, bytesOfHex_hexOfBytes]
    exact List.take_left' (sampleSuite_works.signature [] key _)
  have hverify : sampleSuite.verify key (sessionLibraries.sha256 (sampleCiphertext wealth))
      (signatureBytes key (sessionSha256 (sampleCiphertext wealth))) = true := decide_eq_true rfl
  have hdecode : sampleSuite.decodeFromHex (sampleCiphertext wealth) = 3 :: wealth :=
    bytesOfHex_hexOfBytes _
  simp only [verifySignatureAndDecrypt]
  rw [hread, hverify, if_neg (by decide), hdecode]
  show (if (3 : UInt8) = 3 then some wealth else none) = some wealth
  exact if_pos rfl

/-- A signature by another key is not. -/
theorem sample_not_decrypts {key key' : UInt8} (h : key' ≠ key) (wealth behind : List UInt8) :
    verifySignatureAndDecrypt sampleSuite.toSuite sessionLibraries 3 key (sampleCiphertext wealth)
      (sampleSignature key' wealth) behind = none := by
  have hread : (sampleSuite.decodeFromHex (sampleSignature key' wealth) ++ 0 :: behind).take 64 =
      signatureBytes key' (sessionSha256 (sampleCiphertext wealth)) := by
    show (bytesOfHex (sampleSignature key' wealth) ++ 0 :: behind).take 64 = _
    rw [sampleSignature, bytesOfHex_hexOfBytes]
    exact List.take_left' (sampleSuite_works.signature [] key' _)
  have hverify : sampleSuite.verify key (sessionLibraries.sha256 (sampleCiphertext wealth))
      (signatureBytes key' (sessionSha256 (sampleCiphertext wealth))) = false :=
    decide_eq_false fun heq => h (List.cons.inj heq).1
  simp only [verifySignatureAndDecrypt]
  rw [hread, hverify, if_pos rfl]

/-- The two numbers. -/
theorem has_seven : BigDecimal.Has ⟨some (.finite ⟨false, 7, 0⟩)⟩ ⟨false, 7, 0⟩ :=
  ⟨rfl, by decide, by decide, by decide⟩

theorem has_twelve : BigDecimal.Has ⟨some (.finite ⟨false, 12, 0⟩)⟩ ⟨false, 12, 0⟩ :=
  ⟨rfl, by decide, by decide, by decide⟩

theorem ofString_aliceWealth :
    BigDecimal.ofString Mpd.reference (some (cString sampleAliceWealth)) =
      .ok ⟨some (.finite ⟨false, 7, 0⟩)⟩ := by
  have htext : cString sampleAliceWealth = Number.toSci ⟨false, 7, 0⟩ := by decide
  rw [htext]
  exact BigDecimal.ofString_of_result Mpd.reference_conforms (by decide) (by decide)
    (Context.ofText_toSci has_seven.holds)

theorem ofString_bobWealth :
    BigDecimal.ofString Mpd.reference (some (cString sampleBobWealth)) =
      .ok ⟨some (.finite ⟨false, 12, 0⟩)⟩ := by
  have htext : cString sampleBobWealth = Number.toSci ⟨false, 12, 0⟩ := by decide
  rw [htext]
  exact BigDecimal.ofString_of_result Mpd.reference_conforms (by decide) (by decide)
    (Context.ofText_toSci has_twelve.holds)

theorem seven_lt_twelve : Number.value ⟨false, 7, 0⟩ < Number.value ⟨false, 12, 0⟩ := by
  simp only [Number.value, signed]
  norm_num

/-- A request with this signature in the place of Alice's is judged for its key, whatever lies
behind the signatures. -/
theorem sample_judges_for (key : UInt8) (start : TrustedArbiter UInt8 UInt8) (io : CompareIo) :
    { sampleReady start with alicePubkey := key }.Judges sampleSuite.toSuite sessionLibraries
      Mpd.reference
      { sampleRequest with aliceSignature := sampleSignature key sampleAliceWealth } io false := by
  refine ⟨rfl, sampleAliceWealth, sampleBobWealth, _, _, sample_decrypts key _ _,
    sample_decrypts 2 _ _, wealthOf_of_ofString ofString_aliceWealth,
    wealthOf_of_ofString ofString_bobWealth, ?_⟩
  obtain ⟨greater, hgreater, hexact⟩ :=
    isGreater_of_has Mpd.reference_conforms has_seven has_twelve
  rw [hgreater]
  cases greater with
  | false => rfl
  | true => exact absurd (hexact.1 rfl) (lt_asymm seven_lt_twelve)

/-- It is accepted. -/
theorem sample_compare (start : TrustedArbiter UInt8 UInt8) :
    TrustedArbiter.compare sampleSuite.toSuite sessionLibraries Mpd.reference sampleRequest
      sampleCompareIo (sampleReady start) =
        (.ok (some sampleCompared), { sampleReady start with
          isReady := false, compareTimestamp := UInt64.toInt64 150 }) := by
  obtain ⟨attestor, hreport⟩ := sample_resultReport
  have hjudges : (sampleReady start).Judges sampleSuite.toSuite sessionLibraries Mpd.reference
      sampleRequest sampleCompareIo false := sample_judges_for 1 start sampleCompareIo
  rw [compare_of_judges _ _ _ hjudges]
  exact finishCompare_of_report sessionLibraries rfl hreport

end Ssgx.Arbiter
