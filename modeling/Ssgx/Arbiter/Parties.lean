import Ssgx.Arbiter.Sessions

/-!
# Between whom the arbiter decides

A report of `Prepare` names two keys and a token, and a report of `Compare` names the token and the
result. So a result is taken for one between the two keys of the session.

`Prepare` stores the keys as it decodes them, and a `Prepare` that fails leaves those it has stored
by then, beside the token of the open session. In a run in which every `Prepare` that fails while a
session is open leaves that alone, every answer is one between its two keys
(`answers_between_parties`). Where one fails at the second key, the first stays in the place of
Alice's, and the answer for the open session is one between others (`session_taken_over`).
-/

set_option autoImplicit false

namespace Ssgx.Arbiter

open Ssgx.Support
open Ssgx.Attestation (Libraries RemoteAttestor)
open Ssgx.Decimal (Mpd)

/-! ## Sessions -/

/-- What a report of `Prepare` is about: the texts of the two keys, and the outputs. -/
structure Session where
  aliceHex : List UInt8
  bobHex : List UInt8
  outputs : Prepared

/-- The session that was opened last. -/
def lastSession : List Answer → Option Session :=
  List.foldl (fun session answer =>
    match answer with
    | .prepared aliceHex bobHex outputs => some ⟨aliceHex, bobHex, outputs⟩
    | .compared _ _ _ => session) none

@[simp] theorem lastSession_prepared (front : List Answer) (aliceHex bobHex : List UInt8)
    (outputs : Prepared) :
    lastSession (front ++ [.prepared aliceHex bobHex outputs]) =
      some ⟨aliceHex, bobHex, outputs⟩ := by
  rw [lastSession, List.foldl_append]
  rfl

@[simp] theorem lastSession_compared (front : List Answer) (request : Request) (io : CompareIo)
    (outputs : Compared) :
    lastSession (front ++ [.compared request io outputs]) = lastSession front := by
  rw [lastSession, List.foldl_append]
  rfl

section

variable {Point Key : Type} (suite : Suite Point Key) (lib : Libraries) (mpd : Mpd)

/-- The arbiter has the keys and the token of the session. -/
structure Session.HeldBy (session : Session) (arbiter : TrustedArbiter Point Key) : Prop where
  alice : ∃ before, suite.decodes before session.aliceHex arbiter.alicePubkey
  bob : ∃ before, suite.decodes before session.bobHex arbiter.bobPubkey
  arbiterKey : session.outputs.arbiterPubkeyHex =
    suite.encodeToHex (suite.encodeFull (suite.publicKey arbiter.arbiterPrivkey))
  token : session.outputs.oneTimeAccessToken = arbiter.oneTimeAccessToken

/-- The result is one for the request between the two keys of the session: it has the session's
token, and ciphertexts for its arbiter key that are signed by its two keys. -/
def Session.Decides (session : Session) (request : Request) (io : CompareIo) (outputs : Compared) :
    Prop :=
  ∃ arbiter : TrustedArbiter Point Key, session.HeldBy suite arbiter ∧
    ∃ greater, arbiter.Judges suite lib mpd request io greater ∧
      outputs.comparisonResult = resultText greater

/-- A comparison is answered in the session that was opened last. -/
def BetweenParties (front : List Answer) : Answer → Prop
  | .prepared _ _ _ => True
  | .compared request io outputs =>
      ∃ session, lastSession front = some session ∧
        session.Decides suite lib mpd request io outputs

/-- The keys and the token are the same. -/
structure SameSession (arbiter arbiter' : TrustedArbiter Point Key) : Prop where
  alice : arbiter'.alicePubkey = arbiter.alicePubkey
  bob : arbiter'.bobPubkey = arbiter.bobPubkey
  privkey : arbiter'.arbiterPrivkey = arbiter.arbiterPrivkey
  token : arbiter'.oneTimeAccessToken = arbiter.oneTimeAccessToken

/-- A session is open: the arbiter is ready, or a thread is behind `IsReady`. -/
def IsOpen (t : EnclaveThreads Point Key) : Prop :=
  t.shared.aborted = false ∧
    (t.shared.arbiter.isReady = true ∨ ∃ request, .passed request ∈ t.locals)

/-- A `Prepare` that returns false while a session is open leaves its keys and its token. -/
def KeepsSession (t : EnclaveThreads Point Key) : ArbiterEvent Key → Prop
  | .createTeePubkey _ aliceHex bobHex io _ =>
      IsOpen t → ∀ arbiter, TrustedArbiter.prepare suite lib aliceHex bobHex io t.shared.arbiter =
        (.ok none, arbiter) → SameSession t.shared.arbiter arbiter
  | _ => True

variable {suite lib mpd}

theorem Session.HeldBy.of_same {session : Session} {arbiter arbiter' : TrustedArbiter Point Key}
    (h : session.HeldBy suite arbiter) (hsame : SameSession arbiter arbiter') :
    session.HeldBy suite arbiter' where
  alice := hsame.alice ▸ h.alice
  bob := hsame.bob ▸ h.bob
  arbiterKey := hsame.privkey ▸ h.arbiterKey
  token := h.token.trans hsame.token.symm

/-- A `Prepare` that returns true leaves an arbiter that has its session. -/
theorem Prepares.heldBy {self arbiter : TrustedArbiter Point Key} {aliceHex bobHex : List UInt8}
    {io : PrepareIo Key} {outputs : Prepared}
    (h : Prepares suite lib self aliceHex bobHex io (.ok (some outputs)) arbiter) :
    Session.HeldBy suite ⟨aliceHex, bobHex, outputs⟩ arbiter := by
  cases h with
  | reported alice bob privkey now token report attestor halice hbob =>
      exact ⟨⟨_, halice⟩, ⟨_, hbob⟩, rfl, rfl⟩

/-- `Compare` leaves the keys and the token, and decides between these keys. -/
theorem Compares.sameSession {self arbiter : TrustedArbiter Point Key} {request : Request}
    {io : CompareIo} {result : Option Compared}
    (h : Compares suite lib mpd self request io (.ok result) arbiter) :
    SameSession self arbiter := by
  cases h with
  | refused => exact ⟨rfl, rfl, rfl, rfl⟩
  | unreported => exact ⟨rfl, rfl, rfl, rfl⟩
  | accepted => exact ⟨rfl, rfl, rfl, rfl⟩

theorem Compares.judges {self arbiter : TrustedArbiter Point Key} {request : Request}
    {io : CompareIo} {outputs : Compared}
    (h : Compares suite lib mpd self request io (.ok (some outputs)) arbiter) :
    ∃ greater, self.Judges suite lib mpd request io greater ∧
      outputs.comparisonResult = resultText greater := by
  cases h with
  | accepted greater now report attestor hjudges => exact ⟨greater, hjudges, rfl⟩

/-! ## Runs -/

variable (suite lib mpd) in
/-- Where a session is open, there is one that was opened last, and the arbiter has it. -/
structure Orderly (t : EnclaveThreads Point Key) : Prop where
  answers : Obeys (BetweenParties suite lib mpd) t.shared.answers
  held : IsOpen t → ∃ session, lastSession t.shared.answers = some session ∧
    session.HeldBy suite t.shared.arbiter

/-- A thread that is behind `IsReady` when another is outside was there before. -/
theorem passed_of_move {t : EnclaveThreads Point Key} {i : Nat} {e : Enclave Point Key}
    {request : Request} (h : .passed request ∈ (t.move i e .outside).locals) :
    .passed request ∈ t.locals := by
  obtain ⟨j, hj⟩ := List.mem_iff_getElem?.1 h
  rcases Threads.local_move hj with ⟨-, hsame⟩ | ⟨-, hold⟩
  · cases hsame
  · exact List.mem_of_getElem? hold

/-- A session that is open when a thread has left was open before, or the arbiter is ready now. -/
theorem IsOpen.of_move {t : EnclaveThreads Point Key} {i : Nat} {e : Enclave Point Key}
    (h : IsOpen (t.move i e .outside)) (haborted : t.shared.aborted = false)
    (hready : e.arbiter.isReady = true → t.shared.arbiter.isReady = true) : IsOpen t := by
  obtain ⟨-, hnow | ⟨request, hmem⟩⟩ := h
  · exact ⟨haborted, .inl (hready hnow)⟩
  · exact ⟨haborted, .inr ⟨request, passed_of_move hmem⟩⟩

/-- A step that keeps the session keeps the order. -/
theorem Orderly.step {t : EnclaveThreads Point Key} (h : Orderly suite lib mpd t)
    {e : ArbiterEvent Key} (hkeeps : KeepsSession suite lib t e) :
    Orderly suite lib mpd (arbiterStep suite lib mpd t e) := by
  obtain ⟨hsteps, haborted⟩ := arbiterStep_cases suite lib mpd t e
  rcases Bool.eq_false_or_eq_true t.shared.aborted with htrue | hfalse
  · rw [haborted htrue]
    exact h
  generalize arbiterStep suite lib mpd t e = t' at hsteps
  cases hsteps with
  | stays => exact h
  | aborts _ i x arbiter hx => exact ⟨h.answers, fun hopen => by cases hopen.1⟩
  | refuses i aliceHex bobHex io copies arbiter hx hprepare =>
      have hprepares := prepares_of_eq hprepare
      refine ⟨h.answers, fun hopen => ?_⟩
      -- it was open before, and the keys are the same
      have hbefore : IsOpen t :=
        hopen.of_move hfalse fun hready => hprepares.isReady_of_none ▸ hready
      obtain ⟨session, hsession, hheld⟩ := h.held hbefore
      exact ⟨session, hsession, hheld.of_same (hkeeps hbefore arbiter hprepare)⟩
  | opens i aliceHex bobHex io copies arbiter outputs hx hprepare =>
      have hprepares := prepares_of_eq hprepare
      refine ⟨h.answers.concat trivial, fun _ => ⟨_, lastSession_prepared _ _ _ _, ?_⟩⟩
      exact hprepares.heldBy
  | passes i request hx hready =>
      exact ⟨h.answers, fun _ => h.held ⟨hfalse, .inl hready⟩⟩
  | fails i request io copies arbiter hx hcompare =>
      have hcompares := compares_of_eq hcompare
      have hbefore : IsOpen t := ⟨hfalse, .inr ⟨request, List.mem_of_getElem? hx⟩⟩
      obtain ⟨session, hsession, hheld⟩ := h.held hbefore
      exact ⟨h.answers, fun _ => ⟨session, hsession, hheld.of_same hcompares.sameSession⟩⟩
  | answers i request io copies arbiter outputs hx hcompare =>
      have hcompares := compares_of_eq hcompare
      have hbefore : IsOpen t := ⟨hfalse, .inr ⟨request, List.mem_of_getElem? hx⟩⟩
      obtain ⟨session, hsession, hheld⟩ := h.held hbefore
      have hbetween : BetweenParties suite lib mpd t.shared.answers
          (.compared request io outputs) :=
        ⟨session, hsession, t.shared.arbiter, hheld, hcompares.judges⟩
      refine ⟨h.answers.concat hbetween, fun _ => ⟨session, ?_, ?_⟩⟩
      · exact (lastSession_compared _ _ _ _).trans hsession
      · exact hheld.of_same hcompares.sameSession

end

section

variable {Point Key : Type} {suite : Suite Point Key} {lib : Libraries} {mpd : Mpd}

/-- A `Prepare` whose second key is refused puts the first in the place of Alice's. -/
theorem prepare_of_bobRefused (lib : Libraries) {arbiter : TrustedArbiter Point Key}
    {malloryHex badHex : List UInt8} {mallory : Point}
    (hmallory : suite.decodes arbiter.alicePubkey malloryHex mallory)
    (hbad : suite.refuses arbiter.bobPubkey badHex arbiter.bobPubkey) (io : PrepareIo Key) :
    TrustedArbiter.prepare suite lib malloryHex badHex io arbiter =
      (.ok none, { arbiter with alicePubkey := mallory }) := by
  rw [Suite.decodes] at hmallory
  rw [Suite.refuses] at hbad
  simp only [TrustedArbiter.prepare, Call.read_bind_apply, Call.update_bind_apply, hmallory, hbad]
  rfl

/-- **A session is taken over.** While the arbiter is ready, a caller names a key of its own and a
second text that is no key. The call fails. Then the request for the session's token is answered
with the ciphertext that the caller signed in the place of Alice, and its report is for the token of
the session. -/
theorem session_taken_over {t : EnclaveThreads Point Key} {i : Nat} {malloryHex badHex : List UInt8}
    {mallory : Point} {request : Request} {io : CompareIo} {greater : Bool} {now : UInt64}
    {attestor : RemoteAttestor} {report : Str} {copies : WhoIsRicherCopies}
    {returned : Int × WhoIsRicherOut} (haborted : t.shared.aborted = false)
    (hx : t.locals[i]? = some .outside) (hready : t.shared.arbiter.isReady = true)
    (hmallory : suite.decodes t.shared.arbiter.alicePubkey malloryHex mallory)
    (hbad : suite.refuses t.shared.arbiter.bobPubkey badHex t.shared.arbiter.bobPubkey)
    (hjudges : { t.shared.arbiter with alicePubkey := mallory }.Judges suite lib mpd request io
      greater)
    (hnow : io.now = .ok now)
    (hreport : resultReport lib greater t.shared.arbiter.oneTimeAccessToken now.toInt64 io.report =
      (true, attestor, report))
    (hreturned : whoIsRicherReturns copies (some ⟨resultText greater, report, now.toInt64⟩) =
      .ok returned)
    (prepareIo : PrepareIo Key) (keyCopies : TeePubkeyCopies) :
    (runFrom (arbiterStep suite lib mpd) t
        [.createTeePubkey i malloryHex badHex prepareIo keyCopies, .isReady i request,
          .compare i io copies]).shared.answers =
      t.shared.answers ++ [.compared request io ⟨resultText greater, report, now.toInt64⟩] := by
  have hprepare := prepare_of_bobRefused lib hmallory hbad prepareIo
  have hfails : arbiterStep suite lib mpd t
      (.createTeePubkey i malloryHex badHex prepareIo keyCopies) =
        t.move i { t.shared with
          arbiter := { t.shared.arbiter with alicePubkey := mallory } } .outside := by
    simp only [arbiterStep, haborted, hx, hprepare, Enclave.left, createTeePubkeyReturns]
  have hcompare := (compare_of_judges suite lib mpd hjudges).trans
    (finishCompare_of_report lib hnow hreport)
  rw [runFrom, hfails]
  exact run_whoIsRicher haborted (Threads.local_move_self hx _ _) hready hcompare hreturned

end

/-- The enclave with the session of the sample. -/
def sampleOpened : EnclaveThreads UInt8 UInt8 :=
  ⟨⟨sampleReady sampleStart, false, [.prepared sampleAlice sampleBob samplePrepared]⟩, [.outside]⟩

/-- The request with a signature by the key 5 in the place of Alice's. -/
def takenRequest : Request :=
  { sampleRequest with aliceSignature := sampleSignature 5 sampleAliceWealth }

/-- A caller with the key 5 is answered in the place of Alice. -/
theorem sample_taken_over :
    (runFrom (arbiterStep sampleSuite.toSuite sessionLibraries Mpd.reference) sampleOpened
        [.createTeePubkey 0 (hexOfBytes (pointBytes 5)) [] samplePrepareIo allCopied,
          .isReady 0 takenRequest, .compare 0 sampleCompareIo bothCopied]).shared.answers =
      sampleOpened.shared.answers ++ [.compared takenRequest sampleCompareIo sampleCompared] := by
  have hbad : sampleSuite.toSuite.refuses sampleOpened.shared.arbiter.bobPubkey []
      sampleOpened.shared.arbiter.bobPubkey := rfl
  have hjudges := sample_judges_for 5 sampleStart sampleCompareIo
  obtain ⟨attestor, hreport⟩ := sample_resultReport
  have hreturned : whoIsRicherReturns bothCopied (some sampleCompared) = .ok _ := rfl
  exact session_taken_over rfl rfl rfl (sample_decodes _ 5) hbad hjudges rfl hreport hreturned
    samplePrepareIo allCopied

/-- That answer is not one between the parties of the session: Alice's key does not verify the
signature. -/
theorem sample_not_between_parties :
    ¬ BetweenParties sampleSuite.toSuite sessionLibraries Mpd.reference
      sampleOpened.shared.answers (.compared takenRequest sampleCompareIo sampleCompared) := by
  rintro ⟨session, hsession, arbiter, hheld, greater, hjudges, -⟩
  have hlast : lastSession sampleOpened.shared.answers =
      some ⟨sampleAlice, sampleBob, samplePrepared⟩ := rfl
  obtain rfl := Option.some.inj (hlast.symm.trans hsession)
  -- the arbiter has the key of Alice
  obtain ⟨before, halice⟩ := hheld.alice
  have hkey : arbiter.alicePubkey = 1 := by
    have hdecoded := halice.symm.trans (sample_decodes before 1)
    exact congrArg Prod.snd hdecoded
  -- and the private key of the session
  have hprivkey : arbiter.arbiterPrivkey = 3 := by
    have harbiter : hexOfBytes (pointBytes 3) = hexOfBytes (pointBytes arbiter.arbiterPrivkey) :=
      hheld.arbiterKey
    have hbytes := congrArg bytesOfHex harbiter
    rw [bytesOfHex_hexOfBytes, bytesOfHex_hexOfBytes] at hbytes
    exact (List.cons.inj (List.cons.inj hbytes).2).1.symm
  obtain ⟨alicePlaintext, -, -, -, hdecrypts, -⟩ := hjudges.wealths
  rw [hkey, hprivkey] at hdecrypts
  exact absurd ((sample_not_decrypts (by decide) _ _).symm.trans hdecrypts) (by simp)

end Ssgx.Arbiter
