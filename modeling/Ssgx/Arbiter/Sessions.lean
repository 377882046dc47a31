import Ssgx.Arbiter.TrustedArbiter
import Ssgx.Support.Run
import Ssgx.Support.Threads
import Ssgx.Support.Trace

/-!
# The sessions of the arbiter

The threads of the enclave in the two ecalls. `ecall_create_tee_pubkey` enters the arbiter once, and
a `Prepare` that returns true opens a session. `ecall_who_is_richer` enters it twice: it asks
`IsReady`, and calls `Compare` in a second critical section. So the steps of several callers may
come between the two. An exception that leaves an ecall aborts the enclave.

The token of a session is not cleared when it is used. What keeps a second caller away is `IsReady`
alone: in every run a token is answered at most as often as there are threads
(`uses_le_threads`), and with enough callers behind `IsReady` it is answered that often
(`token_used_by_each`).
-/

set_option autoImplicit false

namespace Ssgx.Arbiter

open Ssgx.Support
open Ssgx.Attestation (Libraries RemoteAttestor)
open Ssgx.Decimal (Mpd)

/-! ## The ecalls -/

/-- The outcomes of the calls of `StrndupOutside` for the key, the report and the token: whether
there is a buffer for the text. -/
structure TeePubkeyCopies where
  key : Except Str Bool
  report : Except Str Bool
  token : Except Str Bool

/-- What `ecall_create_tee_pubkey` has written for its caller. -/
structure TeePubkeyOut where
  arbiterPublicKeyHex : Option (List UInt8)
  quoteReport : Option Str
  prepTimestamp : Option UInt64
  oneTimeAccessToken : Option (List UInt8)

/-- `ecall_create_tee_pubkey` behind `Prepare`. -/
def createTeePubkeyReturns (copies : TeePubkeyCopies) :
    Option Prepared → Except Str (Int × TeePubkeyOut)
  | none => .ok (-1, ⟨none, none, none, none⟩)
  | some p => do
      let key ← copies.key
      if key = false then .ok (-2, ⟨none, none, none, none⟩)
      else do
        let report ← copies.report
        if report = false then .ok (-3, ⟨some p.arbiterPubkeyHex, none, none, none⟩)
        else do
          let token ← copies.token
          if token = false then
            .ok (-4, ⟨some p.arbiterPubkeyHex, some p.quoteReport,
              some p.prepareTimestamp.toUInt64, none⟩)
          else
            .ok (0, ⟨some p.arbiterPubkeyHex, some p.quoteReport,
              some p.prepareTimestamp.toUInt64, some p.oneTimeAccessToken⟩)

/-- The outcomes of the calls of `StrndupOutside` for the result and the report. -/
structure WhoIsRicherCopies where
  result : Except Str Bool
  report : Except Str Bool

/-- What `ecall_who_is_richer` has written for its caller. -/
structure WhoIsRicherOut where
  aliceVsBobResult : Option (List UInt8)
  quoteReport : Option Str
  compareTimestamp : Option UInt64

/-- `ecall_who_is_richer` behind `Compare`. -/
def whoIsRicherReturns (copies : WhoIsRicherCopies) :
    Option Compared → Except Str (Int × WhoIsRicherOut)
  | none => .ok (-6, ⟨none, none, none⟩)
  | some c => do
      let result ← copies.result
      if result = false then .ok (-7, ⟨none, none, none⟩)
      else do
        let report ← copies.report
        if report = false then .ok (-8, ⟨some c.comparisonResult, none, none⟩)
        else .ok (0, ⟨some c.comparisonResult, some c.quoteReport,
          some c.compareTimestamp.toUInt64⟩)

/-! ## The threads -/

/-- Where a thread is: outside of `ecall_who_is_richer`, or in it behind an `IsReady` that returned
true. -/
inductive Caller where
  | outside
  | passed (request : Request)

/-- Whether the thread is behind `IsReady`. -/
def Caller.isPassed : Caller → Bool
  | .outside => false
  | .passed _ => true

/-- What the arbiter has answered: the keys and the outputs of a `Prepare` that returned true, or
the request and the outputs of a `Compare` that did. -/
inductive Answer where
  | prepared (aliceHex bobHex : List UInt8) (outputs : Prepared)
  | compared (request : Request) (io : CompareIo) (outputs : Compared)

/-- The arbiter, whether the enclave was aborted, and the answers in their order. -/
structure Enclave (Point Key : Type) where
  arbiter : TrustedArbiter Point Key
  aborted : Bool
  answers : List Answer

/-- The enclave and the threads in it. -/
abbrev EnclaveThreads (Point Key : Type) := Threads (Enclave Point Key) Caller

/-- A thread calls `ecall_create_tee_pubkey`, enters `ecall_who_is_richer`, or goes on in it. -/
inductive ArbiterEvent (Key : Type) where
  | createTeePubkey (i : Nat) (aliceHex bobHex : List UInt8) (io : PrepareIo Key)
      (copies : TeePubkeyCopies)
  | isReady (i : Nat) (request : Request)
  | compare (i : Nat) (io : CompareIo) (copies : WhoIsRicherCopies)

section

variable {Point Key : Type}

/-- The enclave behind an ecall that entered the arbiter: aborted by an exception of the arbiter or
of the copies to the outside, else with the answer, if there is one. -/
def Enclave.left {α β : Type} (e : Enclave Point Key) (arbiter : TrustedArbiter Point Key)
    (answer : α → Answer) (returned : Option α → Except Str β) :
    Except Str (Option α) → Enclave Point Key
  | .error _ => { e with arbiter := arbiter, aborted := true }
  | .ok result =>
      match returned result, result with
      | .error _, _ => { e with arbiter := arbiter, aborted := true }
      | .ok _, none => { e with arbiter := arbiter }
      | .ok _, some outputs =>
          { e with arbiter := arbiter, answers := e.answers ++ [answer outputs] }

variable (suite : Suite Point Key) (lib : Libraries) (mpd : Mpd)

/-- One step of a thread. A thread that is elsewhere does not take it, and none does in an enclave
that was aborted. -/
def arbiterStep (t : EnclaveThreads Point Key) : ArbiterEvent Key → EnclaveThreads Point Key
  | .createTeePubkey i aliceHex bobHex io copies =>
      match t.shared.aborted, t.locals[i]? with
      | false, some .outside =>
          let result := TrustedArbiter.prepare suite lib aliceHex bobHex io t.shared.arbiter
          t.move i (t.shared.left result.2 (.prepared aliceHex bobHex)
            (createTeePubkeyReturns copies) result.1) .outside
      | _, _ => t
  | .isReady i request =>
      match t.shared.aborted, t.locals[i]? with
      -- the ecall returns `-5` where the arbiter is not ready
      | false, some .outside =>
          if t.shared.arbiter.isReady then t.move i t.shared (.passed request) else t
      | _, _ => t
  | .compare i io copies =>
      match t.shared.aborted, t.locals[i]? with
      | false, some (.passed request) =>
          let result := TrustedArbiter.compare suite lib mpd request io t.shared.arbiter
          t.move i (t.shared.left result.2 (.compared request io) (whoIsRicherReturns copies)
            result.1) .outside
      | _, _ => t

/-- The enclave with this arbiter and `n` threads, none of them inside. -/
def enclaveStart (n : Nat) (arbiter : TrustedArbiter Point Key) : EnclaveThreads Point Key :=
  ⟨⟨arbiter, false, []⟩, List.replicate n .outside⟩

/-! ## What a step can do -/

/-- What an ecall leaves: the enclave aborted, or the arbiter with the answer. -/
theorem left_cases {α β : Type} (e : Enclave Point Key) (arbiter : TrustedArbiter Point Key)
    (answer : α → Answer) (returned : Option α → Except Str β) (result : Except Str (Option α)) :
    (e.left arbiter answer returned result = { e with arbiter := arbiter, aborted := true }) ∨
    (result = .ok none ∧ e.left arbiter answer returned result = { e with arbiter := arbiter }) ∨
    (∃ outputs, result = .ok (some outputs) ∧ e.left arbiter answer returned result =
      { e with arbiter := arbiter, answers := e.answers ++ [answer outputs] }) := by
  rcases result with what | result
  · exact .inl rfl
  simp only [Enclave.left]
  rcases returned result with what | b
  · exact .inl rfl
  cases result with
  | none => exact .inr (.inl ⟨rfl, rfl⟩)
  | some outputs => exact .inr (.inr ⟨outputs, rfl, rfl⟩)

/-- What a step can do. -/
inductive Steps (t : EnclaveThreads Point Key) : ArbiterEvent Key → EnclaveThreads Point Key → Prop
  | stays (e : ArbiterEvent Key) : Steps t e t
  | aborts (e : ArbiterEvent Key) (i : Nat) (x : Caller) (arbiter : TrustedArbiter Point Key)
      (hx : t.locals[i]? = some x) :
      Steps t e (t.move i { t.shared with arbiter := arbiter, aborted := true } .outside)
  | refuses (i : Nat) (aliceHex bobHex : List UInt8) (io : PrepareIo Key) (copies : TeePubkeyCopies)
      (arbiter : TrustedArbiter Point Key) (hx : t.locals[i]? = some .outside)
      (hprepare : TrustedArbiter.prepare suite lib aliceHex bobHex io t.shared.arbiter =
        (.ok none, arbiter)) :
      Steps t (.createTeePubkey i aliceHex bobHex io copies)
        (t.move i { t.shared with arbiter := arbiter } .outside)
  | opens (i : Nat) (aliceHex bobHex : List UInt8) (io : PrepareIo Key) (copies : TeePubkeyCopies)
      (arbiter : TrustedArbiter Point Key) (outputs : Prepared)
      (hx : t.locals[i]? = some .outside)
      (hprepare : TrustedArbiter.prepare suite lib aliceHex bobHex io t.shared.arbiter =
        (.ok (some outputs), arbiter)) :
      Steps t (.createTeePubkey i aliceHex bobHex io copies)
        (t.move i { t.shared with
          arbiter := arbiter
          answers := t.shared.answers ++ [.prepared aliceHex bobHex outputs] } .outside)
  | passes (i : Nat) (request : Request) (hx : t.locals[i]? = some .outside)
      (hready : t.shared.arbiter.isReady = true) :
      Steps t (.isReady i request) (t.move i t.shared (.passed request))
  | fails (i : Nat) (request : Request) (io : CompareIo) (copies : WhoIsRicherCopies)
      (arbiter : TrustedArbiter Point Key) (hx : t.locals[i]? = some (.passed request))
      (hcompare : TrustedArbiter.compare suite lib mpd request io t.shared.arbiter =
        (.ok none, arbiter)) :
      Steps t (.compare i io copies) (t.move i { t.shared with arbiter := arbiter } .outside)
  | answers (i : Nat) (request : Request) (io : CompareIo) (copies : WhoIsRicherCopies)
      (arbiter : TrustedArbiter Point Key) (outputs : Compared)
      (hx : t.locals[i]? = some (.passed request))
      (hcompare : TrustedArbiter.compare suite lib mpd request io t.shared.arbiter =
        (.ok (some outputs), arbiter)) :
      Steps t (.compare i io copies)
        (t.move i { t.shared with
          arbiter := arbiter
          answers := t.shared.answers ++ [.compared request io outputs] } .outside)

/-- **What a step can do.** In an enclave that was aborted it does nothing. -/
theorem arbiterStep_cases (t : EnclaveThreads Point Key) (e : ArbiterEvent Key) :
    Steps suite lib mpd t e (arbiterStep suite lib mpd t e) ∧
      (t.shared.aborted = true → arbiterStep suite lib mpd t e = t) := by
  cases haborted : t.shared.aborted with
  | true =>
      have hstay : arbiterStep suite lib mpd t e = t := by
        cases e with
        | createTeePubkey i aliceHex bobHex io copies => simp only [arbiterStep, haborted]
        | isReady i request => simp only [arbiterStep, haborted]
        | compare i io copies => simp only [arbiterStep, haborted]
      rw [hstay]
      exact ⟨.stays e, fun _ => rfl⟩
  | false =>
      refine ⟨?_, fun h => by cases h⟩
      cases e with
      | createTeePubkey i aliceHex bobHex io copies =>
          simp only [arbiterStep, haborted]
          split
          · next hx =>
              rcases hprepare : TrustedArbiter.prepare suite lib aliceHex bobHex io t.shared.arbiter
                with ⟨result, arbiter⟩
              rcases left_cases t.shared arbiter (.prepared aliceHex bobHex)
                (createTeePubkeyReturns copies) result with hleft | ⟨rfl, hleft⟩ |
                  ⟨outputs, rfl, hleft⟩
              · rw [hleft]
                exact .aborts _ i _ arbiter hx
              · rw [hleft]
                exact .refuses i aliceHex bobHex io copies arbiter hx hprepare
              · rw [hleft]
                exact .opens i aliceHex bobHex io copies arbiter outputs hx hprepare
          · exact .stays _
      | isReady i request =>
          simp only [arbiterStep, haborted]
          split
          · next hx =>
              by_cases hready : t.shared.arbiter.isReady = true
              · rw [if_pos hready]
                exact .passes i request hx hready
              · rw [if_neg hready]
                exact .stays _
          · exact .stays _
      | compare i io copies =>
          simp only [arbiterStep, haborted]
          split
          · next request _ hx =>
              rcases hcompare : TrustedArbiter.compare suite lib mpd request io t.shared.arbiter
                with ⟨result, arbiter⟩
              rcases left_cases t.shared arbiter (.compared request io) (whoIsRicherReturns copies)
                result with hleft | ⟨rfl, hleft⟩ | ⟨outputs, rfl, hleft⟩
              · rw [hleft]
                exact .aborts _ i _ arbiter hx
              · rw [hleft]
                exact .fails i request io copies arbiter hx hcompare
              · rw [hleft]
                exact .answers i request io copies arbiter outputs hx hcompare
          · exact .stays _

/-! ## How often a token is answered -/

/-- The answers to comparisons behind the last session that was opened. -/
def usesOf : List Answer → Nat :=
  List.foldl (fun uses answer =>
    match answer with
    | .prepared _ _ _ => 0
    | .compared _ _ _ => uses + 1) 0

@[simp] theorem usesOf_prepared (front : List Answer) (aliceHex bobHex : List UInt8)
    (outputs : Prepared) : usesOf (front ++ [.prepared aliceHex bobHex outputs]) = 0 := by
  rw [usesOf, List.foldl_append]
  rfl

@[simp] theorem usesOf_compared (front : List Answer) (request : Request) (io : CompareIo)
    (outputs : Compared) :
    usesOf (front ++ [.compared request io outputs]) = usesOf front + 1 := by
  rw [usesOf, List.foldl_append]
  rfl

/-- How many threads are behind `IsReady`. -/
def passedCount (t : EnclaveThreads Point Key) : Nat := t.locals.countP Caller.isPassed

/-- While the arbiter is ready its token was not answered; and every later answer is one to a thread
that is behind `IsReady` already. -/
structure Budget (n : Nat) (t : EnclaveThreads Point Key) : Prop where
  threads : t.locals.length = n
  uses : usesOf t.shared.answers ≤ n
  ready : t.shared.aborted = false → t.shared.arbiter.isReady = true →
    usesOf t.shared.answers = 0
  closed : t.shared.aborted = false → t.shared.arbiter.isReady = false →
    usesOf t.shared.answers + passedCount t ≤ n

theorem passedCount_le (t : EnclaveThreads Point Key) : passedCount t ≤ t.locals.length :=
  List.countP_le_length

/-- A thread that was outside comes in or stays out. -/
theorem passedCount_move_outside {t : EnclaveThreads Point Key} {i : Nat}
    (hx : t.locals[i]? = some .outside) (e : Enclave Point Key) :
    passedCount (t.move i e .outside) = passedCount t :=
  Threads.countP_move hx Caller.isPassed e .outside

/-- A thread that was behind `IsReady` leaves. -/
theorem passedCount_leave {t : EnclaveThreads Point Key} {i : Nat} {request : Request}
    (hx : t.locals[i]? = some (.passed request)) (e : Enclave Point Key) :
    passedCount (t.move i e .outside) + 1 = passedCount t :=
  Threads.countP_move hx Caller.isPassed e .outside

variable {suite lib mpd}

/-- A `Prepare` that returns false leaves `is_ready_` alone. -/
theorem Prepares.isReady_of_none {self arbiter : TrustedArbiter Point Key}
    {aliceHex bobHex : List UInt8} {io : PrepareIo Key}
    (h : Prepares suite lib self aliceHex bobHex io (.ok none) arbiter) :
    arbiter.isReady = self.isReady := by
  cases h with
  | aliceRefused => rfl
  | bobRefused => rfl
  | unreported => rfl

/-- Behind one that returns true the arbiter is ready. -/
theorem Prepares.isReady_of_some {self arbiter : TrustedArbiter Point Key}
    {aliceHex bobHex : List UInt8} {io : PrepareIo Key} {outputs : Prepared}
    (h : Prepares suite lib self aliceHex bobHex io (.ok (some outputs)) arbiter) :
    arbiter.isReady = true := by
  cases h with
  | reported => rfl

/-- Behind a `Compare` that returns the arbiter is not ready. -/
theorem Compares.isReady {self arbiter : TrustedArbiter Point Key} {request : Request}
    {io : CompareIo} {result : Option Compared}
    (h : Compares suite lib mpd self request io (.ok result) arbiter) :
    arbiter.isReady = false := by
  cases h with
  | refused => rfl
  | unreported => rfl
  | accepted => rfl

/-- A step keeps the budget. -/
theorem Budget.step {n : Nat} {t : EnclaveThreads Point Key} (h : Budget n t)
    (e : ArbiterEvent Key) : Budget n (arbiterStep suite lib mpd t e) := by
  obtain ⟨hsteps, haborted⟩ := arbiterStep_cases suite lib mpd t e
  rcases Bool.eq_false_or_eq_true t.shared.aborted with htrue | hfalse
  · rw [haborted htrue]
    exact h
  have hpassed := passedCount_le t
  rw [h.threads] at hpassed
  generalize arbiterStep suite lib mpd t e = t' at hsteps
  cases hsteps with
  | stays => exact h
  | aborts _ i x arbiter hx =>
      refine ⟨(Threads.move_length _ _ _ _).trans h.threads, h.uses, fun hnot => ?_, fun hnot => ?_⟩
      · cases hnot
      · cases hnot
  | refuses i aliceHex bobHex io copies arbiter hx hprepare =>
      have hprepares := prepares_of_eq hprepare
      refine ⟨(Threads.move_length _ _ _ _).trans h.threads, h.uses, fun _ hready => ?_,
        fun _ hready => ?_⟩
      · exact h.ready hfalse (hprepares.isReady_of_none ▸ hready)
      · rw [passedCount_move_outside hx]
        exact h.closed hfalse (hprepares.isReady_of_none ▸ hready)
  | opens i aliceHex bobHex io copies arbiter outputs hx hprepare =>
      have hprepares := prepares_of_eq hprepare
      refine ⟨(Threads.move_length _ _ _ _).trans h.threads, ?_, fun _ _ => ?_, fun _ hready => ?_⟩
      · exact (usesOf_prepared _ _ _ _).le.trans (Nat.zero_le n)
      · exact usesOf_prepared _ _ _ _
      · exact absurd (hprepares.isReady_of_some.symm.trans hready) (by decide)
  | passes i request hx hready =>
      refine ⟨(Threads.move_length _ _ _ _).trans h.threads, h.uses,
        fun _ _ => h.ready hfalse hready, fun _ hnot => ?_⟩
      exact absurd (hready.symm.trans hnot) (by decide)
  | fails i request io copies arbiter hx hcompare =>
      have hcompares := compares_of_eq hcompare
      refine ⟨(Threads.move_length _ _ _ _).trans h.threads, h.uses, fun _ hready => ?_,
        fun _ _ => ?_⟩
      · exact absurd (hready.symm.trans hcompares.isReady) (by decide)
      · have hleave := passedCount_leave hx { t.shared with arbiter := arbiter }
        show usesOf t.shared.answers + _ ≤ n
        rcases Bool.eq_false_or_eq_true t.shared.arbiter.isReady with hready | hclosed
        · have huses := h.ready hfalse hready
          omega
        · have huses := h.closed hfalse hclosed
          omega
  | answers i request io copies arbiter outputs hx hcompare =>
      have hcompares := compares_of_eq hcompare
      -- the answer takes the place of the thread that leaves
      have hleave := passedCount_leave hx { t.shared with
        arbiter := arbiter
        answers := t.shared.answers ++ [.compared request io outputs] }
      have hbound : usesOf (t.shared.answers ++ [.compared request io outputs]) +
          passedCount (t.move i { t.shared with
            arbiter := arbiter
            answers := t.shared.answers ++ [.compared request io outputs] } .outside) ≤ n := by
        rw [usesOf_compared]
        rcases Bool.eq_false_or_eq_true t.shared.arbiter.isReady with hready | hclosed
        · have huses := h.ready hfalse hready
          omega
        · have huses := h.closed hfalse hclosed
          omega
      refine ⟨(Threads.move_length _ _ _ _).trans h.threads, ?_, fun _ hready => ?_,
        fun _ _ => hbound⟩
      · exact (Nat.le_add_right _ _).trans hbound
      · exact absurd (hready.symm.trans hcompares.isReady) (by decide)

theorem budget_start {n : Nat} {arbiter : TrustedArbiter Point Key}
    (hready : arbiter.isReady = false) : Budget n (enclaveStart n arbiter) where
  threads := List.length_replicate
  uses := Nat.zero_le n
  ready := fun _ h => absurd (hready.symm.trans h) (by decide)
  closed := fun _ _ => by
    show 0 + passedCount (enclaveStart n arbiter) ≤ n
    rw [Nat.zero_add]
    exact (passedCount_le _).trans List.length_replicate.le

variable (suite lib mpd)

/-- **How often a token is answered.** In every run of `n` threads, at most `n` requests are
answered behind a session before the next one is opened. -/
theorem uses_le_threads (n : Nat) (privkey : Key) (point : Point) (timestamp : Int64)
    (events : List (ArbiterEvent Key)) :
    usesOf (runFrom (arbiterStep suite lib mpd)
      (enclaveStart n (.new privkey point timestamp)) events).shared.answers ≤ n := by
  have hstep : ∀ t e, True → Budget n t → Budget n (arbiterStep suite lib mpd t e) :=
    fun _ e _ h => h.step e
  have hstart : Budget n (enclaveStart n (.new privkey point timestamp)) := budget_start rfl
  exact (invariant_runFrom hstep (along_of_forall (fun _ _ => trivial) _ events) hstart).uses

/-! ## A run that answers a token to every thread -/

variable {suite lib mpd}

/-- An accepted request is accepted again: `Compare` does not ask whether the arbiter is ready, and
leaves the keys and the token. -/
theorem compare_again {arbiter arbiter' : TrustedArbiter Point Key} {request : Request}
    {io : CompareIo} {outputs : Compared}
    (h : TrustedArbiter.compare suite lib mpd request io arbiter = (.ok (some outputs), arbiter')) :
    TrustedArbiter.compare suite lib mpd request io arbiter' =
      (.ok (some outputs), arbiter') := by
  cases compares_of_eq h with
  | accepted greater now report attestor hjudges hnow hreport =>
      have hagain : TrustedArbiter.Judges suite lib mpd
          { arbiter with isReady := false, compareTimestamp := now.toInt64 } request io greater :=
        ⟨hjudges.token, hjudges.wealths⟩
      rw [compare_of_judges suite lib mpd hagain]
      exact finishCompare_of_report lib hnow hreport

/-- A thread opens a session. -/
theorem arbiterStep_createTeePubkey {t : EnclaveThreads Point Key} {i : Nat}
    {aliceHex bobHex : List UInt8} {io : PrepareIo Key} {copies : TeePubkeyCopies}
    {outputs : Prepared} {arbiter : TrustedArbiter Point Key} {returned : Int × TeePubkeyOut}
    (haborted : t.shared.aborted = false) (hx : t.locals[i]? = some .outside)
    (hprepare : TrustedArbiter.prepare suite lib aliceHex bobHex io t.shared.arbiter =
      (.ok (some outputs), arbiter))
    (hreturned : createTeePubkeyReturns copies (some outputs) = .ok returned) :
    arbiterStep suite lib mpd t (.createTeePubkey i aliceHex bobHex io copies) =
      t.move i { t.shared with
        arbiter := arbiter
        answers := t.shared.answers ++ [.prepared aliceHex bobHex outputs] } .outside := by
  simp only [arbiterStep, haborted, hx, hprepare, Enclave.left, hreturned]

/-- A thread outside goes in while the arbiter is ready. -/
theorem arbiterStep_isReady {t : EnclaveThreads Point Key} {i : Nat}
    (haborted : t.shared.aborted = false) (hx : t.locals[i]? = some .outside)
    (hready : t.shared.arbiter.isReady = true) (request : Request) :
    arbiterStep suite lib mpd t (.isReady i request) = t.move i t.shared (.passed request) := by
  simp only [arbiterStep, haborted, hx]
  exact if_pos hready

/-- A thread behind `IsReady` gets its answer. -/
theorem arbiterStep_compare {t : EnclaveThreads Point Key} {i : Nat} {request : Request}
    {io : CompareIo} {copies : WhoIsRicherCopies} {outputs : Compared}
    {arbiter : TrustedArbiter Point Key} {returned : Int × WhoIsRicherOut}
    (haborted : t.shared.aborted = false) (hx : t.locals[i]? = some (.passed request))
    (hcompare : TrustedArbiter.compare suite lib mpd request io t.shared.arbiter =
      (.ok (some outputs), arbiter))
    (hreturned : whoIsRicherReturns copies (some outputs) = .ok returned) :
    arbiterStep suite lib mpd t (.compare i io copies) =
      t.move i { t.shared with
        arbiter := arbiter
        answers := t.shared.answers ++ [.compared request io outputs] } .outside := by
  simp only [arbiterStep, haborted, hx, hcompare, Enclave.left, hreturned]

/-- `ecall_who_is_richer` without another caller in between. -/
theorem run_whoIsRicher {t : EnclaveThreads Point Key} {i : Nat} {request : Request}
    {io : CompareIo} {copies : WhoIsRicherCopies} {outputs : Compared}
    {arbiter : TrustedArbiter Point Key} {returned : Int × WhoIsRicherOut}
    (haborted : t.shared.aborted = false) (hx : t.locals[i]? = some .outside)
    (hready : t.shared.arbiter.isReady = true)
    (hcompare : TrustedArbiter.compare suite lib mpd request io t.shared.arbiter =
      (.ok (some outputs), arbiter))
    (hreturned : whoIsRicherReturns copies (some outputs) = .ok returned) :
    (runFrom (arbiterStep suite lib mpd) t
        [.isReady i request, .compare i io copies]).shared.answers =
      t.shared.answers ++ [.compared request io outputs] := by
  rw [runFrom, runFrom, runFrom, arbiterStep_isReady haborted hx hready request]
  have hpassed : (t.move i t.shared (.passed request)).locals[i]? = some (.passed request) :=
    Threads.local_move_self hx _ _
  have hanswer : arbiterStep suite lib mpd (t.move i t.shared (.passed request))
      (.compare i io copies) = _ := arbiterStep_compare haborted hpassed hcompare hreturned
  rw [hanswer]
  rfl

variable (suite lib mpd) in
/-- The first `k` threads go in, one behind the other. -/
theorem run_passes {t : EnclaveThreads Point Key} (haborted : t.shared.aborted = false)
    (hready : t.shared.arbiter.isReady = true) (request : Request) (k : Nat)
    (houtside : ∀ i < k, t.locals[i]? = some .outside) :
    (runFrom (arbiterStep suite lib mpd) t
        ((List.range k).map fun i => .isReady i request)).shared = t.shared ∧
      (∀ i < k, (runFrom (arbiterStep suite lib mpd) t
        ((List.range k).map fun i => .isReady i request)).locals[i]? = some (.passed request)) ∧
      ∀ i, k ≤ i → (runFrom (arbiterStep suite lib mpd) t
        ((List.range k).map fun i => .isReady i request)).locals[i]? = t.locals[i]? := by
  induction k with
  | zero => exact ⟨rfl, fun i hi => absurd hi (Nat.not_lt_zero i), fun _ _ => rfl⟩
  | succ k ih =>
      obtain ⟨hshared, hpassed, hrest⟩ := ih fun i hi => houtside i (Nat.lt_succ_of_lt hi)
      rw [List.range_succ, List.map_append, runFrom_append]
      generalize runFrom (arbiterStep suite lib mpd) t
        ((List.range k).map fun i => .isReady i request) = t' at hshared hpassed hrest ⊢
      have hx : t'.locals[k]? = some .outside :=
        (hrest k le_rfl).trans (houtside k (Nat.lt_succ_self k))
      have hstep : arbiterStep suite lib mpd t' (.isReady k request) =
          t'.move k t'.shared (.passed request) :=
        arbiterStep_isReady (by rw [hshared, haborted]) hx (by rw [hshared, hready]) request
      rw [List.map_singleton, runFrom, runFrom, hstep]
      refine ⟨hshared, fun i hi => ?_, fun i hi => ?_⟩
      · rcases Nat.lt_succ_iff_lt_or_eq.1 hi with hlt | rfl
        · rw [Threads.local_move_of_ne hlt.ne]
          exact hpassed i hlt
        · exact Threads.local_move_self hx _ _
      · rw [Threads.local_move_of_ne (by omega)]
        exact hrest i (by omega)

/-- The threads behind `IsReady` get the same answer, one behind the other. -/
theorem run_answers {t : EnclaveThreads Point Key} {request : Request} {io : CompareIo}
    {copies : WhoIsRicherCopies} {outputs : Compared} {arbiter : TrustedArbiter Point Key}
    {returned : Int × WhoIsRicherOut} (haborted : t.shared.aborted = false)
    (hcompare : TrustedArbiter.compare suite lib mpd request io t.shared.arbiter =
      (.ok (some outputs), arbiter))
    (hreturned : whoIsRicherReturns copies (some outputs) = .ok returned) (k : Nat)
    (hpassed : ∀ i < k, t.locals[i]? = some (.passed request)) :
    (runFrom (arbiterStep suite lib mpd) t
        ((List.range k).map fun i => .compare i io copies)).shared.aborted = false ∧
      TrustedArbiter.compare suite lib mpd request io (runFrom (arbiterStep suite lib mpd) t
        ((List.range k).map fun i => .compare i io copies)).shared.arbiter =
          (.ok (some outputs), arbiter) ∧
      (runFrom (arbiterStep suite lib mpd) t
        ((List.range k).map fun i => .compare i io copies)).shared.answers =
          t.shared.answers ++ List.replicate k (.compared request io outputs) ∧
      ∀ i, k ≤ i → (runFrom (arbiterStep suite lib mpd) t
        ((List.range k).map fun i => .compare i io copies)).locals[i]? = t.locals[i]? := by
  induction k with
  | zero => exact ⟨haborted, hcompare, (List.append_nil _).symm, fun _ _ => rfl⟩
  | succ k ih =>
      obtain ⟨hnot, hagain, hanswers, hrest⟩ := ih fun i hi => hpassed i (Nat.lt_succ_of_lt hi)
      rw [List.range_succ, List.map_append, runFrom_append]
      generalize runFrom (arbiterStep suite lib mpd) t
        ((List.range k).map fun i => .compare i io copies) = t' at hnot hagain hanswers hrest ⊢
      have hx : t'.locals[k]? = some (.passed request) :=
        (hrest k le_rfl).trans (hpassed k (Nat.lt_succ_self k))
      have hstep := arbiterStep_compare hnot hx hagain hreturned
      rw [List.map_singleton, runFrom, runFrom, hstep]
      refine ⟨hnot, compare_again hagain, ?_, fun i hi => ?_⟩
      · show t'.shared.answers ++ _ = _
        rw [hanswers, List.append_assoc, List.replicate_succ']
      · rw [Threads.local_move_of_ne (by omega)]
        exact hrest i (by omega)

/-- **The bound is met.** Where a `Prepare` opens a session and a request is accepted in it, the
same request is answered to any number of the threads. -/
theorem token_used_by_each {start ready behind : TrustedArbiter Point Key}
    {aliceHex bobHex : List UInt8} {prepareIo : PrepareIo Key} {keyCopies : TeePubkeyCopies}
    {prepared : Prepared} {created : Int × TeePubkeyOut} {request : Request} {io : CompareIo}
    {copies : WhoIsRicherCopies} {outputs : Compared} {returned : Int × WhoIsRicherOut}
    (hprepare : TrustedArbiter.prepare suite lib aliceHex bobHex prepareIo start =
      (.ok (some prepared), ready))
    (hcreated : createTeePubkeyReturns keyCopies (some prepared) = .ok created)
    (hcompare : TrustedArbiter.compare suite lib mpd request io ready =
      (.ok (some outputs), behind))
    (hreturned : whoIsRicherReturns copies (some outputs) = .ok returned) {n k : Nat} (hn : 0 < n)
    (hk : k ≤ n) :
    ∃ events, (runFrom (arbiterStep suite lib mpd) (enclaveStart n start) events).shared.answers =
      .prepared aliceHex bobHex prepared :: List.replicate k (.compared request io outputs) := by
  have hready : ready.isReady = true := (prepares_of_eq hprepare).isReady_of_some
  have hx : (enclaveStart n start).locals[0]? = some .outside := List.getElem?_replicate_of_lt hn
  have hopen : arbiterStep suite lib mpd (enclaveStart n start)
      (.createTeePubkey 0 aliceHex bobHex prepareIo keyCopies) = _ :=
    arbiterStep_createTeePubkey rfl hx hprepare hcreated
  generalize hopened : (enclaveStart n start).move 0 _ Caller.outside = opened at hopen
  have hlocals : ∀ i < k, opened.locals[i]? = some .outside := by
    intro i hi
    rw [← hopened, Threads.move, enclaveStart, List.set_replicate_self]
    exact List.getElem?_replicate_of_lt (hi.trans_le hk)
  have hnot : opened.shared.aborted = false := by rw [← hopened]; rfl
  have harbiter : opened.shared.arbiter = ready := by rw [← hopened]; rfl
  obtain ⟨hshared, hpassed, -⟩ :=
    run_passes suite lib mpd hnot (harbiter ▸ hready) request k hlocals
  have hagain := hcompare
  rw [← harbiter, ← hshared] at hagain
  have hanswers := run_answers (hshared ▸ hnot) hagain hreturned k hpassed
  refine ⟨.createTeePubkey 0 aliceHex bobHex prepareIo keyCopies ::
    (((List.range k).map fun i => .isReady i request) ++
      (List.range k).map fun i => .compare i io copies), ?_⟩
  rw [runFrom, hopen, runFrom_append, hanswers.2.2.1, hshared, ← hopened]
  rfl

end

/-- The constructor leaves some arbiter. -/
def sampleStart : TrustedArbiter UInt8 UInt8 := .new 0 0 0

/-- Every copy to the outside works. -/
def allCopied : TeePubkeyCopies := ⟨.ok true, .ok true, .ok true⟩

def bothCopied : WhoIsRicherCopies := ⟨.ok true, .ok true⟩

/-- With two threads the token of the sample is answered twice. -/
theorem sample_token_used_twice :
    ∃ events, (runFrom (arbiterStep sampleSuite.toSuite sessionLibraries Mpd.reference)
      (enclaveStart 2 sampleStart) events).shared.answers =
        .prepared sampleAlice sampleBob samplePrepared ::
          List.replicate 2 (.compared sampleRequest sampleCompareIo sampleCompared) := by
  have hcreated : createTeePubkeyReturns allCopied (some samplePrepared) = .ok _ := rfl
  have hreturned : whoIsRicherReturns bothCopied (some sampleCompared) = .ok _ := rfl
  exact token_used_by_each (sample_prepare sampleStart) hcreated (sample_compare sampleStart)
    hreturned (by decide) le_rfl

end Ssgx.Arbiter
