import Ssgx.Support.Run
import Ssgx.Support.Threads

/-!
# Readings of the host clock

The steps of any number of enclave threads in `DateTime::Now`, `PreciseTime::NowInMilliseconds` and
`PreciseTime::NowInNanoseconds`. A call reads the host clock by an ocall and then gives what it read
to the `TimeVerifier` of its function, which all threads share. `Verify` holds a mutex, and the
ocall is made before it.

`noneThrew_iff_inOrder` says in which runs no call throws. In `noneThrew_of_serial` the calls of a
function follow each other.
-/

set_option autoImplicit false

namespace Ssgx.Time

open Ssgx.Support

/-! ## The verifier -/

/-- A `TimeVerifier`: the greatest value it has let pass. -/
structure TimeVerifier where
  past : UInt64
deriving DecidableEq

/-- The constructor of `TimeVerifier`. -/
def TimeVerifier.new : TimeVerifier := ⟨0⟩

/-- `TimeVerifier::Verify`. -/
def TimeVerifier.verify (v : TimeVerifier) (now : UInt64) : Bool × TimeVerifier :=
  if now < v.past then (false, v) else (true, ⟨now⟩)

/-! ## The calls -/

/-- The functions that read the host clock, each with a static verifier of its own. -/
inductive TimeFunction where
  | now
  | nowInMilliseconds
  | nowInNanoseconds
deriving DecidableEq

/-- The ocall that a function makes. -/
def TimeFunction.ocall : TimeFunction → String
  | .now => "ssgx_ocall_time"
  | .nowInMilliseconds => "ssgx_ocall_time_in_milliseconds"
  | .nowInNanoseconds => "ssgx_ocall_time_in_nanoseconds"

/-- What the ocalls would read from the host clock, and the verifiers. -/
structure TimeShared where
  clock : TimeFunction → UInt64
  verifier : TimeFunction → TimeVerifier

/-- The verifier of one function goes to another state. -/
def TimeShared.setVerifier (s : TimeShared) (f : TimeFunction) (v : TimeVerifier) : TimeShared :=
  { s with verifier := fun g => if g = f then v else s.verifier g }

/-- Where a call is. -/
inductive TimeStage where
  | entered
  | clockRead (tNow : UInt64)
  | returned (tNow : UInt64)
  | threw (what : String)
deriving DecidableEq

/-- A call of one of the functions. -/
structure TimeCall where
  function : TimeFunction
  stage : TimeStage
deriving DecidableEq

/-- The status of an ocall that was made. -/
def sgxSuccess : UInt32 := 0

/-- The next thing a call does. -/
inductive TimeAction where
  | ocall (status : UInt32)
  | verify

namespace TimeCall

/-- What a call ended with: the value read, as a signed number, or the text of its exception. -/
def result (call : TimeCall) : Option (Except String Int64) :=
  match call.stage with
  | .returned tNow => some (.ok tNow.toInt64)
  | .threw what => some (.error what)
  | _ => none

/-- The call goes on to another place. -/
def goto (call : TimeCall) (stage : TimeStage) : TimeCall := { call with stage := stage }

/-- A step of a call; none where the call is elsewhere. -/
def next (s : TimeShared) (call : TimeCall) : TimeAction → Option (TimeShared × TimeCall)
  | .ocall status =>
      match call.stage with
      | .entered =>
          if status ≠ sgxSuccess then
            some (s, call.goto (.threw ("Failed in " ++ call.function.ocall ++ " (error code: " ++
              toString status.toNat ++ ")")))
          else some (s, call.goto (.clockRead (s.clock call.function)))
      | _ => none
  | .verify =>
      match call.stage with
      | .clockRead tNow =>
          match (s.verifier call.function).verify tNow with
          | (false, _) =>
              some (s, call.goto (.threw ("Failed in " ++ call.function.ocall ++
                " (invalid time from untrusted system)")))
          | (true, v) => some (s.setVerifier call.function v, call.goto (.returned tNow))
      | _ => none

end TimeCall

/-- The calls over the host clock and the verifiers. -/
abbrev TimeThreads := Threads TimeShared TimeCall

/-- The host clock goes to another reading, a thread calls a function, or a call takes a step. -/
inductive TimeEvent where
  | tick (clock : TimeFunction → UInt64)
  | issue (function : TimeFunction)
  | act (c : Nat) (action : TimeAction)

namespace TimeThreads

/-- The enclave before any call. -/
def initial (clock : TimeFunction → UInt64) : TimeThreads := ⟨⟨clock, fun _ => .new⟩, []⟩

/-- One step of the host clock or of one call. -/
def step (s : TimeThreads) : TimeEvent → TimeThreads
  | .tick clock => { s with shared := { s.shared with clock := clock } }
  | .issue function => s.spawn ⟨function, .entered⟩
  | .act c action =>
      match s.locals[c]? with
      | none => s
      | some call =>
          match call.next s.shared action with
          | none => s
          | some (shared, call') => s.move c shared call'

/-- A host whose clock never goes backwards and whose ocalls are made. -/
def Steady (s : TimeThreads) : TimeEvent → Prop
  | .tick clock => ∀ f, s.shared.clock f ≤ clock f
  | .act _ (.ocall status) => status = sgxSuccess
  | _ => True

/-- **The intended calls.** None throws. -/
def NoneThrew (s : TimeThreads) : Prop :=
  ∀ call ∈ s.locals, ∀ what, call.result ≠ some (.error what)

/-- A call verifies what it read before any call of its function that read more has returned. -/
def InOrder (s : TimeThreads) : TimeEvent → Prop
  | .act c .verify =>
      ∀ call tNow, s.locals[c]? = some call → call.stage = .clockRead tNow →
        ∀ other ∈ s.locals, other.function = call.function →
          ∀ later, other.stage = .returned later → later ≤ tNow
  | _ => True

end TimeThreads

/-! ## What a step can do -/

@[simp] theorem TimeShared.setVerifier_self (s : TimeShared) (f : TimeFunction) (v : TimeVerifier) :
    (s.setVerifier f v).verifier f = v := if_pos rfl

theorem TimeShared.setVerifier_of_ne {f g : TimeFunction} (h : g ≠ f) (s : TimeShared)
    (v : TimeVerifier) : (s.setVerifier f v).verifier g = s.verifier g := if_neg h

namespace TimeCall

@[simp] theorem goto_stage (call : TimeCall) (stage : TimeStage) :
    (call.goto stage).stage = stage := rfl

@[simp] theorem goto_function (call : TimeCall) (stage : TimeStage) :
    (call.goto stage).function = call.function := rfl

/-- What a step of a call can do, from the stage that it is in. -/
inductive Next (s : TimeShared) (call : TimeCall) :
    TimeAction → TimeShared → TimeCall → Prop where
  | refused {status : UInt32} {what : String} (hstage : call.stage = .entered)
      (hstatus : status ≠ sgxSuccess) : Next s call (.ocall status) s (call.goto (.threw what))
  | read (hstage : call.stage = .entered) :
      Next s call (.ocall sgxSuccess) s (call.goto (.clockRead (s.clock call.function)))
  | late {tNow : UInt64} {what : String} (hstage : call.stage = .clockRead tNow)
      (hlate : tNow < (s.verifier call.function).past) :
      Next s call .verify s (call.goto (.threw what))
  | passed {tNow : UInt64} (hstage : call.stage = .clockRead tNow)
      (hle : (s.verifier call.function).past ≤ tNow) :
      Next s call .verify (s.setVerifier call.function ⟨tNow⟩) (call.goto (.returned tNow))

/-- **A step of a call does one of these.** -/
theorem next_cases {s s' : TimeShared} {call call' : TimeCall} {action : TimeAction}
    (h : call.next s action = some (s', call')) : Next s call action s' call' := by
  cases action with
  | ocall status =>
      simp only [next] at h
      split at h
      · next hstage =>
          split_ifs at h with hstatus
          · cases h
            exact .refused hstage hstatus
          · cases h
            rw [not_not.1 hstatus]
            exact .read hstage
      · cases h
  | verify =>
      simp only [next, TimeVerifier.verify] at h
      split at h
      · next tNow hstage =>
          split_ifs at h with hlate
          · cases h
            exact .late hstage hlate
          · cases h
            exact .passed hstage (UInt64.not_lt.1 hlate)
      · cases h

/-- A call that steps has neither returned nor thrown. -/
theorem Next.running {s s' : TimeShared} {call call' : TimeCall} {action : TimeAction}
    (h : Next s call action s' call') : call.result = none := by
  cases h with
  | refused hstage hstatus => simp only [result, hstage]
  | read hstage => simp only [result, hstage]
  | late hstage hlate => simp only [result, hstage]
  | passed hstage hle => simp only [result, hstage]

end TimeCall

namespace TimeThreads

/-- A step of a call that is there. -/
theorem step_act {s : TimeThreads} {c : Nat} {call : TimeCall} (hcall : s.locals[c]? = some call)
    (action : TimeAction) :
    step s (.act c action) = s ∧ call.next s.shared action = none ∨
      ∃ shared call', call.next s.shared action = some (shared, call') ∧
        TimeCall.Next s.shared call action shared call' ∧
        step s (.act c action) = s.move c shared call' := by
  simp only [step, hcall]
  split
  · next hnext => exact .inl ⟨rfl, hnext⟩
  · next shared call' hnext => exact .inr ⟨shared, call', hnext, TimeCall.next_cases hnext, rfl⟩

theorem step_act_none {s : TimeThreads} {c : Nat} (hcall : s.locals[c]? = none)
    (action : TimeAction) : step s (.act c action) = s := by
  simp only [step, hcall]

/-! ## What the verifiers know -/

/-- A verifier has the greatest value that a call of its function returned, 0 before the first. -/
structure Verified (s : TimeThreads) : Prop where
  bounded : ∀ call ∈ s.locals, ∀ tNow, call.stage = .returned tNow →
    tNow ≤ (s.shared.verifier call.function).past
  attained : ∀ f, (s.shared.verifier f).past = 0 ∨
    ∃ call ∈ s.locals, call.function = f ∧ call.stage = .returned (s.shared.verifier f).past

theorem verified_initial (clock : TimeFunction → UInt64) : (initial clock).Verified where
  bounded := fun _ hcall => absurd hcall List.not_mem_nil
  attained := fun _ => .inl rfl

/-- A step of a call that leaves the verifiers, and does not return, keeps what they know. -/
theorem Verified.move_of_same {s : TimeThreads} (h : s.Verified) {c : Nat} {call : TimeCall}
    (hcall : s.locals[c]? = some call) (hrunning : call.result = none) {stage : TimeStage}
    (hstage : ∀ tNow, stage ≠ .returned tNow) :
    Verified (s.move c s.shared (call.goto stage)) := by
  have hnot : ∀ tNow, call.stage ≠ .returned tNow := by
    intro tNow heq
    simp only [TimeCall.result, heq, reduceCtorEq] at hrunning
  constructor
  · refine (Threads.forall_move_iff hcall ?_).2 ⟨h.bounded, ?_⟩
    · exact fun tNow heq => absurd heq (hnot tNow)
    · exact fun tNow heq => absurd heq (hstage tNow)
  · intro f
    rcases h.attained f with hzero | hsome
    · exact .inl hzero
    · exact .inr (Threads.exists_move hcall (fun heq => hnot _ heq.2) hsome)

/-- A call that passes the verifier is the one with the greatest value. -/
theorem Verified.move_of_passed {s : TimeThreads} (h : s.Verified) {c : Nat} {call : TimeCall}
    (hcall : s.locals[c]? = some call) {tNow : UInt64} (hstage : call.stage = .clockRead tNow)
    (hle : (s.shared.verifier call.function).past ≤ tNow) :
    Verified (s.move c (s.shared.setVerifier call.function ⟨tNow⟩)
      (call.goto (.returned tNow))) := by
  have hnot : ∀ t, call.stage ≠ .returned t := by
    intro t heq
    rw [hstage] at heq
    cases heq
  constructor
  · refine (Threads.forall_move_iff hcall fun t heq => absurd heq (hnot t)).2 ⟨?_, ?_⟩
    · intro other hother t ht
      have hold := h.bounded other hother t ht
      rw [Threads.move_shared]
      rcases eq_or_ne other.function call.function with heq | hne
      · -- an earlier call of the function: its time is not above the new one
        rw [heq, TimeShared.setVerifier_self]
        rw [heq] at hold
        exact UInt64.le_trans hold hle
      · rw [TimeShared.setVerifier_of_ne hne]
        exact hold
    · intro t ht
      cases ht
      rw [Threads.move_shared, TimeCall.goto_function, TimeShared.setVerifier_self]
      exact UInt64.le_refl tNow
  · intro f
    simp only [Threads.move_shared]
    rcases eq_or_ne f call.function with rfl | hne
    · -- the new value is that of the call itself
      refine .inr ⟨_, List.mem_of_getElem? (Threads.local_move_self hcall _ _), rfl, ?_⟩
      rw [TimeShared.setVerifier_self, TimeCall.goto_stage]
    · rcases h.attained f with hzero | hsome
      · rw [TimeShared.setVerifier_of_ne hne]
        exact .inl hzero
      · right
        rw [TimeShared.setVerifier_of_ne hne]
        exact Threads.exists_move hcall (fun heq => hnot _ heq.2) hsome

theorem verified_step {s : TimeThreads} (h : s.Verified) (e : TimeEvent) : Verified (step s e) := by
  cases e with
  | tick clock => exact ⟨h.bounded, h.attained⟩
  | issue function =>
      constructor
      · intro call hcall tNow ht
        rcases List.mem_append.1 hcall with hold | hnew
        · exact h.bounded call hold tNow ht
        · rw [List.mem_singleton.1 hnew] at ht
          cases ht
      · intro f
        rcases h.attained f with hzero | ⟨call, hcall, hrest⟩
        · exact .inl hzero
        · exact .inr ⟨call, List.mem_append_left _ hcall, hrest⟩
  | act c action =>
      rcases hcall : s.locals[c]? with _ | call
      · rw [step_act_none hcall]
        exact h
      · rcases step_act hcall action with ⟨hsame, -⟩ | ⟨shared, call', -, hnext, hmove⟩
        · rw [hsame]
          exact h
        · rw [hmove]
          have hrunning := hnext.running
          cases hnext with
          | refused hstage hstatus => exact h.move_of_same hcall hrunning fun _ => nofun
          | read hstage => exact h.move_of_same hcall hrunning fun _ => nofun
          | late hstage hlate => exact h.move_of_same hcall hrunning fun _ => nofun
          | passed hstage hle => exact h.move_of_passed hcall hstage hle

/-- The verifier refuses a value exactly when a call of its function has returned a greater one. -/
theorem Verified.past_le_iff {s : TimeThreads} (h : s.Verified) (f : TimeFunction) (tNow : UInt64) :
    (s.shared.verifier f).past ≤ tNow ↔
      ∀ other ∈ s.locals, other.function = f →
        ∀ later, other.stage = .returned later → later ≤ tNow := by
  constructor
  · rintro hle other hother rfl later hlater
    exact UInt64.le_trans (h.bounded other hother later hlater) hle
  · intro hall
    rcases h.attained f with hzero | ⟨call, hcall, hf, hpast⟩
    · rw [hzero]
      exact UInt64.zero_le
    · exact hall call hcall hf _ hpast

/-! ## When no call throws -/

theorem noneThrew_move_iff {s : TimeThreads} {c : Nat} {call call' : TimeCall}
    (hcall : s.locals[c]? = some call) (hrunning : call.result = none) (shared : TimeShared) :
    NoneThrew (s.move c shared call') ↔
      NoneThrew s ∧ ∀ what, call'.result ≠ some (.error what) :=
  Threads.forall_move_iff hcall fun what heq => by
    rw [hrunning] at heq
    cases heq

/-- **One step.** It makes no call throw exactly when it verifies in order. -/
theorem noneThrew_step_iff {s : TimeThreads} {e : TimeEvent} (hsteady : s.Steady e)
    (h : s.Verified) : NoneThrew (step s e) ↔ NoneThrew s ∧ InOrder s e := by
  cases e with
  | tick clock => exact (and_iff_left trivial).symm
  | issue function =>
      refine Iff.trans ?_ (and_iff_left trivial).symm
      -- a call that is issued has not ended
      constructor
      · exact fun hall call hcall => hall call (List.mem_append_left _ hcall)
      · intro hall call hcall what
        rcases List.mem_append.1 hcall with hold | hnew
        · exact hall call hold what
        · rw [List.mem_singleton.1 hnew]
          exact nofun
  | act c action =>
      rcases hcall : s.locals[c]? with _ | call
      · rw [step_act_none hcall]
        refine (and_iff_left ?_).symm
        cases action with
        | ocall status => trivial
        | verify =>
            intro call tNow hsome
            rw [hcall] at hsome
            cases hsome
      · rcases step_act hcall action with ⟨hsame, hnone⟩ | ⟨shared, call', -, hnext, hmove⟩
        · -- an action that the stage does not wait for does nothing, in order or not
          rw [hsame]
          refine (and_iff_left ?_).symm
          cases action with
          | ocall status => trivial
          | verify =>
              intro call₂ tNow hsome hstage
              rw [hcall] at hsome
              cases hsome
              simp only [TimeCall.next, hstage] at hnone
              split at hnone <;> cases hnone
        · rw [hmove, noneThrew_move_iff hcall hnext.running]
          refine and_congr_right fun _ => ?_
          -- what was read last is the latest of what the earlier calls have read
          have hinOrder : ∀ tNow, call.stage = .clockRead tNow →
              (InOrder s (.act c .verify) ↔ (s.shared.verifier call.function).past ≤ tNow) := by
            intro tNow hstage
            rw [h.past_le_iff]
            constructor
            · exact fun hall => hall call tNow hcall hstage
            · intro hall call₂ t hsome ht
              rw [hcall] at hsome
              cases hsome
              rw [hstage] at ht
              cases ht
              exact hall
          cases hnext with
          | refused hstage hstatus => exact absurd hsteady hstatus
          | read hstage => exact iff_of_true (fun what => nofun) trivial
          | late hstage hlate =>
              apply iff_of_false (fun hall => hall _ rfl)
              rw [hinOrder _ hstage]
              exact UInt64.not_le.2 hlate
          | passed hstage hle =>
              exact iff_of_true (fun what => nofun) ((hinOrder _ hstage).2 hle)

/-- **No call throws exactly when all verify in order**, over any number of calls of the three
functions, in any interleaving, under a host clock that never goes backwards. -/
theorem noneThrew_iff_inOrder (clock : TimeFunction → UInt64) (es : List TimeEvent)
    (hsteady : Along step Steady (initial clock) es) :
    NoneThrew (runFrom step (initial clock) es) ↔ Along step InOrder (initial clock) es := by
  have hexact : NoneThrew (runFrom step (initial clock) es) ↔
      NoneThrew (initial clock) ∧ Along step InOrder (initial clock) es :=
    runFrom_iff_along (fun s e _ h => verified_step h e) (fun s e hs h => noneThrew_step_iff hs h)
      hsteady (verified_initial clock)
  exact hexact.trans (and_iff_right fun call hcall => absurd hcall List.not_mem_nil)

/-- The readings at a second since the epoch. -/
def clockAt (second : UInt64) : TimeFunction → UInt64
  | .now => second
  | .nowInMilliseconds => 1000 * second
  | .nowInNanoseconds => 1000000000 * second

/-- Two calls of `DateTime::Now`: the first reads the clock before it advances, the second reads it
afterwards and verifies first. -/
def overtaken : List TimeEvent :=
  [.issue .now, .issue .now, .act 0 (.ocall sgxSuccess), .tick (clockAt 6),
    .act 1 (.ocall sgxSuccess), .act 1 .verify, .act 0 .verify]

theorem steady_overtaken : Along step Steady (initial (clockAt 5)) overtaken := by
  refine ⟨trivial, trivial, rfl, fun f => ?_, rfl, trivial, trivial, trivial⟩
  cases f with
  | now => show (5 : UInt64) ≤ 6; decide
  | nowInMilliseconds => show (5000 : UInt64) ≤ 6000; decide
  | nowInNanoseconds => show (5000000000 : UInt64) ≤ 6000000000; decide

theorem not_noneThrew_of_steady :
    ¬ ∀ (clock : TimeFunction → UInt64) (es : List TimeEvent),
        Along step Steady (initial clock) es → NoneThrew (runFrom step (initial clock) es) := by
  intro h
  exact h (clockAt 5) overtaken steady_overtaken _ List.mem_cons_self _ rfl

/-- The calls of `overtaken`: the second verifies in front of the first, and that throws. -/
theorem noneThrew_iff_inOrder_example :
    NoneThrew (runFrom step (initial (clockAt 5)) overtaken) ↔
      Along step InOrder (initial (clockAt 5)) overtaken :=
  noneThrew_iff_inOrder (clockAt 5) overtaken steady_overtaken

/-! ## Calls that follow each other -/

/-- A call makes its ocall while no other call of its function is between its ocall and `Verify`. -/
def Serial (s : TimeThreads) : TimeEvent → Prop
  | .act c (.ocall _) =>
      ∀ call, s.locals[c]? = some call → ∀ other ∈ s.locals, other.function = call.function →
        ∀ tNow, other.stage ≠ .clockRead tNow
  | _ => True

/-- What a call read is between what its verifier has and what the clock shows. -/
def Current (s : TimeShared) (call : TimeCall) : Prop :=
  ∀ tNow, call.stage = .clockRead tNow →
    (s.verifier call.function).past ≤ tNow ∧ tNow ≤ s.clock call.function

/-- Not both calls have yet to verify what they read by one function. -/
def Apart (x y : TimeCall) : Prop :=
  x.function = y.function → ∀ t u, x.stage = .clockRead t → y.stage ≠ .clockRead u

theorem apart_comm (x y : TimeCall) (h : Apart x y) : Apart y x :=
  fun hf t u hy hx => h hf.symm u t hx hy

/-- What serial calls keep: each has a current value, no two of one function have yet to verify, and
no verifier is ahead of the clock. -/
structure InTurn (s : TimeThreads) : Prop where
  sound : s.Sound Current Apart
  behind : ∀ f, (s.shared.verifier f).past ≤ s.shared.clock f
  noneThrew : NoneThrew s

theorem inTurn_initial (clock : TimeFunction → UInt64) : (initial clock).InTurn where
  sound := ⟨fun _ _ hx => (nomatch hx), fun _ _ _ _ _ hx => (nomatch hx)⟩
  behind := fun _ => UInt64.zero_le
  noneThrew := fun _ hcall => absurd hcall List.not_mem_nil

/-- A serial step under a clock that never goes backwards keeps it. -/
theorem inTurn_step {s : TimeThreads} {e : TimeEvent} (hsteady : s.Steady e) (hserial : s.Serial e)
    (h : s.InTurn) : InTurn (step s e) := by
  cases e with
  | tick clock =>
      refine ⟨⟨fun i call hcall tNow ht => ?_, h.sound.apart⟩, fun f => ?_, h.noneThrew⟩
      · have hold := h.sound.each i call hcall tNow ht
        exact ⟨hold.1, UInt64.le_trans hold.2 (hsteady call.function)⟩
      · exact UInt64.le_trans (h.behind f) (hsteady f)
  | issue function =>
      refine ⟨h.sound.spawn apart_comm (fun _ heq => TimeStage.noConfusion heq) ?_, h.behind, ?_⟩
      · exact fun _ _ _ _ _ heq => TimeStage.noConfusion heq
      · intro call hcall what
        rcases List.mem_append.1 hcall with hold | hnew
        · exact h.noneThrew call hold what
        · rw [List.mem_singleton.1 hnew]
          exact nofun
  | act c action =>
      rcases hcall : s.locals[c]? with _ | call
      · rw [step_act_none hcall]
        exact h
      · rcases step_act hcall action with ⟨hsame, -⟩ | ⟨shared, call', -, hnext, hmove⟩
        · rw [hsame]
          exact h
        · rw [hmove]
          have hrunning := hnext.running
          cases hnext with
          | refused hstage hstatus => exact absurd hsteady hstatus
          | read hstage =>
              -- in serial steps no other call of the function holds a time
              refine ⟨h.sound.move apart_comm hcall ?_ ?_, h.behind, ?_⟩
              · intro tNow ht
                cases ht
                exact ⟨h.behind call.function, UInt64.le_refl _⟩
              · intro y hy hlocal _
                refine ⟨hlocal, fun hf t u _ => ?_⟩
                exact hserial call hcall y hy hf.symm u
              · exact (noneThrew_move_iff hcall hrunning _).2 ⟨h.noneThrew, fun _ => nofun⟩
          | @late tNow what hstage hlate =>
              -- a serial call is never late
              have hcurrent := h.sound.each c call hcall tNow hstage
              exact absurd hcurrent.1 (UInt64.not_le.2 hlate)
          | @passed tNow hstage hle =>
              have hcurrent := h.sound.each c call hcall tNow hstage
              refine ⟨h.sound.move apart_comm hcall (fun _ heq => TimeStage.noConfusion heq) ?_,
                fun f => ?_, ?_⟩
              · intro y hy hlocal hapart
                refine ⟨fun u hu => ?_, fun _ _ _ heq => TimeStage.noConfusion heq⟩
                -- the others that hold a time are calls of other functions
                have hne : y.function ≠ call.function := fun heq =>
                  hapart heq.symm tNow u hstage hu
                rw [TimeShared.setVerifier_of_ne hne]
                exact hlocal u hu
              · simp only [Threads.move_shared]
                rcases eq_or_ne f call.function with rfl | hne
                · rw [TimeShared.setVerifier_self]
                  exact hcurrent.2
                · rw [TimeShared.setVerifier_of_ne hne]
                  exact h.behind f
              · exact (noneThrew_move_iff hcall hrunning _).2 ⟨h.noneThrew, fun _ => nofun⟩

/-- **Calls that follow each other never throw** under a host clock that never goes backwards: it is
enough that no call of a function makes its ocall before the last one has verified. -/
theorem noneThrew_of_serial {clock : TimeFunction → UInt64} {es : List TimeEvent}
    (hsteady : Along step Steady (initial clock) es)
    (hserial : Along step Serial (initial clock) es) :
    NoneThrew (runFrom step (initial clock) es) := by
  have hinv : InTurn (runFrom step (initial clock) es) :=
    invariant_runFrom (fun s e he h => inTurn_step he.1 he.2 h) (hsteady.and hserial)
      (inTurn_initial clock)
  exact hinv.noneThrew

end TimeThreads

end Ssgx.Time
