import Ssgx.Http.Servers

/-!
# Calls that process requests and the end of a server

The steps of `ssgx_ecall_http_on_message` against those of the threads that start, stop and destroy
servers. A call looks its server up and runs `Process` on the pointer it got; between the two the
server may be stopped and destroyed. `Stop` takes the entry out and lets the host release the
listener, which waits for the requests that run in it; a call that the host makes by itself is not
one of them.

Servers are told apart by their objects, and a destroyed one stays known, so that a pointer to it is
not taken for one to a later server at the same address. `host_safe_along_iff` says in which runs
the host can never bring `Process` to run on a destroyed server.
-/

set_option autoImplicit false

namespace Ssgx.Http

open Ssgx.Support

/-- Where the thread of a server is: outside of `Stop`, in the release of its listener, or past the
destructor. -/
inductive ServerPhase where
  | idle
  | releasing
  | destroyed
deriving DecidableEq

/-- A server and its thread. -/
structure ServerSlot where
  server : TrustedServer
  phase : ServerPhase

/-- Where a call is: before the lookup, with a pointer, inside `Process`, or behind it. -/
inductive CallStage where
  | looking (serverId : Str)
  | found (o : Nat)
  | inside (o : Nat)
  | handled
  | ended
deriving DecidableEq

/-- A call of the host, with the id of the listener it is a request of, if it is one. -/
structure MessageCall where
  stage : CallStage
  via : Option Str

/-- The enclave's servers and registry, the host's listeners, and the calls ever made. -/
structure Dispatch where
  slots : Nat → Option ServerSlot
  registry : Registry Str Nat
  listening : Str → Bool
  calls : List MessageCall

/-- A step of the thread of a server, or of a call. -/
inductive DispatchEvent where
  | construct (o : Nat)
  | listen (o : Nat) (url : Str)
  | start (o : Nat) (eid : Nat) (created : Bool)
  | unregister (o : Nat)
  | release (o : Nat)
  | destroy (o : Nat)
  | issue (serverId : Str) (via : Option Str)
  | query (c : Nat)
  | enterProcess (c : Nat)
  | leaveProcess (c : Nat)
  | finish (c : Nat)

namespace Dispatch

/-- Nothing has happened. -/
def initial : Dispatch := ⟨fun _ => none, .empty, fun _ => false, []⟩

/-- Change the slot of a server. -/
def setSlot (s : Dispatch) (o : Nat) (slot : ServerSlot) : Dispatch :=
  { s with slots := Function.update s.slots o (some slot) }

/-- Change a call. -/
def setStage (s : Dispatch) (c : Nat) (stage : CallStage) : Dispatch :=
  { s with calls := s.calls.modify c fun call => { call with stage := stage } }

/-- The stage of a call. -/
def stage (s : Dispatch) (c : Nat) : Option CallStage := (s.calls[c]?).map MessageCall.stage

/-- A request runs in the listener of an id. -/
def running (s : Dispatch) (serverId : Str) : Bool :=
  s.calls.any fun call => decide (call.via = some serverId ∧ call.stage ≠ .ended)

/-- `Start` with its listener created: the listener is open before the server is registered. -/
def startServer (s : Dispatch) (o eid : Nat) (server : TrustedServer) : Dispatch :=
  let serverId := serverIdOf eid server.url
  { s.setSlot o ⟨{ server with serverId := serverId, isStopped := false }, .idle⟩ with
    listening := Function.update s.listening serverId true
    registry := s.registry.register serverId o false }

/-- The first half of `Stop`, up to the ocall. -/
def beginStop (s : Dispatch) (o : Nat) (server : TrustedServer) : Dispatch :=
  if server.isStopped then s
  else if server.serverId.isEmpty then
    s.setSlot o ⟨{ server with isStopped := true }, .idle⟩
  else
    { s.setSlot o ⟨server, .releasing⟩ with registry := s.registry.unregister server.serverId }

/-- The second half of `Stop`: the ocall returns when no request runs in the listener. -/
def endStop (s : Dispatch) (o : Nat) (server : TrustedServer) : Dispatch :=
  if s.running server.serverId then s
  else
    { s.setSlot o ⟨{ server with isStopped := true }, .idle⟩ with
      listening := Function.update s.listening server.serverId false }

/-- One step. A step that cannot be taken where the thread or the call is leaves everything. -/
def step (s : Dispatch) : DispatchEvent → Dispatch
  | .construct o =>
      match s.slots o with
      | none => s.setSlot o ⟨.fresh, .idle⟩
      | some _ => s
  | .listen o url =>
      match s.slots o with
      | some ⟨server, .idle⟩ => s.setSlot o ⟨{ server with url := url }, .idle⟩
      | _ => s
  | .start o eid created =>
      match s.slots o with
      | some ⟨server, .idle⟩ =>
          if server.url.isEmpty || eid = 0 || !created then s else s.startServer o eid server
      | _ => s
  | .unregister o =>
      match s.slots o with
      | some ⟨server, .idle⟩ => s.beginStop o server
      | _ => s
  | .release o =>
      match s.slots o with
      | some ⟨server, .releasing⟩ => s.endStop o server
      | _ => s
  | .destroy o =>
      match s.slots o with
      -- the destructor calls `Stop` first
      | some ⟨server, .idle⟩ => if server.isStopped then s.setSlot o ⟨server, .destroyed⟩ else s
      | _ => s
  | .issue serverId via =>
      -- a request of a listener comes from one that is open
      if via.all s.listening then { s with calls := s.calls ++ [⟨.looking serverId, via⟩] } else s
  | .query c =>
      match s.stage c with
      | some (.looking serverId) =>
          match s.registry.query serverId with
          | some o => s.setStage c (.found o)
          | none => s.setStage c .ended
      | _ => s
  | .enterProcess c =>
      match s.stage c with
      | some (.found o) => s.setStage c (.inside o)
      | _ => s
  | .leaveProcess c =>
      match s.stage c with
      | some (.inside _) => s.setStage c .handled
      | _ => s
  | .finish c =>
      match s.stage c with
      | some .handled => s.setStage c .ended
      | _ => s

/-! ## Safety -/

/-- The server that a step runs `Process` on. -/
def processes (s : Dispatch) : DispatchEvent → Option Nat
  | .enterProcess c =>
      match s.stage c with
      | some (.found o) => some o
      | _ => none
  | .leaveProcess c =>
      match s.stage c with
      | some (.inside o) => some o
      | _ => none
  | _ => none

/-- A server that the destructor is past. -/
def Destroyed (s : Dispatch) (o : Nat) : Prop :=
  ∃ server, s.slots o = some ⟨server, .destroyed⟩

/-- A step does not run `Process` on a destroyed server. -/
def SafeStep (s : Dispatch) (e : DispatchEvent) : Prop :=
  ∀ o, s.processes e = some o → ¬ s.Destroyed o

/-- A step of a call: the host makes these at any time. -/
def OfHost : DispatchEvent → Prop
  | .issue .. => True
  | .query _ => True
  | .enterProcess _ => True
  | .leaveProcess _ => True
  | .finish _ => True
  | _ => False

/-- **The intended state.** Whatever calls the host makes and continues from here, none of them runs
`Process` on a destroyed server. -/
def HostSafe (s : Dispatch) : Prop :=
  ∀ events, (∀ e ∈ events, OfHost e) → Along step SafeStep s events

/-- A call holds a pointer that it has yet to use. -/
def Holds (s : Dispatch) (c o : Nat) : Prop :=
  s.stage c = some (.found o) ∨ s.stage c = some (.inside o)

/-- A server that is destroyed is held by no call and is under no key of the registry. -/
def QuietEnd (s : Dispatch) (e : DispatchEvent) : Prop :=
  ∀ o server, e = .destroy o → s.slots o = some ⟨server, .idle⟩ → server.isStopped = true →
    (∀ c, ¬ s.Holds c o) ∧ ∀ id, s.registry.query id ≠ some o

/-! ## What a step can do -/

/-- What a step can do: nothing, or what the thread or the call does where it is. -/
inductive Effect (s : Dispatch) : DispatchEvent → Dispatch → Prop where
  | stay (e : DispatchEvent) : Effect s e s
  | construct {o : Nat} (hslot : s.slots o = none) :
      Effect s (.construct o) (s.setSlot o ⟨.fresh, .idle⟩)
  | listen {o : Nat} {server : TrustedServer} (url : Str)
      (hslot : s.slots o = some ⟨server, .idle⟩) :
      Effect s (.listen o url) (s.setSlot o ⟨{ server with url := url }, .idle⟩)
  | start {o eid : Nat} {server : TrustedServer} (hslot : s.slots o = some ⟨server, .idle⟩)
      (hurl : server.url ≠ []) (heid : eid ≠ 0) :
      Effect s (.start o eid true) (s.startServer o eid server)
  | stopNameless {o : Nat} {server : TrustedServer} (hslot : s.slots o = some ⟨server, .idle⟩)
      (hruns : server.isStopped = false) (hid : server.serverId = []) :
      Effect s (.unregister o) (s.setSlot o ⟨{ server with isStopped := true }, .idle⟩)
  | unregister {o : Nat} {server : TrustedServer} (hslot : s.slots o = some ⟨server, .idle⟩)
      (hruns : server.isStopped = false) (hid : server.serverId ≠ []) :
      Effect s (.unregister o)
        { s.setSlot o ⟨server, .releasing⟩ with registry := s.registry.unregister server.serverId }
  | release {o : Nat} {server : TrustedServer} (hslot : s.slots o = some ⟨server, .releasing⟩)
      (hquiet : s.running server.serverId = false) :
      Effect s (.release o)
        { s.setSlot o ⟨{ server with isStopped := true }, .idle⟩ with
          listening := Function.update s.listening server.serverId false }
  | destroy {o : Nat} {server : TrustedServer} (hslot : s.slots o = some ⟨server, .idle⟩)
      (hstopped : server.isStopped = true) :
      Effect s (.destroy o) (s.setSlot o ⟨server, .destroyed⟩)
  | issue (serverId : Str) {via : Option Str} (hvia : ∀ id, via = some id → s.listening id = true) :
      Effect s (.issue serverId via) { s with calls := s.calls ++ [⟨.looking serverId, via⟩] }
  | find {c o : Nat} {serverId : Str} (hstage : s.stage c = some (.looking serverId))
      (hquery : s.registry.query serverId = some o) : Effect s (.query c) (s.setStage c (.found o))
  | miss {c : Nat} {serverId : Str} (hstage : s.stage c = some (.looking serverId)) :
      Effect s (.query c) (s.setStage c .ended)
  | enter {c o : Nat} (hstage : s.stage c = some (.found o)) :
      Effect s (.enterProcess c) (s.setStage c (.inside o))
  | leave {c o : Nat} (hstage : s.stage c = some (.inside o)) :
      Effect s (.leaveProcess c) (s.setStage c .handled)
  | finish {c : Nat} (hstage : s.stage c = some .handled) :
      Effect s (.finish c) (s.setStage c .ended)

/-- **Every step has one of these effects.** -/
theorem effect_step (s : Dispatch) (e : DispatchEvent) : Effect s e (s.step e) := by
  -- a slot in another phase, and a message at another stage, stay as they are
  cases e with
  | construct o =>
      simp only [step]
      cases hslot : s.slots o with
      | none => exact .construct hslot
      | some slot => exact .stay _
  | listen o url =>
      simp only [step]
      rcases hslot : s.slots o with - | ⟨server, phase⟩
      · exact .stay _
      · cases phase with
        | idle => exact .listen url hslot
        | releasing => exact .stay _
        | destroyed => exact .stay _
  | start o eid created =>
      simp only [step]
      rcases hslot : s.slots o with - | ⟨server, phase⟩
      · exact .stay _
      · cases phase with
        | releasing => exact .stay _
        | destroyed => exact .stay _
        | idle =>
            dsimp only
            split_ifs with hgives
            · exact .stay _
            · -- the host has made no server, so the guard would have held
              cases created with
              | false => exact absurd (by simp) hgives
              | true =>
                  simp only [Bool.not_true, Bool.or_false, Bool.or_eq_true, List.isEmpty_iff,
                    decide_eq_true_eq, not_or] at hgives
                  exact .start hslot hgives.1 hgives.2
  | unregister o =>
      simp only [step]
      rcases hslot : s.slots o with - | ⟨server, phase⟩
      · exact .stay _
      · cases phase with
        | releasing => exact .stay _
        | destroyed => exact .stay _
        | idle =>
            dsimp only [beginStop]
            split_ifs with hstopped hid
            · exact .stay _
            · exact .stopNameless hslot (Bool.eq_false_iff.2 hstopped) (List.isEmpty_iff.1 hid)
            · exact .unregister hslot (Bool.eq_false_iff.2 hstopped)
                (mt List.isEmpty_iff.2 hid)
  | release o =>
      simp only [step]
      rcases hslot : s.slots o with - | ⟨server, phase⟩
      · exact .stay _
      · cases phase with
        | idle => exact .stay _
        | destroyed => exact .stay _
        | releasing =>
            dsimp only [endStop]
            split_ifs with hrunning
            · exact .stay _
            · exact .release hslot (Bool.eq_false_iff.2 hrunning)
  | destroy o =>
      simp only [step]
      rcases hslot : s.slots o with - | ⟨server, phase⟩
      · exact .stay _
      · cases phase with
        | releasing => exact .stay _
        | destroyed => exact .stay _
        | idle =>
            dsimp only
            split_ifs with hstopped
            · exact .destroy hslot hstopped
            · exact .stay _
  | issue serverId via =>
      simp only [step]
      split_ifs with hvia
      · refine .issue serverId ?_
        rintro id rfl
        exact hvia
      · exact .stay _
  | query c =>
      simp only [step]
      rcases hstage : s.stage c with - | (serverId | o | o | - | -)
      · exact .stay _
      · dsimp only
        cases hquery : s.registry.query serverId with
        | some o => exact .find hstage hquery
        | none => exact .miss hstage
      all_goals exact .stay _
  | enterProcess c =>
      simp only [step]
      rcases hstage : s.stage c with - | (serverId | o | o | - | -)
      · exact .stay _
      · exact .stay _
      · exact .enter hstage
      all_goals exact .stay _
  | leaveProcess c =>
      simp only [step]
      rcases hstage : s.stage c with - | (serverId | o | o | - | -)
      · exact .stay _
      · exact .stay _
      · exact .stay _
      · exact .leave hstage
      all_goals exact .stay _
  | finish c =>
      simp only [step]
      rcases hstage : s.stage c with - | (serverId | o | o | - | -)
      · exact .stay _
      · exact .stay _
      · exact .stay _
      · exact .stay _
      · exact .finish hstage
      · exact .stay _

/-! ## Calls, servers and the registry apart -/

theorem stage_setStage (s : Dispatch) (c c' : Nat) (stage : CallStage) :
    (s.setStage c stage).stage c' =
      if c' = c then (s.stage c).map fun _ => stage else s.stage c' := by
  simp only [setStage, Dispatch.stage]
  rw [List.getElem?_modify]
  by_cases h : c' = c
  · subst h
    cases s.calls[c']? with
    | none => simp
    | some call => simp
  · rw [if_neg h]
    cases s.calls[c']? with
    | none => simp
    | some call => simp [Ne.symm h]

theorem slots_setSlot (s : Dispatch) (o o' : Nat) (slot : ServerSlot) :
    (s.setSlot o slot).slots o' = if o' = o then some slot else s.slots o' :=
  Function.update_apply ..

/-- A new call stands behind the others. -/
theorem calls_issued (s : Dispatch) (call : MessageCall) (c : Nat) :
    (s.calls ++ [call])[c]? = if c = s.calls.length then some call else s.calls[c]? := by
  by_cases hc : c = s.calls.length
  · subst hc
    simp
  · rw [if_neg hc, List.getElem?_append]
    split_ifs with hlt
    · rfl
    · rw [List.getElem?_eq_none (by simp; omega), List.getElem?_eq_none (by omega)]

/-- A server whose slot is set to another phase was not destroyed by it. -/
theorem destroyed_setSlot {s : Dispatch} {o o' : Nat} {server : TrustedServer} {phase : ServerPhase}
    (hphase : phase ≠ .destroyed) (h : (s.setSlot o ⟨server, phase⟩).Destroyed o') :
    s.Destroyed o' := by
  obtain ⟨server', hslot⟩ := h
  rw [slots_setSlot] at hslot
  by_cases ho : o' = o
  · rw [if_pos ho] at hslot
    cases hslot
    exact absurd rfl hphase
  · rw [if_neg ho] at hslot
    exact ⟨server', hslot⟩

/-- A server is destroyed by its own destructor alone. -/
theorem destroyed_step {s : Dispatch} {e : DispatchEvent} {o : Nat} (h : (s.step e).Destroyed o) :
    s.Destroyed o ∨
      ∃ server, e = .destroy o ∧ s.slots o = some ⟨server, .idle⟩ ∧ server.isStopped = true := by
  have heffect := effect_step s e
  generalize s.step e = s' at h heffect
  cases heffect with
  | stay => exact .inl h
  | construct hslot => exact .inl (destroyed_setSlot (by decide) h)
  | listen url hslot => exact .inl (destroyed_setSlot (by decide) h)
  | start hslot hurl heid => exact .inl (destroyed_setSlot (by decide) h)
  | stopNameless hslot hruns hid => exact .inl (destroyed_setSlot (by decide) h)
  | unregister hslot hruns hid => exact .inl (destroyed_setSlot (by decide) h)
  | release hslot hquiet => exact .inl (destroyed_setSlot (by decide) h)
  | @destroy o' server hslot hstopped =>
      obtain ⟨server', hslot'⟩ := h
      rw [slots_setSlot] at hslot'
      by_cases ho : o = o'
      · subst ho
        exact .inr ⟨server, rfl, hslot, hstopped⟩
      · rw [if_neg ho] at hslot'
        exact .inl ⟨server', hslot'⟩
  | issue serverId hvia => exact .inl h
  | find hstage hquery => exact .inl h
  | miss hstage => exact .inl h
  | enter hstage => exact .inl h
  | leave hstage => exact .inl h
  | finish hstage => exact .inl h

/-- A call whose stage is set holds a server then only if the stage does. -/
theorem holds_setStage {s : Dispatch} {c c' o : Nat} {stage : CallStage}
    (h : (s.setStage c stage).Holds c' o) :
    s.Holds c' o ∨ (c' = c ∧ (stage = .found o ∨ stage = .inside o)) := by
  simp only [Holds] at h
  rw [stage_setStage] at h
  by_cases hc : c' = c
  · rw [if_pos hc] at h
    refine .inr ⟨hc, ?_⟩
    cases hstage : s.stage c with
    | none =>
        rw [hstage] at h
        rcases h with h | h <;> cases h
    | some old =>
        rw [hstage] at h
        simpa using h
  · rw [if_neg hc] at h
    exact .inl h

/-- A call comes to hold a server by finding it in the registry. -/
theorem holds_step {s : Dispatch} {e : DispatchEvent} {c o : Nat} (h : (s.step e).Holds c o) :
    s.Holds c o ∨ ∃ id, s.registry.query id = some o := by
  have heffect := effect_step s e
  generalize s.step e = s' at h heffect
  cases heffect with
  | stay => exact .inl h
  | construct hslot => exact .inl h
  | listen url hslot => exact .inl h
  | start hslot hurl heid => exact .inl h
  | stopNameless hslot hruns hid => exact .inl h
  | unregister hslot hruns hid => exact .inl h
  | release hslot hquiet => exact .inl h
  | destroy hslot hstopped => exact .inl h
  | issue serverId hvia =>
      left
      simp only [Holds, Dispatch.stage] at h ⊢
      rw [calls_issued] at h
      split_ifs at h with hnew
      -- a new call holds nothing
      · rcases h with h | h <;> cases h
      · exact h
  | find hstage hquery =>
      rcases holds_setStage h with hold | ⟨-, hnew | hnew⟩
      · exact .inl hold
      · cases hnew
        exact .inr ⟨_, hquery⟩
      · cases hnew
  | miss hstage =>
      rcases holds_setStage h with hold | ⟨-, hnew | hnew⟩
      · exact .inl hold
      · cases hnew
      · cases hnew
  | enter hstage =>
      rcases holds_setStage h with hold | ⟨rfl, hnew | hnew⟩
      · exact .inl hold
      · cases hnew
      -- the call held the server before it entered `Process`
      · cases hnew
        exact .inl (.inl hstage)
  | leave hstage =>
      rcases holds_setStage h with hold | ⟨-, hnew | hnew⟩
      · exact .inl hold
      · cases hnew
      · cases hnew
  | finish hstage =>
      rcases holds_setStage h with hold | ⟨-, hnew | hnew⟩
      · exact .inl hold
      · cases hnew
      · cases hnew

/-- A server comes into the registry by its own start, which is before its end. -/
theorem query_step {s : Dispatch} {e : DispatchEvent} {id : Str} {o : Nat}
    (h : (s.step e).registry.query id = some o) :
    s.registry.query id = some o ∨
      ∃ eid server, e = .start o eid true ∧ s.slots o = some ⟨server, .idle⟩ := by
  have heffect := effect_step s e
  generalize s.step e = s' at h heffect
  cases heffect with
  | stay => exact .inl h
  | construct hslot => exact .inl h
  | listen url hslot => exact .inl h
  | @start o' eid server hslot hurl heid =>
      rcases Registry.query_register_eq_some_iff.1 h with ⟨-, hobj⟩ | ⟨-, hold⟩
      · cases hobj
        exact .inr ⟨eid, server, rfl, hslot⟩
      · exact .inl hold
  | stopNameless hslot hruns hid => exact .inl h
  | unregister hslot hruns hid => exact .inl (Registry.query_unregister_eq_some_iff.1 h).2
  | release hslot hquiet => exact .inl h
  | destroy hslot hstopped => exact .inl h
  | issue serverId hvia => exact .inl h
  | find hstage hquery => exact .inl h
  | miss hstage => exact .inl h
  | enter hstage => exact .inl h
  | leave hstage => exact .inl h
  | finish hstage => exact .inl h

/-! ## Destroyed servers stay out of reach -/

/-- No call holds a destroyed server and no key of the registry has one. -/
def Clear (s : Dispatch) : Prop :=
  ∀ o, s.Destroyed o → (∀ c, ¬ s.Holds c o) ∧ ∀ id, s.registry.query id ≠ some o

theorem clear_initial : initial.Clear := by
  rintro o ⟨server, hslot⟩
  cases hslot

theorem clear_step {s : Dispatch} {e : DispatchEvent} (h : s.Clear) (hquiet : s.QuietEnd e) :
    (s.step e).Clear := by
  intro o hdestroyed
  -- before the step nothing leads to the server, whether it was destroyed or is destroyed now
  have hbefore : (∀ c, ¬ s.Holds c o) ∧ ∀ id, s.registry.query id ≠ some o := by
    rcases destroyed_step hdestroyed with hold | ⟨server, rfl, hslot, hstopped⟩
    · exact h o hold
    · exact hquiet o server rfl hslot hstopped
  constructor
  · intro c hholds
    rcases holds_step hholds with hold | ⟨id, hquery⟩
    · exact hbefore.1 c hold
    · exact hbefore.2 id hquery
  · intro id hquery
    rcases query_step hquery with hold | ⟨eid, server, rfl, hslot⟩
    · exact hbefore.2 id hold
    · rcases destroyed_step hdestroyed with ⟨server', hdead⟩ | ⟨server', hevent, -, -⟩
      · rw [hslot] at hdead
        cases hdead
      · cases hevent

/-- A step that runs `Process` is one of a call that holds the server. -/
theorem holds_of_processes {s : Dispatch} {e : DispatchEvent} {o : Nat}
    (h : s.processes e = some o) : ∃ c, s.Holds c o := by
  simp only [processes] at h
  split at h
  · next c =>
      split at h
      · next hstage =>
          cases h
          exact ⟨c, .inl hstage⟩
      · cases h
  · next c =>
      split at h
      · next hstage =>
          cases h
          exact ⟨c, .inr hstage⟩
      · cases h
  · cases h

theorem safeStep_of_clear {s : Dispatch} (h : s.Clear) (e : DispatchEvent) : s.SafeStep e := by
  intro o hprocesses hdestroyed
  obtain ⟨c, hholds⟩ := holds_of_processes hprocesses
  exact (h o hdestroyed).1 c hholds

theorem quietEnd_of_host {e : DispatchEvent} (h : OfHost e) (s : Dispatch) : s.QuietEnd e := by
  rintro o server rfl
  exact absurd h id

/-- The host can bring no `Process` to run on a server that is out of reach. -/
theorem hostSafe_of_clear {s : Dispatch} (h : s.Clear) : s.HostSafe := by
  intro events hhost
  induction events generalizing s with
  | nil => trivial
  | cons e events ih =>
      have he := hhost e List.mem_cons_self
      refine ⟨safeStep_of_clear h e, ih (clear_step h (quietEnd_of_host he s)) ?_⟩
      intro e' hmem
      exact hhost e' (List.mem_cons_of_mem _ hmem)

/-- A lookup that finds a server. -/
theorem step_query {s : Dispatch} {c o : Nat} {serverId : Str}
    (hstage : s.stage c = some (.looking serverId)) (hquery : s.registry.query serverId = some o) :
    s.step (.query c) = s.setStage c (.found o) := by
  simp only [step, hstage, hquery]

/-- A server that a call holds, or that is in the registry, is in the host's reach. -/
theorem not_hostSafe_of_destroyed {s : Dispatch} {o : Nat} (hdestroyed : s.Destroyed o)
    (hreach : (∃ c, s.Holds c o) ∨ ∃ id, s.registry.query id = some o) : ¬ s.HostSafe := by
  intro hsafe
  rcases hreach with ⟨c, hfound | hinside⟩ | ⟨id, hquery⟩
  · have hstep := (hsafe [.enterProcess c] (by simp [OfHost])).1
    exact hstep o (by simp only [processes, hfound]) hdestroyed
  · have hstep := (hsafe [.leaveProcess c] (by simp [OfHost])).1
    exact hstep o (by simp only [processes, hinside]) hdestroyed
  -- a new call finds the stale entry
  · have hrun := hsafe [.issue id none, .query s.calls.length, .enterProcess s.calls.length]
      (by simp [OfHost])
    have hissued : (s.step (.issue id none)).stage s.calls.length = some (.looking id) := by
      simp [step, Dispatch.stage]
    have hfinds := step_query hissued (o := o) hquery
    have hfound : ((s.step (.issue id none)).step (.query s.calls.length)).stage s.calls.length =
        some (.found o) := by
      rw [hfinds, stage_setStage, if_pos rfl, hissued]
      rfl
    apply hrun.2.2.1 o (by simp only [processes, hfound])
    rw [hfinds]
    exact hdestroyed

/-- **One step.** Where destroyed servers are out of reach, a step keeps them so exactly when it
meets the condition. -/
theorem hostSafe_step_iff {s : Dispatch} (h : s.Clear) (e : DispatchEvent) :
    (s.SafeStep e ∧ (s.step e).HostSafe) ↔ s.QuietEnd e := by
  constructor
  · rintro ⟨-, hsafe⟩ o server rfl hslot hstopped
    have hstep : s.step (.destroy o) = s.setSlot o ⟨server, .destroyed⟩ := by
      simp only [step, hslot, hstopped, if_true]
    have hdestroyed : (s.step (.destroy o)).Destroyed o := by
      rw [hstep]
      exact ⟨server, by rw [slots_setSlot, if_pos rfl]⟩
    have hreach := fun hreach => not_hostSafe_of_destroyed hdestroyed hreach hsafe
    rw [hstep] at hreach
    constructor
    · intro c hholds
      exact hreach (.inl ⟨c, hholds⟩)
    · intro id hquery
      exact hreach (.inr ⟨id, hquery⟩)
  · intro hquiet
    exact ⟨safeStep_of_clear h e, hostSafe_of_clear (clear_step h hquiet)⟩

/-- **When no destroyed server processes a request.** In every interleaving no step runs `Process`
on a destroyed server, nor can the host bring one to do so from where the run has come to, exactly
when every server that is destroyed is held by no call and is under no key of the registry. -/
theorem host_safe_along_iff (events : List DispatchEvent) :
    Along step (fun s e => s.SafeStep e ∧ (s.step e).HostSafe) initial events ↔
      Along step QuietEnd initial events :=
  along_exact_iff (fun s e (h : s.Clear) => hostSafe_step_iff h e)
    (fun _ _ h hquiet => clear_step h hquiet) clear_initial events

/-- A call of the host finds a server, which is stopped and destroyed before `Process` is entered.
-/
theorem process_on_destroyed_server :
    ¬ Along step SafeStep initial
      [.construct 0, .listen 0 (str "http://a:1"), .start 0 2 true,
        .issue (str "2_http://a:1") none, .query 0, .unregister 0, .release 0, .destroy 0,
        .enterProcess 0] := by
  rintro ⟨-, -, -, -, -, -, -, -, hprocess, -⟩
  exact hprocess 0 (by decide) ⟨⟨str "http://a:1", str "2_http://a:1", true⟩, by rfl⟩

/-! ## Requests of the listeners alone -/

/-- The listener that a call is a request of. -/
def via (s : Dispatch) (c : Nat) : Option (Option Str) := (s.calls[c]?).map MessageCall.via

/-- A call is a request of the listener of the server it looks for, and a server starts only when it
is stopped and its id is free. -/
def Orderly (s : Dispatch) : DispatchEvent → Prop
  | .issue serverId via => via = some serverId
  | .start o eid true =>
      ∀ server, s.slots o = some ⟨server, .idle⟩ → server.url ≠ [] → eid ≠ 0 →
        server.isStopped = true ∧ s.registry.query (serverIdOf eid server.url) = none
  | _ => True

/-- What orderly runs keep: what is registered is a running server outside of `Stop`, a running
server has an id, a call that holds a server is a request of its listener, and the server was not
stopped. -/
structure InOrder (s : Dispatch) : Prop where
  registered : ∀ id o, s.registry.query id = some o →
    ∃ server, s.slots o = some ⟨server, .idle⟩ ∧ server.isStopped = false ∧ server.serverId = id
  named : ∀ o server, s.slots o = some ⟨server, .idle⟩ → server.isStopped = false →
    server.serverId ≠ []
  held : ∀ c o, s.Holds c o → ∃ server phase, s.slots o = some ⟨server, phase⟩ ∧
    server.isStopped = false ∧ s.via c = some (some server.serverId)
  looking : ∀ c serverId, s.stage c = some (.looking serverId) → s.via c = some (some serverId)

theorem inOrder_initial : initial.InOrder where
  registered := fun _ _ hquery => nomatch hquery
  named := fun _ _ hslot => nomatch hslot
  held := fun _ _ hholds => hholds.elim (fun h => nomatch h) fun h => nomatch h
  looking := fun _ _ hstage => nomatch hstage

/-- Whose request a call is does not depend on its stage. -/
@[simp] theorem via_setStage (s : Dispatch) (c c' : Nat) (stage : CallStage) :
    (s.setStage c stage).via c' = s.via c' := by
  simp only [setStage, via]
  rw [List.getElem?_modify]
  cases s.calls[c']? with
  | none => rfl
  | some call => by_cases h : c = c' <;> simp [h]

/-- A call that holds a server runs in the listener it is a request of. -/
theorem running_of_holds {s : Dispatch} {c o : Nat} {id : Str} (hholds : s.Holds c o)
    (hvia : s.via c = some (some id)) : s.running id = true := by
  simp only [Holds, Dispatch.stage] at hholds
  simp only [via] at hvia
  cases hcall : s.calls[c]? with
  | none => simp [hcall] at hvia
  | some call =>
      simp only [hcall, Option.map_some, Option.some.injEq] at hholds hvia
      refine List.any_eq_true.2 ⟨call, List.mem_of_getElem? hcall, ?_⟩
      refine decide_eq_true ⟨hvia, ?_⟩
      rcases hholds with hstage | hstage <;> simp [hstage]

/-- A server with a key of the registry is running, outside of `Stop`, and has that id. -/
theorem InOrder.of_registered {s : Dispatch} (h : s.InOrder) {o : Nat} {server : TrustedServer}
    {phase : ServerPhase} (hslot : s.slots o = some ⟨server, phase⟩) {id : Str}
    (hquery : s.registry.query id = some o) :
    phase = .idle ∧ server.isStopped = false ∧ server.serverId = id := by
  obtain ⟨server', hslot', hruns, hid⟩ := h.registered id o hquery
  rw [hslot] at hslot'
  cases hslot'
  exact ⟨rfl, hruns, hid⟩

/-- A server that a call holds was not stopped, and the call is a request of its listener. -/
theorem InOrder.of_held {s : Dispatch} (h : s.InOrder) {o : Nat} {server : TrustedServer}
    {phase : ServerPhase} (hslot : s.slots o = some ⟨server, phase⟩) {c : Nat}
    (hholds : s.Holds c o) :
    server.isStopped = false ∧ s.via c = some (some server.serverId) := by
  obtain ⟨server', phase', hslot', hruns, hvia⟩ := h.held c o hholds
  rw [hslot] at hslot'
  cases hslot'
  exact ⟨hruns, hvia⟩

/-- Nothing leads to a server that is stopped. -/
theorem InOrder.of_stopped {s : Dispatch} (h : s.InOrder) {o : Nat} {server : TrustedServer}
    {phase : ServerPhase} (hslot : s.slots o = some ⟨server, phase⟩)
    (hstopped : server.isStopped = true) :
    (∀ c, ¬ s.Holds c o) ∧ ∀ id, s.registry.query id ≠ some o := by
  constructor
  · intro c hholds
    exact Bool.noConfusion (hstopped.symm.trans (h.of_held hslot hholds).1)
  · intro id hquery
    exact Bool.noConfusion (hstopped.symm.trans (h.of_registered hslot hquery).2.1)

/-- A server whose slot changes: the others stay as they are, and nothing leads to this one or it
goes on as it was. -/
theorem InOrder.setSlot {s : Dispatch} (h : s.InOrder) {o : Nat} {server : TrustedServer}
    {phase : ServerPhase}
    (hnamed : phase = .idle → server.isStopped = false → server.serverId ≠ [])
    (hregistered : ∀ id, s.registry.query id = some o →
      phase = .idle ∧ server.isStopped = false ∧ server.serverId = id)
    (hheld : ∀ c, s.Holds c o → server.isStopped = false ∧ s.via c = some (some server.serverId)) :
    (s.setSlot o ⟨server, phase⟩).InOrder := by
  constructor
  · intro id o' hquery
    rw [slots_setSlot]
    by_cases ho : o' = o
    · subst ho
      obtain ⟨rfl, hruns, hid⟩ := hregistered id hquery
      exact ⟨server, if_pos rfl, hruns, hid⟩
    · rw [if_neg ho]
      exact h.registered id o' hquery
  · intro o' server' hslot
    rw [slots_setSlot] at hslot
    by_cases ho : o' = o
    · rw [if_pos ho] at hslot
      cases hslot
      exact hnamed rfl
    · rw [if_neg ho] at hslot
      exact h.named o' server' hslot
  · intro c o' hholds
    rw [slots_setSlot]
    by_cases ho : o' = o
    · subst ho
      obtain ⟨hruns, hvia⟩ := hheld c hholds
      exact ⟨server, phase, if_pos rfl, hruns, hvia⟩
    · rw [if_neg ho]
      exact h.held c o' hholds
  · exact h.looking

/-- Dropping an entry keeps the order. -/
theorem InOrder.unregister {s : Dispatch} (h : s.InOrder) (key : Str) :
    { s with registry := s.registry.unregister key }.InOrder where
  registered := fun id o hquery =>
    h.registered id o (Registry.query_unregister_eq_some_iff.1 hquery).2
  named := h.named
  held := h.held
  looking := h.looking

/-- A call that goes on: it holds the server it finds or has, and is a request of its listener. -/
theorem InOrder.setStage {s : Dispatch} (h : s.InOrder) {c : Nat} {stage : CallStage}
    (hheld : ∀ o, stage = .found o ∨ stage = .inside o → ∃ server phase,
      s.slots o = some ⟨server, phase⟩ ∧ server.isStopped = false ∧
      s.via c = some (some server.serverId))
    (hlooking : ∀ id, stage ≠ .looking id) : (s.setStage c stage).InOrder := by
  constructor
  · exact h.registered
  · exact h.named
  · intro c' o hholds
    rw [via_setStage]
    rcases holds_setStage hholds with hold | ⟨rfl, hnew⟩
    · exact h.held c' o hold
    · exact hheld o hnew
  · intro c' id hstage
    rw [via_setStage]
    rw [stage_setStage] at hstage
    by_cases hc : c' = c
    · rw [if_pos hc] at hstage
      cases hold : s.stage c with
      | none => simp [hold] at hstage
      | some old => exact absurd (by simpa [hold] using hstage) (hlooking id)
    · rw [if_neg hc] at hstage
      exact h.looking c' id hstage

/-- **Orderly steps keep the order.** -/
theorem inOrder_step {s : Dispatch} {e : DispatchEvent} (h : s.InOrder) (horderly : s.Orderly e) :
    (s.step e).InOrder := by
  have heffect := effect_step s e
  generalize s.step e = s' at heffect
  cases heffect with
  | stay => exact h
  | construct hslot =>
      refine h.setSlot (fun _ hruns => nomatch hruns) ?_ ?_
      · intro id hquery
        obtain ⟨server, hslot', -⟩ := h.registered id _ hquery
        rw [hslot] at hslot'
        cases hslot'
      · intro c hholds
        obtain ⟨server, phase, hslot', -⟩ := h.held c _ hholds
        rw [hslot] at hslot'
        cases hslot'
  | @listen o server url hslot =>
      exact h.setSlot (fun _ => h.named o server hslot) (fun _ => h.of_registered hslot)
        (fun _ => h.of_held hslot)
  | @start o eid server hslot hurl heid =>
      obtain ⟨hstopped, hfree⟩ := horderly server hslot hurl heid
      obtain ⟨hunheld, hunregistered⟩ := h.of_stopped hslot hstopped
      have hset : (s.setSlot o
          ⟨{ server with serverId := serverIdOf eid server.url, isStopped := false },
            .idle⟩).InOrder :=
        h.setSlot (fun _ _ => serverIdOf_ne_nil eid server.url)
          (fun id hquery => absurd hquery (hunregistered id))
          (fun c hholds => absurd hholds (hunheld c))
      refine ⟨?_, hset.named, hset.held, hset.looking⟩
      intro id o' hquery
      rcases Registry.query_register_eq_some_iff.1 hquery with ⟨hid, hobj⟩ | ⟨-, hold⟩
      · cases hobj
        exact ⟨_, (slots_setSlot s o o _).trans (if_pos rfl), rfl, hid.symm⟩
      · exact hset.registered id o' hold
  | stopNameless hslot hruns hid => exact absurd hid (h.named _ _ hslot hruns)
  | @unregister o server hslot hruns hid =>
      refine (h.unregister server.serverId).setSlot (fun hphase => nomatch hphase) ?_
        (fun _ => h.of_held hslot)
      -- the only key of the server is its id, which was dropped
      intro id hquery
      obtain ⟨hne, hold⟩ := Registry.query_unregister_eq_some_iff.1 hquery
      exact absurd (h.of_registered hslot hold).2.2.symm hne
  | @release o server hslot hquiet =>
      have hset : (s.setSlot o ⟨{ server with isStopped := true }, .idle⟩).InOrder := by
        refine h.setSlot (fun _ hruns => nomatch hruns) ?_ ?_
        · intro id hquery
          exact ServerPhase.noConfusion (h.of_registered hslot hquery).1
        -- a call that holds the server runs in its listener, and the release waited for it
        · intro c hholds
          have hrunning := running_of_holds hholds (h.of_held hslot hholds).2
          exact Bool.noConfusion (hquiet.symm.trans hrunning)
      exact ⟨hset.registered, hset.named, hset.held, hset.looking⟩
  | @destroy o server hslot hstopped =>
      obtain ⟨hunheld, hunregistered⟩ := h.of_stopped hslot hstopped
      exact h.setSlot (fun hphase => nomatch hphase)
        (fun id hquery => absurd hquery (hunregistered id))
        (fun c hholds => absurd hholds (hunheld c))
  | @issue serverId via hvia =>
      cases horderly
      constructor
      · exact h.registered
      · exact h.named
      · intro c o hholds
        simp only [Holds, Dispatch.stage] at hholds
        simp only [via]
        rw [calls_issued] at hholds ⊢
        split_ifs at hholds ⊢ with hnew
        · rcases hholds with hholds | hholds <;> cases hholds
        · exact h.held c o hholds
      · intro c id hstage
        simp only [Dispatch.stage] at hstage
        simp only [via]
        rw [calls_issued] at hstage ⊢
        split_ifs at hstage ⊢ with hnew
        · cases hstage
          rfl
        · exact h.looking c id hstage
  | find hstage hquery =>
      refine h.setStage ?_ (fun id hnew => nomatch hnew)
      rintro o (hnew | hnew)
      · cases hnew
        obtain ⟨server, hslot, hruns, rfl⟩ := h.registered _ _ hquery
        exact ⟨server, .idle, hslot, hruns, h.looking _ _ hstage⟩
      · cases hnew
  | miss hstage =>
      exact h.setStage (fun o hnew => hnew.elim (fun h => nomatch h) fun h => nomatch h)
        (fun id hnew => nomatch hnew)
  | enter hstage =>
      refine h.setStage ?_ (fun id hnew => nomatch hnew)
      rintro o (hnew | hnew)
      · cases hnew
      · cases hnew
        exact h.held _ _ (.inl hstage)
  | leave hstage =>
      exact h.setStage (fun o hnew => hnew.elim (fun h => nomatch h) fun h => nomatch h)
        (fun id hnew => nomatch hnew)
  | finish hstage =>
      exact h.setStage (fun o hnew => hnew.elim (fun h => nomatch h) fun h => nomatch h)
        (fun id hnew => nomatch hnew)

/-- **Orderly runs are safe.** Where the host makes no call but as a request of an open listener,
and no server starts twice or under an id in use, every server that is destroyed is out of reach. -/
theorem quietEnd_of_orderly {events : List DispatchEvent}
    (horderly : Along step Orderly initial events) : Along step QuietEnd initial events := by
  refine horderly.of_invariant (fun _ _ ho h => inOrder_step h ho) ?_ inOrder_initial
  rintro s e - h o server rfl hslot hstopped
  exact h.of_stopped hslot hstopped

end Dispatch

end Ssgx.Http
