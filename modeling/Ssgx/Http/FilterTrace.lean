import Ssgx.Http.Router

/-!
# The order of filters and handler

`FilterChain::Execute` over an application that keeps a trace: the same handlers and filters, each
filter under its position in the chain, with the calls written down in the world they share
(`Application.traced`). The chain itself is the one of the routes, run unchanged, and without the
trace it does what it does for the application (`execute_traced`).

`execute_order` says which calls a run of the chain makes, and in which order.
-/

set_option autoImplicit false

namespace Ssgx.Http

open Ssgx.Support

variable {H F W α : Type}

/-! ## Applications that keep a trace -/

/-- A call that a chain makes. -/
inductive ChainEvent where
  | before (i : Nat)
  | handler
  | after (i : Nat)
deriving DecidableEq

/-- A handling whose world holds a trace. -/
abbrev TracedHandling (W : Type) : Type := Handling (W × List ChainEvent)

namespace Handling

/-- The calls so far. -/
def trace (s : TracedHandling W) : List ChainEvent := s.world.2

/-- The handling without the trace. -/
def untraced (s : TracedHandling W) : Handling W := ⟨s.request, s.response, s.world.1⟩

/-- The handling with this trace. -/
def withTrace (s : Handling W) (trace : List ChainEvent) : TracedHandling W :=
  ⟨s.request, s.response, (s.world, trace)⟩

@[simp] theorem trace_withTrace (s : Handling W) (trace : List ChainEvent) :
    (s.withTrace trace).trace = trace := rfl

@[simp] theorem untraced_withTrace (s : Handling W) (trace : List ChainEvent) :
    (s.withTrace trace).untraced = s := rfl

end Handling

/-- A call that is written down. -/
def traceCall (event : ChainEvent) (call : Call Thrown (Handling W) α) :
    Call Thrown (TracedHandling W) α := fun s =>
  ((call s.untraced).1, (call s.untraced).2.withTrace (s.trace ++ [event]))

/-- The application whose calls are written down, with the filters under their positions. -/
def Application.traced (app : Application H F W) :
    Application H (F × Nat) (W × List ChainEvent) where
  handle h := traceCall .handler (app.handle h)
  before filter := traceCall (.before filter.2) (app.before filter.1)
  after filter := traceCall (.after filter.2) (app.after filter.1)

namespace FilterChain

/-- The chain of the filters under their positions, with an empty trace. -/
def executeTraced (app : Application H F W) (filters : List F) (handler : H) (s : Handling W) :
    Processed H (W × List ChainEvent) :=
  execute app.traced filters.zipIdx handler (s.withTrace [])

/-- The run begins with a fresh response and an empty trace. -/
theorem executeTraced_eq (app : Application H F W) (filters : List F) (handler : H)
    (s : Handling W) :
    executeTraced app filters handler s =
      match runBefore app.traced filters.zipIdx
          (({ s with response := .fresh } : Handling W).withTrace []) with
      | (.error thrown, s') => ⟨.error thrown, s', []⟩
      | (.ok false, s') => ⟨.ok ⟨⟩, s', []⟩
      | (.ok true, s') =>
          let (result, s'') := runAfter app.traced filters.zipIdx
            (runHandler app.traced handler s')
          ⟨result, s'', [handler]⟩ := by
  have hstart : ({ s.withTrace [] with response := .fresh } : TracedHandling W) =
      ({ s with response := .fresh } : Handling W).withTrace [] := rfl
  simp only [executeTraced, execute]
  rw [hstart]
  rcases runBefore app.traced filters.zipIdx
    (({ s with response := .fresh } : Handling W).withTrace []) with ⟨result, s'⟩
  cases result with
  | error thrown => rfl
  | ok goOn =>
      cases goOn with
      | false => rfl
      | true => rfl

/-! ## Without the trace -/

theorem untraced_runBefore (app : Application H F W) (filters : List F) (k : Nat)
    (s : TracedHandling W) :
    (runBefore app.traced (filters.zipIdx k) s).1 = (runBefore app filters s.untraced).1 ∧
      (runBefore app.traced (filters.zipIdx k) s).2.untraced =
        (runBefore app filters s.untraced).2 := by
  induction filters generalizing k s with
  | nil => exact ⟨rfl, rfl⟩
  | cons filter rest ih =>
      simp only [List.zipIdx_cons, runBefore, Call.bind_apply, Application.traced, traceCall]
      rcases app.before filter s.untraced with ⟨result, s'⟩
      cases result with
      | error thrown => exact ⟨rfl, rfl⟩
      | ok goOn =>
          cases goOn with
          | false => exact ⟨rfl, rfl⟩
          | true => exact ih (k + 1) (s'.withTrace (s.trace ++ [.before k]))

theorem untraced_runAfter (app : Application H F W) (filters : List F) (k : Nat)
    (s : TracedHandling W) :
    (runAfter app.traced (filters.zipIdx k) s).1 = (runAfter app filters s.untraced).1 ∧
      (runAfter app.traced (filters.zipIdx k) s).2.untraced =
        (runAfter app filters s.untraced).2 := by
  induction filters generalizing k s with
  | nil => exact ⟨rfl, rfl⟩
  | cons filter rest ih =>
      simp only [List.zipIdx_cons, runAfter, Call.bind_apply, Application.traced, traceCall]
      rcases app.after filter s.untraced with ⟨result, s'⟩
      cases result with
      | error thrown => exact ⟨rfl, rfl⟩
      | ok done => exact ih (k + 1) (s'.withTrace (s.trace ++ [.after k]))

/-- The handler in its `try` block is written down once, whatever it throws. -/
theorem runHandler_traced (app : Application H F W) (handler : H) (s : TracedHandling W) :
    runHandler app.traced handler s =
      (runHandler app handler s.untraced).withTrace (s.trace ++ [.handler]) := by
  simp only [runHandler, Application.traced, traceCall]
  rcases app.handle handler s.untraced with ⟨result, s'⟩
  cases result with
  | error thrown => rfl
  | ok done => rfl

/-- **The trace changes nothing.** Without it, the run is the one of the chain. -/
theorem execute_traced (app : Application H F W) (filters : List F) (handler : H) (s : Handling W) :
    (executeTraced app filters handler s).result = (execute app filters handler s).result ∧
      (executeTraced app filters handler s).handling.untraced =
        (execute app filters handler s).handling ∧
      (executeTraced app filters handler s).ran = (execute app filters handler s).ran := by
  obtain ⟨hresult, hworld⟩ := untraced_runBefore app filters 0
    (({ s with response := .fresh } : Handling W).withTrace [])
  rw [Handling.untraced_withTrace] at hresult hworld
  rw [executeTraced_eq]
  simp only [execute]
  generalize runBefore app.traced filters.zipIdx
    (({ s with response := .fresh } : Handling W).withTrace []) = traced at hresult hworld ⊢
  generalize runBefore app filters { s with response := .fresh } = plain at hresult hworld ⊢
  obtain ⟨tracedResult, tracedWorld⟩ := traced
  obtain ⟨plainResult, plainWorld⟩ := plain
  obtain rfl : tracedResult = plainResult := hresult
  obtain rfl : tracedWorld.untraced = plainWorld := hworld
  cases tracedResult with
  | error thrown => exact ⟨rfl, rfl, rfl⟩
  | ok goOn =>
      cases goOn with
      | false => exact ⟨rfl, rfl, rfl⟩
      | true =>
          simp only [runHandler_traced]
          obtain ⟨hafter, hend⟩ := untraced_runAfter app filters 0
            ((runHandler app handler tracedWorld.untraced).withTrace
              (tracedWorld.trace ++ [.handler]))
          exact ⟨hafter, hend, trivial⟩

/-! ## The calls of the loops -/

/-- The calls of `Before` of `n` filters from position `k` on. -/
def befores (k n : Nat) : List ChainEvent := (List.range' k n).map .before

/-- The calls of `After` of `n` filters from position `k` on. -/
def afters (k n : Nat) : List ChainEvent := (List.range' k n).map .after

/-- Every `Before` of the filters returns `true`, and together they lead from one handling to the
other. -/
def PassesAll (app : Application H F W) : List F → Handling W → Handling W → Prop
  | [], s, s' => s' = s
  | filter :: rest, s, s' =>
      ∃ m, app.before filter s = (.ok true, m) ∧ PassesAll app rest m s'

theorem befores_succ (k n : Nat) : befores k (n + 1) = .before k :: befores (k + 1) n := rfl

theorem afters_succ (k n : Nat) : afters k (n + 1) = .after k :: afters (k + 1) n := rfl

/-- The first loop lets a request through exactly where every `Before` returns `true`. -/
theorem runBefore_eq_true_iff {app : Application H F W} {filters : List F} {s m : Handling W} :
    runBefore app filters s = (.ok true, m) ↔ PassesAll app filters s m := by
  induction filters generalizing s with
  | nil =>
      simp only [runBefore, PassesAll, Call.pure_apply, Prod.mk.injEq, true_and]
      exact eq_comm
  | cons filter rest ih =>
      simp only [runBefore, PassesAll, Call.bind_apply]
      rcases app.before filter s with ⟨result, s'⟩
      cases result with
      | error thrown => simp
      | ok goOn =>
          cases goOn with
          | false => simp
          | true => simpa using ih

/-- The first loop writes down the calls of `Before` in their order, up to the one that ends it. -/
theorem trace_runBefore (app : Application H F W) (filters : List F) (k : Nat)
    (s : TracedHandling W) :
    ∃ n, (runBefore app.traced (filters.zipIdx k) s).2.trace = s.trace ++ befores k n := by
  induction filters generalizing k s with
  | nil => exact ⟨0, (List.append_nil _).symm⟩
  | cons filter rest ih =>
      simp only [List.zipIdx_cons, runBefore, Call.bind_apply, Application.traced, traceCall]
      rcases app.before filter s.untraced with ⟨result, s'⟩
      cases result with
      | error thrown => exact ⟨1, rfl⟩
      | ok goOn =>
          cases goOn with
          | false => exact ⟨1, rfl⟩
          | true =>
              obtain ⟨n, hn⟩ := ih (k + 1) (s'.withTrace (s.trace ++ [.before k]))
              refine ⟨n + 1, hn.trans ?_⟩
              rw [Handling.trace_withTrace, List.append_assoc, List.singleton_append, befores_succ]

/-- The second loop writes down the calls of `After` in their order. -/
theorem trace_runAfter (app : Application H F W) (filters : List F) (k : Nat)
    (s : TracedHandling W) :
    ∃ n, (runAfter app.traced (filters.zipIdx k) s).2.trace = s.trace ++ afters k n ∧
      ((∀ filter ∈ filters, ∀ s', (app.after filter s').1 = .ok ⟨⟩) → n = filters.length) := by
  induction filters generalizing k s with
  | nil => exact ⟨0, (List.append_nil _).symm, fun _ => rfl⟩
  | cons filter rest ih =>
      simp only [List.zipIdx_cons, runAfter, Call.bind_apply, Application.traced, traceCall]
      rcases hafter : app.after filter s.untraced with ⟨result, s'⟩
      cases result with
      | error thrown =>
          refine ⟨1, rfl, fun hreturn => ?_⟩
          have := hreturn filter (by simp) s.untraced
          rw [hafter] at this
          cases this
      | ok done =>
          obtain ⟨n, hn, hall⟩ := ih (k + 1) (s'.withTrace (s.trace ++ [.after k]))
          refine ⟨n + 1, hn.trans ?_, fun hreturn => ?_⟩
          · rw [Handling.trace_withTrace, List.append_assoc, List.singleton_append, afters_succ]
          · rw [hall fun filter' hfilter' => hreturn filter' (by simp [hfilter']),
              List.length_cons]

/-- Where every `Before` returns `true`, all of them are written down. -/
theorem PassesAll.traced {app : Application H F W} {filters : List F} {s : TracedHandling W}
    {m : Handling W} (h : PassesAll app filters s.untraced m) (k : Nat) :
    runBefore app.traced (filters.zipIdx k) s =
      (.ok true, m.withTrace (s.trace ++ befores k filters.length)) := by
  induction filters generalizing k s with
  | nil =>
      rw [show m = s.untraced from h, List.length_nil, show befores k 0 = [] from rfl,
        List.append_nil]
      rfl
  | cons filter rest ih =>
      obtain ⟨m', hbefore, hrest⟩ := h
      simp only [List.zipIdx_cons, runBefore, Call.bind_apply]
      have hstep : (app.traced.before (filter, k)) s =
          (.ok true, m'.withTrace (s.trace ++ [.before k])) := by
        simp only [Application.traced, traceCall, hbefore]
      rw [hstep]
      have hloop := ih (s := m'.withTrace (s.trace ++ [.before k])) hrest (k + 1)
      rw [Handling.trace_withTrace, List.append_assoc, List.singleton_append] at hloop
      exact hloop

/-- Where a `Before` is the first to return `false`, the loop ends behind it. -/
theorem PassesAll.refused {app : Application H F W} {front : List F} {filter : F}
    {s : TracedHandling W} {m m' : Handling W} (h : PassesAll app front s.untraced m)
    (hfalse : app.before filter m = (.ok false, m')) (rest : List F) (k : Nat) :
    runBefore app.traced ((front ++ filter :: rest).zipIdx k) s =
      (.ok false, m'.withTrace (s.trace ++ befores k (front.length + 1))) := by
  induction front generalizing k s with
  | nil =>
      simp only [List.nil_append, List.zipIdx_cons, runBefore, Call.bind_apply]
      have hstep : (app.traced.before (filter, k)) s =
          (.ok false, m'.withTrace (s.trace ++ [.before k])) := by
        rw [show m = s.untraced from h] at hfalse
        simp only [Application.traced, traceCall, hfalse]
      rw [hstep]
      rfl
  | cons first front ih =>
      obtain ⟨m₁, hbefore, hrest⟩ := h
      simp only [List.cons_append, List.zipIdx_cons, runBefore, Call.bind_apply]
      have hstep : (app.traced.before (first, k)) s =
          (.ok true, m₁.withTrace (s.trace ++ [.before k])) := by
        simp only [Application.traced, traceCall, hbefore]
      rw [hstep]
      have hloop := ih (s := m₁.withTrace (s.trace ++ [.before k])) hrest (k + 1)
      rw [Handling.trace_withTrace, List.append_assoc, List.singleton_append] at hloop
      exact hloop

/-! ## The order of the calls -/

theorem count_befores (k n : Nat) : (befores k n).count .handler = 0 := by
  refine List.count_eq_zero.2 fun hmem => ?_
  obtain ⟨i, -, hi⟩ := List.mem_map.1 hmem
  cases hi

theorem count_afters (k n : Nat) : (afters k n).count .handler = 0 := by
  refine List.count_eq_zero.2 fun hmem => ?_
  obtain ⟨i, -, hi⟩ := List.mem_map.1 hmem
  cases hi

/-- A run whose filters let the request through. -/
theorem executeTraced_of_passes {app : Application H F W} {filters : List F} {s m : Handling W}
    (h : PassesAll app filters { s with response := .fresh } m) (handler : H) :
    ∃ n, (executeTraced app filters handler s).handling.trace =
        befores 0 filters.length ++ .handler :: afters 0 n ∧
      (executeTraced app filters handler s).result =
        (runAfter app filters (runHandler app handler m)).1 ∧
      (executeTraced app filters handler s).handling.untraced =
        (runAfter app filters (runHandler app handler m)).2 ∧
      ((∀ filter ∈ filters, ∀ s', (app.after filter s').1 = .ok ⟨⟩) → n = filters.length) := by
  have hloop := h.traced (s := ({ s with response := .fresh } : Handling W).withTrace []) 0
  rw [Handling.trace_withTrace, List.nil_append] at hloop
  obtain ⟨n, hn, hall⟩ := trace_runAfter app filters 0
    ((runHandler app handler m).withTrace (befores 0 filters.length ++ [.handler]))
  obtain ⟨hresult, hend⟩ := untraced_runAfter app filters 0
    ((runHandler app handler m).withTrace (befores 0 filters.length ++ [.handler]))
  have hrun : executeTraced app filters handler s =
      ⟨(runAfter app.traced filters.zipIdx ((runHandler app handler m).withTrace
          (befores 0 filters.length ++ [.handler]))).1,
        (runAfter app.traced filters.zipIdx ((runHandler app handler m).withTrace
          (befores 0 filters.length ++ [.handler]))).2, [handler]⟩ := by
    rw [executeTraced_eq, hloop]
    simp only [runHandler_traced, Handling.untraced_withTrace, Handling.trace_withTrace]
  rw [hrun]
  refine ⟨n, ?_, hresult, hend, hall⟩
  rw [Handling.trace_withTrace, List.append_assoc, List.singleton_append] at hn
  exact hn

/-- Nothing of a handler is written down where the filters do not let the request through. -/
theorem count_handler_of_not_passes {app : Application H F W} {filters : List F} {s : Handling W}
    (h : ¬ ∃ m, PassesAll app filters { s with response := .fresh } m) (handler : H) :
    (executeTraced app filters handler s).handling.trace.count .handler = 0 := by
  obtain ⟨n, hn⟩ := trace_runBefore app filters 0
    (({ s with response := .fresh } : Handling W).withTrace [])
  obtain ⟨hresult, -⟩ := untraced_runBefore app filters 0
    (({ s with response := .fresh } : Handling W).withTrace [])
  rw [executeTraced_eq]
  rcases hrun : runBefore app.traced filters.zipIdx
    (({ s with response := .fresh } : Handling W).withTrace []) with ⟨result, s'⟩
  rw [hrun] at hn hresult
  have htrace : s'.trace.count .handler = 0 := by
    rw [show s'.trace = _ from hn, Handling.trace_withTrace, List.nil_append, count_befores]
  cases result with
  | error thrown => exact htrace
  | ok goOn =>
      cases goOn with
      | false => exact htrace
      | true =>
          refine absurd ⟨(runBefore app filters { s with response := .fresh }).2, ?_⟩ h
          rw [← runBefore_eq_true_iff]
          exact Prod.ext hresult.symm rfl

/-- The second loop ends normally where every `After` does. -/
theorem runAfter_ok {app : Application H F W} {filters : List F}
    (h : ∀ filter ∈ filters, ∀ s', (app.after filter s').1 = .ok ⟨⟩) (s : Handling W) :
    (runAfter app filters s).1 = .ok ⟨⟩ := by
  induction filters generalizing s with
  | nil => rfl
  | cons filter rest ih =>
      simp only [runAfter, Call.bind_apply]
      have hfirst := h filter (by simp) s
      rcases hafter : app.after filter s with ⟨result, s'⟩
      rw [hafter] at hfirst
      obtain rfl : result = .ok ⟨⟩ := hfirst
      exact ih (fun filter' hfilter' => h filter' (by simp [hfilter'])) s'

/-- The response to an exception has status 500. -/
theorem status_runHandler_of_thrown {app : Application H F W} {handler : H} {m s' : Handling W}
    {thrown : Thrown} (h : app.handle handler m = (.error thrown, s')) :
    (runHandler app handler m).response.statusCode = 500 := by
  simp only [runHandler, h]
  cases thrown with
  | exception what => rfl
  | other => rfl

/-- **The order of a chain.** The handler runs once where every `Before` returns `true`, and not
otherwise. Where a `Before` is the first to return `false`, exactly the ones up to it have run, in
order, and the response is the one built so far. Where all return `true`, the handler runs behind
them, and then every `After` once, in order; an exception of the handler does not leave the chain,
and gives the first `After` a response with status 500. -/
theorem execute_order (app : Application H F W) (filters : List F) (handler : H) (s : Handling W) :
    ((∃ m, PassesAll app filters { s with response := .fresh } m) →
        (executeTraced app filters handler s).handling.trace.count .handler = 1) ∧
      ((¬ ∃ m, PassesAll app filters { s with response := .fresh } m) →
        (executeTraced app filters handler s).handling.trace.count .handler = 0) ∧
      (∀ front filter rest m m', filters = front ++ filter :: rest →
        PassesAll app front { s with response := .fresh } m →
        app.before filter m = (.ok false, m') →
        executeTraced app filters handler s =
          ⟨.ok ⟨⟩, m'.withTrace (befores 0 (front.length + 1)), []⟩) ∧
      (∀ m, PassesAll app filters { s with response := .fresh } m →
        (∀ filter ∈ filters, ∀ s', (app.after filter s').1 = .ok ⟨⟩) →
        (executeTraced app filters handler s).handling.trace =
            befores 0 filters.length ++ .handler :: afters 0 filters.length ∧
          (executeTraced app filters handler s).result = .ok ⟨⟩ ∧
          (executeTraced app filters handler s).handling.untraced =
            (runAfter app filters (runHandler app handler m)).2 ∧
          ∀ thrown s', app.handle handler m = (.error thrown, s') →
            (runHandler app handler m).response.statusCode = 500) := by
  refine ⟨?_, fun h => count_handler_of_not_passes h handler, ?_, ?_⟩
  · rintro ⟨m, hpasses⟩
    obtain ⟨n, htrace, -⟩ := executeTraced_of_passes hpasses handler
    rw [htrace, List.count_append, List.count_cons_self, count_befores, count_afters]
  · rintro front filter rest m m' rfl hpasses hfalse
    have hloop := hpasses.refused
      (s := ({ s with response := .fresh } : Handling W).withTrace []) hfalse rest 0
    rw [executeTraced_eq, hloop]
    rfl
  · intro m hpasses hreturn
    obtain ⟨n, htrace, hresult, hend, hall⟩ := executeTraced_of_passes hpasses handler
    rw [hall hreturn] at htrace
    refine ⟨htrace, hresult.trans ?_, hend, fun thrown s' h => status_runHandler_of_thrown h⟩
    exact runAfter_ok hreturn _

/-- Filters that answer what they are, and a handler that throws. -/
def throwingApp : Application PUnit Bool PUnit where
  handle _ := Call.raise .other
  before answer := pure answer
  after _ := pure ⟨⟩

/-- Two filters that let the request through, and a handler that throws. -/
theorem execute_order_throwing :
    (executeTraced throwingApp [true, true] ⟨⟩ ⟨.fresh, .fresh, ⟨⟩⟩).handling.trace =
      [.before 0, .before 1, .handler, .after 0, .after 1] :=
  ((execute_order throwingApp [true, true] ⟨⟩ ⟨.fresh, .fresh, ⟨⟩⟩).2.2.2 ⟨.fresh, .fresh, ⟨⟩⟩
    ⟨_, rfl, _, rfl, rfl⟩ (fun _ _ _ => rfl)).1

end FilterChain

end Ssgx.Http
