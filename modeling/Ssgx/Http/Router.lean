import Mathlib.Data.List.Induction
import Ssgx.Http.Message
import Ssgx.Support.Call

/-!
# Routes and filters

`FilterChain::Execute` and the routes of `Server`: a route is stored under the text of its method,
an underscore and its path, and a request is looked up by the same text of its own. Handlers and
filters are code of the application; what they do is a parameter, and the model keeps which handlers
it has run.

`routesExactly_iff` says for which requests the handler that runs is the one registered last
for exactly the method and path.
-/

set_option autoImplicit false

namespace Ssgx.Http

open Ssgx.Support

/-- What code of the application throws: a `std::exception` with its text, or anything else. -/
inductive Thrown where
  | exception (what : Str)
  | other

/-- What handlers and filters work on: the request, the response and the rest of the enclave. -/
structure Handling (W : Type) where
  request : Request
  response : Response
  world : W

/-- The code of the application: its handlers `H` and its filters `F`. -/
structure Application (H F W : Type) where
  handle : H → Call Thrown (Handling W) PUnit
  before : F → Call Thrown (Handling W) Bool
  after : F → Call Thrown (Handling W) PUnit

/-- How a call of `Process` ends, with the handlers it has run. -/
structure Processed (H W : Type) where
  result : Except Thrown PUnit
  handling : Handling W
  ran : List H

variable {H F W : Type}

/-! ## Filters -/

namespace FilterChain

/-- The response to an exception of a handler; of anything but a `std::exception` there is no text.
-/
def exceptionResp (thrown : Thrown) (r : Response) : Response :=
  match thrown with
  | .exception what =>
      r.setResp (str "Internal Server Error: " ++ what) (str "text/plain") 500
  | .other => r.setResp (str "Internal Server Error: Unknown exception") (str "text/plain") 500

/-- The first loop of `Execute`: a filter that answers `false` ends it. -/
def runBefore (app : Application H F W) : List F → Call Thrown (Handling W) Bool
  | [] => pure true
  | filter :: rest => do
      let goOn ← app.before filter
      if goOn then runBefore app rest else pure false

/-- The second loop of `Execute`. -/
def runAfter (app : Application H F W) : List F → Call Thrown (Handling W) PUnit
  | [] => pure ⟨⟩
  | filter :: rest => do
      app.after filter
      runAfter app rest

/-- The handler in its `try` block. -/
def runHandler (app : Application H F W) (handler : H) (s : Handling W) : Handling W :=
  match app.handle handler s with
  | (.ok _, s') => s'
  | (.error thrown, s') => { s' with response := exceptionResp thrown s'.response }

/-- `FilterChain::Execute`, which begins with a response of its own. -/
def execute (app : Application H F W) (filters : List F) (handler : H) (s : Handling W) :
    Processed H W :=
  match runBefore app filters { s with response := .fresh } with
  | (.error thrown, s') => ⟨.error thrown, s', []⟩
  | (.ok false, s') => ⟨.ok ⟨⟩, s', []⟩
  | (.ok true, s') =>
      let (result, s'') := runAfter app filters (runHandler app handler s')
      ⟨result, s'', [handler]⟩

/-- The filters let a request through. -/
def LetsRun (app : Application H F W) (filters : List F) (s : Handling W) : Prop :=
  (runBefore app filters { s with response := .fresh }).1 = .ok true

/-- The handler runs exactly where the filters let the request through. -/
theorem mem_ran_execute_iff {app : Application H F W} {filters : List F} {handler h : H}
    {s : Handling W} :
    h ∈ (execute app filters handler s).ran ↔ h = handler ∧ LetsRun app filters s := by
  simp only [execute, LetsRun]
  rcases runBefore app filters { s with response := .fresh } with ⟨result, s'⟩
  cases result with
  | error thrown => simp
  | ok goOn =>
      cases goOn with
      | false => simp
      | true => simp

end FilterChain

/-! ## Routes -/

/-- A call of `Get` or `Post`. The empty function is no handler. -/
inductive Registration (H : Type) where
  | get (path : Str) (handler : Option H)
  | post (path : Str) (handler : Option H)

/-- The routes: what is stored under each key. -/
abbrev RouteMap (H : Type) := Str → Option (Option H)

/-- The key of a route. -/
def routeKey (method path : Str) : Str := method ++ '_' :: path

/-- `RegisterHandler`. -/
def registerHandler (routes : RouteMap H) (method path : Str) (handler : Option H) : RouteMap H :=
  fun key => if key = routeKey method path then some handler else routes key

/-- `Get` and `Post`. -/
def register (routes : RouteMap H) : Registration H → RouteMap H
  | .get path handler => registerHandler routes (str "GET") path handler
  | .post path handler => registerHandler routes (str "POST") path handler

/-- The routes after the registrations, in their order. -/
def registerAll (registrations : List (Registration H)) : RouteMap H :=
  registrations.foldl register fun _ => none

/-- `GetHandler`. -/
def getHandler (routes : RouteMap H) (method path : Str) : Option H :=
  match routes (routeKey method path) with
  | some handler => handler
  | none => none

/-- The part of `Server` that handles requests. -/
structure RequestServer (H F : Type) where
  routes : RouteMap H
  filters : List F

/-- `Server::Process`. The response of the filters takes the place of the given one. -/
def RequestServer.process (app : Application H F W) (server : RequestServer H F)
    (method path : Str) (s : Handling W) : Processed H W :=
  match getHandler server.routes method path with
  | none => ⟨.ok ⟨⟩, { s with response := s.response.setResp404NotFound }, []⟩
  | some handler =>
      let processed := FilterChain.execute app server.filters handler s
      match processed.result with
      | .ok _ => processed
      -- the assignment is not reached
      | .error thrown =>
          { processed with
            result := .error thrown
            handling := { processed.handling with response := s.response } }

/-! ## The intended routes -/

/-- The method of a registration. -/
def Registration.method : Registration H → Str
  | .get .. => str "GET"
  | .post .. => str "POST"

/-- The path of a registration. -/
def Registration.path : Registration H → Str
  | .get path _ => path
  | .post path _ => path

/-- The handler of a registration. -/
def Registration.handler : Registration H → Option H
  | .get _ handler => handler
  | .post _ handler => handler

/-- The handler registered last for exactly a method and a path. -/
def registeredFor (method path : Str) (registrations : List (Registration H)) : Option H :=
  (registrations.reverse.find? fun r => r.method = method ∧ r.path = path).bind fun r => r.handler

/-- **The intended routing.** The handlers that run are those registered last for exactly the method
and path, where the filters let them; without one the response is the 404 page and none runs. -/
def RoutesExactly (app : Application H F W) (registrations : List (Registration H))
    (filters : List F) (method path : Str) (s : Handling W) : Prop :=
  let server : RequestServer H F := ⟨registerAll registrations, filters⟩
  let processed := server.process app method path s
  (∀ h, h ∈ processed.ran ↔
      registeredFor method path registrations = some h ∧ FilterChain.LetsRun app filters s) ∧
    (registeredFor method path registrations = none →
      processed.result = .ok ⟨⟩ ∧ processed.ran = [] ∧
        processed.handling.response = s.response.setResp404NotFound)

/-! ## What a key stands for -/

theorem register_eq (routes : RouteMap H) (r : Registration H) :
    register routes r = registerHandler routes r.method r.path r.handler := by
  cases r with
  | get path handler => rfl
  | post path handler => rfl

/-- What is stored under a key is the handler of the last registration with that key. -/
theorem registerAll_apply (registrations : List (Registration H)) (key : Str) :
    registerAll registrations key =
      (registrations.reverse.find? fun r => key = routeKey r.method r.path).map fun r =>
        r.handler := by
  induction registrations using List.reverseRecOn with
  | nil => rfl
  | append_singleton registrations r ih =>
      have hlast : registerAll (registrations ++ [r]) = register (registerAll registrations) r :=
        List.foldl_concat ..
      rw [hlast, register_eq, registerHandler, List.reverse_concat, List.find?_cons]
      by_cases hkey : key = routeKey r.method r.path
      · simp [hkey]
      · simp [hkey, ih]

/-- A method of a registration has no underscore. -/
theorem not_mem_method (r : Registration H) : '_' ∉ r.method := by
  cases r with
  | get path handler => exact (by decide : '_' ∉ str "GET")
  | post path handler => exact (by decide : '_' ∉ str "POST")

/-- The method and the path of a registration can be read off its key. -/
theorem eq_routeKey_iff (r : Registration H) {key : Str} (h : '_' ∈ key) :
    key = routeKey r.method r.path ↔ r.method = upTo '_' key ∧ r.path = behind '_' key := by
  simp only [routeKey]
  constructor
  · rintro rfl
    rw [upTo_split (not_mem_method r), behind_split (not_mem_method r)]
    exact ⟨rfl, rfl⟩
  · rintro ⟨hmethod, hpath⟩
    rw [hmethod, hpath, upTo_behind h]

/-- **What a lookup finds.** The handler registered for the two parts of the key at its first
underscore. -/
theorem getHandler_registerAll (registrations : List (Registration H)) (method path : Str) :
    getHandler (registerAll registrations) method path =
      registeredFor (upTo '_' (routeKey method path)) (behind '_' (routeKey method path))
        registrations := by
  have hmem : '_' ∈ routeKey method path := List.mem_append_right _ List.mem_cons_self
  have hsame :
      (fun r : Registration H => decide (routeKey method path = routeKey r.method r.path)) =
      fun r => decide (r.method = upTo '_' (routeKey method path) ∧
        r.path = behind '_' (routeKey method path)) := by
    funext r
    exact decide_eq_decide.2 (eq_routeKey_iff r hmem)
  simp only [getHandler, registeredFor]
  rw [registerAll_apply, hsame]
  cases registrations.reverse.find? _ with
  | none => rfl
  | some r => rfl

/-- A method without an underscore is one part of its key. -/
theorem getHandler_of_not_mem (registrations : List (Registration H)) {method : Str}
    (h : '_' ∉ method) (path : Str) :
    getHandler (registerAll registrations) method path =
      registeredFor method path registrations := by
  rw [getHandler_registerAll, routeKey, upTo_split h, behind_split h]

/-- Nothing is registered for a method with an underscore. -/
theorem registeredFor_of_mem (registrations : List (Registration H)) {method : Str}
    (h : '_' ∈ method) (path : Str) : registeredFor method path registrations = none := by
  simp only [registeredFor]
  rw [List.find?_eq_none.2]
  · rfl
  · intro r _ hr
    have hmethod := (of_decide_eq_true hr).1
    exact not_mem_method r (hmethod ▸ h)

/-- A request whose lookup finds what is registered for it is routed as intended. -/
theorem routesExactly_of_getHandler {app : Application H F W}
    {registrations : List (Registration H)} {method path : Str}
    (h : getHandler (registerAll registrations) method path =
      registeredFor method path registrations) (filters : List F) (s : Handling W) :
    RoutesExactly app registrations filters method path s := by
  simp only [RoutesExactly, RequestServer.process]
  simp only [h]
  cases hfound : registeredFor method path registrations with
  | none => simp
  | some handler =>
      refine ⟨?_, fun hnone => absurd hnone (by simp)⟩
      intro other
      have hran : other ∈ (FilterChain.execute app filters handler s).ran ↔
          other = handler ∧ FilterChain.LetsRun app filters s := FilterChain.mem_ran_execute_iff
      simp only
      cases (FilterChain.execute app filters handler s).result with
      | ok u => simpa [eq_comm] using hran
      | error thrown => simpa [eq_comm] using hran

/-- Without filters the handler that is looked up runs. -/
theorem ran_of_getHandler {app : Application H F W} {routes : RouteMap H} {method path : Str}
    {handler : H} (h : getHandler routes method path = some handler) (s : Handling W) :
    ((⟨routes, []⟩ : RequestServer H F).process app method path s).ran = [handler] := by
  simp only [RequestServer.process, FilterChain.execute]
  simp only [h, FilterChain.runBefore, FilterChain.runAfter, Call.pure_apply]

/-- **Which requests are routed as intended.** Under all filters, exactly those whose method has no
underscore, and those for which nothing is registered under the parts of the key. -/
theorem routesExactly_iff (app : Application H F W) (registrations : List (Registration H))
    (method path : Str) (s : Handling W) :
    (∀ filters, RoutesExactly app registrations filters method path s) ↔
      '_' ∉ method ∨
        registeredFor (upTo '_' method) (behind '_' method ++ '_' :: path) registrations =
          none := by
  by_cases hmem : '_' ∈ method
  · -- the key is split at its first underscore, which stands in the method
    have hlookup : getHandler (registerAll registrations) method path =
        registeredFor (upTo '_' method) (behind '_' method ++ '_' :: path) registrations := by
      rw [getHandler_registerAll, routeKey, upTo_append_cons, behind_append_of_mem hmem]
    have hnone := registeredFor_of_mem registrations hmem path
    constructor
    · intro hexact
      refine .inr ?_
      -- without filters the handler that is found runs
      obtain ⟨-, hpage⟩ := hexact []
      obtain ⟨-, hran, -⟩ := hpage hnone
      cases hfound : registeredFor (upTo '_' method) (behind '_' method ++ '_' :: path)
        registrations with
      | none => rfl
      | some handler =>
          rw [ran_of_getHandler (hlookup.trans hfound)] at hran
          exact absurd hran (List.cons_ne_nil _ _)
    · rintro (hnot | hfound)
      · exact absurd hmem hnot
      · intro filters
        exact routesExactly_of_getHandler (by rw [hlookup, hfound, hnone]) filters s
  · constructor
    · exact fun _ => .inl hmem
    · exact fun _ filters =>
        routesExactly_of_getHandler (getHandler_of_not_mem registrations hmem path) filters s

/-- A handler registered with `Get` for `x_y` runs for the method `GET_x` and the path `y`. -/
theorem handler_of_other_route_runs :
    ¬ RoutesExactly (H := Nat) (F := Empty) (W := Unit)
      ⟨fun _ => pure ⟨⟩, Empty.elim, Empty.elim⟩ [.get (str "x_y") (some 1)] [] (str "GET_x")
      (str "y")
      ⟨.fresh, .fresh, ()⟩ := by
  rintro ⟨-, hpage⟩
  exact absurd (hpage (by decide)).2.1 (by decide)

end Ssgx.Http
