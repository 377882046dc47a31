import Ssgx.Http.Message
import Ssgx.Support.Registry
import Ssgx.Support.Run

/-!
# The registry of trusted servers

`Server::Listen`, `Start`, `Stop` and the destructor over `ObjectRegistry<std::string, Server>`. The
servers are objects at addresses; the registry keeps addresses and deletes nothing.

`Start` does not ask whether its server runs, and registering under an id that is there replaces the
entry. `registered_along_iff` says in which runs the registry holds exactly the running servers.
-/

set_option autoImplicit false

namespace Ssgx.Http

open Ssgx.Support

/-- The part of `Server` that `Listen`, `Start` and `Stop` change. -/
structure TrustedServer where
  url : Str
  serverId : Str
  isStopped : Bool
deriving DecidableEq

/-- A server as its constructor leaves it. -/
def TrustedServer.fresh : TrustedServer := ⟨[], [], true⟩

/-- The servers of the enclave by their addresses, and the registry. -/
structure ServerTable where
  servers : Nat → Option TrustedServer
  registry : Registry Str Nat

/-- The id of a server. -/
def serverIdOf (eid : Nat) (url : Str) : Str := decimal eid ++ '_' :: url

theorem serverIdOf_ne_nil (eid : Nat) (url : Str) : serverIdOf eid url ≠ [] := by
  simp [serverIdOf]

namespace ServerTable

/-- The enclave before any server. -/
def initial : ServerTable := ⟨fun _ => none, .empty⟩

/-- Put a server at an address, or none. -/
def place (s : ServerTable) (o : Nat) (server : Option TrustedServer) : ServerTable :=
  { s with servers := Function.update s.servers o server }

/-- `Server::Listen`. -/
def listen (s : ServerTable) (o : Nat) (url : Str) : ServerTable :=
  s.place o ((s.servers o).map fun server => { server with url := url })

/-- A server with its id, registered and running. -/
def started (s : ServerTable) (o : Nat) (serverId : Str) (server : TrustedServer) : ServerTable :=
  { s.place o (some { server with serverId := serverId, isStopped := false }) with
    registry := s.registry.register serverId o false }

/-- `Server::Start`: what it returns and what it leaves. `created` says whether
`ssgx_ocall_http_create_listener` succeeds. -/
def start (s : ServerTable) (o : Nat) (eid : Nat) (created : Bool) : Bool × ServerTable :=
  match s.servers o with
  | none => (false, s)
  | some server =>
      if server.url.isEmpty then (false, s)
      else if eid = 0 then (false, s)
      else if created = false then (false, s)
      else (true, s.started o (serverIdOf eid server.url) server)

/-- `Server::Stop`. -/
def stop (s : ServerTable) (o : Nat) : ServerTable :=
  match s.servers o with
  | none => s
  | some server =>
      if server.isStopped then s
      else
        let s' := if server.serverId.isEmpty then s
          else { s with registry := s.registry.unregister server.serverId }
        s'.place o (some { server with isStopped := true })

/-- `Server::~Server`. -/
def destroy (s : ServerTable) (o : Nat) : ServerTable := (s.stop o).place o none

end ServerTable

/-- An operation on a server. A constructor may use the address of a destroyed server again. -/
inductive ServerOp where
  | construct (o : Nat)
  | listen (o : Nat) (url : Str)
  | start (o : Nat) (eid : Nat) (created : Bool)
  | stop (o : Nat)
  | destroy (o : Nat)

/-- The enclave after an operation. -/
def ServerTable.op (s : ServerTable) : ServerOp → ServerTable
  | .construct o => if (s.servers o).isSome then s else s.place o (some .fresh)
  | .listen o url => s.listen o url
  | .start o eid created => (s.start o eid created).2
  | .stop o => s.stop o
  | .destroy o => s.destroy o

/-! ## The intended registry -/

/-- **The intended registry.** Every entry is a running server with that id, and every running
server is the entry of its id. -/
structure ServerTable.Registered (s : ServerTable) : Prop where
  runs : ∀ id o, s.registry.query id = some o →
    ∃ server, s.servers o = some server ∧ server.isStopped = false ∧ server.serverId = id
  found : ∀ o server, s.servers o = some server → server.isStopped = false →
    s.registry.query server.serverId = some o

/-- `Start` on a running server returns `false` and changes nothing. -/
def RefusesRunning (s : ServerTable) (op : ServerOp) : Prop :=
  ∀ o eid created server, op = .start o eid created → s.servers o = some server →
    server.isStopped = false → s.start o eid created = (false, s)

/-- A start that gets its listener is on a stopped server, for an id under which none is registered.
-/
def FreeStart (s : ServerTable) : ServerOp → Prop
  | .start o eid true =>
      ∀ server, s.servers o = some server → server.url ≠ [] → eid ≠ 0 →
        server.isStopped = true ∧ s.registry.query (serverIdOf eid server.url) = none
  | _ => True

namespace ServerTable

theorem servers_place (s : ServerTable) (o o' : Nat) (server : Option TrustedServer) :
    (s.place o server).servers o' = if o' = o then server else s.servers o' :=
  Function.update_apply ..

/-- What holds in every run: a running server has an id. -/
def Named (s : ServerTable) : Prop :=
  ∀ o server, s.servers o = some server → server.isStopped = false → server.serverId ≠ []

/-! ## Operations that start nothing -/

/-- A stopped server may take the place of none or of a stopped one. -/
theorem registered_place_stopped {s : ServerTable} (h : s.Registered) {o : Nat}
    (hold : ∀ server, s.servers o = some server → server.isStopped = true)
    {new : Option TrustedServer} (hnew : ∀ server, new = some server → server.isStopped = true) :
    (s.place o new).Registered where
  runs := by
    intro id o' hquery
    obtain ⟨server, hserver, hruns, hid⟩ := h.runs id o' hquery
    refine ⟨server, ?_, hruns, hid⟩
    have hne : o' ≠ o := by
      rintro rfl
      rw [hold server hserver] at hruns
      cases hruns
    rw [servers_place, if_neg hne, hserver]
  found := by
    intro o' server hserver hruns
    rw [servers_place] at hserver
    by_cases ho : o' = o
    · rw [if_pos ho] at hserver
      rw [hnew server hserver] at hruns
      cases hruns
    · rw [if_neg ho] at hserver
      exact h.found o' server hserver hruns

/-- `Listen` changes the URL of a server and nothing that the registry is about. -/
theorem registered_listen {s : ServerTable} (h : s.Registered) (o : Nat) (url : Str) :
    (s.listen o url).Registered where
  runs := by
    intro id o' hquery
    obtain ⟨server, hserver, hruns, hid⟩ := h.runs id o' hquery
    simp only [listen]
    rw [servers_place]
    by_cases ho : o' = o
    · subst ho
      rw [if_pos rfl, hserver]
      exact ⟨{ server with url := url }, rfl, hruns, hid⟩
    · rw [if_neg ho]
      exact ⟨server, hserver, hruns, hid⟩
  found := by
    intro o' server hserver hruns
    simp only [listen] at hserver
    rw [servers_place] at hserver
    by_cases ho : o' = o
    · subst ho
      rw [if_pos rfl] at hserver
      obtain ⟨old, hold, rfl⟩ := Option.map_eq_some_iff.1 hserver
      exact h.found o' old hold hruns
    · rw [if_neg ho] at hserver
      exact h.found o' server hserver hruns

/-! ## A stop -/

/-- `Stop` of a running server that is named drops the entry of its id. -/
theorem stop_eq {s : ServerTable} {o : Nat} {server : TrustedServer}
    (hserver : s.servers o = some server) (hruns : server.isStopped = false)
    (hid : server.serverId ≠ []) :
    s.stop o = { s.place o (some { server with isStopped := true }) with
      registry := s.registry.unregister server.serverId } := by
  have hempty : ¬ server.serverId.isEmpty = true := by
    rw [List.isEmpty_iff]
    exact hid
  simp only [stop, hserver, hruns, hempty, Bool.false_eq_true, if_false]
  rfl

/-- `Stop` does nothing where there is no running server. -/
theorem stop_of_stopped {s : ServerTable} {o : Nat}
    (h : ∀ server, s.servers o = some server → server.isStopped = true) : s.stop o = s := by
  simp only [stop]
  cases hserver : s.servers o with
  | none => rfl
  | some server => exact if_pos (h server hserver)

theorem registered_stop {s : ServerTable} (h : s.Registered) (hnamed : s.Named) (o : Nat) :
    (s.stop o).Registered := by
  by_cases hruns : ∀ server, s.servers o = some server → server.isStopped = true
  · rw [stop_of_stopped hruns]
    exact h
  · simp only [not_forall, exists_prop, Bool.not_eq_true] at hruns
    obtain ⟨server, hserver, hruns⟩ := hruns
    rw [stop_eq hserver hruns (hnamed o server hserver hruns)]
    have hfound := h.found o server hserver hruns
    constructor
    · intro id o' hquery
      obtain ⟨hid, hold⟩ := Registry.query_unregister_eq_some_iff.1 hquery
      obtain ⟨other, hother, hotherRuns, hotherId⟩ := h.runs id o' hold
      have hne : o' ≠ o := by
        rintro rfl
        rw [hserver] at hother
        cases hother
        exact hid hotherId.symm
      refine ⟨other, ?_, hotherRuns, hotherId⟩
      exact (servers_place s o o' _).trans ((if_neg hne).trans hother)
    · intro o' other hother hotherRuns
      have hplace :=
        (servers_place s o o' (some { server with isStopped := true })).symm.trans hother
      by_cases ho : o' = o
      · rw [if_pos ho] at hplace
        cases hplace
        cases hotherRuns
      · rw [if_neg ho] at hplace
        have hquery := h.found o' other hplace hotherRuns
        -- two running servers are not registered under one name
        have hne : other.serverId ≠ server.serverId := by
          intro heq
          rw [heq, hfound] at hquery
          exact ho (Option.some.inj hquery).symm
        exact Registry.query_unregister_eq_some_iff.2 ⟨hne, hquery⟩

/-- After `Stop` there is no running server at the address. -/
theorem stopped_of_stop (s : ServerTable) (o : Nat) :
    ∀ server, (s.stop o).servers o = some server → server.isStopped = true := by
  intro server hserver
  simp only [stop] at hserver
  cases hold : s.servers o with
  | none =>
      simp only [hold] at hserver
      cases hserver
  | some old =>
      simp only [hold] at hserver
      by_cases hstopped : old.isStopped = true
      · rw [if_pos hstopped, hold] at hserver
        cases hserver
        exact hstopped
      · rw [if_neg hstopped, servers_place, if_pos rfl] at hserver
        cases hserver
        rfl

/-! ## A start -/

/-- `Start` gives up and changes nothing, or it registers its server. -/
theorem start_cases (s : ServerTable) (o eid : Nat) (created : Bool) :
    (s.start o eid created = (false, s) ∧ FreeStart s (.start o eid created)) ∨
      ∃ server, s.servers o = some server ∧
        s.start o eid created = (true, s.started o (serverIdOf eid server.url) server) ∧
        (FreeStart s (.start o eid created) ↔ server.isStopped = true ∧
          s.registry.query (serverIdOf eid server.url) = none) := by
  simp only [start]
  cases hserver : s.servers o with
  | none =>
      refine .inl ⟨rfl, ?_⟩
      cases created with
      | false => trivial
      | true =>
          intro server hserver'
          rw [hserver] at hserver'
          cases hserver'
  | some server =>
      cases created with
      | false =>
          -- the host fails, after the other two checks or instead of them
          refine .inl ⟨?_, trivial⟩
          dsimp only
          rw [if_pos rfl, ite_self, ite_self]
      | true =>
          by_cases hurl : server.url = []
          · refine .inl ⟨if_pos (List.isEmpty_iff.2 hurl), ?_⟩
            intro server' hserver' hne
            rw [hserver] at hserver'
            cases hserver'
            exact absurd hurl hne
          by_cases heid : eid = 0
          · refine .inl ⟨?_, ?_⟩
            · dsimp only
              rw [if_neg (mt List.isEmpty_iff.1 hurl), if_pos heid]
            · intro server' _ _ hne
              exact absurd heid hne
          -- every check is passed
          refine .inr ⟨server, rfl, ?_, ?_⟩
          · dsimp only
            rw [if_neg (mt List.isEmpty_iff.1 hurl), if_neg heid, if_neg (by decide)]
          · constructor
            · intro hfree
              exact hfree server hserver hurl heid
            · intro hfree server' hserver' _ _
              rw [hserver] at hserver'
              cases hserver'
              exact hfree

/-- **A start of a stopped server.** It leaves the intended registry exactly when its id was free.
-/
theorem registered_started_iff {s : ServerTable} (h : s.Registered) {o : Nat}
    {server : TrustedServer} (hserver : s.servers o = some server)
    (hstopped : server.isStopped = true) (id : Str) :
    (s.started o id server).Registered ↔ s.registry.query id = none := by
  have hplace : ∀ o', (s.started o id server).servers o' =
      if o' = o then some { server with serverId := id, isStopped := false } else s.servers o' :=
    fun o' => servers_place s o o' _
  have hquery : ∀ id', (s.started o id server).registry.query id' =
      if id' = id then some o else s.registry.query id' :=
    fun id' => Registry.query_register s.registry id id' o false
  constructor
  · intro hafter
    cases hold : s.registry.query id with
    | none => rfl
    -- the server that was registered runs on, and its entry is gone
    | some other =>
        obtain ⟨otherServer, hother, hruns, hid⟩ := h.runs id other hold
        have hne : other ≠ o := by
          rintro rfl
          rw [hserver] at hother
          cases hother
          rw [hstopped] at hruns
          cases hruns
        have hfound := hafter.found other otherServer (by rw [hplace, if_neg hne, hother]) hruns
        rw [hquery, if_pos hid] at hfound
        exact absurd (Option.some.inj hfound).symm hne
  · intro hnone
    constructor
    · intro id' o' hentry
      rw [hquery] at hentry
      by_cases hid : id' = id
      · rw [if_pos hid] at hentry
        cases hentry
        exact ⟨{ server with serverId := id, isStopped := false },
          by rw [hplace, if_pos rfl], rfl, hid.symm⟩
      · rw [if_neg hid] at hentry
        obtain ⟨other, hother, hruns, hotherId⟩ := h.runs id' o' hentry
        have hne : o' ≠ o := by
          rintro rfl
          rw [hserver] at hother
          cases hother
          rw [hstopped] at hruns
          cases hruns
        exact ⟨other, by rw [hplace, if_neg hne, hother], hruns, hotherId⟩
    · intro o' other hother hruns
      rw [hplace] at hother
      rw [hquery]
      by_cases ho : o' = o
      · rw [if_pos ho] at hother
        cases hother
        rw [if_pos rfl, ho]
      · rw [if_neg ho] at hother
        have hold := h.found o' other hother hruns
        have hne : other.serverId ≠ id := by
          intro heq
          rw [heq, hnone] at hold
          cases hold
        rw [if_neg hne, hold]

/-! ## Runs -/

theorem named_place {s : ServerTable} (h : s.Named) {o : Nat} {new : Option TrustedServer}
    (hnew : ∀ server, new = some server → server.isStopped = false → server.serverId ≠ []) :
    (s.place o new).Named := by
  intro o' server hserver
  rw [servers_place] at hserver
  by_cases ho : o' = o
  · rw [if_pos ho] at hserver
    exact hnew server hserver
  · rw [if_neg ho] at hserver
    exact h o' server hserver

theorem named_stop {s : ServerTable} (h : s.Named) (o : Nat) : (s.stop o).Named := by
  by_cases hruns : ∀ server, s.servers o = some server → server.isStopped = true
  · rw [stop_of_stopped hruns]
    exact h
  · simp only [not_forall, exists_prop, Bool.not_eq_true] at hruns
    obtain ⟨server, hserver, hruns⟩ := hruns
    rw [stop_eq hserver hruns (h o server hserver hruns)]
    apply named_place h (o := o)
    intro server' hserver' hruns'
    cases hserver'
    cases hruns'

theorem named_op {s : ServerTable} (h : s.Named) (op : ServerOp) : (s.op op).Named := by
  cases op with
  | construct o =>
      unfold ServerTable.op
      dsimp only
      split_ifs
      · exact h
      · apply named_place h
        intro server hserver hruns
        cases hserver
        cases hruns
  | listen o url =>
      apply named_place h
      intro server hserver hruns
      obtain ⟨old, hold, rfl⟩ := Option.map_eq_some_iff.1 hserver
      exact h o old hold hruns
  | start o eid created =>
      rcases start_cases s o eid created with ⟨hsame, -⟩ | ⟨server, -, hstarted, -⟩
      · have hop : s.op (.start o eid created) = s := congrArg Prod.snd hsame
        rw [hop]
        exact h
      · have hop : s.op (.start o eid created) = s.started o (serverIdOf eid server.url) server :=
          congrArg Prod.snd hstarted
        rw [hop]
        apply named_place h
        intro server' hserver' _
        cases hserver'
        exact serverIdOf_ne_nil eid server.url
  | stop o => exact named_stop h o
  | destroy o => exact named_place (named_stop h o) fun _ hserver => nomatch hserver

/-- **One operation.** From the intended registry it leads to it, and leaves a running server alone,
exactly when it is no start that is not free. -/
theorem registered_op_iff {s : ServerTable} (h : s.Registered) (hnamed : s.Named) (op : ServerOp) :
    ((s.op op).Registered ∧ RefusesRunning s op) ↔ FreeStart s op := by
  have hrefuses : (∀ o eid created, op ≠ .start o eid created) → RefusesRunning s op :=
    fun hne o eid created _ heq => absurd heq (hne o eid created)
  cases op with
  | construct o =>
      refine iff_of_true ⟨?_, hrefuses fun _ _ _ heq => nomatch heq⟩ trivial
      unfold ServerTable.op
      dsimp only
      cases hserver : s.servers o with
      | some server => exact h
      | none =>
          refine registered_place_stopped h (fun server hold => ?_) fun server hnew => ?_
          · rw [hserver] at hold
            cases hold
          · cases hnew
            rfl
  | listen o url =>
      exact iff_of_true ⟨registered_listen h o url, hrefuses fun _ _ _ heq => nomatch heq⟩ trivial
  | stop o =>
      exact iff_of_true ⟨registered_stop h hnamed o, hrefuses fun _ _ _ heq => nomatch heq⟩ trivial
  | destroy o =>
      refine iff_of_true ⟨?_, hrefuses fun _ _ _ heq => nomatch heq⟩ trivial
      exact registered_place_stopped (registered_stop h hnamed o) (stopped_of_stop s o)
        fun _ hserver => nomatch hserver
  | start o eid created =>
      rcases start_cases s o eid created with ⟨hsame, hfree⟩ | ⟨server, hserver, hstarted, hfree⟩
      · -- the start gave up
        have hop : s.op (.start o eid created) = s := congrArg Prod.snd hsame
        rw [hop]
        refine iff_of_true ⟨h, ?_⟩ hfree
        intro o' eid' created' server heq _ _
        cases heq
        exact hsame
      · have hop : s.op (.start o eid created) = s.started o (serverIdOf eid server.url) server :=
          congrArg Prod.snd hstarted
        rw [hop, hfree]
        -- a start that goes ahead refuses a running server only if there is none
        have hrefuses : RefusesRunning s (.start o eid created) ↔ server.isStopped = true := by
          constructor
          · intro hrefuses
            by_contra hruns
            have hsame := hrefuses o eid created server rfl hserver (Bool.not_eq_true _ ▸ hruns)
            rw [hstarted] at hsame
            cases congrArg Prod.fst hsame
          · intro hstopped o' eid' created' server' heq hserver' hruns
            cases heq
            rw [hserver] at hserver'
            cases hserver'
            rw [hstopped] at hruns
            cases hruns
        rw [hrefuses, and_comm]
        refine and_congr_right fun hstopped => ?_
        exact registered_started_iff h hserver hstopped (serverIdOf eid server.url)

theorem registered_initial : initial.Registered where
  runs := fun _ _ hquery => nomatch hquery
  found := fun _ _ hserver => nomatch hserver

/-- **When the registry holds exactly the running servers.** In every sequence of operations the
intended registry holds behind each of them, and no start touches a running server, exactly when
every start that gets its listener is on a stopped server and for an id under which none is
registered. -/
theorem registered_along_iff (ops : List ServerOp) :
    Along op (fun s i => (s.op i).Registered ∧ RefusesRunning s i) initial ops ↔
      Along op FreeStart initial ops :=
  along_exact_iff
    (fun s i (h : s.Registered ∧ s.Named) => registered_op_iff h.1 h.2 i)
    (fun _ i h hfree => ⟨((registered_op_iff h.1 h.2 i).2 hfree).1, named_op h.2 i⟩)
    ⟨registered_initial, fun _ _ hserver => nomatch hserver⟩ ops

/-- A running server that is started again under another URL leaves an entry under the old id. -/
theorem start_while_running :
    ¬ Along op (fun s i => (s.op i).Registered ∧ RefusesRunning s i) initial
      [.construct 0, .listen 0 (str "http://a:1"), .start 0 2 true,
        .listen 0 (str "http://a:2"), .start 0 2 true, .stop 0, .destroy 0] := by
  rintro ⟨-, -, -, -, ⟨-, hrefuses⟩, -⟩
  have hsame := hrefuses 0 2 true ⟨str "http://a:2", str "2_http://a:1", false⟩ rfl (by decide) rfl
  exact absurd (congrArg Prod.fst hsame) (by decide)

end ServerTable

end Ssgx.Http
