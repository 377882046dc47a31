import Ssgx.Http.Message
import Ssgx.Support.Registry

/-!
# The listeners of the host

`ssgx_ocall_http_create_listener` and `ssgx_ocall_http_release_listener`. A listener is an
`SSGXHttpServer` object that the host owns and registers under its server id; whoever drops the
entry deletes the object.

The code looks for an old listener of the same id in `ObjectRegistry<std::string, HTTPServer>`,
where nothing is ever registered, and registers the new one in `ObjectRegistry<std::string,
SSGXHttpServer>`. `owned_along_iff` says which runs leave no listener behind.
-/

set_option autoImplicit false

namespace Ssgx.Http

open Ssgx.Support

/-- An `SSGXHttpServer`: the id it was made for, whether it runs, how often it was freed. -/
structure Listener where
  serverId : Str
  running : Bool
  frees : Nat

/-- The host: the two registries, the listeners ever constructed, and the next address. -/
structure ListenerHost where
  httpServers : Registry Str Nat
  ssgxHttpServers : Registry Str Nat
  objects : Nat → Option Listener
  next : Nat

/-- What the constructor or `Start` throws. -/
inductive HostException where
  | poco
  | std
  | other
deriving DecidableEq

/-- The value returned behind each `catch`. -/
def HostException.code : HostException → Int
  | .poco => -2
  | .std => -3
  | .other => -4

/-- How the construction and the start of a listener go. -/
inductive Creation where
  | constructorThrows (e : HostException)
  | startThrows (e : HostException)
  | starts
deriving DecidableEq

/-- The id of a listener. -/
def listenerId (eid : Nat) (url : Str) : Str := decimal eid ++ '_' :: url

namespace ListenerHost

/-- The host before the first call. -/
def initial : ListenerHost := ⟨.empty, .empty, fun _ => none, 0⟩

/-- Change a listener. -/
def change (s : ListenerHost) (o : Nat) (f : Listener → Listener) : ListenerHost :=
  { s with objects := Function.update s.objects o ((s.objects o).map f) }

/-- `SSGXHttpServer::Stop`. -/
def stop (s : ListenerHost) (o : Nat) : ListenerHost :=
  s.change o fun l => { l with running := false }

/-- `delete`: the destructor stops the listener. -/
def delete (s : ListenerHost) (o : Nat) : ListenerHost :=
  (s.stop o).change o fun l => { l with frees := l.frees + 1 }

/-- `new SSGXHttpServer`, at the next address. -/
def construct (s : ListenerHost) (serverId : Str) : ListenerHost :=
  { s with
    objects := Function.update s.objects s.next (some ⟨serverId, false, 0⟩)
    next := s.next + 1 }

/-- `SSGXHttpServer::Start`. -/
def start (s : ListenerHost) (o : Nat) : ListenerHost :=
  s.change o fun l => { l with running := true }

/-- The host after a listener was constructed, started and registered. -/
def created (s : ListenerHost) (id : Str) : ListenerHost :=
  let s' := (s.construct id).start s.next
  { s' with ssgxHttpServers := s'.ssgxHttpServers.register id s.next true }

/-- `ObjectRegistry<std::string, SSGXHttpServer>::Unregister`. -/
def unregister (s : ListenerHost) (serverId : Str) : ListenerHost :=
  let s' := match s.ssgxHttpServers.deletes serverId with
    | some o => s.delete o
    | none => s
  { s' with ssgxHttpServers := s'.ssgxHttpServers.unregister serverId }

/-- The look for an old listener. What it would stop is an `HTTPServer`, no listener of this model.
-/
def dropSameName (s : ListenerHost) (serverId : Str) : ListenerHost :=
  if s.httpServers.contains serverId then
    { s with httpServers := s.httpServers.unregister serverId }
  else s

/-- `ssgx_ocall_http_create_listener`. -/
def createListener (s : ListenerHost) (eid : Nat) (url : Option Str) (creation : Creation) :
    Int × ListenerHost :=
  if isNonEmptyString url = false then (-1, s)
  else
    let serverId := listenerId eid (url.getD [])
    let s := s.dropSameName serverId
    match creation with
    -- `the_server` is still null
    | .constructorThrows e => (e.code, s)
    | .startThrows e => (e.code, (s.construct serverId).delete s.next)
    | .starts => (0, s.created serverId)

/-- `ssgx_ocall_http_release_listener`. -/
def releaseListener (s : ListenerHost) (serverId : Option Str) : ListenerHost :=
  if isNonEmptyString serverId = false then s
  else
    let id := serverId.getD []
    let s := match s.ssgxHttpServers.query id with
      | some o => s.stop o
      | none => s
    s.unregister id

end ListenerHost

/-- A call of the host. -/
inductive ListenerCall where
  | create (eid : Nat) (url : Option Str) (creation : Creation)
  | release (serverId : Option Str)

/-- The host after a call. -/
def ListenerHost.call (s : ListenerHost) : ListenerCall → ListenerHost
  | .create eid url creation => (s.createListener eid url creation).2
  | .release serverId => s.releaseListener serverId

/-! ## The intended ownership -/

/-- **The intended state.** Every listener that was not freed is the one registered for its id, so
that there is one at most; what is registered is such a listener; and none is freed twice. -/
structure ListenerHost.Owned (s : ListenerHost) : Prop where
  registered : ∀ o l, s.objects o = some l → l.frees = 0 →
    s.ssgxHttpServers.query l.serverId = some o
  found : ∀ id o, s.ssgxHttpServers.query id = some o →
    ∃ l, s.objects o = some l ∧ l.serverId = id ∧ l.frees = 0
  once : ∀ o l, s.objects o = some l → l.frees ≤ 1

/-- After a release of an id every listener ever made for it is freed. -/
def ReleasedBy (c : ListenerCall) (s : ListenerHost) : Prop :=
  ∀ id, c = .release (some id) → id ≠ [] →
    ∀ o l, s.objects o = some l → l.serverId = id → l.frees = 1

/-- A listener is created and started only for an id that has none. -/
def NewId (s : ListenerHost) : ListenerCall → Prop
  | .create eid (some url) .starts =>
      url ≠ [] → s.ssgxHttpServers.contains (listenerId eid url) = false
  | _ => True

/-! ## What every run keeps -/

/-- What holds in every run: nothing is registered as an `HTTPServer`, what is registered is a
listener that was not freed, under its id and marked for deletion, and no address is used twice. -/
structure ListenerHost.Sound (s : ListenerHost) : Prop where
  httpServers : ∀ id, s.httpServers.entries id = none
  found : ∀ id o mark, s.ssgxHttpServers.entries id = some (o, mark) →
    mark = true ∧ ∃ l, s.objects o = some l ∧ l.serverId = id ∧ l.frees = 0
  once : ∀ o l, s.objects o = some l → l.frees ≤ 1
  beyond : ∀ o, s.next ≤ o → s.objects o = none

namespace ListenerHost

theorem objects_change (s : ListenerHost) (o o' : Nat) (f : Listener → Listener) :
    (s.change o f).objects o' = if o' = o then (s.objects o).map f else s.objects o' :=
  Function.update_apply ..

theorem objects_construct (s : ListenerHost) (id : Str) (o : Nat) :
    (s.construct id).objects o = if o = s.next then some ⟨id, false, 0⟩ else s.objects o :=
  Function.update_apply ..

/-- Without an `HTTPServer` the look for an old listener finds none. -/
theorem dropSameName_of_sound {s : ListenerHost} (h : s.Sound) (id : Str) :
    s.dropSameName id = s := by
  unfold dropSameName Registry.contains
  rw [h.httpServers]
  rfl

theorem objects_delete (s : ListenerHost) (o o' : Nat) :
    (s.delete o).objects o' =
      if o' = o then (s.objects o).map fun l => ⟨l.serverId, false, l.frees + 1⟩
      else s.objects o' := by
  simp only [delete, stop]
  rw [objects_change]
  by_cases h : o' = o
  · rw [if_pos h, if_pos h, objects_change, if_pos rfl, Option.map_map]
    rfl
  · rw [if_neg h, if_neg h, objects_change, if_neg h]

theorem sound_initial : initial.Sound where
  httpServers := fun _ => rfl
  found := fun _ _ _ hentry => nomatch hentry
  once := fun _ _ hobj => nomatch hobj
  beyond := fun _ _ => rfl

/-- In a state that runs reach, only the first part of the intended state is in question. -/
theorem owned_iff {s : ListenerHost} (h : s.Sound) :
    s.Owned ↔ ∀ o l, s.objects o = some l → l.frees = 0 →
      s.ssgxHttpServers.query l.serverId = some o := by
  constructor
  · intro howned
    exact howned.registered
  · intro hregistered
    refine ⟨hregistered, ?_, h.once⟩
    intro id o hquery
    obtain ⟨mark, hentry⟩ := Registry.query_eq_some_iff.1 hquery
    exact (h.found id o mark hentry).2

/-- What is registered is not at a new address. -/
theorem found_ne_next {s : ListenerHost} (h : s.Sound) {id : Str} {o : Nat} {mark : Bool}
    (hentry : s.ssgxHttpServers.entries id = some (o, mark)) : o ≠ s.next := by
  obtain ⟨-, l, hobj, -, -⟩ := h.found id o mark hentry
  rintro rfl
  rw [h.beyond _ (Nat.le_refl _)] at hobj
  cases hobj

/-! ## A failed creation -/

/-- A listener whose start throws is constructed and deleted again. -/
theorem objects_startThrows (s : ListenerHost) (id : Str) (o : Nat) :
    ((s.construct id).delete s.next).objects o =
      if o = s.next then some ⟨id, false, 1⟩ else s.objects o := by
  rw [objects_delete, objects_construct, objects_construct, if_pos rfl]
  by_cases h : o = s.next
  · rw [if_pos h, if_pos h]
    rfl
  · rw [if_neg h, if_neg h, if_neg h]

theorem sound_startThrows {s : ListenerHost} (h : s.Sound) (id : Str) :
    ((s.construct id).delete s.next).Sound where
  httpServers := h.httpServers
  found := by
    intro id' o mark hentry
    obtain ⟨hmark, l, hobj, hid, hfrees⟩ := h.found id' o mark hentry
    refine ⟨hmark, l, ?_, hid, hfrees⟩
    rw [objects_startThrows, if_neg (found_ne_next h hentry), hobj]
  once := by
    intro o l hobj
    rw [objects_startThrows] at hobj
    by_cases ho : o = s.next
    · rw [if_pos ho] at hobj
      cases hobj
      exact Nat.le_refl 1
    · rw [if_neg ho] at hobj
      exact h.once o l hobj
  beyond := by
    intro o ho
    have hlt : s.next + 1 ≤ o := ho
    rw [objects_startThrows, if_neg (by omega), h.beyond o (by omega)]

theorem owned_startThrows {s : ListenerHost} (h : s.Sound) (howned : s.Owned) (id : Str) :
    ((s.construct id).delete s.next).Owned := by
  rw [owned_iff (sound_startThrows h id)]
  intro o l hobj hfrees
  rw [objects_startThrows] at hobj
  by_cases ho : o = s.next
  · rw [if_pos ho] at hobj
    cases hobj
    exact absurd hfrees Nat.one_ne_zero
  · rw [if_neg ho] at hobj
    exact howned.registered o l hobj hfrees

/-! ## A creation that starts -/

theorem objects_created (s : ListenerHost) (id : Str) (o : Nat) :
    (s.created id).objects o = if o = s.next then some ⟨id, true, 0⟩ else s.objects o := by
  have hstart : (s.created id).objects o = ((s.construct id).start s.next).objects o := rfl
  rw [hstart, start, objects_change, objects_construct, objects_construct, if_pos rfl]
  by_cases h : o = s.next
  · rw [if_pos h, if_pos h]
    rfl
  · rw [if_neg h, if_neg h, if_neg h]

theorem sound_created {s : ListenerHost} (h : s.Sound) (id : Str) : (s.created id).Sound where
  httpServers := h.httpServers
  found := by
    intro id' o mark hentry
    have hregister := Registry.entries_register s.ssgxHttpServers id id' s.next true
    rw [show (s.created id).ssgxHttpServers = s.ssgxHttpServers.register id s.next true from rfl,
      hregister] at hentry
    by_cases hid : id' = id
    · rw [if_pos hid] at hentry
      cases hentry
      exact ⟨rfl, ⟨id, true, 0⟩, by rw [objects_created, if_pos rfl], hid.symm, rfl⟩
    · rw [if_neg hid] at hentry
      obtain ⟨hmark, l, hobj, hl, hfrees⟩ := h.found id' o mark hentry
      refine ⟨hmark, l, ?_, hl, hfrees⟩
      rw [objects_created, if_neg (found_ne_next h hentry), hobj]
  once := by
    intro o l hobj
    rw [objects_created] at hobj
    by_cases ho : o = s.next
    · rw [if_pos ho] at hobj
      cases hobj
      exact Nat.zero_le 1
    · rw [if_neg ho] at hobj
      exact h.once o l hobj
  beyond := by
    intro o ho
    have hlt : s.next + 1 ≤ o := ho
    rw [objects_created, if_neg (by omega), h.beyond o (by omega)]

/-- **A creation that starts.** It leaves the intended state exactly when its id had no listener. -/
theorem owned_created_iff {s : ListenerHost} (h : s.Sound) (howned : s.Owned) (id : Str) :
    (s.created id).Owned ↔ s.ssgxHttpServers.contains id = false := by
  have hquery : ∀ id', (s.created id).ssgxHttpServers.query id' =
      if id' = id then some s.next else s.ssgxHttpServers.query id' :=
    fun id' => Registry.query_register s.ssgxHttpServers id id' s.next true
  rw [owned_iff (sound_created h id), Registry.contains_eq_false_iff]
  constructor
  · intro hregistered
    cases hold : s.ssgxHttpServers.query id with
    | none => rfl
    -- the listener that was registered is still there, and the new one has its entry
    | some o =>
        obtain ⟨mark, hentry⟩ := Registry.query_eq_some_iff.1 hold
        obtain ⟨-, l, hobj, hid, hfrees⟩ := h.found id o mark hentry
        have hne := found_ne_next h hentry
        have hnew := hregistered o l (by rw [objects_created, if_neg hne, hobj]) hfrees
        rw [hquery, if_pos hid] at hnew
        exact absurd (Option.some.inj hnew).symm hne
  · intro hnone o l hobj hfrees
    rw [objects_created] at hobj
    rw [hquery]
    by_cases ho : o = s.next
    · rw [if_pos ho] at hobj
      cases hobj
      rw [if_pos rfl, ho]
    · rw [if_neg ho] at hobj
      have hold := howned.registered o l hobj hfrees
      have hne : l.serverId ≠ id := by
        rintro heq
        rw [heq, hnone] at hold
        cases hold
      rw [if_neg hne, hold]

/-! ## A release -/

/-- The host after the listener at `o` was stopped, dropped and deleted. -/
def released (s : ListenerHost) (id : Str) (o : Nat) : ListenerHost :=
  { (s.stop o).delete o with ssgxHttpServers := s.ssgxHttpServers.unregister id }

/-- A release does nothing, or it stops, drops and deletes what is registered. -/
theorem releaseListener_cases {s : ListenerHost} (h : s.Sound) (serverId : Option Str) :
    (s.releaseListener serverId = s ∧
        ∀ id, serverId = some id → id ≠ [] → s.ssgxHttpServers.query id = none) ∨
      ∃ id o, serverId = some id ∧ s.ssgxHttpServers.entries id = some (o, true) ∧
        s.releaseListener serverId = s.released id o := by
  simp only [releaseListener]
  cases serverId with
  | none => exact .inl ⟨rfl, fun _ hid => nomatch hid⟩
  | some id =>
      by_cases hid : id = []
      · subst hid
        refine .inl ⟨rfl, ?_⟩
        intro id' hid' hne
        cases hid'
        exact absurd rfl hne
      · have hnamed : isNonEmptyString (some id) ≠ false := by
          simpa [isNonEmptyString] using hid
        rw [if_neg hnamed]
        cases hentry : s.ssgxHttpServers.entries id with
        | none =>
            have hquery : s.ssgxHttpServers.query id = none := by
              rw [Registry.query, hentry]
              rfl
            refine .inl ⟨?_, fun id' hid' _ => by cases hid'; exact hquery⟩
            simp only [Option.getD_some, hquery, unregister, Registry.deletes, hentry,
              Registry.unregister_of_none hentry]
        | some entry =>
            obtain ⟨o, mark⟩ := entry
            -- in a sound registry nothing registered was marked as deleted
            obtain ⟨rfl, -⟩ := h.found id o mark hentry
            refine .inr ⟨id, o, rfl, hentry, ?_⟩
            have hquery : s.ssgxHttpServers.query id = some o :=
              Registry.query_eq_some_iff.2 ⟨true, hentry⟩
            have hstopped : (s.stop o).ssgxHttpServers = s.ssgxHttpServers := rfl
            simp only [Option.getD_some, hquery, unregister, Registry.deletes, hstopped, hentry]
            rfl

theorem objects_released (s : ListenerHost) (id : Str) (o o' : Nat) :
    (s.released id o).objects o' =
      if o' = o then (s.objects o).map fun l => ⟨l.serverId, false, l.frees + 1⟩
      else s.objects o' := by
  have hdelete : (s.released id o).objects o' = ((s.stop o).delete o).objects o' := rfl
  rw [hdelete, objects_delete, stop, objects_change, objects_change, if_pos rfl, Option.map_map]
  by_cases h : o' = o
  · rw [if_pos h, if_pos h]
    rfl
  · rw [if_neg h, if_neg h, if_neg h]

theorem sound_released {s : ListenerHost} (h : s.Sound) {id : Str} {o : Nat}
    (hentry : s.ssgxHttpServers.entries id = some (o, true)) : (s.released id o).Sound where
  httpServers := h.httpServers
  found := by
    intro id' o' mark hentry'
    rw [show (s.released id o).ssgxHttpServers = s.ssgxHttpServers.unregister id from rfl,
      Registry.entries_unregister] at hentry'
    by_cases hid : id' = id
    · rw [if_pos hid] at hentry'
      cases hentry'
    · rw [if_neg hid] at hentry'
      obtain ⟨hmark, l, hobj, hl, hfrees⟩ := h.found id' o' mark hentry'
      -- the deleted listener has another id
      have hne : o' ≠ o := by
        rintro rfl
        obtain ⟨-, l', hobj', hl', -⟩ := h.found id o' true hentry
        rw [hobj] at hobj'
        cases hobj'
        exact hid (hl.symm.trans hl')
      exact ⟨hmark, l, by rw [objects_released, if_neg hne, hobj], hl, hfrees⟩
  once := by
    intro o' l hobj
    rw [objects_released] at hobj
    by_cases ho : o' = o
    · obtain ⟨-, l', hobj', -, hfrees⟩ := h.found id o true hentry
      rw [if_pos ho, hobj'] at hobj
      cases hobj
      exact Nat.le_of_eq (congrArg Nat.succ hfrees)
    · rw [if_neg ho] at hobj
      exact h.once o' l hobj
  beyond := by
    intro o' ho
    have hnone := h.beyond o' ho
    have hne : o' ≠ o := fun heq => found_ne_next h hentry (by
      have hle : s.next ≤ o := heq ▸ ho
      obtain ⟨-, l, hobj, -, -⟩ := h.found id o true hentry
      rw [h.beyond o hle] at hobj
      cases hobj)
    rw [objects_released, if_neg hne, hnone]

theorem owned_released {s : ListenerHost} (h : s.Sound) (howned : s.Owned) {id : Str} {o : Nat}
    (hentry : s.ssgxHttpServers.entries id = some (o, true)) : (s.released id o).Owned := by
  rw [owned_iff (sound_released h hentry)]
  intro o' l hobj hfrees
  rw [objects_released] at hobj
  by_cases ho : o' = o
  · rw [if_pos ho] at hobj
    obtain ⟨l', -, hl'⟩ := Option.map_eq_some_iff.1 hobj
    rw [← hl'] at hfrees
    exact absurd hfrees (Nat.succ_ne_zero _)
  · rw [if_neg ho] at hobj
    have hold := howned.registered o' l hobj hfrees
    have hne : l.serverId ≠ id := by
      rintro heq
      rw [heq, Registry.query_eq_some_iff.2 ⟨true, hentry⟩] at hold
      exact ho (Option.some.inj hold).symm
    exact Registry.query_unregister_eq_some_iff.2 ⟨hne, hold⟩

/-- In the intended state, a listener whose id has none registered is freed. -/
theorem freed_of_query {s : ListenerHost} (howned : s.Owned) {o : Nat} {l : Listener}
    (hobj : s.objects o = some l) (hquery : s.ssgxHttpServers.query l.serverId ≠ some o) :
    l.frees = 1 := by
  have hpos : l.frees ≠ 0 := fun hfrees => hquery (howned.registered o l hobj hfrees)
  have hle := howned.once o l hobj
  omega

/-- **A release.** It leaves no listener of its id. -/
theorem releasedBy_call {s : ListenerHost} (h : s.Sound) (howned : s.Owned) (c : ListenerCall) :
    ReleasedBy c (s.call c) := by
  rintro id rfl hid o' l hobj hl
  change (s.releaseListener (some id)).objects o' = some l at hobj
  rcases releaseListener_cases h (some id) with ⟨hsame, hnone⟩ | ⟨id', o, hid', hentry, hreleased⟩
  · rw [hsame] at hobj
    apply freed_of_query howned hobj
    rw [hl, hnone id rfl hid]
    exact Option.some_ne_none o' ∘ Eq.symm
  · cases hid'
    rw [hreleased, objects_released] at hobj
    by_cases ho : o' = o
    · obtain ⟨-, l', hobj', -, hfrees⟩ := h.found id o true hentry
      rw [if_pos ho, hobj'] at hobj
      cases hobj
      exact congrArg Nat.succ hfrees
    · rw [if_neg ho] at hobj
      apply freed_of_query howned hobj
      rw [hl, Registry.query_eq_some_iff.2 ⟨true, hentry⟩]
      exact fun heq => ho (Option.some.inj heq).symm

/-! ## Runs -/

/-- The four things that a call can do. -/
theorem call_cases {s : ListenerHost} (h : s.Sound) (c : ListenerCall) :
    (s.call c = s ∧ NewId s c) ∨
      (∃ id, s.call c = (s.construct id).delete s.next ∧ NewId s c) ∨
      (∃ id, s.call c = s.created id ∧
        (NewId s c ↔ s.ssgxHttpServers.contains id = false)) ∨
      ∃ id o, s.ssgxHttpServers.entries id = some (o, true) ∧ s.call c = s.released id o ∧
        NewId s c := by
  cases c with
  | release serverId =>
      rcases releaseListener_cases h serverId with ⟨hsame, -⟩ | ⟨id, o, -, hentry, hreleased⟩
      · exact .inl ⟨hsame, trivial⟩
      · exact .inr (.inr (.inr ⟨id, o, hentry, hreleased, trivial⟩))
  | create eid url creation =>
      have hcall : s.call (.create eid url creation) = (s.createListener eid url creation).2 := rfl
      rw [hcall, createListener]
      by_cases hurl : isNonEmptyString url = false
      · rw [if_pos hurl]
        refine .inl ⟨rfl, ?_⟩
        cases url with
        | none => trivial
        | some text =>
            -- a call without a URL gives up, whatever the host would do
            cases creation with
            | constructorThrows e => trivial
            | startThrows e => trivial
            | starts =>
                intro hne
                exact absurd (by simpa [isNonEmptyString] using hurl) hne
      · rw [if_neg hurl]
        dsimp only
        -- the registry is sound, so no entry has to make room
        rw [dropSameName_of_sound h]
        obtain ⟨text, rfl⟩ : ∃ text, url = some text := by
          cases url with
          | none => exact absurd rfl hurl
          | some text => exact ⟨text, rfl⟩
        cases creation with
        | constructorThrows e => exact .inl ⟨rfl, trivial⟩
        | startThrows e => exact .inr (.inl ⟨_, rfl, trivial⟩)
        | starts =>
            refine .inr (.inr (.inl ⟨_, rfl, ?_⟩))
            have htext : text ≠ [] := by simpa [isNonEmptyString] using hurl
            exact ⟨fun hnew => hnew htext, fun hnone _ => hnone⟩

theorem sound_call {s : ListenerHost} (h : s.Sound) (c : ListenerCall) : (s.call c).Sound := by
  rcases call_cases h c with ⟨hs, -⟩ | ⟨id, hs, -⟩ | ⟨id, hs, -⟩ | ⟨id, o, hentry, hs, -⟩
  · rw [hs]
    exact h
  · rw [hs]
    exact sound_startThrows h id
  · rw [hs]
    exact sound_created h id
  · rw [hs]
    exact sound_released h hentry

/-- **One call.** From an intended state it leads to one exactly when it meets the condition. -/
theorem owned_call_iff {s : ListenerHost} (h : s.Sound) (howned : s.Owned) (c : ListenerCall) :
    (s.call c).Owned ↔ NewId s c := by
  rcases call_cases h c with
    ⟨hs, hnew⟩ | ⟨id, hs, hnew⟩ | ⟨id, hs, hnew⟩ | ⟨id, o, hentry, hs, hnew⟩
  · rw [hs]
    exact iff_of_true howned hnew
  · rw [hs]
    exact iff_of_true (owned_startThrows h howned id) hnew
  · rw [hs, hnew]
    exact owned_created_iff h howned id
  · rw [hs]
    exact iff_of_true (owned_released h howned hentry) hnew

theorem owned_initial : initial.Owned where
  registered := fun _ _ hobj => nomatch hobj
  found := fun _ _ hquery => nomatch hquery
  once := fun _ _ hobj => nomatch hobj

/-- **When every listener has its owner.** In every sequence of calls the intended state holds
behind every call, and a release leaves no listener of its id, exactly when every creation that
starts is for an id without a listener. -/
theorem owned_along_iff (calls : List ListenerCall) :
    Along call (fun s c => (s.call c).Owned ∧ ReleasedBy c (s.call c)) initial calls ↔
      Along call NewId initial calls :=
  along_exact_iff
    (fun s c (h : s.Sound ∧ s.Owned) =>
      (and_iff_left (releasedBy_call h.1 h.2 c)).trans (owned_call_iff h.1 h.2 c))
    (fun _ c h hnew => ⟨sound_call h.1 c, (owned_call_iff h.1 h.2 c).2 hnew⟩)
    ⟨sound_initial, owned_initial⟩ calls

/-- Two creations for the same URL that both start. -/
theorem second_creation_leaks :
    ¬ Along call (fun s c => (s.call c).Owned ∧ ReleasedBy c (s.call c)) initial
      [.create 2 (some (str "x://127.0.0.1")) .starts,
        .create 2 (some (str "x://127.0.0.1")) .starts] := by
  rintro ⟨-, ⟨howned, -⟩, -⟩
  have hfirst := howned.registered 0 ⟨listenerId 2 (str "x://127.0.0.1"), true, 0⟩ (by rfl) rfl
  exact absurd hfirst (by decide)

end ListenerHost

end Ssgx.Http
