import Ssgx.Attestation.Quote
import Ssgx.Http.Listeners
import Ssgx.Http.Servers
import Ssgx.Http.Transport
import Ssgx.Support.LastGiven

/-!
# What a listener is made with

`Server::SetTimeOut`, `SetMaxThreads`, `SetMaxQueued` and `Start` of the enclave, the ocall of the
EDL, and `ssgx_ocall_http_create_listener` up to the `SSGXHttpServerConfig` it hands to the
constructor. The trusted call and the EDL pass the timeout, the threads and the queue length in this
order; the implementation takes the queue length before the threads, and stores each number in an
`int`. What Poco makes of a URL and of a configuration is a parameter (`ListenerPlatform`).
-/

set_option autoImplicit false

namespace Ssgx.Http

open Ssgx.Support
open Ssgx.Attestation (sgxSuccess)

/-! ## The trusted server -/

/-- The fields of `Server` that `Start` reads. -/
structure ServerSettings where
  url : Str
  timeoutSeconds : UInt64
  maxThreads : UInt64
  maxQueued : UInt64

/-- A server as its constructor leaves it. -/
def ServerSettings.fresh : ServerSettings := ⟨[], 60, 4, 64⟩

/-- The setters of `Server`. -/
inductive SettingCall where
  | listen (url : Str)
  | setTimeOut (timeoutSeconds : UInt64)
  | setMaxThreads (maxThreads : UInt64)
  | setMaxQueued (maxQueued : UInt64)

/-- The server after a setter. -/
def ServerSettings.call (server : ServerSettings) : SettingCall → ServerSettings
  | .listen url => { server with url := url }
  | .setTimeOut timeoutSeconds => { server with timeoutSeconds := timeoutSeconds }
  | .setMaxThreads maxThreads => { server with maxThreads := maxThreads }
  | .setMaxQueued maxQueued => { server with maxQueued := maxQueued }

/-- The timeout that a setter gives. -/
def SettingCall.timeOut : SettingCall → Option UInt64
  | .setTimeOut timeoutSeconds => some timeoutSeconds
  | _ => none

/-- The number of threads that a setter gives. -/
def SettingCall.threads : SettingCall → Option UInt64
  | .setMaxThreads maxThreads => some maxThreads
  | _ => none

/-- The queue length that a setter gives. -/
def SettingCall.queued : SettingCall → Option UInt64
  | .setMaxQueued maxQueued => some maxQueued
  | _ => none

/-! ## The listener of the host -/

/-- `SSGXHttpServerConfig`. -/
structure SSGXHttpServerConfig where
  host : Str
  port : Nat
  minThreads : Int
  maxThreads : Int
  maxQueuedRequests : Int
  timeoutSeconds : Int
  sgxEid : Nat
  serverId : Str

/-- The initial values of the configuration. -/
def SSGXHttpServerConfig.initial (sgxEid : Nat) (serverId : Str) : SSGXHttpServerConfig where
  host := str "127.0.0.1"
  port := 8080
  minThreads := 2
  maxThreads := 16
  maxQueuedRequests := 100
  timeoutSeconds := 60
  sgxEid := sgxEid
  serverId := serverId

/-- What the enclave cannot know: the status of the crossing, what `Poco::URI` makes of a text, and
how the construction and the start of a listener with a configuration go. -/
structure ListenerPlatform where
  status : UInt32
  uri : Str → Except HostException (Str × Nat)
  create : SSGXHttpServerConfig → Creation

/-- `static_cast<int>`. -/
def castInt (n : UInt64) : Int := toInt32 n.toNat

/-- The configuration that `ssgx_ocall_http_create_listener` fills. -/
def listenerConfig (sgxEid : Nat) (url host : Str) (port : Nat)
    (timeoutSeconds maxQueued maxThreads : UInt64) : SSGXHttpServerConfig :=
  { SSGXHttpServerConfig.initial sgxEid (listenerId sgxEid url) with
    host := host
    port := port
    maxThreads := castInt maxThreads
    maxQueuedRequests := castInt maxQueued
    timeoutSeconds := castInt timeoutSeconds }

namespace ListenerPlatform

/-- How the block of the `try` goes, and the configuration of a listener that is made. -/
def creation (platform : ListenerPlatform) (sgxEid : Nat) (url : Str)
    (timeoutSeconds maxQueued maxThreads : UInt64) : Creation × Option SSGXHttpServerConfig :=
  match platform.uri url with
  | .error e => (.constructorThrows e, none)
  | .ok (host, port) =>
      let config := listenerConfig sgxEid url host port timeoutSeconds maxQueued maxThreads
      match platform.create config with
      | .starts => (.starts, some config)
      | failed => (failed, none)

/-- `ssgx_ocall_http_create_listener`: its code, and the configuration of the listener it leaves. -/
def createListener (platform : ListenerPlatform) (sgxEid : Nat) (url : Str)
    (timeoutSeconds maxQueued maxThreads : UInt64) : Int × Option SSGXHttpServerConfig :=
  if isNonEmptyString (some url) = false then (-1, none)
  else
    match platform.creation sgxEid url timeoutSeconds maxQueued maxThreads with
    | (.constructorThrows e, config) => (e.code, config)
    | (.startThrows e, config) => (e.code, config)
    | (.starts, config) => (0, config)

/-- The ocall of the EDL: the text crosses as a C string, and the numbers by their positions. -/
def ocallCreateListener (platform : ListenerPlatform) (sgxEnclaveId : Nat) (url : Str)
    (timeoutSeconds maxThreads maxQueued : UInt64) : Int × Option SSGXHttpServerConfig :=
  platform.createListener sgxEnclaveId (upTo nul url) timeoutSeconds maxThreads maxQueued

end ListenerPlatform

/-- The trusted call returns `SGX_SUCCESS` and the code `0`. -/
def ServerSettings.created (server : ServerSettings) (platform : ListenerPlatform) (eid : Nat) :
    Bool :=
  platform.status = sgxSuccess ∧ (platform.ocallCreateListener eid server.url
    server.timeoutSeconds server.maxThreads server.maxQueued).1 = 0

/-- `Server::Start`: what it returns, and the configuration of the listener it has made. -/
def ServerSettings.start (server : ServerSettings) (platform : ListenerPlatform) (eid : Nat) :
    Bool × Option SSGXHttpServerConfig :=
  if server.url.isEmpty then (false, none)
  else if eid = 0 then (false, none)
  else if server.created platform eid = false then (false, none)
  else
    (true, (platform.ocallCreateListener eid server.url server.timeoutSeconds server.maxThreads
      server.maxQueued).2)

/-! ## The two models of a start -/

variable {server : ServerSettings} {platform : ListenerPlatform} {eid : Nat}

/-- The code is the one of the host's registry, whose listener is constructed and started in the
same way. -/
theorem createListener_code (s : ListenerHost) (platform : ListenerPlatform) (eid : Nat) (url : Str)
    (timeoutSeconds maxQueued maxThreads : UInt64) :
    (s.createListener eid (some url)
        (platform.creation eid url timeoutSeconds maxQueued maxThreads).1).1 =
      (platform.createListener eid url timeoutSeconds maxQueued maxThreads).1 := by
  simp only [ListenerHost.createListener, ListenerPlatform.createListener]
  by_cases hurl : isNonEmptyString (some url) = false
  · rw [if_pos hurl, if_pos hurl]
  · rw [if_neg hurl, if_neg hurl]
    rcases platform.creation eid url timeoutSeconds maxQueued maxThreads with ⟨creation, config⟩
    cases creation with
    | constructorThrows e => rfl
    | startThrows e => rfl
    | starts => rfl

/-- The answer of `Start` is the one of the enclave's registry for a server with this URL. -/
theorem start_eq_table {s : ServerTable} {o : Nat} {trusted : TrustedServer}
    (hserver : s.servers o = some trusted) (hurl : trusted.url = server.url)
    (platform : ListenerPlatform) (eid : Nat) :
    (s.start o eid (server.created platform eid)).1 = (server.start platform eid).1 := by
  simp only [ServerTable.start, ServerSettings.start, hserver, hurl]
  split_ifs
  · rfl
  · rfl
  · rfl
  · rfl

/-! ## How `Start` goes -/

/-- Every step of `Start` succeeds, and the listener is made with this configuration: there is a URL
and an enclave id, the ocall crosses with a text, Poco reads the text as a URL, and constructs and
starts the listener. -/
def ServerSettings.Starts (server : ServerSettings) (platform : ListenerPlatform) (eid : Nat)
    (config : SSGXHttpServerConfig) : Prop :=
  server.url ≠ [] ∧ eid ≠ 0 ∧ platform.status = sgxSuccess ∧ upTo nul server.url ≠ [] ∧
    ∃ host port, platform.uri (upTo nul server.url) = .ok (host, port) ∧
      config = listenerConfig eid (upTo nul server.url) host port server.timeoutSeconds
        server.maxThreads server.maxQueued ∧
      platform.create config = .starts

theorem HostException.code_ne_zero (e : HostException) : e.code ≠ 0 := by
  cases e with
  | poco => decide
  | std => decide
  | other => decide

/-- The implementation returns `0` where there is a text that Poco reads and a configuration with
which it starts the listener. -/
theorem createListener_zero_iff {url : Str} {timeoutSeconds maxQueued maxThreads : UInt64}
    {result : Option SSGXHttpServerConfig} :
    platform.createListener eid url timeoutSeconds maxQueued maxThreads = (0, result) ↔
      url ≠ [] ∧ ∃ host port, platform.uri url = .ok (host, port) ∧
        result = some (listenerConfig eid url host port timeoutSeconds maxQueued maxThreads) ∧
        platform.create (listenerConfig eid url host port timeoutSeconds maxQueued maxThreads) =
          .starts := by
  simp only [ListenerPlatform.createListener]
  cases url with
  | nil => simp [isNonEmptyString]
  | cons c rest =>
      rw [if_neg (by simp [isNonEmptyString])]
      simp only [ListenerPlatform.creation]
      rcases platform.uri (c :: rest) with e | ⟨host, port⟩
      · simp [HostException.code_ne_zero]
      · simp only
        -- a code of a failed construction or start is not zero
        cases hcreate : platform.create
            (listenerConfig eid (c :: rest) host port timeoutSeconds maxQueued maxThreads) with
        | constructorThrows e =>
            simp only [Prod.mk.injEq, HostException.code_ne_zero, false_and, false_iff]
            rintro ⟨-, host', port', heq, -, hstarts⟩
            cases heq
            rw [hcreate] at hstarts
            cases hstarts
        | startThrows e =>
            simp only [Prod.mk.injEq, HostException.code_ne_zero, false_and, false_iff]
            rintro ⟨-, host', port', heq, -, hstarts⟩
            cases heq
            rw [hcreate] at hstarts
            cases hstarts
        | starts =>
            simp only [Prod.mk.injEq, true_and]
            constructor
            · rintro rfl
              exact ⟨by simp, host, port, rfl, rfl, hcreate⟩
            · rintro ⟨-, host', port', heq, hresult, -⟩
              cases heq
              exact hresult.symm

/-- `Start` succeeds exactly where each of its steps does. -/
theorem start_eq_true_iff {result : Option SSGXHttpServerConfig} :
    server.start platform eid = (true, result) ↔
      ∃ config, server.Starts platform eid config ∧ result = some config := by
  simp only [ServerSettings.start, ServerSettings.Starts]
  by_cases hurl : server.url = []
  · rw [if_pos (List.isEmpty_iff.2 hurl)]
    simp [hurl]
  rw [if_neg (mt List.isEmpty_iff.1 hurl)]
  by_cases heid : eid = 0
  · rw [if_pos heid]
    simp [heid]
  rw [if_neg heid]
  by_cases hcreated : server.created platform eid = false
  · rw [if_pos hcreated]
    simp only [Prod.mk.injEq, Bool.false_eq_true, false_and, false_iff]
    rintro ⟨config, ⟨-, -, hstatus, htext, host, port, huri, rfl, hstarts⟩, -⟩
    have hzero := createListener_zero_iff.2 ⟨htext, host, port, huri, rfl, hstarts⟩
    have : server.created platform eid = true := by
      simp only [ServerSettings.created, ListenerPlatform.ocallCreateListener, hzero, hstatus,
        and_self, decide_true]
    rw [hcreated] at this
    cases this
  · rw [if_neg hcreated]
    rw [Bool.not_eq_false] at hcreated
    simp only [ServerSettings.created, decide_eq_true_eq] at hcreated
    obtain ⟨hstatus, hcode⟩ := hcreated
    rcases hocall : platform.ocallCreateListener eid server.url server.timeoutSeconds
      server.maxThreads server.maxQueued with ⟨code, made⟩
    rw [hocall] at hcode
    obtain rfl : code = 0 := hcode
    obtain ⟨htext, host, port, huri, rfl, hstarts⟩ := createListener_zero_iff.1 hocall
    constructor
    · intro h
      cases h
      exact ⟨_, ⟨hurl, heid, hstatus, htext, host, port, huri, rfl, hstarts⟩, rfl⟩
    · rintro ⟨config, ⟨-, -, -, -, host', port', huri', rfl, -⟩, rfl⟩
      rw [huri] at huri'
      cases huri'
      rfl

/-! ## The numbers -/

/-- What an `int` holds is below `2^31`. -/
theorem castInt_lt (n : UInt64) : castInt n < 2 ^ 31 := by
  simp only [castInt, toInt32]
  have h := Int.bmod_lt (x := n.toNat) (m := 2 ^ 32) (by decide)
  omega

theorem castInt_self_iff {n : UInt64} : castInt n = n.toNat ↔ n.toNat < 2 ^ 31 := by
  constructor
  · intro h
    have hlt := castInt_lt n
    rw [h] at hlt
    exact_mod_cast hlt
  · intro h
    simp only [castInt, toInt32]
    exact Int.bmod_eq_of_le (by omega) (by omega)

/-- Two numbers are stored as each other exactly where they are equal and below `2^31`. -/
theorem castInt_eq_iff {n m : UInt64} :
    castInt n = m.toNat ∧ castInt m = n.toNat ↔ n = m ∧ n.toNat < 2 ^ 31 := by
  constructor
  · rintro ⟨hm, hn⟩
    have hsmall : n.toNat < 2 ^ 31 := by
      rw [← Int.ofNat_lt, ← hn]
      exact castInt_lt m
    have hself := castInt_self_iff.2 hsmall
    rw [hself] at hm
    exact ⟨UInt64.toNat_inj.1 (Int.ofNat.inj hm), hsmall⟩
  · rintro ⟨rfl, hsmall⟩
    exact ⟨castInt_self_iff.2 hsmall, castInt_self_iff.2 hsmall⟩

/-- The settings after the setters are the ones that were given last. -/
theorem settings_given (calls : List SettingCall) :
    let server := runFrom ServerSettings.call .fresh calls
    server.timeoutSeconds = lastGiven SettingCall.timeOut 60 calls ∧
      server.maxThreads = lastGiven SettingCall.threads 4 calls ∧
      server.maxQueued = lastGiven SettingCall.queued 64 calls := by
  refine ⟨?_, ?_, ?_⟩
  · apply part_eq_lastGiven ServerSettings.timeoutSeconds
    intro server call
    cases call with
    | _ => rfl
  · apply part_eq_lastGiven ServerSettings.maxThreads
    intro server call
    cases call with
    | _ => rfl
  · apply part_eq_lastGiven ServerSettings.maxQueued
    intro server call
    cases call with
    | _ => rfl

/-- The configuration has these numbers. -/
structure SSGXHttpServerConfig.Has (config : SSGXHttpServerConfig)
    (timeoutSeconds maxThreads maxQueued : UInt64) : Prop where
  timeout : config.timeoutSeconds = timeoutSeconds.toNat
  threads : config.maxThreads = maxThreads.toNat
  queued : config.maxQueuedRequests = maxQueued.toNat

/-- The numbers of a configuration that the host fills. -/
theorem has_listenerConfig_iff {url host : Str} {port : Nat}
    {timeoutSeconds maxThreads maxQueued : UInt64} :
    (listenerConfig eid url host port timeoutSeconds maxThreads maxQueued).Has
        timeoutSeconds maxThreads maxQueued ↔
      timeoutSeconds.toNat < 2 ^ 31 ∧ maxThreads = maxQueued ∧ maxThreads.toNat < 2 ^ 31 := by
  rw [← castInt_self_iff, ← castInt_eq_iff]
  have htimeouts : (listenerConfig eid url host port timeoutSeconds maxThreads
      maxQueued).timeoutSeconds = castInt timeoutSeconds := by simp only [listenerConfig]
  -- the third number of the call is the queue length of the host
  have hqueues : (listenerConfig eid url host port timeoutSeconds maxThreads
      maxQueued).maxQueuedRequests = castInt maxThreads := by simp only [listenerConfig]
  have hpools : (listenerConfig eid url host port timeoutSeconds maxThreads
      maxQueued).maxThreads = castInt maxQueued := by simp only [listenerConfig]
  rw [← htimeouts, ← hqueues, ← hpools]
  constructor
  · rintro ⟨htimeout, hthreads, hqueued⟩
    exact ⟨htimeout, hqueued, hthreads⟩
  · rintro ⟨htimeout, hqueued, hthreads⟩
    exact ⟨htimeout, hthreads, hqueued⟩

/-- **Which settings reach the listener.** `Start` fails, or the listener it has made is configured
with the timeout, the threads and the queue length that the server was given, exactly where a step
of `Start` fails, or the timeout and the threads are below `2^31` and the queue length is the number
of threads. -/
theorem start_config_iff (platform : ListenerPlatform) (eid : Nat) (calls : List SettingCall) :
    (((runFrom ServerSettings.call .fresh calls).start platform eid).1 = false ∨
      ∃ config, (runFrom ServerSettings.call .fresh calls).start platform eid =
          (true, some config) ∧
        config.Has (lastGiven SettingCall.timeOut 60 calls)
          (lastGiven SettingCall.threads 4 calls) (lastGiven SettingCall.queued 64 calls)) ↔
      (∀ config, ¬ (runFrom ServerSettings.call .fresh calls).Starts platform eid config) ∨
        (lastGiven SettingCall.timeOut 60 calls).toNat < 2 ^ 31 ∧
          lastGiven SettingCall.threads 4 calls = lastGiven SettingCall.queued 64 calls ∧
          (lastGiven SettingCall.threads 4 calls).toNat < 2 ^ 31 := by
  obtain ⟨htimeout, hthreads, hqueued⟩ := settings_given calls
  rw [← htimeout, ← hthreads, ← hqueued]
  generalize runFrom ServerSettings.call .fresh calls = server
  by_cases hstarts : ∃ config, server.Starts platform eid config
  · obtain ⟨config, hconfig⟩ := hstarts
    have hstart := start_eq_true_iff.2 ⟨config, hconfig, rfl⟩
    have hnumbers : config.Has server.timeoutSeconds server.maxThreads server.maxQueued ↔
        server.timeoutSeconds.toNat < 2 ^ 31 ∧ server.maxThreads = server.maxQueued ∧
          server.maxThreads.toNat < 2 ^ 31 := by
      obtain ⟨-, -, -, -, host, port, -, rfl, -⟩ := hconfig
      exact has_listenerConfig_iff
    rw [hstart, ← hnumbers]
    constructor
    · rintro (hfails | ⟨config', heq, hhas⟩)
      · cases hfails
      · cases heq
        exact Or.inr hhas
    · rintro (hfails | hhas)
      · exact absurd hconfig (hfails config)
      · exact Or.inr ⟨config, rfl, hhas⟩
  · have hfails : (server.start platform eid).1 = false := by
      cases hstart : server.start platform eid with
      | mk started result =>
          cases started with
          | false => rfl
          | true =>
              obtain ⟨config, hconfig, -⟩ := start_eq_true_iff.1 hstart
              exact absurd ⟨config, hconfig⟩ hstarts
    exact iff_of_true (Or.inl hfails) (Or.inl fun config hconfig => hstarts ⟨config, hconfig⟩)

/-- A host on which every listener starts. -/
def willingPlatform : ListenerPlatform where
  status := sgxSuccess
  uri _ := .ok (str "127.0.0.1", 8080)
  create _ := .starts

/-- A server with 8 threads and a queue of 32. -/
def swappedCalls : List SettingCall :=
  [.listen (str "http://127.0.0.1:8080"), .setTimeOut 60, .setMaxThreads 8, .setMaxQueued 32]

/-- Its listener has 32 threads and a queue of 8. -/
theorem start_swaps_numbers :
    ¬ (((runFrom ServerSettings.call .fresh swappedCalls).start willingPlatform 1).1 = false ∨
      ∃ config, (runFrom ServerSettings.call .fresh swappedCalls).start willingPlatform 1 =
          (true, some config) ∧ config.Has 60 8 32) := by
  rintro (hfails | ⟨config, hstart, hhas⟩)
  · exact absurd hfails (by decide)
  · have hthreads : config.maxThreads = 32 := by
      cases hstart
      decide
    rw [hhas.threads] at hthreads
    exact absurd hthreads (by decide)

end Ssgx.Http
