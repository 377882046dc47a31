import Ssgx.Support.Run
import Ssgx.Boundary.Getters
import Ssgx.Boundary.MessageReply

/-!
# Runs across the border

Any sequence of the calls in which the enclave has to do with pointers of the host, against any
host. `accesses_checked_along_iff` says in which runs every access lies in a range that was checked
for its pointer after it was received: in all of them, but for a reply that gives its text back
without a NUL.
-/

set_option autoImplicit false

namespace Ssgx.Boundary

open Ssgx.Support
open Ssgx.Attestation (sgxSuccess)

variable (outside : Nat → Nat → Bool)

/-- A call of the enclave's code, with its arguments. -/
inductive EnclaveCall where
  | mallocOutside (size : Nat)
  | callocOutside (num size : Nat)
  | freeOutside (p : HostPointer) (size : Nat)
  | memcpyToOutside (dest : HostPointer) (src : List UInt8) (count : Nat)
  | strndupOutside (text : Option (List UInt8)) (strLen : Nat)
  | memdupOutside (buf : Option (List UInt8)) (bufSize : Nat)
  | getString (refUntrustedTomlObj : Nat) (pathsStr : Str)
  | getArrayValues (ptrToml : Nat) (pathStr : Str)
  | readAll (filepath : Str)
  | createReport (created : UInt32)
  | verifyRawQuote (selfTarget : UInt32) (quoteReport : List UInt8)
  | onMessage (outcome : MessageOutcome)

namespace HostWorld

/-- The world behind a call. A pointer that is given to a call is one that the host gave before. -/
def run (w : HostWorld) : EnclaveCall → HostWorld
  | .mallocOutside size => (Boundary.mallocOutside outside size w).2
  | .callocOutside num size => (Boundary.callocOutside outside num size w).2
  | .freeOutside p size =>
      if .received p ∈ w.record then (Boundary.freeOutside outside (some p) size w).2 else w
  | .memcpyToOutside dest src count =>
      if .received dest ∈ w.record then (Boundary.memcpyToOutside outside (some dest) src count w).2
      else w
  | .strndupOutside text strLen => (Boundary.strndupOutside outside text strLen w).2
  | .memdupOutside buf bufSize => (Boundary.memdupOutside outside buf bufSize w).2
  | .getString refUntrustedTomlObj pathsStr =>
      (Boundary.getString outside refUntrustedTomlObj pathsStr w).2
  | .getArrayValues ptrToml pathStr => (Boundary.getArrayValues outside ptrToml pathStr w).2
  | .readAll filepath => (Boundary.readAll outside filepath w).2
  | .createReport created => (Boundary.createReport outside created w).2
  | .verifyRawQuote selfTarget quoteReport =>
      (Boundary.fetchSupplemental outside selfTarget quoteReport w).2
  | .onMessage outcome => (replyMessage outside outcome w).2

/-- The world before any call: the host's memory and its answers to come. -/
def initial (memory : Nat → UInt8) (answers : Nat → HostAnswer) : HostWorld :=
  ⟨memory, answers, 0, []⟩

end HostWorld

/-- A reply that gives its text back finds a NUL in it. -/
def KeepsNul (w : HostWorld) : EnclaveCall → Prop
  | .onMessage outcome => TextTerminated outside w outcome
  | _ => True

variable {outside}

theorem sound_initial (memory : Nat → UInt8) (answers : Nat → HostAnswer) :
    (HostWorld.initial memory answers).Sound outside where
  honest := fun _ _ _ hmem => (nomatch hmem)
  guarded := trivial
  known := fun _ hmem => nomatch hmem

/-- The calls other than a reply keep what the enclave keeps, whatever the host does. -/
theorem sound_run {w : HostWorld} (h : w.Sound outside) {call : EnclaveCall}
    (hnul : KeepsNul outside w call) :
    (w.run outside call).Sound outside := by
  cases call with
  | mallocOutside size => exact (careful_mallocOutside size).sound h trivial
  | callocOutside num size => exact (careful_callocOutside num size).sound h trivial
  | freeOutside p size =>
      simp only [HostWorld.run]
      split_ifs with hreceived
      · exact (careful_freeOutside p size).sound h hreceived
      · exact h
  | memcpyToOutside dest src count =>
      simp only [HostWorld.run]
      split_ifs with hreceived
      · exact (careful_memcpyToOutside dest src count).sound h hreceived
      · exact h
  | strndupOutside text strLen => exact (careful_strndupOutside text strLen).sound h trivial
  | memdupOutside buf bufSize => exact (careful_memdupOutside buf bufSize).sound h trivial
  | getString refUntrustedTomlObj pathsStr =>
      exact (careful_fetchText _ refUntrustedTomlObj pathsStr).sound h trivial
  | getArrayValues ptrToml pathStr => exact (careful_fetchText _ ptrToml pathStr).sound h trivial
  | readAll filepath => exact (careful_readAll filepath).sound h trivial
  | createReport created => exact (careful_createReport created).sound h trivial
  | verifyRawQuote selfTarget quoteReport =>
      exact (careful_fetchSupplemental selfTarget quoteReport).sound h trivial
  | onMessage outcome => exact replyMessage_sound h hnul

theorem guarded_run_iff {w : HostWorld} (h : w.Sound outside) (call : EnclaveCall) :
    (w.run outside call).Guarded ↔ KeepsNul outside w call := by
  constructor
  · intro hguarded
    cases call with
    | onMessage outcome => exact (replyMessage_guarded_iff h outcome).1 hguarded
    | _ => trivial
  · intro hnul
    exact (sound_run h hnul).guarded

/-- **When the enclave stays in the buffers it checked.** Against every host and in every sequence
of calls, all accesses lie in ranges that were checked for their pointers exactly when each reply
that gives its text back finds a NUL in it; and then, where the checks tell what is outside, none of
them reaches the enclave. -/
theorem accesses_checked_along_iff (outside : Nat → Nat → Bool) (memory : Nat → UInt8)
    (answers : Nat → HostAnswer) (calls : List EnclaveCall) :
    (Along (HostWorld.run outside) (fun w call => (w.run outside call).Guarded)
        (.initial memory answers) calls ↔
      Along (HostWorld.run outside) (KeepsNul outside) (.initial memory answers) calls) ∧
    (Along (HostWorld.run outside) (KeepsNul outside) (.initial memory answers) calls →
      ∀ enclave : Nat → Prop,
        (∀ address size, outside address size = true → ∀ i < size, ¬ enclave (address + i)) →
          Along (HostWorld.run outside) (fun w call => (w.run outside call).KeepsOff enclave)
            (.initial memory answers) calls) := by
  have hinitial : (HostWorld.initial memory answers).Sound outside := sound_initial memory answers
  constructor
  · refine along_exact_iff ?_ ?_ hinitial calls
    · exact fun _ call h => guarded_run_iff h call
    · exact fun _ _ h hnul => sound_run h hnul
  · intro hnul enclave hchecks
    exact hnul.of_invariant (fun _ _ hn h => sound_run h hn)
      (fun _ _ hn h => (sound_run h hn).keepsOff hchecks) hinitial

/-- The memory of a host that overwrites the NUL of a text at 1000, and what is behind it up to
1010. -/
def nulTaken (address : Nat) : UInt8 := if address < 1010 then 1 else 0

/-- A host that gives a buffer at 1000, then takes the NUL out of it and gives no buffer. -/
def takesNul : Nat → HostAnswer
  | 0 => ⟨sgxSuccess, 0, 1000, 0, fun _ => 0⟩
  | _ => ⟨sgxSuccess, 0, 0, 0, nulTaken⟩

/-- A reply of one character and a body, against a host that takes the NUL away: the scan for it
reads eleven bytes of the two that were checked. -/
theorem scan_leaves_buffer :
    ¬ Along (HostWorld.run fun _ _ => true) (fun w call => (w.run (fun _ _ => true) call).Guarded)
      (.initial (fun _ => 0) takesNul) [.onMessage (.response [65] [66])] := by
  rintro ⟨hguarded, -⟩
  have hterminated := (replyMessage_guarded_iff (sound_initial _ _) _).1 hguarded
  obtain ⟨i, hi, hnul⟩ := hterminated ⟨by decide, by decide, by decide, rfl⟩ (by decide)
    (fun hgives => hgives.2.1 rfl)
  obtain rfl | rfl : i = 0 ∨ i = 1 := by
    rw [List.length_singleton] at hi
    omega
  · exact absurd hnul (by decide)
  · exact absurd hnul (by decide)

end Ssgx.Boundary
