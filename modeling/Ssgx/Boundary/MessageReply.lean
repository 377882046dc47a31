import Ssgx.Boundary.OutsideBuffers

/-!
# The reply to a message

`ssgx_ecall_http_on_message` from its response on: the status and the headers are copied out as a
text, then the body. Where the buffer for the body is not to be had, the text is given back, and its
size is taken from the host's memory by `strlen`. The host may have taken the NUL away in the
meantime, and the scan then leaves the buffer that was checked (`replyMessage_guarded_iff`).
-/

set_option autoImplicit false

namespace Ssgx.Boundary

open Ssgx.Support
open Ssgx.Attestation (sgxSuccess)

variable (outside : Nat → Nat → Bool)

/-- What the call has come to when it copies its results out: an error code in front of the `try`
block, an exception in it, or a response. -/
inductive MessageOutcome where
  | refused (ret : Int)
  | thrown
  | response (statusHeadersJson body : List UInt8)

/-- The return value and the output parameters of the call. -/
structure MessageReply where
  ret : Int
  respStatusHeadersJson : Option HostPointer
  respBody : Option HostPointer
  respBodySize : Nat
deriving DecidableEq

/-- A reply without results. -/
def MessageReply.failed (ret : Int) : MessageReply := ⟨ret, none, none, 0⟩

/-- The text is given back with the size that `strlen` finds. -/
def releaseText (p : HostPointer) : HostCall PUnit := do
  let size ← strlen p
  freeOutside outside (some p) size

/-- The body is copied out behind the text. -/
def copyBody (text : HostPointer) (body : List UInt8) : HostCall MessageReply :=
  if body = [] then pure ⟨0, some text, none, 0⟩
  else do
    let buffer ← Call.attempt (mallocOutside outside body.length)
    match buffer with
    -- thrown by `MallocOutside`
    | none => do
        releaseText outside text
        pure (.failed (-9))
    | some none => do
        releaseText outside text
        pure (.failed (-8))
    | some (some outsideBuff) => do
        copyOut outsideBuff 0 body
        pure ⟨0, some text, some outsideBuff, body.length⟩

/-- `ssgx_ecall_http_on_message` behind its outcome. -/
def replyMessage : MessageOutcome → HostCall MessageReply
  | .refused ret => pure (.failed ret)
  | .thrown => pure (.failed (-9))
  | .response statusHeadersJson body => do
      let copied ← Call.attempt
        (strndupOutside outside (some statusHeadersJson) statusHeadersJson.length)
      match copied with
      -- thrown in front of the assignment to the output parameter
      | none => pure (.failed (-9))
      | some none => pure (.failed (-7))
      | some (some text) => copyBody outside text body

/-! ## When the NUL is still there -/

/-- The next answer gives a buffer of a size that lies outside. -/
def HostWorld.Gives (w : HostWorld) (size : Nat) : Prop :=
  w.answer.status = sgxSuccess ∧ w.answer.pointer ≠ 0 ∧ outside w.answer.pointer size = true

/-- The text is copied out: it has no NUL, and the host gives a buffer for it. -/
def HostWorld.CopiesText (w : HostWorld) (text : List UInt8) : Prop :=
  textLength text ((text.length + 1) % 2 ^ 64) = text.length ∧ w.Gives outside (text.length + 1)

/-- Where the text is copied out and then the host gives no buffer for the body, a NUL is in the
memory of the text behind that second answer. -/
def TextTerminated (w : HostWorld) : MessageOutcome → Prop
  | .response statusHeadersJson body =>
      w.CopiesText outside statusHeadersJson → body ≠ [] →
        ¬ w.answered.Gives outside body.length →
          ∃ i ≤ statusHeadersJson.length, w.answered.answer.memory (w.answer.pointer + i) = 0
  | _ => True

/-! ## What the host's answers lead to -/

/-- The ways in which `MallocOutside` ends. -/
theorem mallocOutside_cases {size : Nat} (hsize : size ≠ 0) (w : HostWorld) :
    (w.Gives outside size ∧ ∃ memory, mallocOutside outside size w =
        (.ok (some w.pointer), { w.answered with
          memory := memory
          record := .accessed w.pointer 0 size :: .checked w.pointer size true ::
            w.answered.record })) ∨
      (¬ w.Gives outside size ∧ ∃ w',
        (mallocOutside outside size w = (.ok none, w') ∨
          ∃ what, mallocOutside outside size w = (.error what, w')) ∧
        (w' = w.answered ∨ w' = w.answered.note (.checked w.pointer size false))) := by
  simp only [mallocOutside, allocateOutside, HostWorld.Gives]
  rw [if_neg hsize, Call.bind_apply]
  simp only [ocall]
  by_cases hnull : w.answer.status ≠ sgxSuccess ∨ w.pointer.address = 0
  · right
    rw [if_pos hnull]
    -- no buffer was given
    refine ⟨?_, w.answered, .inl rfl, .inl rfl⟩
    rintro ⟨hstatus, hpointer, -⟩
    exact hnull.elim (fun h => h hstatus) hpointer
  · rw [if_neg hnull, Call.bind_apply]
    rw [not_or, not_not] at hnull
    simp only [isOutsideEnclave]
    cases hout : outside w.pointer.address size with
    | false =>
        right
        -- the buffer that was given is not outside
        refine ⟨?_, w.answered.note (.checked w.pointer size false), .inr ⟨_, rfl⟩, .inr rfl⟩
        rintro ⟨-, -, hgives⟩
        exact Bool.noConfusion (hout.symm.trans hgives)
    | true =>
        left
        -- the buffer is cleared before it is handed on
        refine ⟨⟨hnull.1, hnull.2, hout⟩, ((w.answered.note (.checked w.pointer size true)).written
          w.pointer 0 (List.replicate size 0)).memory, ?_⟩
        rw [if_neg (by decide), Call.bind_apply]
        simp only [copyOut, Call.pure_apply, HostWorld.note, HostWorld.written,
          List.length_replicate]

/-- `StrndupOutside` of a text without NUL. -/
theorem strndupOutside_of_length {text : List UInt8}
    (h : textLength text ((text.length + 1) % 2 ^ 64) = text.length) :
    strndupOutside outside (some text) text.length =
      mallocOutside outside (text.length + 1) >>= fillText text text.length := by
  have hsize := (lt_of_textLength h).1
  have hbuffer : strndupOutside outside (some text) text.length =
      mallocOutside outside ((text.length + 1) % 2 ^ 64) >>= fillText text text.length :=
    if_neg (not_not.2 h)
  rw [hbuffer, hsize]

/-- The ways in which `StrndupOutside` of a whole text ends: it copies it out, with the buffer
checked once, or gives no pointer. -/
theorem strndupOutside_cases (text : List UInt8) (w : HostWorld) :
    (w.CopiesText outside text ∧ ∃ w',
        strndupOutside outside (some text) text.length w = (.ok (some w.pointer), w') ∧
        w'.asked = w.answered.asked ∧ w'.answers = w.answers ∧
        w'.record = .accessed w.pointer text.length 1 :: .accessed w.pointer 0 text.length ::
          .accessed w.pointer 0 (text.length + 1) ::
          .checked w.pointer (text.length + 1) true :: w.answered.record) ∨
      (¬ w.CopiesText outside text ∧
        ∀ p, (strndupOutside outside (some text) text.length w).1 ≠ .ok (some p)) := by
  by_cases hlength : textLength text ((text.length + 1) % 2 ^ 64) = text.length
  · rw [strndupOutside_of_length outside hlength, Call.bind_apply]
    rcases mallocOutside_cases outside (Nat.succ_ne_zero text.length) w with
      ⟨hgives, memory, hmalloc⟩ | ⟨hgives, w', hmalloc, -⟩
    · left
      rw [hmalloc]
      refine ⟨⟨hlength, hgives⟩, _, rfl, rfl, rfl, ?_⟩
      simp only [HostWorld.note, HostWorld.written, List.take_length, List.length_singleton]
    · right
      refine ⟨fun h => hgives h.2, ?_⟩
      intro p hp
      rcases hmalloc with hmalloc | ⟨what, hmalloc⟩
      · rw [hmalloc] at hp
        cases hp
      · rw [hmalloc] at hp
        cases hp
  · -- a text with a NUL in it is not copied
    right
    refine ⟨fun h => hlength h.1, ?_⟩
    intro p hp
    simp only [strndupOutside] at hp
    simp only [if_pos hlength] at hp
    cases hp

variable {outside}

/-- The text that was copied out is checked in its length with the NUL, and no further. -/
theorem checkedFor_copied_iff {w : HostWorld} (h : w.Sound outside) {text : List UInt8} {n : Nat} :
    CheckedFor w.pointer n (.accessed w.pointer text.length 1 ::
      .accessed w.pointer 0 text.length :: .accessed w.pointer 0 (text.length + 1) ::
      .checked w.pointer (text.length + 1) true :: w.answered.record) ↔ n = text.length + 1 := by
  -- the pointer is new, so nothing was checked for it before
  have hnew : ¬ CheckedFor w.pointer n w.record := by
    intro hchecked
    exact Nat.lt_irrefl _ (h.known _ hchecked.received)
  simp only [checkedFor_cons_iff, HostWorld.answered, hnew, reduceCtorEq, false_and, false_or,
    or_false, PointerEvent.checked.injEq, true_and, and_true, List.mem_cons, true_or]
  exact eq_comm

/-! ## The scan for the NUL -/

/-- A scan ends in front of a bound exactly when there is a NUL. -/
theorem nulIndex_lt_iff {memory : Nat → UInt8} {address limit size : Nat} (h : size ≤ limit) :
    nulIndex memory address limit < size ↔ ∃ i < size, memory (address + i) = 0 := by
  induction limit generalizing address size with
  | zero =>
      obtain rfl : size = 0 := Nat.le_zero.1 h
      exact iff_of_false (Nat.not_lt_zero _) fun ⟨i, hi, _⟩ => Nat.not_lt_zero i hi
  | succ limit ih =>
      cases size with
      | zero => exact iff_of_false (Nat.not_lt_zero _) fun ⟨i, hi, _⟩ => Nat.not_lt_zero i hi
      | succ size =>
          by_cases hnul : memory address = 0
          · refine iff_of_true ?_ ⟨0, Nat.succ_pos _, hnul⟩
            rw [nulIndex, if_pos hnul]
            exact Nat.succ_pos _
          · rw [nulIndex, if_neg hnul, Nat.succ_lt_succ_iff, ih (Nat.le_of_succ_le_succ h)]
            constructor
            · rintro ⟨i, hi, hzero⟩
              exact ⟨i + 1, Nat.succ_lt_succ hi, by rw [← hzero]; congr 1; omega⟩
            · rintro ⟨i, hi, hzero⟩
              cases i with
              | zero => exact absurd hzero hnul
              | succ i =>
                  exact ⟨i, Nat.lt_of_succ_lt_succ hi, by rw [← hzero]; congr 1; omega⟩

/-- Giving a buffer back is no access. -/
theorem freeOutside_guarded_iff (p : HostPointer) (size : Nat) (w : HostWorld) :
    (freeOutside outside (some p) size w).2.Guarded ↔ w.Guarded := by
  simp only [freeOutside, isOutsideEnclave, Call.bind_apply]
  cases outside p.address size with
  | false => exact ⟨fun h => h.2, fun h => ⟨trivial, h⟩⟩
  | true => exact ⟨fun h => h.2.2, fun h => ⟨trivial, trivial, h⟩⟩

/-- The text is given back within its range where its NUL is still there. -/
theorem releaseText_sound {w : HostWorld} {p : HostPointer} {size : Nat} (h : w.Sound outside)
    (hallows : w.Allows p size) (hsize : size ≤ 2 ^ 64)
    (hnul : ∃ i < size, w.memory (p.address + i) = 0) :
    (releaseText outside p w).2.Sound outside := by
  have hindex := (nulIndex_lt_iff hsize).2 hnul
  have hscan : (strlen p w).2.Sound outside ∧ (strlen p w).2.Allows p size := by
    refine sound_access h hallows ?_ rfl (Nat.le_refl _)
    omega
  exact (careful_freeOutside p _).sound hscan.1 hscan.2.received

/-- Where the text is given back within its range, which is all that was checked, its NUL is still
there. -/
theorem nul_of_releaseText_guarded {w : HostWorld} {p : HostPointer} {size : Nat}
    (honly : ∀ n, CheckedFor p n w.record → n ≤ size) (hsize : size < 2 ^ 64)
    (hguarded : (releaseText outside p w).2.Guarded) :
    ∃ i < size, w.memory (p.address + i) = 0 := by
  have hscan : (strlen p w).2.Guarded := (freeOutside_guarded_iff p _ _).1 hguarded
  obtain ⟨hempty | ⟨n, hcount, hchecked⟩, -⟩ := hscan
  · omega
  · have hn := honly n hchecked
    exact (nulIndex_lt_iff hsize.le).1 (by omega)

/-! ## When the reply is guarded -/

variable (outside)

/-- What copying the body out leads to: a buffer for it, or the release of the text in the memory of
the host's answer. -/
theorem copyBody_cases {w : HostWorld} (h : w.Sound outside) {p : HostPointer} {size : Nat}
    (hchecked : ∀ n, CheckedFor p n w.record ↔ n = size) (body : List UInt8) :
    ((copyBody outside p body w).2.Sound outside ∧ (body ≠ [] → w.Gives outside body.length)) ∨
      (body ≠ [] ∧ ¬ w.Gives outside body.length ∧ ∃ w',
        (copyBody outside p body w).2 = (releaseText outside p w').2 ∧ w'.Sound outside ∧
          (∀ n, CheckedFor p n w'.record ↔ n = size) ∧ w'.memory = w.answer.memory) := by
  simp only [copyBody]
  by_cases hbody : body = []
  · rw [if_pos hbody]
    exact .inl ⟨h, fun hsome => absurd hbody hsome⟩
  · rw [if_neg hbody, Call.bind_apply, Call.attempt_apply]
    have hcareful : Careful outside _ (mallocOutside outside body.length) _ :=
      careful_mallocOutside body.length
    have hmallocs := hcareful w ⟨h, trivial⟩
    rcases mallocOutside_cases outside (mt List.length_eq_zero_iff.1 hbody) w with
      ⟨hgives, memory, hmalloc⟩ | ⟨hgives, w', hmalloc, hw'⟩
    · left
      rw [hmalloc] at hmallocs ⊢
      refine ⟨?_, fun _ => hgives⟩
      exact (careful_copyOut (Nat.zero_add body.length).le).sound hmallocs.1
        (hmallocs.2 w.pointer rfl)
    · right
      -- a failed allocation checks nothing for the text
      have hkept : w'.memory = w.answer.memory ∧ ∀ n, CheckedFor p n w'.record ↔ n = size := by
        rcases hw' with rfl | rfl
        · refine ⟨rfl, fun n => ?_⟩
          simp only [HostWorld.answered, checkedFor_cons_iff, reduceCtorEq, false_and, false_or,
            hchecked]
        · refine ⟨rfl, fun n => ?_⟩
          simp only [HostWorld.note, HostWorld.answered, checkedFor_cons_iff, reduceCtorEq,
            PointerEvent.checked.injEq, Bool.false_eq_true, and_false, false_and, false_or,
            hchecked]
      rcases hmalloc with hmalloc | ⟨what, hmalloc⟩
      · rw [hmalloc] at hmallocs ⊢
        refine ⟨hbody, hgives, w', ?_, hmallocs.1, hkept.2, hkept.1⟩
        exact congrArg Prod.snd (Call.bind_pure_apply (releaseText outside p) _ w')
      · rw [hmalloc] at hmallocs ⊢
        refine ⟨hbody, hgives, w', ?_, hmallocs, hkept.2, hkept.1⟩
        exact congrArg Prod.snd (Call.bind_pure_apply (releaseText outside p) _ w')

/-- A reply keeps what the enclave keeps and meets the condition, or it comes down to the release of
the text, which is checked in its length with the NUL alone. -/
theorem replyMessage_cases {w : HostWorld} (h : w.Sound outside) (outcome : MessageOutcome) :
    ((replyMessage outside outcome w).2.Sound outside ∧ TextTerminated outside w outcome) ∨
      ∃ w' p size, (replyMessage outside outcome w).2 = (releaseText outside p w').2 ∧
        w'.Sound outside ∧
        (∀ n, CheckedFor p n w'.record ↔ n = size) ∧ size < 2 ^ 64 ∧
          (TextTerminated outside w outcome ↔ ∃ i < size, w'.memory (p.address + i) = 0) := by
  cases outcome with
  | refused ret => exact .inl ⟨h, trivial⟩
  | thrown => exact .inl ⟨h, trivial⟩
  | response text body =>
      have hfirst : (strndupOutside outside (some text) text.length w).2.Sound outside :=
        (careful_strndupOutside (some text) text.length).sound h trivial
      simp only [replyMessage]
      rw [Call.bind_apply, Call.attempt_apply]
      rcases strndupOutside_cases outside text w with
        ⟨hcopies, w₁, hstrndup, hasked, hanswers, hrecord⟩ | ⟨hcopies, hnone⟩
      · rw [hstrndup] at hfirst ⊢
        have hanswer : w₁.answer = w.answered.answer := by
          simp only [HostWorld.answer]
          rw [hasked, hanswers]
          rfl
        have hgives_iff : w₁.Gives outside body.length ↔ w.answered.Gives outside body.length := by
          simp only [HostWorld.Gives]
          rw [hanswer]
        -- the text is checked once, with its NUL, when it is copied
        have hchecked : ∀ n, CheckedFor w.pointer n w₁.record ↔ n = text.length + 1 := by
          intro n
          rw [hrecord]
          exact checkedFor_copied_iff h
        rcases copyBody_cases outside hfirst hchecked body with
          ⟨hsound, hgives⟩ | ⟨hbody, hgives, w₂, hreleased, hsound, hchecked₂, hmemory⟩
        · left
          exact ⟨hsound, fun _ hsome hfails => absurd (hgives_iff.1 (hgives hsome)) hfails⟩
        · right
          have hsize : text.length + 1 < 2 ^ 64 := by
            have hlength := (lt_of_textLength hcopies.1).1
            omega
          refine ⟨w₂, w.pointer, text.length + 1, hreleased, hsound, hchecked₂, hsize, ?_⟩
          rw [hmemory, hanswer]
          constructor
          · intro hterminated
            obtain ⟨i, hi, hnul⟩ := hterminated hcopies hbody (mt hgives_iff.2 hgives)
            exact ⟨i, Nat.lt_succ_of_le hi, hnul⟩
          · rintro ⟨i, hi, hnul⟩ _ _ _
            exact ⟨i, Nat.le_of_lt_succ hi, hnul⟩
      · -- without a copy of the text there is nothing to release
        left
        rcases hstrndup : strndupOutside outside (some text) text.length w with ⟨result, w₁⟩
        rw [hstrndup] at hfirst
        refine ⟨?_, fun hcopied => absurd hcopied hcopies⟩
        cases result with
        | error what => exact hfirst
        | ok copied =>
            cases copied with
            | none => exact hfirst
            | some p => exact absurd (by rw [hstrndup]) (hnone p)

variable {outside}

/-- **When a reply stays in its buffers.** Exactly when the NUL of the text is still there where the
text is given back. -/
theorem replyMessage_guarded_iff {w : HostWorld} (h : w.Sound outside) (outcome : MessageOutcome) :
    (replyMessage outside outcome w).2.Guarded ↔ TextTerminated outside w outcome := by
  rcases replyMessage_cases outside h outcome with
    ⟨hsound, hterminated⟩ | ⟨w', p, size, hreleased, hsound, hchecked, hsize, hiff⟩
  · exact iff_of_true hsound.guarded hterminated
  · rw [hreleased, hiff]
    constructor
    · intro hguarded
      exact nul_of_releaseText_guarded (fun n hn => ((hchecked n).1 hn).le) hsize hguarded
    · intro hnul
      have hallows : w'.Allows p size := ⟨size, Nat.le_refl _, (hchecked size).2 rfl⟩
      exact (releaseText_sound hsound hallows hsize.le hnul).guarded

/-- A reply that stays in its buffers keeps what the enclave keeps. -/
theorem replyMessage_sound {w : HostWorld} (h : w.Sound outside) {outcome : MessageOutcome}
    (hterminated : TextTerminated outside w outcome) :
    (replyMessage outside outcome w).2.Sound outside := by
  rcases replyMessage_cases outside h outcome with
    ⟨hsound, -⟩ | ⟨w', p, size, hreleased, hsound, hchecked, hsize, hiff⟩
  · exact hsound
  · rw [hreleased]
    have hallows : w'.Allows p size := ⟨size, Nat.le_refl _, (hchecked size).2 rfl⟩
    exact releaseText_sound hsound hallows hsize.le (hiff.1 hterminated)

end Ssgx.Boundary
