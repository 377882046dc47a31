import Ssgx.Boundary.MessageReply

/-!
# What a reply leaves behind

The reply to a message has pointers to the text and the body, or an error code and no buffer that is
left over. Both are the host's to spoil: a text without its NUL may not be given back, since its
size is that of `strlen`, and the memory behind an ocall is what the host makes of it. `KeepsText`
says what is asked of the host's second answer, and `replyMessage_delivers_iff` that it is just
this.
-/

set_option autoImplicit false

namespace Ssgx.Boundary

open Ssgx.Support
open Ssgx.Attestation (sgxSuccess)

/-! ## Bytes in the host's memory -/

namespace HostWorld

theorem memory_written_of_lt (w : HostWorld) (p : HostPointer) (offset : Nat) {bytes : List UInt8}
    {i : Nat} (h : i < bytes.length) :
    (w.written p offset bytes).memory (p.address + offset + i) = bytes[i] := by
  have hrange : p.address + offset ≤ p.address + offset + i := Nat.le_add_right _ _
  have hindex : p.address + offset + i - (p.address + offset) = i := Nat.add_sub_cancel_left _ _
  simp only [written, if_pos hrange, hindex, List.getElem?_eq_getElem h, Option.getD_some]

theorem memory_written_of_not {w : HostWorld} {p : HostPointer} {offset a : Nat}
    {bytes : List UInt8}
    (h : a < p.address + offset ∨ p.address + offset + bytes.length ≤ a) :
    (w.written p offset bytes).memory a = w.memory a := by
  simp only [written]
  by_cases hrange : p.address + offset ≤ a
  · have hbehind : bytes.length ≤ a - (p.address + offset) := by omega
    rw [if_pos hrange, List.getElem?_eq_none hbehind, Option.getD_none]
  · rw [if_neg hrange]

theorem bytesAt_length (w : HostWorld) (p : HostPointer) (offset count : Nat) :
    (w.bytesAt p offset count).length = count := by
  simp [bytesAt]

/-- Bytes that were written are read back. -/
theorem bytesAt_written (w : HostWorld) (p : HostPointer) (bytes : List UInt8) :
    (w.written p 0 bytes).bytesAt p 0 bytes.length = bytes := by
  apply List.ext_getElem (bytesAt_length _ _ _ _)
  intro i _ hi
  simp only [bytesAt, List.getElem_map, List.getElem_range]
  exact memory_written_of_lt w p 0 hi

/-- A text is read back with the byte behind it. -/
theorem bytesAt_terminated (w : HostWorld) (p : HostPointer) (text : List UInt8) :
    ((w.written p 0 text).written p text.length [0]).bytesAt p 0 (text.length + 1) =
      text ++ [0] := by
  apply List.ext_getElem (by simp [bytesAt_length])
  intro i hi _
  rw [bytesAt_length] at hi
  simp only [bytesAt, List.getElem_map, List.getElem_range]
  rcases Nat.lt_or_ge i text.length with hlt | hge
  · rw [List.getElem_append_left hlt]
    refine (memory_written_of_not (Or.inl ?_)).trans (memory_written_of_lt w p 0 hlt)
    omega
  · obtain rfl : i = text.length := by omega
    have hnul : 0 < [(0 : UInt8)].length := Nat.one_pos
    have hlast := memory_written_of_lt (w.written p 0 text) p text.length hnul
    rw [List.getElem_append_right (Nat.le_refl _)]
    simpa using hlast

theorem memory_written_congr {w w' : HostWorld} (h : w.memory = w'.memory) (p : HostPointer)
    (offset : Nat) (bytes : List UInt8) :
    (w.written p offset bytes).memory = (w'.written p offset bytes).memory := by
  simp only [written, h]

/-- Bytes of the same length at the same place cover what was written before. -/
theorem written_written {w : HostWorld} {p : HostPointer} {offset : Nat}
    {first second : List UInt8} (h : first.length = second.length) :
    ((w.written p offset first).written p offset second).memory =
      (w.written p offset second).memory := by
  funext a
  rcases Nat.lt_or_ge a (p.address + offset) with hlt | hge
  · rw [memory_written_of_not (Or.inl hlt), memory_written_of_not (Or.inl hlt),
      memory_written_of_not (Or.inl hlt)]
  · obtain ⟨i, rfl⟩ := Nat.exists_eq_add_of_le hge
    rcases Nat.lt_or_ge i second.length with hi | hi
    · rw [memory_written_of_lt _ _ _ hi, memory_written_of_lt _ _ _ hi]
    · rw [memory_written_of_not (Or.inr (by omega)), memory_written_of_not (Or.inr (by omega)),
        memory_written_of_not (Or.inr (by omega))]

end HostWorld

/-! ## What is asked of a reply -/

variable (outside : Nat → Nat → Bool)

/-- Every buffer outside that was received on the way from one world to another was given back. -/
def FreesAll (w w' : HostWorld) : Prop :=
  ∃ later, w'.record = later ++ w.record ∧
    ∀ p size, .checked p size true ∈ later → .freed p ∈ later

/-- The output parameters have the text, with a NUL, and the body. -/
structure HandsOver (reply : MessageReply) (w : HostWorld) (text body : List UInt8) : Prop where
  text : ∃ p, reply.respStatusHeadersJson = some p ∧
    w.bytesAt p 0 (text.length + 1) = text ++ [0]
  noBody : body = [] → reply.respBody = none ∧ reply.respBodySize = 0
  body : body ≠ [] → ∃ p, reply.respBody = some p ∧ reply.respBodySize = body.length ∧
    w.bytesAt p 0 body.length = body

/-- **The intended reply** to a response: an error without results and without a buffer left over,
or the text and the body. -/
structure Delivers (w : HostWorld) (reply : MessageReply) (w' : HostWorld)
    (text body : List UInt8) : Prop where
  failed : reply.ret ≠ 0 → reply = .failed reply.ret ∧ FreesAll w w'
  done : reply.ret = 0 → HandsOver reply w' text body

/-- What is asked of the host's answers for a text and a body. Where it gives no buffer for the
body, the text with the size that `strlen` finds lies outside; where it gives one, the text is still
there behind that answer, and the body is not written over it. -/
structure KeepsText (w : HostWorld) (text body : List UInt8) : Prop where
  released : w.CopiesText outside text → body ≠ [] → ¬ w.answered.Gives outside body.length →
    outside w.answer.pointer
      (nulIndex w.answered.answer.memory w.answer.pointer (2 ^ 64)) = true
  stays : w.CopiesText outside text → body ≠ [] → w.answered.Gives outside body.length →
    (w.answered.answered.written w.answered.pointer 0 body).bytesAt w.pointer 0 (text.length + 1) =
      text ++ [0]

/-! ## The text -/

variable {outside}

/-- The bytes at a pointer depend on the memory alone. -/
theorem bytesAt_congr {w w' : HostWorld} (h : w.memory = w'.memory) (p : HostPointer)
    (offset count : Nat) : w.bytesAt p offset count = w'.bytesAt p offset count := by
  simp only [HostWorld.bytesAt, h]

/-- A text that `StrndupOutside` hands on is in the memory, with its NUL. -/
theorem strndupOutside_bytes {w w' : HostWorld} {text : List UInt8} {p : HostPointer}
    (h : strndupOutside outside (some text) text.length w = (.ok (some p), w')) :
    w'.bytesAt p 0 (text.length + 1) = text ++ [0] := by
  simp only [strndupOutside] at h
  by_cases hlength : textLength text ((text.length + 1) % 2 ^ 64) ≠ text.length
  · rw [if_pos hlength] at h
    cases h
  rw [if_neg hlength, Call.bind_ok_iff] at h
  obtain ⟨given, w₁, -, hfill⟩ := h
  cases given with
  | none => cases hfill
  | some q =>
      -- the text and its NUL are written last
      simp only [fillText, List.take_length] at hfill
      cases hfill
      exact (bytesAt_congr rfl p 0 _).trans (w₁.bytesAt_terminated p text)

/-! ## The record -/

variable (outside) in
/-- The record behind the release of a text. -/
theorem releaseText_record (p : HostPointer) (w : HostWorld) :
    ∃ front, (releaseText outside p w).2.record = front ++ w.record ∧
      (.freed p ∈ front ↔
        outside p.address (nulIndex w.memory p.address (2 ^ 64)) = true) ∧
      ∀ p' size, .checked p' size true ∈ front → p' = p := by
  simp only [releaseText, strlen, strnlen, Call.bind_apply, freeOutside, isOutsideEnclave]
  cases hout : outside p.address (nulIndex w.memory p.address (2 ^ 64)) with
  | false =>
      refine ⟨[.checked p (nulIndex w.memory p.address (2 ^ 64)) false,
        .accessed p 0 (min (nulIndex w.memory p.address (2 ^ 64) + 1) (2 ^ 64))], ?_, ?_, ?_⟩
      · rfl
      · simp
      · simp
  | true =>
      refine ⟨[.freed p, .checked p (nulIndex w.memory p.address (2 ^ 64)) true,
        .accessed p 0 (min (nulIndex w.memory p.address (2 ^ 64) + 1) (2 ^ 64))], ?_, ?_, ?_⟩
      · rfl
      · simp
      · simp

/-- The buffer of a failed allocation is not outside. -/
theorem failed_record {w w' : HostWorld} {size : Nat}
    (h : w' = w.answered ∨ w' = w.answered.note (.checked w.pointer size false)) :
    ∃ front, w'.record = front ++ w.record ∧
      (∀ p n, .checked p n true ∉ front) ∧ ∀ p, .freed p ∉ front := by
  rcases h with rfl | rfl
  · exact ⟨[.received w.pointer], rfl, by simp, by simp⟩
  · exact ⟨[.checked w.pointer size false, .received w.pointer], rfl, by simp, by simp⟩

/-! ## The ends of a reply -/

/-- **When a buffer is handed out**, and what is then in the memory. -/
theorem allocateOutside_ok_some_iff {what : Str} {size : Nat} {w w' : HostWorld} {p : HostPointer} :
    allocateOutside outside what size w = (.ok (some p), w') ↔
      w.Gives outside size ∧ p = w.pointer ∧
        w' = ((w.answered.note (.checked w.pointer size true)).written w.pointer 0
          (List.replicate size 0)).note (.accessed w.pointer 0 size) := by
  simp only [allocateOutside]
  rw [ocall_bind]
  by_cases hnull : w.answer.status ≠ sgxSuccess ∨ w.pointer.address = 0
  · rw [if_pos hnull]
    refine iff_of_false (fun h => by cases h) ?_
    rintro ⟨⟨hstatus, hpointer, -⟩, -⟩
    exact hnull.elim (fun h => h hstatus) hpointer
  · obtain ⟨hstatus, hpointer⟩ := not_or.1 hnull
    rw [if_neg hnull, isOutsideEnclave_bind]
    cases hok : outside w.pointer.address size with
    | false =>
        rw [if_pos rfl]
        refine iff_of_false (fun h => by cases h) ?_
        rintro ⟨⟨-, -, houtside⟩, -⟩
        rw [HostWorld.pointer_address, houtside] at hok
        cases hok
    | true =>
        rw [if_neg (by decide), and_iff_right ⟨not_not.1 hstatus, hpointer, hok⟩]
        have hend : ((do
            copyOut w.pointer 0 (List.replicate size 0)
            pure (some w.pointer) : HostCall (Option HostPointer))
              (w.answered.note (.checked w.pointer size true))) =
            (.ok (some w.pointer), ((w.answered.note (.checked w.pointer size true)).written
              w.pointer 0 (List.replicate size 0)).note (.accessed w.pointer 0 size)) := by
          rw [Call.bind_apply, copyOut, List.length_replicate]
          rfl
        rw [hend, Prod.mk.injEq, Except.ok.injEq, Option.some.injEq]
        exact and_congr eq_comm eq_comm

/-- A buffer that `MallocOutside` hands on is cleared. -/
theorem mallocOutside_memory {w w' : HostWorld} {size : Nat} {p : HostPointer}
    (h : mallocOutside outside size w = (.ok (some p), w')) :
    p = w.pointer ∧
      w'.memory = (w.answered.written w.pointer 0 (List.replicate size 0)).memory := by
  simp only [mallocOutside] at h
  by_cases hsize : size = 0
  · rw [if_pos hsize] at h
    cases h
  · rw [if_neg hsize] at h
    obtain ⟨-, rfl, rfl⟩ := allocateOutside_ok_some_iff.1 h
    exact ⟨rfl, rfl⟩

/-- A text that is not copied out leaves no buffer behind. -/
theorem strndupOutside_fails {w : HostWorld} {text : List UInt8} (h : ¬ w.CopiesText outside text) :
    ∃ result w', strndupOutside outside (some text) text.length w = (result, w') ∧
      (∀ p, result ≠ .ok (some p)) ∧ FreesAll w w' := by
  by_cases hlength : textLength text ((text.length + 1) % 2 ^ 64) = text.length
  · rw [strndupOutside_of_length outside hlength, Call.bind_apply]
    rcases mallocOutside_cases outside (Nat.succ_ne_zero text.length) w with
      ⟨hgives, -⟩ | ⟨-, w', hmalloc, hw'⟩
    · exact absurd ⟨hlength, hgives⟩ h
    · obtain ⟨front, hrecord, hchecked, -⟩ := failed_record hw'
      have hfrees : FreesAll w w' :=
        ⟨front, hrecord, fun p size hmem => absurd hmem (hchecked p size)⟩
      rcases hmalloc with hmalloc | ⟨what, hmalloc⟩
      · rw [hmalloc]
        exact ⟨.ok none, w', rfl, by simp, hfrees⟩
      · rw [hmalloc]
        exact ⟨.error what, w', rfl, by simp, hfrees⟩
  · -- a text with a NUL in it is not copied
    refine ⟨.ok none, w, ?_, by simp, [], rfl, by simp⟩
    simp only [strndupOutside, if_pos hlength]
    rfl

/-- A reply without a copy of the text. -/
theorem replyMessage_refuses {w : HostWorld} {text : List UInt8} (h : ¬ w.CopiesText outside text)
    (body : List UInt8) :
    ∃ ret w', (ret = -7 ∨ ret = -9) ∧
      replyMessage outside (.response text body) w = (.ok (.failed ret), w') ∧
      FreesAll w w' := by
  obtain ⟨result, w', hstrndup, hnone, hfrees⟩ := strndupOutside_fails h
  simp only [replyMessage]
  rw [Call.bind_apply, Call.attempt_apply, hstrndup]
  cases result with
  | error what => exact ⟨-9, w', Or.inr rfl, rfl, hfrees⟩
  | ok copied =>
      cases copied with
      | none => exact ⟨-7, w', Or.inl rfl, rfl, hfrees⟩
      | some p => exact absurd rfl (hnone p)

variable (outside) in
/-- The body is copied out, or the text released. -/
theorem copyBody_ends (p : HostPointer) {body : List UInt8} (hbody : body ≠ []) (w : HostWorld) :
    (w.Gives outside body.length ∧ ∃ w',
        copyBody outside p body w = (.ok ⟨0, some p, some w.pointer, body.length⟩, w') ∧
        w'.memory = (w.answered.written w.pointer 0 body).memory) ∨
      (¬ w.Gives outside body.length ∧ ∃ ret w',
        (ret = -8 ∨ ret = -9) ∧
        copyBody outside p body w = (.ok (.failed ret), (releaseText outside p w').2) ∧
        (w' = w.answered ∨ w' = w.answered.note (.checked w.pointer body.length false))) := by
  simp only [copyBody, if_neg hbody]
  rw [Call.bind_apply, Call.attempt_apply]
  have hrelease : ∀ (ret : Int) (w' : HostWorld),
      ((do releaseText outside p; pure (.failed ret)) : HostCall MessageReply) w' =
        (.ok (.failed ret), (releaseText outside p w').2) := by
    intro ret w'
    rw [Call.bind_pure_apply]
    have hok : (releaseText outside p w').1 = .ok ⟨⟩ := freeOutside_fst p _ _
    rw [hok]
    rfl
  rcases mallocOutside_cases outside (mt List.length_eq_zero_iff.1 hbody) w with
    ⟨hgives, memory, hmalloc⟩ | ⟨hgives, w', hmalloc, hw'⟩
  · left
    obtain ⟨-, hmemory⟩ := mallocOutside_memory hmalloc
    rw [hmalloc]
    refine ⟨hgives, _, rfl, (HostWorld.memory_written_congr hmemory _ _ _).trans ?_⟩
    exact HostWorld.written_written List.length_replicate
  · right
    rcases hmalloc with hmalloc | ⟨what, hmalloc⟩
    · rw [hmalloc]
      exact ⟨hgives, -8, w', Or.inl rfl, hrelease _ _, hw'⟩
    · rw [hmalloc]
      exact ⟨hgives, -9, w', Or.inr rfl, hrelease _ _, hw'⟩

/-- The reply to a text that is copied out is that of its body. -/
theorem replyMessage_copies {w : HostWorld} {text : List UInt8} (h : w.CopiesText outside text)
    (body : List UInt8) :
    ∃ w', replyMessage outside (.response text body) w = copyBody outside w.pointer body w' ∧
      w'.asked = w.answered.asked ∧ w'.answers = w.answers ∧
      w'.bytesAt w.pointer 0 (text.length + 1) = text ++ [0] ∧
      ∃ front, w'.record = front ++ w.record ∧ .checked w.pointer (text.length + 1) true ∈ front ∧
        (∀ p size, .checked p size true ∈ front → p = w.pointer) ∧ ∀ p, .freed p ∉ front := by
  rcases strndupOutside_cases outside text w with
    ⟨-, w', hstrndup, hasked, hanswers, hrecord⟩ | ⟨hnot, -⟩
  · refine ⟨w', ?_, hasked, hanswers, strndupOutside_bytes hstrndup, ?_⟩
    · simp only [replyMessage]
      rw [Call.bind_apply, Call.attempt_apply, hstrndup]
    · refine ⟨[.accessed w.pointer text.length 1, .accessed w.pointer 0 text.length,
        .accessed w.pointer 0 (text.length + 1), .checked w.pointer (text.length + 1) true,
        .received w.pointer], hrecord, by simp, by simp, by simp⟩
  · exact absurd h hnot

theorem failed_delivers_iff {w w' : HostWorld} {ret : Int} (h : ret ≠ 0) (text body : List UInt8) :
    Delivers w (.failed ret) w' text body ↔ FreesAll w w' := by
  constructor
  · intro hdelivers
    exact (hdelivers.failed h).2
  · intro hfrees
    exact ⟨fun _ => ⟨rfl, hfrees⟩, fun hzero => absurd hzero h⟩

/-- A reply with both pointers delivers exactly where the text is there beside the body. -/
theorem copied_delivers_iff {w w' : HostWorld} {text body : List UInt8} {p q : HostPointer}
    (hbody : body ≠ []) (hcopied : w'.bytesAt q 0 body.length = body) :
    Delivers w ⟨0, some p, some q, body.length⟩ w' text body ↔
      w'.bytesAt p 0 (text.length + 1) = text ++ [0] := by
  constructor
  · intro hdelivers
    obtain ⟨p', hp, htext⟩ := (hdelivers.done rfl).text
    cases hp
    exact htext
  · intro htext
    exact ⟨fun h => absurd rfl h, fun _ => ⟨⟨p, rfl, htext⟩, fun h => absurd h hbody,
      fun _ => ⟨q, rfl, rfl, hcopied⟩⟩⟩

/-- Where the host gives a buffer for the body, the text has to stay. -/
theorem keepsText_of_gives {w : HostWorld} {text body : List UInt8}
    (hcopies : w.CopiesText outside text) (hbody : body ≠ [])
    (hgives : w.answered.Gives outside body.length) :
    KeepsText outside w text body ↔
      (w.answered.answered.written w.answered.pointer 0 body).bytesAt w.pointer 0
        (text.length + 1) = text ++ [0] := by
  constructor
  · intro hkeeps
    exact hkeeps.stays hcopies hbody hgives
  · intro hstays
    exact ⟨fun _ _ h => absurd hgives h, fun _ _ _ => hstays⟩

/-- Where it gives none, the text has to be released. -/
theorem keepsText_of_not_gives {w : HostWorld} {text body : List UInt8}
    (hcopies : w.CopiesText outside text) (hbody : body ≠ [])
    (hgives : ¬ w.answered.Gives outside body.length) :
    KeepsText outside w text body ↔
      outside w.answer.pointer
        (nulIndex w.answered.answer.memory w.answer.pointer (2 ^ 64)) = true := by
  constructor
  · intro hkeeps
    exact hkeeps.released hcopies hbody hgives
  · intro hreleased
    exact ⟨fun _ _ _ => hreleased, fun _ _ h => absurd h hgives⟩

/-- A reply whose text is released gives every buffer back exactly where the text is freed. -/
theorem freesAll_released_iff {w w₁ w₂ : HostWorld} {p : HostPointer} {size : Nat}
    {front middle : List PointerEvent} (hfront : w₁.record = front ++ w.record)
    (hmem : .checked p size true ∈ front)
    (honly : ∀ p' n, .checked p' n true ∈ front → p' = p) (hfreed : ∀ p', .freed p' ∉ front)
    (hmiddle : w₂.record = middle ++ w₁.record) (hchecked : ∀ p' n, .checked p' n true ∉ middle)
    (hnone : ∀ p', .freed p' ∉ middle) :
    FreesAll w (releaseText outside p w₂).2 ↔
      outside p.address (nulIndex w₂.memory p.address (2 ^ 64)) = true := by
  obtain ⟨last, hlast, hfrees, hsame⟩ := releaseText_record outside p w₂
  have hrecord : (releaseText outside p w₂).2.record = (last ++ (middle ++ front)) ++ w.record := by
    rw [hlast, hmiddle, hfront]
    simp only [List.append_assoc]
  rw [← hfrees]
  constructor
  · rintro ⟨later, hlater, hall⟩
    obtain rfl := List.append_cancel_right (hlater.symm.trans hrecord)
    have hmemAll := hall p size (List.mem_append_right _ (List.mem_append_right _ hmem))
    rcases List.mem_append.1 hmemAll with hl | hmf
    · exact hl
    · exact absurd (List.mem_append.1 hmf) (not_or.2 ⟨hnone p, hfreed p⟩)
  · intro hl
    refine ⟨_, hrecord, fun p' n hmem' => ?_⟩
    have hp : p' = p := by
      rcases List.mem_append.1 hmem' with hin | hmf
      · exact hsame p' n hin
      · rcases List.mem_append.1 hmf with hin | hin
        · exact absurd hin (hchecked p' n)
        · exact honly p' n hin
    rw [hp]
    exact List.mem_append_left _ hl

variable (outside) in
/-- **When a reply delivers a response.** Exactly when the host's second answer keeps the text. -/
theorem replyMessage_delivers_iff (w : HostWorld) (text body : List UInt8) :
    ∃ reply w', replyMessage outside (.response text body) w = (.ok reply, w') ∧
      (Delivers w reply w' text body ↔ KeepsText outside w text body) := by
  by_cases hcopies : w.CopiesText outside text
  · obtain ⟨w₁, hreply, hasked, hanswers, hbytes, front, hfront, hmem, honly, hfreed⟩ :=
      replyMessage_copies hcopies body
    rw [hreply]
    have hanswer : w₁.answer = w.answered.answer := by
      simp only [HostWorld.answer, hasked, hanswers]
      rfl
    have hgives : w₁.Gives outside body.length ↔ w.answered.Gives outside body.length := by
      simp only [HostWorld.Gives, hanswer]
    have hpointer : w₁.pointer = w.answered.pointer := by
      simp only [HostWorld.pointer, hanswer, hasked]
    by_cases hbody : body = []
    · -- the text is the last that is written
      refine ⟨⟨0, some w.pointer, none, 0⟩, w₁, ?_, iff_of_true ?_ ?_⟩
      · rw [copyBody, if_pos hbody]
        rfl
      · exact ⟨fun h => absurd rfl h, fun _ => ⟨⟨w.pointer, rfl, hbytes⟩, fun _ => ⟨rfl, rfl⟩,
          fun h => absurd hbody h⟩⟩
      · exact ⟨fun _ h => absurd hbody h, fun _ h => absurd hbody h⟩
    rcases copyBody_ends outside w.pointer hbody w₁ with
      ⟨hgiven, w₂, hcopy, hmemory⟩ | ⟨hrefused, ret, w₂, hcode, hcopy, hw₂⟩
    · have hmemory' : w₂.memory =
          (w.answered.answered.written w.answered.pointer 0 body).memory := by
        rw [hmemory, hpointer]
        exact HostWorld.memory_written_congr (congrArg HostAnswer.memory hanswer) _ _ _
      have hcopied : w₂.bytesAt w₁.pointer 0 body.length = body :=
        (bytesAt_congr hmemory _ _ _).trans (HostWorld.bytesAt_written _ _ _)
      refine ⟨_, w₂, hcopy, ?_⟩
      rw [copied_delivers_iff hbody hcopied, keepsText_of_gives hcopies hbody (hgives.1 hgiven),
        bytesAt_congr hmemory']
    · refine ⟨_, _, hcopy, ?_⟩
      obtain ⟨middle, hmiddle, hchecked, hnone⟩ := failed_record hw₂
      have hmemory : w₂.memory = w.answered.answer.memory := by
        rcases hw₂ with rfl | rfl
        · exact congrArg HostAnswer.memory hanswer
        · exact congrArg HostAnswer.memory hanswer
      have hret : ret ≠ 0 := by rcases hcode with rfl | rfl <;> decide
      rw [failed_delivers_iff hret,
        freesAll_released_iff hfront hmem honly hfreed hmiddle hchecked hnone, hmemory,
        keepsText_of_not_gives hcopies hbody fun h => hrefused (hgives.2 h)]
      rfl
  · obtain ⟨ret, w', hcode, hreply, hfrees⟩ := replyMessage_refuses hcopies body
    have hret : ret ≠ 0 := by rcases hcode with rfl | rfl <;> decide
    refine ⟨_, w', hreply, ?_⟩
    rw [failed_delivers_iff hret]
    exact iff_of_true hfrees ⟨fun h => absurd h hcopies, fun h => absurd h hcopies⟩

end Ssgx.Boundary
