import Mathlib.Data.List.TakeDrop
import Mathlib.Logic.Function.Iterate
import Ssgx.Http.Transport
import Ssgx.Support.Waiting

/-!
# What `http_write` sends

The loop of `http_write` as a machine that makes one round at a time. Each write is offered what is
left of the request, and its result is any number that is not above that (`WriteSchedule`): a number
of bytes, `MBEDTLS_ERR_SSL_WANT_WRITE`, zero or an error. The machine keeps the results and the
pieces of the request that were taken.

`WriteState.Inv` is what every round keeps: the results are the ones that the schedule gives for
what is left of the request each time (`WriteSchedule.Gave`), and the pieces are what they took.
`WriteState.measure` is what every round lowers, so that the loop returns for every schedule, and
`WriteEnd` how it returns.
-/

set_option autoImplicit false

namespace Ssgx.Http

open Ssgx.Support

/-! ## The loop -/

/-- The results of the writes: of the write with this number, which is offered this many bytes. -/
structure WriteSchedule where
  result : Nat → Nat → Int
  fits : ∀ call remaining, result call remaining ≤ remaining

/-- The variables `written_size` and `retries` of `http_write`, the results of its writes, the
pieces they took, and what it has returned. -/
structure WriteState where
  written : Nat
  retries : Nat
  results : List Int
  pieces : List Str
  ret : Option Int

/-- Nothing is written yet. -/
def WriteState.start : WriteState := ⟨0, 0, [], [], none⟩

/-- One round of the loop of `http_write`. -/
def WriteSchedule.round (schedule : WriteSchedule) (request : Str) (st : WriteState) : WriteState :=
  match st.ret with
  | some _ => st
  | none =>
      if st.written < request.length then
        let ret := schedule.result st.results.length (request.length - st.written)
        if ret = errSslWantWrite then
          { st with
            retries := st.retries + 1
            results := st.results ++ [ret]
            ret := if maxRetries < st.retries + 1 then some (-1) else none }
        else if ret ≤ 0 then { st with results := st.results ++ [ret], ret := some ret }
        else
          { st with
            written := st.written + ret.toNat
            retries := 0
            results := st.results ++ [ret]
            pieces := st.pieces ++ [(request.drop st.written).take ret.toNat] }
      else { st with ret := some (toInt32 st.written) }

/-- As many rounds as `http_write` can make. -/
def writeRounds (request : Str) : Nat := (maxRetries + 1) * request.length + 1

/-- `http_write` of a request. -/
def WriteSchedule.run (schedule : WriteSchedule) (request : Str) : WriteState :=
  if request.length = 0 then { WriteState.start with ret := some 0 }
  else (schedule.round request)^[writeRounds request] .start

/-! ## What a round does -/

/-- The result is a request to wait. -/
def WantsWrite (ret : Int) : Prop := ret = errSslWantWrite

/-- What one round does to a loop that has not returned. A round that writes has the result that the
schedule gives for what is left. -/
inductive WriteRound (schedule : WriteSchedule) (request : Str) (st : WriteState) :
    WriteState → Prop where
  | wait (left : st.written < request.length)
      (gives : schedule.result st.results.length (request.length - st.written) = errSslWantWrite)
      (few : st.retries + 1 ≤ maxRetries) :
      WriteRound schedule request st
        ⟨st.written, st.retries + 1, st.results ++ [errSslWantWrite], st.pieces, none⟩
  | impatient (left : st.written < request.length)
      (gives : schedule.result st.results.length (request.length - st.written) = errSslWantWrite)
      (many : maxRetries < st.retries + 1) :
      WriteRound schedule request st
        ⟨st.written, st.retries + 1, st.results ++ [errSslWantWrite], st.pieces, some (-1)⟩
  | failed {ret : Int} (left : st.written < request.length)
      (gives : schedule.result st.results.length (request.length - st.written) = ret)
      (other : ¬ WantsWrite ret) (none : ret ≤ 0) :
      WriteRound schedule request st
        ⟨st.written, st.retries, st.results ++ [ret], st.pieces, some ret⟩
  | piece {size : Nat} (some : 0 < size) (fits : st.written + size ≤ request.length)
      (gives : schedule.result st.results.length (request.length - st.written) = size) :
      WriteRound schedule request st ⟨st.written + size, 0, st.results ++ [(size : Int)],
        st.pieces ++ [(request.drop st.written).take size], none⟩
  | done (all : request.length ≤ st.written) :
      WriteRound schedule request st
        ⟨st.written, st.retries, st.results, st.pieces, some (toInt32 st.written)⟩

variable {schedule : WriteSchedule} {request : Str} {st : WriteState}

/-- Every round is one of these. -/
theorem WriteSchedule.round_cases (request : Str) (h : st.ret = none) :
    WriteRound schedule request st (schedule.round request st) := by
  rcases st with ⟨written, retries, results, pieces, ret⟩
  cases h
  simp only [WriteSchedule.round]
  by_cases hleft : written < request.length
  · rw [if_pos hleft]
    have hfits := schedule.fits results.length (request.length - written)
    generalize hret : schedule.result results.length (request.length - written) = ret at hfits ⊢
    by_cases hwant : ret = errSslWantWrite
    · subst hwant
      rw [if_pos rfl]
      by_cases hmany : maxRetries < retries + 1
      · rw [if_pos hmany]
        exact .impatient hleft hret hmany
      · rw [if_neg hmany]
        exact .wait hleft hret (Nat.not_lt.1 hmany)
    · rw [if_neg hwant]
      by_cases hnone : ret ≤ 0
      · rw [if_pos hnone]
        exact .failed hleft hret hwant hnone
      · rw [if_neg hnone]
        -- a positive result is a number of bytes
        obtain ⟨size, rfl⟩ := Int.eq_ofNat_of_zero_le (Int.le_of_lt (Int.not_le.1 hnone))
        have hsome : 0 < size := by omega
        have hsize : written + size ≤ request.length := by omega
        exact .piece hsome hsize hret
  · rw [if_neg hleft]
    exact .done (Nat.not_lt.1 hleft)

/-! ## What the results say -/

/-- The number of bytes that writes with these results have taken. -/
def bytesTaken (results : List Int) : Nat := (results.map Int.toNat).sum

theorem bytesTaken_concat (results : List Int) (ret : Int) :
    bytesTaken (results ++ [ret]) = bytesTaken results + ret.toNat := by
  simp [bytesTaken]

/-- A result without bytes takes nothing. -/
theorem bytesTaken_of_none (results : List Int) {ret : Int} (h : ret ≤ 0) :
    bytesTaken (results ++ [ret]) = bytesTaken results := by
  rw [bytesTaken_concat, Int.toNat_of_nonpos h, Nat.add_zero]

/-- Each of the results is the one that the schedule gives its write, which is offered what the
writes before it have left of so many bytes. -/
def WriteSchedule.Gave (schedule : WriteSchedule) (len : Nat) (results : List Int) : Prop :=
  ∀ earlier ret later, results = earlier ++ ret :: later →
    bytesTaken earlier < len ∧
      schedule.result earlier.length (len - bytesTaken earlier) = ret

theorem WriteSchedule.gave_nil (schedule : WriteSchedule) (len : Nat) : schedule.Gave len [] := by
  intro earlier ret later heq
  simp at heq

theorem WriteSchedule.Gave.concat {len : Nat} {results : List Int} {ret : Int}
    (h : schedule.Gave len results) (hleft : bytesTaken results < len)
    (hret : schedule.result results.length (len - bytesTaken results) = ret) :
    schedule.Gave len (results ++ [ret]) := by
  intro earlier ret' later heq
  rcases List.eq_nil_or_concat later with rfl | ⟨later, last, rfl⟩
  · obtain ⟨rfl, hlast⟩ := List.append_inj' heq rfl
    rw [← List.head_eq_of_cons_eq hlast]
    exact ⟨hleft, hret⟩
  · -- the result is one of those before
    rw [List.concat_eq_append, ← List.cons_append, ← List.append_assoc] at heq
    exact h earlier ret' later (List.append_inj' heq rfl).1

/-! ## What every round keeps -/

/-- How the loop returns: all is written, or the last result is no request to wait and takes
nothing, or it is one request to wait too many. -/
inductive WriteEnd (len : Nat) (st : WriteState) : Int → Prop where
  | whole (all : st.written = len) (patient : Patient WantsWrite maxRetries st.results) :
      WriteEnd len st (toInt32 st.written)
  | failed {ret : Int} (left : st.written < len) (earlier : List Int)
      (last : st.results = earlier ++ [ret]) (other : ¬ WantsWrite ret) (none : ret ≤ 0)
      (patient : Patient WantsWrite maxRetries st.results) : WriteEnd len st ret
  | impatient (left : st.written < len) (earlier : List Int)
      (last : st.results = earlier ++ List.replicate (maxRetries + 1) errSslWantWrite)
      (patient : Patient WantsWrite maxRetries
        (earlier ++ List.replicate maxRetries errSslWantWrite)) : WriteEnd len st (-1)

/-- What holds of the loop after any number of rounds: the results are the schedule's, the pieces
are the beginning of the request as far as it is written, each as long as its result says, and the
waits are counted. -/
structure WriteState.Inv (schedule : WriteSchedule) (request : Str) (st : WriteState) : Prop where
  gave : schedule.Gave request.length st.results
  taken : bytesTaken st.results = st.written
  sent : st.pieces.flatten = request.take st.written
  within : st.written ≤ request.length
  sizes : st.pieces.map (fun piece => (piece.length : Int)) = st.results.filter (0 < ·)
  waits : st.ret = none → ∃ earlier,
    st.results = earlier ++ List.replicate st.retries errSslWantWrite
  going : st.ret = none → st.retries ≤ maxRetries ∧ Patient WantsWrite maxRetries st.results ∧
    WaitsAtEnd WantsWrite st.retries st.results
  returned : ∀ ret, st.ret = some ret → WriteEnd request.length st ret

theorem WriteState.inv_start (schedule : WriteSchedule) (request : Str) :
    WriteState.start.Inv schedule request where
  gave := schedule.gave_nil _
  taken := rfl
  sent := rfl
  within := Nat.zero_le _
  sizes := rfl
  waits _ := ⟨[], rfl⟩
  going _ := ⟨Nat.zero_le _, patient_nil, waitsAtEnd_nil⟩
  returned ret h := by cases h

/-- A result without bytes is no size of a piece. -/
theorem sizes_of_none {results : List Int} {ret : Int} (h : ret ≤ 0) :
    (results ++ [ret]).filter (0 < ·) = results.filter (0 < ·) := by
  rw [List.filter_append, List.filter_cons_of_neg (by simpa using h), List.filter_nil,
    List.append_nil]

/-- One more request to wait is at the end. -/
theorem results_wait {results earlier : List Int} {retries : Nat}
    (h : results = earlier ++ List.replicate retries errSslWantWrite) :
    results ++ [errSslWantWrite] =
      earlier ++ List.replicate (retries + 1) errSslWantWrite := by
  rw [h, List.append_assoc, List.replicate_succ']

/-- One round keeps the invariant. -/
theorem WriteSchedule.inv_round (h : st.Inv schedule request) :
    (schedule.round request st).Inv schedule request := by
  cases hret : st.ret with
  | some ret =>
      simp only [WriteSchedule.round, hret]
      exact h
  | none =>
      obtain ⟨hretries, hpatient, hwaits⟩ := h.going hret
      obtain ⟨earlier, hearlier⟩ := h.waits hret
      have hround := schedule.round_cases request hret
      have hgave : ∀ {ret}, st.written < request.length →
          schedule.result st.results.length (request.length - st.written) = ret →
          schedule.Gave request.length (st.results ++ [ret]) := by
        intro ret hleft hgives
        rw [← h.taken] at hleft hgives
        exact h.gave.concat hleft hgives
      have hwant : errSslWantWrite ≤ 0 := by decide
      generalize schedule.round request st = st' at hround ⊢
      cases hround with
      | wait left gives few =>
          refine ⟨hgave left gives, ?_, h.sent, h.within, ?_, ?_, ?_, by simp⟩
          · rw [bytesTaken_of_none _ hwant, h.taken]
          · rw [h.sizes, sizes_of_none hwant]
          · intro _
            exact ⟨earlier, results_wait hearlier⟩
          · intro _
            exact ⟨few, hpatient.concat ((hwaits.concat _).mono few), hwaits.concat _⟩
      | impatient left gives many =>
          refine ⟨hgave left gives, ?_, h.sent, h.within, ?_, by simp, by simp, ?_⟩
          · rw [bytesTaken_of_none _ hwant, h.taken]
          · rw [h.sizes, sizes_of_none hwant]
          · intro ret heq
            cases heq
            have hmax : st.retries = maxRetries := by omega
            rw [hmax] at hearlier
            exact .impatient left earlier (results_wait hearlier) (hearlier ▸ hpatient)
      | @failed ret left gives other hnone =>
          refine ⟨hgave left gives, ?_, h.sent, h.within, ?_, by simp, by simp, ?_⟩
          · rw [bytesTaken_of_none _ hnone, h.taken]
          · rw [h.sizes, sizes_of_none hnone]
          · intro ret' heq
            cases heq
            exact .failed left st.results rfl other hnone (hpatient.concat_other other)
      | @piece size hsome hfits gives =>
          have hother : ¬ WantsWrite (size : Int) := by
            intro hwant
            have : (size : Int) = -0x6880 := hwant
            omega
          refine ⟨hgave (by omega) gives, ?_, ?_, hfits, ?_, ?_, ?_, by simp⟩
          · rw [bytesTaken_concat, h.taken, Int.toNat_natCast]
          -- what was written, and the next bytes behind it
          · rw [List.flatten_append, h.sent, List.flatten_singleton, List.take_add]
          · rw [List.map_append, h.sizes, List.filter_append, List.map_singleton, List.length_take,
              List.length_drop, Nat.min_eq_left (by omega), List.filter_cons_of_pos (by simpa),
              List.filter_nil]
          · intro _
            exact ⟨st.results ++ [(size : Int)], by simp⟩
          · intro _
            exact ⟨Nat.zero_le _, hpatient.concat_other hother, waitsAtEnd_other hother⟩
      | done all =>
          refine ⟨h.gave, h.taken, h.sent, h.within, h.sizes, by simp, by simp, ?_⟩
          intro ret heq
          rw [← Option.some.inj heq]
          exact .whole (Nat.le_antisymm h.within all) hpatient

theorem WriteSchedule.inv_rounds (schedule : WriteSchedule) (request : Str) (n : Nat) :
    ((schedule.round request)^[n] .start).Inv schedule request := by
  induction n with
  | zero => exact WriteState.inv_start schedule request
  | succ n ih =>
      rw [Function.iterate_succ_apply']
      exact schedule.inv_round ih

/-! ## The loop returns -/

/-- How many rounds the loop can still make. -/
def WriteState.measure (request : Str) (st : WriteState) : Nat :=
  match st.ret with
  | some _ => 0
  | none => (maxRetries + 1) * (request.length - st.written) - st.retries + 1

/-- One round lowers the measure. -/
theorem WriteSchedule.measure_round (h : st.Inv schedule request) (hret : st.ret = none) :
    (schedule.round request st).measure request < st.measure request := by
  obtain ⟨hretries, -, -⟩ := h.going hret
  have hround := schedule.round_cases request hret
  generalize schedule.round request st = st' at hround ⊢
  simp only [WriteState.measure, hret, maxRetries] at hretries ⊢
  cases hround with
  | wait left gives few =>
      simp only
      omega
  | impatient left gives many => exact Nat.succ_pos _
  | failed left gives other hnone => exact Nat.succ_pos _
  | piece hsome hfits gives =>
      simp only
      omega
  | done all => exact Nat.succ_pos _

/-- A loop that has returned stays as it is. -/
theorem WriteSchedule.round_of_returned {ret : Int} (h : st.ret = some ret) :
    schedule.round request st = st := by
  simp only [WriteSchedule.round, h]

/-- After as many rounds as the measure says, the loop has returned. -/
theorem WriteSchedule.rounds_return {n : Nat} (h : st.Inv schedule request)
    (hn : st.measure request ≤ n) : ((schedule.round request)^[n] st).ret ≠ none := by
  induction n generalizing st with
  | zero =>
      intro hret
      have hpos : 0 < st.measure request := by
        have hst : st.ret = none := hret
        simp only [WriteState.measure, hst]
        exact Nat.succ_pos _
      omega
  | succ n ih =>
      rw [Function.iterate_succ_apply]
      apply ih (schedule.inv_round h)
      cases hret : st.ret with
      | none =>
          have hlt := schedule.measure_round h hret
          omega
      | some ret =>
          rw [schedule.round_of_returned hret]
          simp only [WriteState.measure, hret]
          exact Nat.zero_le n

/-! ## The loop over a list of results -/

/-- The results so far take `http_write` to where the machine is, whatever results follow. -/
def WriteState.Agrees (len : Nat) (st : WriteState) : Prop :=
  ∀ rest, writeAnswers len (st.results ++ rest) 0 0 =
    match st.ret with
    | some ret => some ret
    | none => writeAnswers len rest st.retries st.written

/-- One round is one result of the list. -/
theorem WriteSchedule.agrees_round (h : st.Agrees request.length) :
    (schedule.round request st).Agrees request.length := by
  cases hret : st.ret with
  | some ret =>
      rw [schedule.round_of_returned hret]
      exact h
  | none =>
      have hround := schedule.round_cases request hret
      generalize schedule.round request st = st' at hround ⊢
      simp only [WriteState.Agrees, hret] at h
      intro rest
      cases hround with
      | wait left gives few =>
          rw [List.append_assoc, h, List.singleton_append]
          simp only [writeAnswers]
          rw [if_pos left, if_pos trivial, if_neg (Nat.not_lt.2 few)]
      | impatient left gives many =>
          rw [List.append_assoc, h, List.singleton_append]
          simp only [writeAnswers]
          rw [if_pos left, if_pos trivial, if_pos many]
      | failed left gives other hnone =>
          rw [List.append_assoc, h, List.singleton_append]
          simp only [writeAnswers]
          rw [if_pos left, if_neg (show ¬ _ = errSslWantWrite from other), if_pos hnone]
      | @piece size hsome hfits gives =>
          have hother : (size : Int) ≠ errSslWantWrite := by
            simp only [errSslWantWrite]
            omega
          rw [List.append_assoc, h, List.singleton_append]
          simp only [writeAnswers]
          rw [if_pos (by omega), if_neg hother, if_neg (by omega), Int.toNat_natCast]
      | done all =>
          rw [h]
          -- the loop asks for no further result
          cases rest with
          | nil =>
              simp only [writeAnswers]
              rw [if_neg (Nat.not_lt.2 all)]
          | cons ret rest =>
              simp only [writeAnswers]
              rw [if_neg (Nat.not_lt.2 all)]

theorem WriteSchedule.agrees_rounds (schedule : WriteSchedule) (request : Str) (n : Nat) :
    ((schedule.round request)^[n] .start).Agrees request.length := by
  induction n with
  | zero => exact fun rest => rfl
  | succ n ih =>
      rw [Function.iterate_succ_apply']
      exact schedule.agrees_round ih

/-- **The machine is `http_write`.** It returns, and what it returns is what the loop over its
results returns. -/
theorem WriteSchedule.run_httpWrite (schedule : WriteSchedule) (request : Str) :
    ∃ ret, (schedule.run request).ret = some ret ∧
      httpWrite (schedule.run request).results request.length = some ret := by
  simp only [WriteSchedule.run, httpWrite]
  by_cases hempty : request.length = 0
  · simp only [if_pos hempty]
    exact ⟨0, rfl, rfl⟩
  · simp only [if_neg hempty]
    have hreturns : ((schedule.round request)^[writeRounds request] .start).ret ≠ none :=
      WriteSchedule.rounds_return (WriteState.inv_start schedule request) (Nat.le_refl _)
    obtain ⟨ret, hret⟩ := Option.ne_none_iff_exists'.1 hreturns
    refine ⟨ret, hret, ?_⟩
    have hagrees := schedule.agrees_rounds request (writeRounds request) []
    rw [List.append_nil, hret] at hagrees
    exact hagrees

theorem WriteSchedule.inv_run (schedule : WriteSchedule) (request : Str) :
    (schedule.run request).Inv schedule request := by
  simp only [WriteSchedule.run]
  by_cases hempty : request.length = 0
  · rw [if_pos hempty]
    have hstart := WriteState.inv_start schedule request
    refine ⟨hstart.gave, hstart.taken, hstart.sent, hstart.within, hstart.sizes, by simp, by simp,
      ?_⟩
    intro ret hret
    cases hret
    rw [show (0 : Int) = toInt32 0 by decide]
    exact .whole hempty.symm patient_nil
  · rw [if_neg hempty]
    exact schedule.inv_rounds request _

theorem toInt32_of_small {n : Nat} (h : n < 2 ^ 31) : toInt32 n = n := by
  simp only [toInt32]
  exact Int.bmod_eq_of_le (by omega) (by omega)

/-- **What `http_write` sends.** The loop returns for every schedule. Its results are those that the
schedule gives for what is left of the request each time, and its pieces are what these took: each
as long as its result says, and together the request as far as it was taken. The return value is the
length of the request exactly where that is all of it. Otherwise it is not positive, the pieces are
a strict beginning of the request, and the last result is the return value, or it is one request to
wait too many. At most `max_retries` of these follow one another, or one more at the end. -/
theorem http_write_sends (schedule : WriteSchedule) (request : Str)
    (hshort : request.length < 2 ^ 31) :
    ∃ ret, (schedule.run request).ret = some ret ∧
      httpWrite (schedule.run request).results request.length = some ret ∧
      schedule.Gave request.length (schedule.run request).results ∧
      (schedule.run request).pieces.map (fun piece => (piece.length : Int)) =
        (schedule.run request).results.filter (0 < ·) ∧
      (schedule.run request).pieces.flatten =
        request.take (bytesTaken (schedule.run request).results) ∧
      (ret = request.length ↔ (schedule.run request).pieces.flatten = request) ∧
      (ret ≠ request.length → ret ≤ 0 ∧ (schedule.run request).pieces.flatten <+: request ∧
        (schedule.run request).pieces.flatten ≠ request ∧
        ((∃ earlier, (schedule.run request).results = earlier ++ [ret] ∧ ¬ WantsWrite ret) ∨
          ret = -1 ∧ ∃ earlier, (schedule.run request).results =
            earlier ++ List.replicate (maxRetries + 1) errSslWantWrite)) ∧
      (Patient WantsWrite maxRetries (schedule.run request).results ∨
        ret = -1 ∧ ∃ earlier, (schedule.run request).results =
            earlier ++ List.replicate (maxRetries + 1) errSslWantWrite ∧
          Patient WantsWrite maxRetries
            (earlier ++ List.replicate maxRetries errSslWantWrite)) := by
  obtain ⟨ret, hret, hwrite⟩ := schedule.run_httpWrite request
  have hinv := schedule.inv_run request
  refine ⟨ret, hret, hwrite, hinv.gave, hinv.sizes, ?_, ?_⟩
  · rw [hinv.taken]
    exact hinv.sent
  have hend := hinv.returned ret hret
  rw [show (schedule.run request).pieces.flatten = _ from hinv.sent]
  -- a part of the request is a strict beginning of it
  have hpart : (schedule.run request).written < request.length →
      request.take (schedule.run request).written <+: request ∧
        request.take (schedule.run request).written ≠ request := by
    intro hleft
    refine ⟨List.take_prefix _ _, ?_⟩
    rw [Ne, List.take_eq_self_iff]
    exact Nat.not_le.2 hleft
  cases hend with
  | whole all patient =>
      rw [all, toInt32_of_small hshort, List.take_length]
      exact ⟨iff_of_true rfl rfl, fun hnot => absurd rfl hnot, Or.inl patient⟩
  | failed left earlier last other none patient =>
      obtain ⟨hfront, hne⟩ := hpart left
      refine ⟨iff_of_false (by omega) hne, fun _ => ⟨none, hfront, hne, ?_⟩, Or.inl patient⟩
      exact Or.inl ⟨earlier, last, other⟩
  | impatient left earlier last patient =>
      obtain ⟨hfront, hne⟩ := hpart left
      refine ⟨iff_of_false (by omega) hne, fun _ => ⟨by decide, hfront, hne, ?_⟩, ?_⟩
      · exact Or.inr ⟨rfl, earlier, last⟩
      · exact Or.inr ⟨rfl, earlier, last, patient⟩

/-- Two bytes are taken, the next write has to wait, and then the rest is taken. -/
def pausedSchedule : WriteSchedule where
  result call remaining := if call = 1 then errSslWantWrite else min 2 remaining
  fits call remaining := by
    by_cases h : call = 1
    · rw [if_pos h]
      have : errSslWantWrite < 0 := by decide
      omega
    · rw [if_neg h]
      omega

/-- A request that is taken in two pieces with a wait between them. -/
theorem http_write_sends_paused :
    (pausedSchedule.run (str "abc")).ret = some 3 ∧
      (pausedSchedule.run (str "abc")).results = [2, errSslWantWrite, 1] ∧
      (pausedSchedule.run (str "abc")).pieces.flatten = str "abc" := by
  obtain ⟨ret, hret, -, -, -, -, hall, -⟩ := http_write_sends pausedSchedule (str "abc") (by decide)
  have hthree : (pausedSchedule.run (str "abc")).ret = some 3 := by decide
  have hresults : (pausedSchedule.run (str "abc")).results = [2, errSslWantWrite, 1] := by decide
  refine ⟨hthree, hresults, hall.1 ?_⟩
  rw [hret] at hthree
  exact Option.some.inj hthree

end Ssgx.Http
