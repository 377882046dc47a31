import Ssgx.Http.ReadLoop

/-!
# One stream in different reads

The bytes of a response reach `http_read` in reads of any sizes up to that of the buffer, with waits
between them, and then the stream is at its end. The parser and the loop see the same bytes in every
splitting, but the loop ends with the chunk in which the parser finishes, and returns the number of
bytes read so far, in an `int`. So the splittings agree in the response and in the outcome of the
parser, and in the sign of the return value only where no number of bytes at which they may end is
negative for an `int` while another is positive.
-/

set_option autoImplicit false

namespace Ssgx.Http

open Ssgx.Support

variable {S : Type} {parser : ResponseParser S} {stream : Str}

/-! ## Splittings -/

/-- The end of the stream. -/
def ReadAnswer.endOfStream : ReadAnswer := ⟨0, [], length_eq_nil, dataBufSize_nonneg⟩

/-- Reads and waits within the retry limit that carry this stream. -/
structure Splitting (stream : Str) (answers : List ReadAnswer) : Prop where
  quiet : Undisturbed answers
  carries : chunks answers = stream

/-- The two ends have the same response, the same outcome of the parser and the same decision
between success and failure. -/
structure SameEnd (parser : ResponseParser S) (e e' : ReadEnd S) : Prop where
  response : e.parsed = e'.parsed
  outcome : (parser.parse parser.start e.received).2 = (parser.parse parser.start e'.received).2
  decision : 0 < e.ret ↔ 0 < e'.ret

/-- Any two splittings of the stream end in the same way. -/
def SplitsAgree (parser : ResponseParser S) (stream : Str) : Prop :=
  ∀ answers answers', Splitting stream answers → Splitting stream answers' →
    ∃ e e', httpRead parser (answers ++ [.endOfStream]) = some e ∧
      httpRead parser (answers' ++ [.endOfStream]) = some e' ∧ SameEnd parser e e'

/-- The parser finishes with this number of bytes of the stream, and not with fewer. -/
def FinishesAt (parser : ResponseParser S) (stream : Str) (k : Nat) : Prop :=
  ∃ front c rest, stream = front ++ c :: rest ∧ k = front.length + 1 ∧
    (parser.parse parser.start front).2 = .parsingIncompleted ∧
    (parser.parse parser.start (front ++ [c])).2 ≠ .parsingIncompleted

/-- The loop can end with this number of bytes of the stream, where the parser finishes with `k`. -/
structure CanEndAt (stream : Str) (k m : Nat) : Prop where
  finished : k ≤ m
  within : m ≤ stream.length
  chunk : m < k + dataBufSize

/-! ## The parser on the beginning of a stream -/

/-- A parser that is done does not look at further bytes. -/
theorem ResponseParser.parse_finished {s : S} {text : Str}
    (h : (parser.parse s text).2 ≠ .parsingIncompleted) (more : Str) :
    parser.parse s (text ++ more) = parser.parse s text := by
  induction text generalizing s with
  | nil => exact absurd rfl h
  | cons input rest ih =>
      simp only [List.cons_append, ResponseParser.parse] at h ⊢
      rcases hc : parser.consume s input with ⟨s₁, result⟩
      rw [hc] at h
      cases result with
      | parsingCompleted => rfl
      | parsingError => rfl
      | parsingIncompleted => exact ih h

/-- A parser that is done with a chunk and was not before has finished in it. -/
theorem finishesAt_of_chunk {before chunk : Str} (after : Str)
    (hbefore : (parser.parse parser.start before).2 = .parsingIncompleted)
    (hchunk : (parser.parse parser.start (before ++ chunk)).2 ≠ .parsingIncompleted) :
    ∃ k, FinishesAt parser (before ++ chunk ++ after) k ∧ before.length < k ∧
      k ≤ (before ++ chunk).length := by
  induction chunk using List.reverseRecOn generalizing after with
  | nil =>
      rw [List.append_nil] at hchunk
      exact absurd hbefore hchunk
  | append_singleton chunk c ih =>
      -- the last byte of the chunk finishes the response, or an earlier one
      by_cases hlast : (parser.parse parser.start (before ++ chunk)).2 = .parsingIncompleted
      · refine ⟨(before ++ chunk).length + 1, ⟨before ++ chunk, c, after, ?_, rfl, hlast, ?_⟩, ?_,
          ?_⟩
        · simp only [List.append_assoc, List.singleton_append]
        · rw [List.append_assoc]
          exact hchunk
        · simp only [List.length_append]
          omega
        · simp only [List.length_append, List.length_singleton]
          omega
      · obtain ⟨k, hk, hlow, hhigh⟩ := ih (c :: after) hlast
        refine ⟨k, ?_, hlow, ?_⟩
        · simpa only [List.append_assoc, List.singleton_append] using hk
        · simp only [List.length_append, List.length_singleton] at hhigh ⊢
          omega

/-- The parser is not done with the first `j` bytes where it finishes with more. -/
theorem FinishesAt.open_iff {k : Nat} (h : FinishesAt parser stream k) (j : Nat) :
    (parser.parse parser.start (stream.take j)).2 = .parsingIncompleted ↔ j < k := by
  obtain ⟨front, c, rest, rfl, rfl, hbefore, hdone⟩ := h
  constructor
  · intro hopen
    by_contra hle
    have hlong : (front ++ [c]).length ≤ j := by
      rw [List.length_append, List.length_singleton]
      exact Nat.not_lt.1 hle
    rw [List.append_cons, List.take_append, List.take_of_length_le hlong] at hopen
    exact hdone (parser.parse_of_append hopen)
  · intro hlt
    have hwhole : (front ++ c :: rest).take j ++ front.drop j = front := by
      rw [List.take_append_of_le_length (Nat.le_of_lt_succ hlt), List.take_append_drop]
    rw [← hwhole] at hbefore
    exact parser.parse_of_append hbefore

theorem FinishesAt.pos {k : Nat} (h : FinishesAt parser stream k) : 0 < k ∧ k ≤ stream.length := by
  obtain ⟨front, c, rest, rfl, rfl, -, -⟩ := h
  rw [List.length_append, List.length_cons]
  omega

/-- There is one number of bytes with which the parser finishes. -/
theorem FinishesAt.unique {k k' : Nat} (h : FinishesAt parser stream k)
    (h' : FinishesAt parser stream k') : k = k' := by
  have hsame (j : Nat) : j < k ↔ j < k' := (h.open_iff j).symm.trans (h'.open_iff j)
  have hk := hsame k
  have hk' := hsame k'
  omega

/-- A parser that finishes is done with the stream. -/
theorem FinishesAt.done {k : Nat} (h : FinishesAt parser stream k) :
    (parser.parse parser.start stream).2 ≠ .parsingIncompleted := by
  intro hopen
  rw [← List.take_length (l := stream), h.open_iff] at hopen
  exact absurd h.pos.2 (Nat.not_le.2 hopen)

/-! ## How a splitting ends -/

/-- The loop ends with the chunk in which the parser finishes. -/
theorem httpRead_finishing {front : List ReadAnswer} {a : ReadAnswer} (after : List ReadAnswer)
    (hquiet : Undisturbed front) (hsome : 0 < a.ret)
    (hbefore : (parser.parse parser.start (chunks front)).2 = .parsingIncompleted)
    (hdone : (parser.parse parser.start (chunks front ++ a.data)).2 ≠ .parsingIncompleted) :
    httpRead parser (front ++ a :: after) =
      some ⟨toInt32 (chunks front ++ a.data).length,
        (parser.parse parser.start (chunks front ++ a.data)).1, chunks front ++ a.data⟩ := by
  obtain ⟨waits, _, readSize, s, received, -, -, hreading⟩ := hquiet.reading hbefore
  obtain ⟨hreceived, hsize⟩ := hreading.spec
  rw [← hreceived, parser.parse_append hreading.parsed] at hdone ⊢
  rw [← toInt32_add_chunk _ hsome, hreceived, ← hsize]
  rw [← hreceived]
  exact httpRead_eq_some_iff.2 ⟨front, a, after, _, _, _, _, rfl, hreading, .parsed hsome rfl hdone⟩

/-- A parser that is done with the bytes of the answers has finished in one of them. -/
theorem finishing_answer {answers : List ReadAnswer}
    (hdone : (parser.parse parser.start (chunks answers)).2 ≠ .parsingIncompleted) :
    ∃ front a after, answers = front ++ a :: after ∧ 0 < a.ret ∧
      (parser.parse parser.start (chunks front)).2 = .parsingIncompleted ∧
      (parser.parse parser.start (chunks front ++ a.data)).2 ≠ .parsingIncompleted := by
  induction answers using List.reverseRecOn with
  | nil => exact absurd rfl hdone
  | append_singleton answers a ih =>
      by_cases hbefore : (parser.parse parser.start (chunks answers)).2 = .parsingIncompleted
      · rw [chunks_concat] at hdone
        by_cases hsome : 0 < a.ret
        · rw [if_pos hsome] at hdone
          exact ⟨answers, a, [], rfl, hsome, hbefore, hdone⟩
        · rw [if_neg hsome, List.append_nil] at hdone
          exact absurd hbefore hdone
      · obtain ⟨front, b, after, rfl, hsome, hfront, hfinish⟩ := ih hbefore
        exact ⟨front, b, after ++ [a], by simp, hsome, hfront, hfinish⟩

theorem chunks_append (answers answers' : List ReadAnswer) :
    chunks (answers ++ answers') = chunks answers ++ chunks answers' := by
  simp only [chunks]
  exact List.flatMap_append

/-- An answer with bytes adds them. -/
theorem chunks_cons {a : ReadAnswer} (hsome : 0 < a.ret) (answers : List ReadAnswer) :
    chunks (a :: answers) = a.data ++ chunks answers := by
  simp only [chunks]
  rw [List.flatMap_cons, if_pos hsome]

theorem Undisturbed.of_append {answers answers' : List ReadAnswer}
    (h : Undisturbed (answers ++ answers')) : Undisturbed answers :=
  ⟨fun a ha => h.only a (List.mem_append_left _ ha), Patient.of_append h.patient⟩

/-- The end of the loop over a splitting: the parser has seen as much of the stream as matters, and
the return value counts the whole stream, or the bytes up to the end of the chunk in which the
parser finishes. -/
theorem Splitting.read {answers : List ReadAnswer} (h : Splitting stream answers)
    (parser : ResponseParser S) :
    ∃ e, httpRead parser (answers ++ [.endOfStream]) = some e ∧
      e.parsed = (parser.parse parser.start stream).1 ∧
      (parser.parse parser.start e.received).2 = (parser.parse parser.start stream).2 ∧
      ((parser.parse parser.start stream).2 = .parsingIncompleted ∧
          e.ret = toInt32 stream.length ∨
        ∃ k m, FinishesAt parser stream k ∧ CanEndAt stream k m ∧ e.ret = toInt32 m) := by
  obtain ⟨hquiet, hcarries⟩ := h
  subst hcarries
  by_cases hopen : (parser.parse parser.start (chunks answers)).2 = .parsingIncompleted
  -- the stream is at its end before the response is
  · obtain ⟨waits, _, readSize, s, received, -, -, hreading⟩ := hquiet.reading hopen
    have hread := httpRead_eq_some_iff.2
      ⟨answers, .endOfStream, [], _, _, _, _, rfl, hreading, .endOfStream rfl⟩
    obtain ⟨hreceived, hsize⟩ := hreading.spec
    refine ⟨_, hread, ?_, ?_, Or.inl ⟨hopen, hsize⟩⟩
    · rw [← hreceived, hreading.parsed]
    · rw [hreceived]
  -- the response is at its end in one of the chunks
  · obtain ⟨front, a, after, rfl, hsome, hbefore, hdone⟩ := finishing_answer hopen
    have hstream : chunks (front ++ a :: after) = chunks front ++ a.data ++ chunks after := by
      rw [chunks_append, chunks_cons hsome, List.append_assoc]
    rw [hstream, parser.parse_finished hdone]
    obtain ⟨k, hk, hlow, hhigh⟩ := finishesAt_of_chunk (chunks after) hbefore hdone
    have hread := httpRead_finishing (after ++ [.endOfStream]) hquiet.of_append hsome hbefore hdone
    have hreads : front ++ a :: after ++ [.endOfStream] =
        front ++ a :: (after ++ [.endOfStream]) := by
      rw [List.append_assoc, List.cons_append]
    rw [hreads]
    refine ⟨_, hread, rfl, rfl, Or.inr ⟨k, (chunks front ++ a.data).length, hk,
      ⟨hhigh, ?_, ?_⟩, ?_⟩⟩
    · simp only [List.length_append]
      omega
    · have hlength := a.length_eq (Int.le_of_lt hsome)
      have hfits := a.fits
      rw [List.length_append]
      omega
    · simp only

/-! ## Splittings that end at a given byte -/

/-- A read of these bytes. -/
def ReadAnswer.ofChunk (data : Str) (h : data.length ≤ dataBufSize) : ReadAnswer where
  ret := data.length
  data := data
  length_eq _ := rfl
  fits := by exact_mod_cast h

/-- One read for each byte. -/
def singleReads (text : Str) : List ReadAnswer :=
  text.map fun c => .ofChunk [c] (Nat.succ_le_of_lt (Nat.succ_pos _))

theorem chunks_singleReads (text : Str) : chunks (singleReads text) = text := by
  induction text with
  | nil => rfl
  | cons c rest ih =>
      simp only [singleReads, List.map_cons]
      rw [chunks_cons Int.one_pos]
      exact congrArg (c :: ·) ih

/-- Answers that all have bytes are undisturbed. -/
theorem undisturbed_of_some {answers : List ReadAnswer} (h : ∀ a ∈ answers, 0 < a.ret) :
    Undisturbed answers := by
  refine ⟨fun a ha => Or.inr (h a ha), ?_⟩
  intro before waits after heq hwaits
  cases waits with
  | nil => exact Nat.zero_le _
  | cons a waits =>
      have ha : 0 < a.ret := h a (by simp [heq])
      exact absurd (hwaits a (by simp)) (ReadAnswer.ret_ne_wantRead ha)

theorem singleReads_some (text : Str) : ∀ a ∈ singleReads text, 0 < a.ret := by
  intro a ha
  obtain ⟨c, -, rfl⟩ := List.mem_map.1 ha
  exact Int.one_pos

/-- Where the parser finishes with `k` bytes, the loop ends with any number of bytes that a chunk
can reach. -/
theorem FinishesAt.splitting {k m : Nat} (h : FinishesAt parser stream k)
    (hm : CanEndAt stream k m) :
    ∃ answers, Splitting stream answers ∧ ∃ e,
      httpRead parser (answers ++ [.endOfStream]) = some e ∧ e.ret = toInt32 m := by
  obtain ⟨front, c, rest, rfl, rfl, hbefore, hdone⟩ := h
  obtain ⟨hlow, hwithin, hchunk⟩ := hm
  rw [List.length_append, List.length_cons] at hwithin
  -- the bytes before the last one alone, then the chunk with the last one, then the others
  have hfits : (c :: rest.take (m - (front.length + 1))).length ≤ dataBufSize := by
    rw [List.length_cons, List.length_take]
    omega
  have hsome : 0 < (ReadAnswer.ofChunk _ hfits).ret := by
    simp only [ReadAnswer.ofChunk, List.length_cons]
    omega
  refine ⟨singleReads front ++ .ofChunk _ hfits ::
    singleReads (rest.drop (m - (front.length + 1))), ⟨?_, ?_⟩, ?_⟩
  · apply undisturbed_of_some
    intro a ha
    rcases List.mem_append.1 ha with ha | ha
    · exact singleReads_some _ a ha
    · rcases List.mem_cons.1 ha with rfl | ha
      · exact hsome
      · exact singleReads_some _ a ha
  · rw [chunks_append, chunks_cons hsome, chunks_singleReads, chunks_singleReads]
    simp only [ReadAnswer.ofChunk, List.cons_append, List.take_append_drop]
  · have hread := @httpRead_finishing _ parser (singleReads front) _
      (singleReads (rest.drop (m - (front.length + 1))) ++ [.endOfStream])
      (undisturbed_of_some (singleReads_some front)) hsome
      (by rw [chunks_singleReads]; exact hbefore) ?_
    · refine ⟨_, by rw [List.append_assoc, List.cons_append]; exact hread, ?_⟩
      rw [chunks_singleReads]
      simp only [ReadAnswer.ofChunk, List.length_append, List.length_cons, List.length_take]
      congr 2
      omega
    · rw [chunks_singleReads]
      have happend : front ++ (ReadAnswer.ofChunk _ hfits).data =
          front ++ [c] ++ rest.take (m - (front.length + 1)) := by
        simp [ReadAnswer.ofChunk]
      rw [happend, parser.parse_finished hdone]
      exact hdone

/-! ## When the splittings agree -/

/-- Splittings that agree have return values of one sign wherever they can end. -/
theorem SplitsAgree.sign {k m : Nat} (h : SplitsAgree parser stream)
    (hk : FinishesAt parser stream k) (hm : CanEndAt stream k m) :
    0 < toInt32 m ↔ 0 < toInt32 k := by
  have hself : CanEndAt stream k k := ⟨Nat.le_refl k, hk.pos.2, by simp only [dataBufSize]; omega⟩
  obtain ⟨answers, hsplit, e, hread, hret⟩ := hk.splitting hm
  obtain ⟨answers', hsplit', e', hread', hret'⟩ := hk.splitting hself
  obtain ⟨e₁, e₂, he₁, he₂, hsame⟩ := h answers answers' hsplit hsplit'
  have h₁ := Option.some.inj (hread.symm.trans he₁)
  have h₂ := Option.some.inj (hread'.symm.trans he₂)
  rw [← hret, ← hret', h₁, h₂]
  exact hsame.decision

/-- **When the splitting of a stream does not matter.** Any two splittings end with the same
response, the same outcome of the parser and the same decision exactly where the numbers of bytes at
which the loop can end, once the parser finishes, have one sign in an `int`. -/
theorem http_read_splits_iff (parser : ResponseParser S) (stream : Str) :
    SplitsAgree parser stream ↔ ∀ k, FinishesAt parser stream k → ∀ m, CanEndAt stream k m →
      (0 < toInt32 m ↔ 0 < toInt32 k) := by
  constructor
  · intro h k hk m hm
    exact h.sign hk hm
  · intro h answers answers' hsplit hsplit'
    obtain ⟨e, hread, hparsed, houtcome, hret⟩ := hsplit.read parser
    obtain ⟨e', hread', hparsed', houtcome', hret'⟩ := hsplit'.read parser
    refine ⟨e, e', hread, hread', hparsed.trans hparsed'.symm, houtcome.trans houtcome'.symm, ?_⟩
    rcases hret with ⟨hopen, hret⟩ | ⟨k, m, hk, hm, hret⟩
    · rcases hret' with ⟨-, hret'⟩ | ⟨k', m', hk', hm', hret'⟩
      · rw [hret, hret']
      · exact absurd hopen hk'.done
    · rcases hret' with ⟨hopen', hret'⟩ | ⟨k', m', hk', hm', hret'⟩
      · exact absurd hopen' hk.done
      · obtain rfl := hk.unique hk'
        rw [hret, hret', h k hk m hm, h k hk m' hm']

/-! ## A stream that is too long for an `int` -/

/-- A parser of responses of one length goes on below it. -/
theorem ofLength_parse {length : Nat} {s : Nat} {text : Str} (h : s + text.length < length) :
    (ResponseParser.ofLength length).parse s text = (s + text.length, .parsingIncompleted) := by
  induction text generalizing s with
  | nil => rfl
  | cons input rest ih =>
      rw [List.length_cons] at h ⊢
      have hconsume : (ResponseParser.ofLength length).consume s input =
          (s + 1, .parsingIncompleted) := by
        simp only [ResponseParser.ofLength]
        rw [if_neg (by omega)]
      simp only [ResponseParser.parse, hconsume]
      rw [ih (by omega), Nat.add_right_comm, Nat.add_assoc]

/-- A parser of responses of one length finishes with that many bytes. -/
theorem ofLength_finishesAt {length : Nat} (hpos : 0 < length) (hlength : length ≤ stream.length) :
    FinishesAt (.ofLength length) stream length := by
  have hlast : length - 1 < stream.length := by omega
  have hfront : (stream.take (length - 1)).length = length - 1 := by
    rw [List.length_take]
    omega
  have hshort : (ResponseParser.ofLength length).start + (stream.take (length - 1)).length <
      length := by
    simp only [ResponseParser.ofLength]
    omega
  have hopen := ofLength_parse hshort
  refine ⟨stream.take (length - 1), stream[length - 1], stream.drop length, ?_, by omega, ?_, ?_⟩
  · have hdrop := List.drop_eq_getElem_cons hlast
    rw [Nat.sub_add_cancel hpos] at hdrop
    rw [← hdrop, List.take_append_drop]
  · exact congrArg Prod.snd hopen
  · rw [ResponseParser.parse_append hopen, hfront]
    simp only [ResponseParser.parse, ResponseParser.ofLength, Nat.zero_add]
    rw [if_pos (Nat.sub_add_cancel hpos)]
    simp

/-- A response of `2^31 - 1` bytes and one byte behind it: the loop returns a positive number where
that byte has a read of its own, and a negative one where it comes with the last byte of the
response. -/
theorem http_read_splits_overflow :
    ¬ SplitsAgree (.ofLength (2 ^ 31 - 1)) (List.replicate (2 ^ 31) 'x') := by
  intro h
  have hlength : (List.replicate (2 ^ 31) 'x').length = 2 ^ 31 := List.length_replicate
  have hsign := h.sign (k := 2 ^ 31 - 1) (m := 2 ^ 31) (ofLength_finishesAt (by omega) (by omega))
    ⟨by omega, by omega, by simp only [dataBufSize]; omega⟩
  exact absurd (hsign.2 (by decide)) (by decide)

end Ssgx.Http
