import Ssgx.Http.ResponseReading

/-!
# The bodies that the response parser reads

The phases behind the headers, and with them the whole: the parser completes a response exactly on
the texts of the messages of `Ssgx.Http.ResponseWire` that announce their own body, with the bytes
behind the message left over (`parser_completes_iff`). No text of a message is the beginning of
another (`wire_prefix_free`).
-/

set_option autoImplicit false

namespace Ssgx.Http

open Ssgx.Support

namespace HttpResponseParser

variable {heap : Nat} {rest : Str}

/-! ## Chunks -/

/-- The parser in a chunked body, of which it has read `content`. -/
def onChunks (resp : ParsedResponse) (size : Nat) (content sizeStr : Str) (chunkSize : Nat)
    (state : ParserState) : HttpResponseParser where
  state := state
  contentSize := size
  chunkSizeStr := sizeStr
  chunkSize := chunkSize
  chunked := true
  resp := { resp with content := content }
  threw := false

section Chunks

variable {Q : HttpResponseParser → Prop} {resp : ParsedResponse} {size : Nat}

/-- What is read behind the line of a chunk: its data, or what follows the last chunk. -/
def behindSize (number : Nat) : ParserState :=
  if number = 0 then .chunkSizeNewLine2 else .chunkData

/-- The line feed behind the size of a chunk. -/
theorem reads_chunkSizeNewLine (content sizeStr : Str) (k : Nat) (text : Str) :
    Reads heap Q rest (onChunks resp size content sizeStr k .chunkSizeNewLine) text ↔
      ∃ t, text = '\n' :: t ∧ content.length + strtolHex sizeStr ≤ heap ∧
        Reads heap Q rest (onChunks resp size content [] (strtolHex sizeStr)
          (behindSize (strtolHex sizeStr))) t := by
  have hother : ∀ c, c ≠ '\n' →
      (onChunks resp size content sizeStr k .chunkSizeNewLine).consume heap c =
        (onChunks resp size content sizeStr k .chunkSizeNewLine).error := fun c hc => if_neg hc
  by_cases hsize : content.length + strtolHex sizeStr ≤ heap
  · have hgoes : (onChunks resp size content sizeStr k .chunkSizeNewLine).consume heap '\n' =
        (onChunks resp size content [] (strtolHex sizeStr) (behindSize (strtolHex sizeStr)),
          .parsingIncompleted) := by
      show (if heap < content.length + strtolHex sizeStr then _
        else if strtolHex sizeStr = 0 then _ else _) = _
      rw [if_neg (Nat.not_lt.2 hsize), behindSize]
      split_ifs
      · rfl
      · rfl
    rw [reads_literal _ _ '\n' hgoes hother]
    simp only [hsize, true_and]
  · refine iff_of_false ?_ (fun ⟨_, _, h, _⟩ => hsize h)
    have hthrows : (onChunks resp size content sizeStr k .chunkSizeNewLine).consume heap '\n' =
        (onChunks resp size content [] (strtolHex sizeStr) .chunkSizeNewLine).throws := by
      exact if_pos (Nat.not_le.1 hsize)
    cases text with
    | nil => exact not_reads_nil _
    | cons c text =>
        by_cases hc : c = '\n'
        · subst hc
          exact not_completes hthrows text
        · exact not_reads (hother c hc) text

theorem isExtensionChar_iff (c : Char) : isExtensionChar c = true ↔ isAlnum c = true ∨ c = ' ' := by
  simp [isExtensionChar]

theorem not_extensionChar_iff (c : Char) :
    isExtensionChar c = false ↔ ¬ (isAlnum c = true ∨ c = ' ') := by
  rw [← isExtensionChar_iff, Bool.not_eq_true]

/-- The value of an extension. -/
theorem reads_extensionValue (content sizeStr : Str) (k : Nat) (text : Str) :
    Reads heap Q rest (onChunks resp size content sizeStr k .chunkExtensionValue) text ↔
      ∃ value t, text = value ++ '\r' :: t ∧ (∀ c ∈ value, isExtensionChar c = true) ∧
        Reads heap Q rest (onChunks resp size content sizeStr k .chunkSizeNewLine) t := by
  refine accepts_until (fun _ : Str => onChunks resp size content sizeStr k .chunkExtensionValue)
    (fun _ t => Reads heap Q rest (onChunks resp size content sizeStr k .chunkSizeNewLine) t)
    rfl (fun _ => not_reads_nil _) ?_ ?_ [] text
  · intro _ c t hc
    refine reads_goes ?_ t
    exact if_pos ((isExtensionChar_iff c).1 hc)
  · intro _ c t hc
    refine reads_stop rfl (fun hne => ?_) t
    exact (if_neg ((not_extensionChar_iff c).1 hc)).trans (if_neg hne)

/-- The name of an extension, and its value where there is one. -/
theorem reads_extensionName (content sizeStr : Str) (k : Nat) (text : Str) :
    Reads heap Q rest (onChunks resp size content sizeStr k .chunkExtensionName) text ↔
      ∃ (extension : ChunkExtension) (t : Str), ';' :: text = extension.wire ++ '\r' :: t ∧
        Reads heap Q rest (onChunks resp size content sizeStr k .chunkSizeNewLine) t := by
  have hloop : ∀ (_ : Str) c t, isExtensionChar c = true →
      (Reads heap Q rest (onChunks resp size content sizeStr k .chunkExtensionName) (c :: t) ↔
        Reads heap Q rest (onChunks resp size content sizeStr k .chunkExtensionName) t) := by
    intro _ c t hc
    refine reads_goes ?_ t
    exact if_pos ((isExtensionChar_iff c).1 hc)
  rw [accepts_span (fun _ : Str => onChunks resp size content sizeStr k .chunkExtensionName)
    (fun _ => not_reads_nil _) hloop []]
  constructor
  · rintro ⟨name, c, t, rfl, hname, hc, h⟩
    have hclass := (not_extensionChar_iff c).1 hc
    by_cases hvalue : c = '='
    · subst hvalue
      obtain ⟨value, t, rfl, hall, h⟩ :=
        (reads_extensionValue content sizeStr k t).1 ((reads_goes rfl t).1 h)
      exact ⟨.nameValue name value hname hall, t, by simp [ChunkExtension.wire], h⟩
    by_cases hend : c = '\r'
    · subst hend
      exact ⟨.name name hname, t, by simp [ChunkExtension.wire], (reads_goes rfl t).1 h⟩
    · refine absurd h (not_reads ?_ t)
      exact (if_neg hclass).trans ((if_neg hvalue).trans (if_neg hend))
  · rintro ⟨extension, t, heq, h⟩
    cases extension with
    | absent =>
        rw [ChunkExtension.wire, List.nil_append] at heq
        cases heq
    | name name chars =>
        rw [ChunkExtension.wire, List.cons_append] at heq
        cases heq
        exact ⟨name, '\r', t, rfl, chars, rfl, (reads_goes rfl t).2 h⟩
    | nameValue name value chars valueChars =>
        rw [ChunkExtension.wire, List.cons_append, List.append_assoc, List.cons_append] at heq
        cases heq
        refine ⟨name, '=', _, rfl, chars, rfl, (reads_goes rfl _).2 ?_⟩
        exact (reads_extensionValue content sizeStr k _).2 ⟨value, t, rfl, valueChars, h⟩

/-- The line of the size of a chunk. -/
theorem reads_chunkLine (content : Str) (k : Nat) (text : Str) :
    Reads heap Q rest (onChunks resp size content [] k .chunkSize) text ↔
      ∃ (line : ChunkLine) (t : Str), text = line.wire ++ t ∧
        content.length + strtolHex line.size ≤ heap ∧
        Reads heap Q rest (onChunks resp size content [] (strtolHex line.size)
          (behindSize (strtolHex line.size))) t := by
  have hloop : ∀ read c t, isAlnum c = true →
      (Reads heap Q rest (onChunks resp size content read k .chunkSize) (c :: t) ↔
        Reads heap Q rest (onChunks resp size content (read ++ [c]) k .chunkSize) t) := by
    intro read c t hc
    refine reads_goes ?_ t
    exact if_pos hc
  rw [accepts_span (fun read => onChunks resp size content read k .chunkSize)
    (fun _ => not_reads_nil _) hloop []]
  constructor
  · rintro ⟨digits, c, t, rfl, hdigits, hc, h⟩
    rw [List.nil_append] at h
    have hclass : ¬ isAlnum c = true := by
      rw [hc]
      exact Bool.false_ne_true
    by_cases hextension : c = ';'
    · subst hextension
      obtain ⟨extension, t', heq, h⟩ :=
        (reads_extensionName content digits k t).1 ((reads_goes rfl t).1 h)
      obtain ⟨t, rfl, hsize, h⟩ := (reads_chunkSizeNewLine content digits k t').1 h
      exact ⟨⟨digits, extension, hdigits⟩, t, by simp [ChunkLine.wire, crlf, heq], hsize, h⟩
    by_cases hend : c = '\r'
    · subst hend
      obtain ⟨t, rfl, hsize, h⟩ :=
        (reads_chunkSizeNewLine content digits k t).1 ((reads_goes rfl t).1 h)
      exact ⟨⟨digits, .absent, hdigits⟩, t, by simp [ChunkLine.wire, ChunkExtension.wire, crlf],
        hsize, h⟩
    · refine absurd h (not_reads ?_ t)
      exact (if_neg hclass).trans ((if_neg hextension).trans (if_neg hend))
  · rintro ⟨⟨digits, extension, hdigits⟩, t, rfl, hsize, h⟩
    have hline := (reads_chunkSizeNewLine content digits k ('\n' :: t)).2 ⟨t, rfl, hsize, h⟩
    cases hwire : extension.wire with
    | nil =>
        refine ⟨digits, '\r', '\n' :: t, ?_, hdigits, rfl, (reads_goes rfl _).2 hline⟩
        simp [ChunkLine.wire, hwire, crlf]
    | cons c name =>
        have hc : c = ';' := by
          cases extension with
          | absent => cases hwire
          | name text chars =>
              cases hwire
              rfl
          | nameValue text value chars valueChars =>
              cases hwire
              rfl
        subst hc
        refine ⟨digits, ';', name ++ '\r' :: '\n' :: t, ?_, hdigits, rfl,
          (reads_goes rfl _).2 ?_⟩
        · simp [ChunkLine.wire, hwire, crlf]
        · refine (reads_extensionName content digits k _).2 ⟨extension, '\n' :: t, ?_, hline⟩
          rw [hwire, List.cons_append]

/-- A trailer, behind its first letter. -/
theorem reads_trailer (content : Str) (text : Str) :
    Reads heap Q rest (onChunks resp size content [] 0 .chunkTrailerName) text ↔
      ∃ name value t, text = name ++ ':' :: (value ++ (crlf ++ t)) ∧
        (∀ c ∈ name, isAlnum c = true) ∧ (∀ c ∈ value, isExtensionChar c = true) ∧
        content.length ≤ heap ∧
        Reads heap Q rest (onChunks resp size content [] 0 .chunkSizeNewLine2) t := by
  have hname : ∀ text, Reads heap Q rest (onChunks resp size content [] 0 .chunkTrailerName) text ↔
      ∃ name t, text = name ++ ':' :: t ∧ (∀ c ∈ name, isAlnum c = true) ∧
        Reads heap Q rest (onChunks resp size content [] 0 .chunkTrailerValue) t := by
    refine accepts_until (fun _ : Str => onChunks resp size content [] 0 .chunkTrailerName)
      (fun _ t => Reads heap Q rest (onChunks resp size content [] 0 .chunkTrailerValue) t)
      rfl (fun _ => not_reads_nil _) ?_ ?_ []
    · intro _ c t hc
      refine reads_goes ?_ t
      exact if_pos hc
    · intro _ c t hc
      refine reads_stop rfl (fun hne => ?_) t
      exact (if_neg (by rw [hc]; exact Bool.false_ne_true)).trans (if_neg hne)
  have hvalue : ∀ text,
      Reads heap Q rest (onChunks resp size content [] 0 .chunkTrailerValue) text ↔
      ∃ value t, text = value ++ '\r' :: t ∧ (∀ c ∈ value, isExtensionChar c = true) ∧
        Reads heap Q rest (onChunks resp size content [] 0 .chunkSizeNewLine) t := by
    refine accepts_until (fun _ : Str => onChunks resp size content [] 0 .chunkTrailerValue)
      (fun _ t => Reads heap Q rest (onChunks resp size content [] 0 .chunkSizeNewLine) t)
      rfl (fun _ => not_reads_nil _) ?_ ?_ []
    · intro _ c t hc
      refine reads_goes ?_ t
      exact if_pos ((isExtensionChar_iff c).1 hc)
    · intro _ c t hc
      refine reads_stop rfl (fun hne => ?_) t
      exact (if_neg ((not_extensionChar_iff c).1 hc)).trans (if_neg hne)
  rw [hname]
  constructor
  · rintro ⟨name, t, rfl, hnames, h⟩
    obtain ⟨value, t, rfl, hvalues, h⟩ := (hvalue t).1 h
    obtain ⟨t, rfl, hsize, h⟩ := (reads_chunkSizeNewLine content [] 0 t).1 h
    exact ⟨name, value, t, rfl, hnames, hvalues, hsize, h⟩
  · rintro ⟨name, value, t, rfl, hnames, hvalues, hsize, h⟩
    refine ⟨name, value ++ (crlf ++ t), rfl, hnames, (hvalue _).2 ?_⟩
    refine ⟨value, '\n' :: t, rfl, hvalues, ?_⟩
    exact (reads_chunkSizeNewLine content [] 0 _).2 ⟨t, rfl, hsize, h⟩

/-- The first letter of a trailer. -/
theorem consume_trailerStart (content : Str) {c : Char} (hletter : c.isAlpha = true) :
    (onChunks resp size content [] 0 .chunkSizeNewLine2).consume heap c =
      (onChunks resp size content [] 0 .chunkTrailerName, .parsingIncompleted) := by
  have hcr : c ≠ '\r' := by
    rintro rfl
    cases hletter
  exact (if_neg hcr).trans (if_pos hletter)

/-- Behind the last chunk: the end, or one trailer. -/
theorem reads_behindLast_step {content : Str} (hfits : content.length ≤ heap) (text : Str) :
    Reads heap Q rest (onChunks resp size content [] 0 .chunkSizeNewLine2) text ↔
      (text = crlf ++ rest ∧ Q (onChunks resp size content [] 0 .chunkSizeNewLine3)) ∨
      ∃ (trailer : Trailer) (t : Str), text = trailer.wire ++ t ∧ True ∧
        Reads heap Q rest (onChunks resp size content [] 0 .chunkSizeNewLine2) t := by
  constructor
  · intro h
    cases text with
    | nil => exact absurd h (not_reads_nil _)
    | cons c text =>
        by_cases hcr : c = '\r'
        · subst hcr
          rw [reads_goes rfl] at h
          cases text with
          | nil => exact absurd h (not_reads_nil _)
          | cons c text =>
              by_cases hlf : c = '\n'
              · subst hlf
                obtain ⟨hQ, rfl⟩ := (completes_ends rfl text).1 h
                exact .inl ⟨rfl, hQ⟩
              · refine absurd h (not_reads ?_ text)
                exact if_neg hlf
        by_cases hletter : c.isAlpha = true
        · rw [reads_goes (consume_trailerStart content hletter)] at h
          obtain ⟨name, value, t, rfl, hname, hvalue, -, h⟩ := (reads_trailer content text).1 h
          refine .inr ⟨⟨c, name, value, hletter, hname, hvalue⟩, t, ?_, trivial, h⟩
          simp [Trailer.wire]
        · refine absurd h (not_reads ?_ text)
          exact (if_neg hcr).trans (if_neg hletter)
  · rintro (⟨rfl, hQ⟩ | ⟨⟨c, name, value, hletter, hname, hvalue⟩, t, rfl, -, h⟩)
    · exact (reads_goes rfl _).2 ((completes_ends rfl _).2 ⟨hQ, rfl⟩)
    · simp only [Trailer.wire, List.cons_append, List.append_assoc]
      rw [reads_goes (consume_trailerStart content hletter), reads_trailer]
      exact ⟨name, value, t, rfl, hname, hvalue, hfits, h⟩

/-- Behind the last chunk: trailers, and the end. -/
theorem reads_behindLast {content : Str} (hfits : content.length ≤ heap) (text : Str) :
    Reads heap Q rest (onChunks resp size content [] 0 .chunkSizeNewLine2) text ↔
      ∃ trailers : List Trailer, text = trailers.flatMap Trailer.wire ++ (crlf ++ rest) ∧
        Q (onChunks resp size content [] 0 .chunkSizeNewLine3) := by
  have hwire : ∀ trailer : Trailer, trailer.wire ≠ [] := fun _ => List.cons_ne_nil _ _
  have hstep : ∀ (_ : Unit) (text : Str),
      Reads heap Q rest (onChunks resp size content [] 0 .chunkSizeNewLine2) text ↔
      (text = crlf ++ rest ∧ Q (onChunks resp size content [] 0 .chunkSizeNewLine3)) ∨
      ∃ (trailer : Trailer) (t : Str), text = trailer.wire ++ t ∧ True ∧
        Reads heap Q rest (onChunks resp size content [] 0 .chunkSizeNewLine2) t :=
    fun _ => reads_behindLast_step hfits
  rw [accepts_repeat (fun _ _ => ()) hwire hstep ()]
  constructor
  · rintro ⟨trailers, _, rfl, -, rfl, hQ⟩
    exact ⟨trailers, rfl, hQ⟩
  · rintro ⟨trailers, rfl, hQ⟩
    exact ⟨trailers, _, rfl, along_of_forall (fun _ _ => trivial) _ _, rfl, hQ⟩

/-- The data of a chunk, and its line end. -/
theorem reads_data (content : Str) (n : Nat) (text : Str) :
    Reads heap Q rest (onChunks resp size content [] (n + 1) .chunkData) text ↔
      ∃ data t, text = data ++ (crlf ++ t) ∧ data.length = n + 1 ∧
        Reads heap Q rest (onChunks resp size (content ++ data) [] 0 .chunkSize) t := by
  have hend : ∀ content text,
      Reads heap Q rest (onChunks resp size content [] 0 .chunkDataNewLine1) text ↔
        ∃ t, text = crlf ++ t ∧
          Reads heap Q rest (onChunks resp size content [] 0 .chunkSize) t := by
    intro content text
    rw [reads_literal (onChunks resp size content [] 0 .chunkDataNewLine1)
      (onChunks resp size content [] 0 .chunkDataNewLine2) '\r' rfl fun c hc => if_neg hc]
    constructor
    · rintro ⟨t, rfl, h⟩
      rw [reads_literal (onChunks resp size content [] 0 .chunkDataNewLine2)
        (onChunks resp size content [] 0 .chunkSize) '\n' rfl fun c hc => if_neg hc] at h
      obtain ⟨t, rfl, h⟩ := h
      exact ⟨t, rfl, h⟩
    · rintro ⟨t, rfl, h⟩
      refine ⟨'\n' :: t, rfl, ?_⟩
      exact (reads_goes rfl t).2 h
  have hcount : Reads heap Q rest (onChunks resp size (content ++ []) [] (n + 1) .chunkData) text ↔
      ∃ data t, text = data ++ t ∧ data.length = n + 1 ∧
        Reads heap Q rest (onChunks resp size (content ++ data) [] 0 .chunkDataNewLine1) t := by
    refine accepts_count (fun k read => onChunks resp size (content ++ read) [] k .chunkData)
      (fun data t =>
        Reads heap Q rest (onChunks resp size (content ++ data) [] 0 .chunkDataNewLine1) t)
      (fun _ _ => not_reads_nil _) ?_ ?_ n [] text
    · intro k read c t
      refine reads_goes ?_ t
      rw [← List.append_assoc]
      rfl
    · intro read c t
      refine reads_goes ?_ t
      rw [← List.append_assoc]
      rfl
  rw [List.append_nil] at hcount
  rw [hcount]
  constructor
  · rintro ⟨data, t, rfl, hlength, h⟩
    obtain ⟨t, rfl, h⟩ := (hend _ t).1 h
    exact ⟨data, t, rfl, hlength, h⟩
  · rintro ⟨data, t, rfl, hlength, h⟩
    exact ⟨data, crlf ++ t, rfl, hlength, (hend _ _).2 ⟨t, rfl, h⟩⟩

/-- One chunk, or the last one and the end. -/
theorem reads_chunk_step (content text : Str) :
    Reads heap Q rest (onChunks resp size content [] 0 .chunkSize) text ↔
      (∃ last : LastChunk, text = last.wire ++ rest ∧ content.length ≤ heap ∧
        Q (onChunks resp size content [] 0 .chunkSizeNewLine3)) ∨
      ∃ (chunk : Chunk) (t : Str), text = chunk.wire ++ t ∧
        (content ++ chunk.data).length ≤ heap ∧
        Reads heap Q rest (onChunks resp size (content ++ chunk.data) [] 0 .chunkSize) t := by
  rw [reads_chunkLine]
  constructor
  · rintro ⟨line, t, rfl, hsize, h⟩
    rcases hnumber : strtolHex line.size with - | n
    · rw [hnumber] at hsize h
      obtain ⟨trailers, rfl, hQ⟩ := (reads_behindLast hsize t).1 h
      refine .inl ⟨⟨line, trailers, hnumber⟩, ?_, hsize, hQ⟩
      simp [LastChunk.wire]
    · rw [hnumber] at hsize h
      obtain ⟨data, t, rfl, hlength, h⟩ := (reads_data content n t).1 h
      have hne : data ≠ [] := List.ne_nil_of_length_eq_add_one hlength
      refine .inr ⟨⟨line, data, hlength.trans hnumber.symm, hne⟩, t, ?_, ?_, h⟩
      · simp [Chunk.wire]
      · rwa [List.length_append, hlength]
  · rintro (⟨⟨line, trailers, hzero⟩, rfl, hfits, hQ⟩ |
      ⟨⟨line, data, hlength, hne⟩, t, rfl, hfits, h⟩)
    · refine ⟨line, trailers.flatMap Trailer.wire ++ (crlf ++ rest), by simp [LastChunk.wire], ?_,
        ?_⟩
      · rwa [hzero]
      · rw [hzero]
        exact (reads_behindLast hfits _).2 ⟨trailers, rfl, hQ⟩
    · obtain ⟨n, hn⟩ := Nat.exists_eq_succ_of_ne_zero
        (Nat.ne_of_gt (List.length_pos_of_ne_nil hne))
      refine ⟨line, data ++ (crlf ++ t), by simp [Chunk.wire], ?_, ?_⟩
      · rwa [← hlength, ← List.length_append]
      · rw [← hlength, hn]
        exact (reads_data content n _).2 ⟨data, t, rfl, hn, h⟩

theorem runFrom_chunks (content : Str) (chunks : List Chunk) :
    runFrom (fun read chunk => read ++ chunk.data) content chunks =
      content ++ chunks.flatMap Chunk.data := by
  induction chunks generalizing content with
  | nil => rw [runFrom, List.flatMap_nil, List.append_nil]
  | cons chunk chunks ih => rw [runFrom, ih, List.flatMap_cons, List.append_assoc]

/-- Where all chunks fit into the memory, each does when it comes. -/
theorem along_chunks {content : Str} {chunks : List Chunk}
    (h : (content ++ chunks.flatMap Chunk.data).length ≤ heap) :
    Along (fun read (chunk : Chunk) => read ++ chunk.data)
      (fun read chunk => (read ++ chunk.data).length ≤ heap) content chunks := by
  induction chunks generalizing content with
  | nil => trivial
  | cons chunk chunks ih =>
      rw [List.flatMap_cons, ← List.append_assoc] at h
      refine ⟨?_, ih h⟩
      rw [List.length_append] at h
      exact Nat.le_trans (Nat.le_add_right _ _) h

/-- The body behind the header lines, chunk by chunk. -/
theorem reads_chunks (text : Str) :
    Reads heap Q rest (onChunks resp size [] [] 0 .chunkSize) text ↔
      ∃ (chunks : List Chunk) (last : LastChunk),
        text = chunks.flatMap Chunk.wire ++ (last.wire ++ rest) ∧
        (chunks.flatMap Chunk.data).length ≤ heap ∧
        Q (onChunks resp size (chunks.flatMap Chunk.data) [] 0 .chunkSizeNewLine3) := by
  have hwire : ∀ chunk : Chunk, chunk.wire ≠ [] := by simp [Chunk.wire, crlf]
  have hstep := @reads_chunk_step heap rest Q resp size
  rw [accepts_repeat (fun read chunk => read ++ chunk.data) hwire hstep []]
  constructor
  · rintro ⟨chunks, _, rfl, -, last, rfl, hfits, hQ⟩
    rw [runFrom_chunks, List.nil_append] at hfits hQ
    exact ⟨chunks, last, rfl, hfits, hQ⟩
  · rintro ⟨chunks, last, rfl, hfits, hQ⟩
    refine ⟨chunks, last.wire ++ rest, rfl, along_chunks hfits, last, rfl, ?_, ?_⟩
    · rwa [runFrom_chunks]
    · rwa [runFrom_chunks]

end Chunks

/-! ## A body of a stated length -/

/-- The parser in a body with this many bytes left, of which it has read `content`. -/
def onPost (resp : ParsedResponse) (left : Nat) (content : Str) : HttpResponseParser :=
  { fresh with state := .post, contentSize := left, resp := { resp with content := content } }

/-- The bytes of a body of a stated length. -/
theorem reads_post {Q : HttpResponseParser → Prop} (resp : ParsedResponse) (n : Nat) (text : Str) :
    Reads heap Q rest (onPost resp (n + 1) []) text ↔
      ∃ data, text = data ++ rest ∧ data.length = n + 1 ∧ Q (onPost resp 0 data) := by
  have hcount : Reads heap Q rest (onPost resp (n + 1) []) text ↔
      ∃ data t, text = data ++ t ∧ data.length = n + 1 ∧ Q (onPost resp 0 data) ∧ t = rest := by
    refine accepts_count (fun k read => onPost resp k read)
      (fun data t => Q (onPost resp 0 data) ∧ t = rest) (fun _ _ => not_reads_nil _) ?_ ?_ n [] text
    · intro k read c t
      refine reads_goes ?_ t
      rfl
    · intro read c t
      refine completes_ends ?_ t
      rfl
  rw [hcount]
  constructor
  · rintro ⟨data, _, rfl, hlength, hQ, rfl⟩
    exact ⟨data, rfl, hlength, hQ⟩
  · rintro ⟨data, rfl, hlength, hQ⟩
    exact ⟨data, rest, rfl, hlength, hQ, rfl⟩

/-! ## The body -/

theorem content_takeKeepAlive (resp : ParsedResponse) :
    resp.takeKeepAlive.content = resp.content := by
  obtain ⟨keepAlive, h⟩ := resp.takeKeepAlive_eq
  rw [h]

/-- A response without a body, with none. -/
theorem withContent_nil {resp : ParsedResponse} (h : resp.content = []) :
    { resp with content := [] } = resp := by
  rw [← h]

/-- The end of the headers. -/
theorem consume_endHeaders {resp : ParsedResponse} (b : HeaderBlock) (hresp : resp.content = [])
    (c : Char) :
    (onLines resp b .expectingNewline3).consume heap c =
      if b.chunked = true then
        (onChunks { resp with headers := b.headers }.takeKeepAlive b.contentSize [] [] 0 .chunkSize,
          .parsingIncompleted)
      else if b.contentSize = 0 then
        ({ onLines resp b .expectingNewline3 with
            resp := { resp with headers := b.headers }.takeKeepAlive },
          if c = '\n' then .parsingCompleted else .parsingError)
      else
        (onPost { resp with headers := b.headers }.takeKeepAlive b.contentSize [],
          .parsingIncompleted) := by
  show (if b.chunked = true then _ else if b.contentSize = 0 then
    (if c = '\n' then _ else _) else _) = _
  have hkept := withContent_nil
    ((content_takeKeepAlive { resp with headers := b.headers }).trans hresp)
  by_cases hchunked : b.chunked = true
  · rw [if_pos hchunked, if_pos hchunked, onChunks, hkept, ← hchunked]
    rfl
  rw [if_neg hchunked, if_neg hchunked]
  by_cases hzero : b.contentSize = 0
  · rw [if_pos hzero, if_pos hzero]
    split_ifs
    · rfl
    · rfl
  · have hplain : b.chunked = false := by simpa using hchunked
    rw [if_neg hzero, if_neg hzero, onPost, hkept, show fresh.chunked = b.chunked from hplain.symm]
    rfl

/-- The end of the headers, and the body they announce. -/
theorem reads_body {r resp : ParsedResponse} (b : HeaderBlock) (hresp : resp.content = [])
    (text : Str) :
    Reads heap (fun p => p.resp = r) rest (onLines resp b .expectingNewline3) text ↔
      ∃ body : Body, text = body.wire ++ rest ∧ body.Framed heap b ∧
        { { resp with headers := b.headers }.takeKeepAlive with content := body.content } = r := by
  cases text with
  | nil =>
      refine iff_of_false (not_reads_nil _) ?_
      rintro ⟨body, h, -⟩
      cases body with
      | empty => cases h
      | sized skipped data => cases h
      | chunked skipped chunks last => cases h
  | cons c text =>
      have hconsume := @consume_endHeaders heap resp b hresp c
      have hkept :=
        withContent_nil ((content_takeKeepAlive { resp with headers := b.headers }).trans hresp)
      by_cases hchunked : b.chunked = true
      · rw [if_pos hchunked] at hconsume
        rw [reads_goes hconsume, reads_chunks]
        constructor
        · rintro ⟨chunks, last, rfl, hfits, hr⟩
          exact ⟨.chunked c chunks last, by simp [Body.wire], ⟨hchunked, hfits⟩, hr⟩
        · rintro ⟨body, heq, hframed, hr⟩
          cases body with
          | empty => exact absurd hchunked (by rw [hframed.1]; exact Bool.false_ne_true)
          | sized skipped data =>
              exact absurd hchunked (by rw [hframed.1]; exact Bool.false_ne_true)
          | chunked skipped chunks last =>
              rw [Body.wire, List.cons_append, List.append_assoc] at heq
              cases heq
              exact ⟨chunks, last, rfl, hframed.2, hr⟩
      rw [if_neg hchunked] at hconsume
      have hplain : b.chunked = false := by simpa using hchunked
      by_cases hzero : b.contentSize = 0
      · rw [if_pos hzero] at hconsume
        constructor
        · intro h
          by_cases hc : c = '\n'
          · rw [if_pos hc] at hconsume
            obtain ⟨hr, rfl⟩ := (completes_ends hconsume text).1 h
            refine ⟨.empty, by rw [hc]; rfl, ⟨hplain, hzero⟩, ?_⟩
            exact hkept.trans hr
          · rw [if_neg hc] at hconsume
            exact absurd h (not_completes hconsume text)
        · rintro ⟨body, heq, hframed, hr⟩
          cases body with
          | empty =>
              cases heq
              exact (completes_ends hconsume _).2 ⟨hkept.symm.trans hr, rfl⟩
          | sized skipped data =>
              exact absurd (hframed.2.2.symm.trans hzero) (by simpa using hframed.2.1)
          | chunked skipped chunks last => exact absurd hframed.1 hchunked
      · rw [if_neg hzero] at hconsume
        obtain ⟨n, hn⟩ := Nat.exists_eq_succ_of_ne_zero hzero
        rw [hn] at hconsume
        rw [reads_goes hconsume, reads_post]
        constructor
        · rintro ⟨data, rfl, hlength, hr⟩
          exact ⟨.sized c data, rfl, ⟨hplain, List.ne_nil_of_length_eq_add_one hlength,
            hn.trans hlength.symm⟩, hr⟩
        · rintro ⟨body, heq, hframed, hr⟩
          cases body with
          | empty => exact absurd hframed.2 hzero
          | sized skipped data =>
              cases heq
              exact ⟨data, rfl, hframed.2.2.symm.trans hn, hr⟩
          | chunked skipped chunks last => exact absurd hframed.1 hchunked

/-! ## Messages -/

/-- An accepted message is completed, with the bytes behind it unread. -/
theorem completes_wire {heap : Nat} {m : WireMessage} (hm : m.Accepted heap) (rest : Str) :
    (parser heap).Completes (fun p => p.resp = m.response) rest (parser heap).start
      (m.wire ++ rest) := by
  obtain ⟨s, lines, body⟩ := m
  obtain ⟨halong, hframed⟩ := hm
  refine (reads_statusLine _).2
    ⟨s, lines.flatMap HeaderLine.wire ++ '\r' :: (body.wire ++ rest),
      by simp [WireMessage.wire], ?_⟩
  refine (reads_lines s.response (Nat.zero_le heap) _).2 ⟨lines, body.wire ++ rest, rfl, halong, ?_⟩
  exact (reads_body _ rfl _).2 ⟨body, rfl, hframed, rfl⟩

/-- **What the parser completes.** A response is complete exactly behind a message that is accepted,
with what the message says, and with the bytes behind it unread. -/
theorem parser_completes_iff (heap : Nat) (rest text : Str) (r : ParsedResponse) :
    (parser heap).Completes (fun p => p.resp = r) rest (parser heap).start text ↔
      ∃ m : WireMessage, text = m.wire ++ rest ∧ m.Accepted heap ∧ m.response = r := by
  constructor
  · intro h
    obtain ⟨s, t, rfl, hstatus⟩ := (@reads_statusLine heap (fun p => p.resp = r) rest text).1 h
    have hblock := @reads_lines heap (fun p => p.resp = r) rest s.response .start (Nat.zero_le heap)
    obtain ⟨lines, t, rfl, halong, hlines⟩ := (hblock t).1 hstatus
    obtain ⟨body, rfl, hframed, hr⟩ := (reads_body _ rfl t).1 hlines
    exact ⟨⟨s, lines, body⟩, by simp [WireMessage.wire], ⟨halong, hframed⟩, hr⟩
  · rintro ⟨m, rfl, hm, rfl⟩
    exact completes_wire hm rest

end HttpResponseParser

end Ssgx.Http
