import Mathlib.Data.List.DropRight
import Ssgx.Support.Text

/-!
# Requests of HTTP/1.1

The message grammar of a request, as a parser. A `Field`, a `RequestHead` and a `Request` carry the
checks of the grammar, so that the parser has nothing else to return: names are tokens, values have
no line ends and no blanks around them, the target is a path with an optional query, and the body is
as long as the fields say.

`parseRequest_text` reads back what `Request.text` writes, with whatever follows left over. A body
is framed by `Content-Length` alone: a message with a transfer coding is not read.
-/

set_option autoImplicit false

namespace Ssgx.Support

/-! ## Characters -/

/-- `tchar`. -/
def isTchar (c : Char) : Bool := c.isAlphanum || (str "!#$%&'*+-.^_`|~").contains c

/-- `token`. -/
def isToken (text : Str) : Bool := !text.isEmpty && text.all isTchar

/-- `SP / HTAB`. -/
def isOws (c : Char) : Bool := c = ' ' || c = '\t'

/-- The characters of a field value: `VCHAR`, `obs-text`, `SP` and `HTAB`. -/
def isFieldChar (c : Char) : Bool := c = '\t' || (' '.val ≤ c.val && c.val ≠ 127)

/-- The text without the blanks around it. -/
def trimOws (text : Str) : Str := (text.dropWhile isOws).rdropWhile isOws

/-- `field-value`. -/
def isFieldValue (text : Str) : Bool := text.all isFieldChar && decide (trimOws text = text)

/-- `HEXDIG`. -/
def isHexDigit (c : Char) : Bool :=
  c.isDigit || (str "abcdefABCDEF").contains c

/-- The characters of a path and a query, less the encoded ones. -/
def isTargetChar (c : Char) : Bool := c.isAlphanum || (str "-._~!$&'()*+,;=:@/?").contains c

/-- Segments and a query. -/
def isTargetText : Str → Bool
  | [] => true
  | '%' :: a :: b :: rest => isHexDigit a && isHexDigit b && isTargetText rest
  | c :: rest => isTargetChar c && isTargetText rest

/-- `origin-form`. -/
def isOriginForm (text : Str) : Bool := text.head? = some '/' && isTargetText text

/-! ## Messages -/

/-- A field line. -/
structure Field where
  name : Str
  value : Str
  token : isToken name = true
  valid : isFieldValue value = true
deriving DecidableEq

/-- The name and the value of a field. -/
def Field.pair (field : Field) : Str × Str := (field.name, field.value)

/-- The request line and the field lines. -/
structure RequestHead where
  method : Str
  target : Str
  fields : List Field
  token : isToken method = true
  originForm : isOriginForm target = true
deriving DecidableEq

/-- The names and the values of the fields. -/
def RequestHead.pairs (head : RequestHead) : List (Str × Str) := head.fields.map Field.pair

/-- Whether a field has this name, which is in lower case. -/
def hasName (key : Str) (pair : Str × Str) : Bool := lower pair.1 = key

/-- The number of bytes of the body, where the fields say one. -/
def bodyLength (pairs : List (Str × Str)) : Option Nat :=
  if pairs.any (hasName (str "transfer-encoding")) then none
  else
    match pairs.filter (hasName (str "content-length")) with
    | [] => some 0
    | [pair] =>
        if !pair.2.isEmpty && pair.2.all Char.isDigit then some (ofDecimal pair.2) else none
    | _ => none

/-- A request. -/
structure Request where
  head : RequestHead
  body : Str
  framed : bodyLength head.pairs = some body.length
deriving DecidableEq

/-- The version in the request line. -/
def httpVersion : Str := str "HTTP/1.1"

/-- The line of a name and a value, without its end. -/
def pairText (pair : Str × Str) : Str := pair.1 ++ (str ": " ++ pair.2)

/-- A field line without its end. -/
def Field.text (field : Field) : Str := pairText field.pair

/-- The request line without its end. -/
def RequestHead.line (head : RequestHead) : Str :=
  head.method ++ ' ' :: (head.target ++ ' ' :: httpVersion)

/-- Lines, each with its end. -/
def linesText (lines : List Str) : Str := lines.flatMap (· ++ crlf)

/-- The head of a request, with the empty line that ends it. -/
def RequestHead.text (head : RequestHead) : Str :=
  linesText (head.line :: head.fields.map Field.text) ++ crlf

/-- A request as a client sends it. -/
def Request.text (request : Request) : Str := request.head.text ++ request.body

/-! ## The parser -/

/-- The lines up to the first empty one, behind the beginning of a line. -/
def headLines : Str → Str → Option (List Str × Str)
  | [], _ => none
  | '\r' :: '\n' :: rest, line =>
      if line.isEmpty then some ([], rest)
      else (headLines rest []).map fun lines => (line :: lines.1, lines.2)
  | c :: rest, line => headLines rest (line ++ [c])

/-- A field line. -/
def parseField (line : Str) : Option Field :=
  if h : isToken (upTo ':' line) = true ∧ isFieldValue (trimOws (behind ':' line)) = true then
    if ':' ∈ line then some ⟨upTo ':' line, trimOws (behind ':' line), h.1, h.2⟩ else none
  else none

/-- The head of a request from its lines. -/
def parseLines (first : Str) (lines : List Str) : Option RequestHead :=
  if h : isToken (upTo ' ' first) = true ∧ isOriginForm (upTo ' ' (behind ' ' first)) = true then
    if behind ' ' (behind ' ' first) = httpVersion then
      (lines.mapM parseField).map fun fields =>
        ⟨upTo ' ' first, upTo ' ' (behind ' ' first), fields, h.1, h.2⟩
    else none
  else none

/-- The head of a request, and what follows it. -/
def parseHead (text : Str) : Option (RequestHead × Str) :=
  match headLines text [] with
  | some (first :: lines, rest) => (parseLines first lines).map fun head => (head, rest)
  | _ => none

/-- A request, and what follows it. -/
def parseRequest (text : Str) : Option (Request × Str) :=
  match parseHead text with
  | none => none
  | some (head, rest) =>
      match h : bodyLength head.pairs with
      | none => none
      | some length =>
          if hlength : length ≤ rest.length then
            some (⟨head, rest.take length,
              by rw [h, List.length_take, Nat.min_eq_left hlength]⟩, rest.drop length)
          else none

/-! ## What the checks exclude -/

theorem not_mem_of_all {p : Char → Bool} {text : Str} {c : Char} (h : text.all p = true)
    (hc : p c = false) : c ∉ text := by
  intro hmem
  rw [List.all_eq_true.1 h c hmem] at hc
  cases hc

theorem not_mem_token {text : Str} {c : Char} (h : isToken text = true) (hc : isTchar c = false) :
    c ∉ text := by
  rw [isToken, Bool.and_eq_true] at h
  exact not_mem_of_all h.2 hc

theorem token_ne_nil {text : Str} (h : isToken text = true) : text ≠ [] := by
  rintro rfl
  cases h

theorem not_mem_value {text : Str} {c : Char} (h : isFieldValue text = true)
    (hc : isFieldChar c = false) : c ∉ text := by
  rw [isFieldValue, Bool.and_eq_true] at h
  exact not_mem_of_all h.1 hc

/-- A character that stands neither for itself nor in an encoded one. -/
theorem not_mem_targetText {text : Str} {c : Char} (h : isTargetText text = true)
    (hc : isTargetChar c = false) (hpercent : c ≠ '%') (hhex : isHexDigit c = false) :
    c ∉ text := by
  induction text using isTargetText.induct with
  | case1 => exact List.not_mem_nil
  -- an encoded character: two hexadecimal digits behind a `%`
  | case2 a b rest ih =>
      simp only [isTargetText, Bool.and_eq_true] at h
      obtain ⟨⟨ha, hb⟩, hrest⟩ := h
      have hca : c ≠ a := by
        rintro rfl
        rw [ha] at hhex
        cases hhex
      have hcb : c ≠ b := by
        rintro rfl
        rw [hb] at hhex
        cases hhex
      simp only [List.mem_cons, not_or]
      exact ⟨hpercent, hca, hcb, ih hrest⟩
  | case3 d rest hno ih =>
      rw [isTargetText] at h
      · rw [Bool.and_eq_true] at h
        have hcd : c ≠ d := by
          rintro rfl
          rw [h.1] at hc
          cases hc
        simp only [List.mem_cons, not_or]
        exact ⟨hcd, ih h.2⟩
      · exact hno

theorem not_mem_target {text : Str} {c : Char} (h : isOriginForm text = true)
    (hc : isTargetChar c = false) (hpercent : c ≠ '%') (hhex : isHexDigit c = false) :
    c ∉ text := by
  rw [isOriginForm, Bool.and_eq_true] at h
  exact not_mem_targetText h.2 hc hpercent hhex

/-! ## Lines -/

/-- A line and its end. -/
theorem headLines_line {line : Str} (h : '\r' ∉ line) (front rest : Str) :
    headLines (line ++ (crlf ++ rest)) front =
      if (front ++ line).isEmpty then some ([], rest)
      else (headLines rest []).map fun lines => ((front ++ line) :: lines.1, lines.2) := by
  induction line generalizing front with
  | nil =>
      rw [List.append_nil]
      exact headLines.eq_2 front rest
  | cons c line ih =>
      have hne : c ≠ '\r' := fun heq => h (heq ▸ List.mem_cons_self)
      have hline : '\r' ∉ line := fun hmem => h (List.mem_cons_of_mem _ hmem)
      rw [List.cons_append, headLines.eq_3 front c _ (fun _ hc _ => hne hc), ih hline,
        List.append_assoc, List.singleton_append]

/-- Lines that are written are read. -/
theorem headLines_text {lines : List Str} (h : ∀ line ∈ lines, line ≠ [] ∧ '\r' ∉ line)
    (rest : Str) : headLines (linesText lines ++ (crlf ++ rest)) [] = some (lines, rest) := by
  induction lines with
  | nil => exact headLines_line List.not_mem_nil [] rest
  | cons line lines ih =>
      obtain ⟨hsome, hcr⟩ := h line List.mem_cons_self
      have hrest := ih fun l hmem => h l (List.mem_cons_of_mem _ hmem)
      have hwhole : linesText (line :: lines) ++ (crlf ++ rest) =
          line ++ (crlf ++ (linesText lines ++ (crlf ++ rest))) := by
        simp only [linesText, List.flatMap_cons, List.append_assoc]
      rw [hwhole, headLines_line hcr, List.nil_append, if_neg (by simpa using hsome), hrest]
      rfl

/-- The first line that is read is the front of the text. -/
theorem headLines_first {text front first rest : Str} {lines : List Str}
    (h : headLines text front = some (first :: lines, rest)) :
    ∃ tail, front ++ text = first ++ (crlf ++ tail) := by
  induction text, front using headLines.induct with
  | case1 front => cases h
  | case2 after front hempty =>
      rw [headLines, if_pos hempty] at h
      cases h
  | case3 after front hempty ih =>
      rw [headLines, if_neg hempty] at h
      obtain ⟨⟨lines', rest'⟩, -, heq⟩ := Option.map_eq_some_iff.1 h
      cases heq
      exact ⟨_, rfl⟩
  | case4 c after front hno ih =>
      rw [headLines.eq_3 front c after hno] at h
      obtain ⟨tail, htail⟩ := ih h
      rw [List.append_assoc, List.singleton_append] at htail
      exact ⟨tail, htail⟩

/-! ## Fields -/

theorem trimOws_cons_blank {c : Char} (hc : isOws c = true) (text : Str) :
    trimOws (c :: text) = trimOws text := by
  simp only [trimOws]
  rw [List.dropWhile_cons_of_pos hc]

theorem Field.noColon (field : Field) : ':' ∉ field.name := not_mem_token field.token (by decide)

/-- A text without blanks is a field value if its characters are those of one. -/
theorem isFieldValue_of_all {text : Str}
    (h : ∀ c ∈ text, isFieldChar c = true ∧ isOws c = false) : isFieldValue text = true := by
  have hows : ∀ c ∈ text, ¬ isOws c = true := fun c hc => by simp [(h c hc).2]
  have hfront : text.dropWhile isOws = text := by
    cases text with
    | nil => rfl
    | cons c rest => exact List.dropWhile_cons_of_neg (hows c List.mem_cons_self)
  have hback : text.rdropWhile isOws = text :=
    List.rdropWhile_eq_self_iff.2 fun hne => hows _ (List.getLast_mem hne)
  rw [isFieldValue, Bool.and_eq_true, decide_eq_true_eq, trimOws, hfront, hback]
  exact ⟨List.all_eq_true.2 fun c hc => (h c hc).1, rfl⟩

/-- A letter or a digit stands in field values, and is no blank. -/
theorem isFieldChar_of_isAlphanum {c : Char} (h : c.isAlphanum = true) :
    isFieldChar c = true ∧ isOws c = false := by
  have hblank : isOws c = false := by
    by_contra hows
    simp only [isOws, Bool.not_eq_false, Bool.or_eq_true, decide_eq_true_eq] at hows
    rcases hows with rfl | rfl
    · exact absurd h (by decide)
    · exact absurd h (by decide)
  have hdel : c.val ≠ 127 := by
    intro heq
    have hc : c = Char.ofNat 127 := Char.ext heq
    rw [hc] at h
    exact absurd h (by decide)
  -- letters and digits lie above the blank
  have hspace : ' '.val ≤ c.val := by
    rcases Bool.or_eq_true_iff.1 h with halpha | hdigit
    · rcases Bool.or_eq_true_iff.1 halpha with hupper | hlower
      · have hbounds : 'A'.val ≤ c.val ∧ c.val ≤ 'Z'.val := of_decide_eq_true hupper
        exact UInt32.le_trans (by decide) hbounds.1
      · have hlow : 'a'.val ≤ c.val := of_decide_eq_true (Bool.and_eq_true_iff.1 hlower).1
        exact UInt32.le_trans (by decide) hlow
    · have hlow : '0'.val ≤ c.val := of_decide_eq_true (Bool.and_eq_true_iff.1 hdigit).1
      exact UInt32.le_trans (by decide) hlow
  refine ⟨?_, hblank⟩
  rw [isFieldChar, decide_eq_true hspace, Bool.true_and, Bool.or_eq_true]
  exact Or.inr (by simpa using hdel)

/-- A field line that is written is read. -/
theorem parseField_text (field : Field) : parseField field.text = some field := by
  obtain ⟨name, value, token, valid⟩ := field
  have hcolon : ':' ∉ name := not_mem_token token (by decide)
  have hname : upTo ':' (name ++ (str ": " ++ value)) = name := upTo_split hcolon _
  have hvalue : trimOws (behind ':' (name ++ (str ": " ++ value))) = value := by
    have hbehind : behind ':' (name ++ (str ": " ++ value)) = ' ' :: value := behind_split hcolon _
    have htrim := valid
    rw [isFieldValue, Bool.and_eq_true, decide_eq_true_eq] at htrim
    rw [hbehind, trimOws_cons_blank (by decide)]
    exact htrim.2
  have hmem : ':' ∈ name ++ (str ": " ++ value) :=
    List.mem_append_right _ (List.mem_append_left _ (by decide))
  simp only [parseField, Field.text, pairText, Field.pair]
  simp only [hname, hvalue, token, valid, and_self, dite_true, if_pos hmem]

theorem mapM_parseField_text (fields : List Field) :
    (fields.map Field.text).mapM parseField = some fields := by
  induction fields with
  | nil => rfl
  | cons field fields ih =>
      rw [List.map_cons, List.mapM_cons, parseField_text, ih]
      rfl

theorem Field.text_ne_nil (field : Field) : field.text ≠ [] := by
  intro h
  exact token_ne_nil field.token (List.append_eq_nil_iff.1 h).1

theorem Field.noCr (field : Field) : '\r' ∉ field.text := by
  have hname := not_mem_token field.token (show isTchar '\r' = false by decide)
  have hvalue := not_mem_value field.valid (show isFieldChar '\r' = false by decide)
  have hcolon : '\r' ∉ str ": " := by decide
  simp [Field.text, pairText, Field.pair, hname, hcolon, hvalue]

/-- The fields with these names and values. -/
theorem exists_fields {pairs : List (Str × Str)}
    (h : ∀ pair ∈ pairs, isToken pair.1 = true ∧ isFieldValue pair.2 = true) :
    ∃ fields : List Field, fields.map Field.pair = pairs := by
  induction pairs with
  | nil => exact ⟨[], rfl⟩
  | cons pair pairs ih =>
      obtain ⟨htoken, hvalue⟩ := h pair List.mem_cons_self
      obtain ⟨fields, hfields⟩ := ih fun p hmem => h p (List.mem_cons_of_mem _ hmem)
      refine ⟨⟨pair.1, pair.2, htoken, hvalue⟩ :: fields, ?_⟩
      rw [List.map_cons, hfields]
      rfl

/-- The names and the values of fields pass the checks. -/
theorem RequestHead.pairs_ok (head : RequestHead) :
    ∀ pair ∈ head.pairs, isToken pair.1 = true ∧ isFieldValue pair.2 = true := by
  intro pair hmem
  obtain ⟨field, -, rfl⟩ := List.mem_map.1 hmem
  exact ⟨field.token, field.valid⟩

theorem RequestHead.text_eq (head : RequestHead) :
    head.text = linesText (head.line :: head.pairs.map pairText) ++ crlf := by
  rw [RequestHead.text, RequestHead.pairs, List.map_map]
  rfl

/-! ## The head -/

theorem RequestHead.noSpace (head : RequestHead) : ' ' ∉ head.method ∧ ' ' ∉ head.target :=
  ⟨not_mem_token head.token (by decide),
    not_mem_target head.originForm (by decide) (by decide) (by decide)⟩

theorem RequestHead.line_noCr (head : RequestHead) : '\r' ∉ head.line := by
  have hmethod := not_mem_token head.token (show isTchar '\r' = false by decide)
  have htarget : '\r' ∉ head.target :=
    not_mem_target head.originForm (by decide) (by decide) (by decide)
  have hversion : '\r' ∉ httpVersion := by decide
  simp [RequestHead.line, hmethod, htarget, hversion]

theorem parseLines_text (head : RequestHead) :
    parseLines head.line (head.fields.map Field.text) = some head := by
  obtain ⟨hmethod, htarget⟩ := head.noSpace
  have hfirst : upTo ' ' head.line = head.method := upTo_split hmethod _
  have hbehind : behind ' ' head.line = head.target ++ ' ' :: httpVersion := behind_split hmethod _
  have hsecond : upTo ' ' (behind ' ' head.line) = head.target := by
    rw [hbehind, upTo_split htarget]
  have hversion : behind ' ' (behind ' ' head.line) = httpVersion := by
    rw [hbehind, behind_split htarget]
  simp only [parseLines]
  rw [dif_pos ⟨hfirst.symm ▸ head.token, hsecond.symm ▸ head.originForm⟩, if_pos hversion,
    mapM_parseField_text]
  simp only [hfirst, hsecond, Option.map_some]

/-- **A head that is written is read**, up to where it ends. -/
theorem parseHead_text (head : RequestHead) (rest : Str) :
    parseHead (head.text ++ rest) = some (head, rest) := by
  have hlines : ∀ line ∈ head.line :: head.fields.map Field.text, line ≠ [] ∧ '\r' ∉ line := by
    intro line hmem
    rcases List.mem_cons.1 hmem with rfl | hmem
    · refine ⟨?_, head.line_noCr⟩
      intro h
      exact token_ne_nil head.token (List.append_eq_nil_iff.1 h).1
    · obtain ⟨field, -, rfl⟩ := List.mem_map.1 hmem
      exact ⟨field.text_ne_nil, field.noCr⟩
  simp only [parseHead, RequestHead.text]
  rw [List.append_assoc, headLines_text hlines]
  simp only [parseLines_text, Option.map_some]

/-- The text of a head begins with the line of the method and the target that are read. -/
theorem parseHead_line {text rest : Str} {head : RequestHead}
    (h : parseHead text = some (head, rest)) :
    ∃ tail, text =
      head.method ++ ' ' :: (head.target ++ ' ' :: (httpVersion ++ (crlf ++ tail))) := by
  simp only [parseHead] at h
  split at h
  · next first lines rest' hlines =>
      obtain ⟨tail, htail⟩ := headLines_first hlines
      obtain ⟨head', hparse, heq⟩ := Option.map_eq_some_iff.1 h
      cases heq
      simp only [parseLines] at hparse
      by_cases hok : isToken (upTo ' ' first) = true ∧
          isOriginForm (upTo ' ' (behind ' ' first)) = true
      · rw [dif_pos hok] at hparse
        by_cases hversion : behind ' ' (behind ' ' first) = httpVersion
        · rw [if_pos hversion] at hparse
          obtain ⟨fields, -, heq⟩ := Option.map_eq_some_iff.1 hparse
          cases heq
          have hspace : ' ' ∈ first := by
            by_contra hno
            rw [behind_of_not_mem hno] at hversion
            cases hversion
          have hspace' : ' ' ∈ behind ' ' first := by
            by_contra hno
            rw [behind_of_not_mem hno] at hversion
            cases hversion
          refine ⟨tail, ?_⟩
          -- the version is not empty, so both blanks of the line were there
          have hsplit : first =
              upTo ' ' first ++ ' ' :: (upTo ' ' (behind ' ' first) ++ ' ' :: httpVersion) := by
            rw [← hversion, upTo_behind hspace', upTo_behind hspace]
          rw [List.nil_append] at htail
          rw [htail]
          simp only
          nth_rewrite 1 [hsplit]
          simp only [List.append_assoc, List.cons_append]
        · rw [if_neg hversion] at hparse
          cases hparse
      · rw [dif_neg hok] at hparse
        cases hparse
  · cases h

/-! ## The request -/

/-- A request is read where its head is, and the body the fields announce is there. -/
theorem parseRequest_eq_some_iff {text rest : Str} {request : Request} :
    parseRequest text = some (request, rest) ↔
      parseHead text = some (request.head, request.body ++ rest) := by
  simp only [parseRequest]
  cases hhead : parseHead text with
  | none => simp
  | some parsed =>
      obtain ⟨head, after⟩ := parsed
      simp only [Option.some.injEq, Prod.mk.injEq]
      split
      · next hlength =>
          constructor
          · intro h
            cases h
          · rintro ⟨rfl, -⟩
            rw [request.framed] at hlength
            cases hlength
      · next length hlength =>
          constructor
          · intro h
            split_ifs at h with hle
            · cases h
              exact ⟨rfl, (List.take_append_drop length after).symm⟩
          · rintro ⟨rfl, rfl⟩
            rw [request.framed] at hlength
            cases hlength
            rw [dif_pos (by simp)]
            obtain ⟨head, body, framed⟩ := request
            simp

/-- **A request that is written is read**, and what follows it is left over. -/
theorem parseRequest_text (request : Request) (rest : Str) :
    parseRequest (request.text ++ rest) = some (request, rest) := by
  rw [parseRequest_eq_some_iff, Request.text, List.append_assoc]
  exact parseHead_text request.head _

end Ssgx.Support
