import Ssgx.Http.ResponseParser
import Ssgx.Support.Run

/-!
# Responses on the wire

The messages that the response parser reads, part by part: a status line, header lines with their
continuations, and a body that is empty, of a stated length, or in chunks. Each part carries the
checks that the parser makes on it. `WireMessage.wire` is the text of a message and
`WireMessage.response` what the parser makes of it; how the body is framed depends on the header
lines, from the first to the last (`HeaderBlock`).
-/

set_option autoImplicit false

namespace Ssgx.Http

open Ssgx.Support

/-! ## The status line -/

/-- A text of digits, with one at least. -/
def IsNumber (text : Str) : Prop := text ≠ [] ∧ AllDigits text

/-- The bytes of a reason behind the first. -/
def isReasonChar (c : Char) : Bool := c ≠ '\r' && isChar c

/-- A reason: its first byte may be a line end. -/
def IsReason : Str → Prop
  | [] => False
  | c :: rest => isChar c = true ∧ ∀ b ∈ rest, isReasonChar b = true

/-- A status line. The status is the number of the digits as an `unsigned int` has it. -/
structure StatusLine where
  major : Str
  minor : Str
  code : Str
  reason : Str
  majorNumber : IsNumber major
  minorNumber : IsNumber minor
  codeNumber : IsNumber code
  codeRange : 100 ≤ ofDecimal code % 2 ^ 32 ∧ ofDecimal code % 2 ^ 32 ≤ 999
  phrase : IsReason reason

/-- The text of a status line. -/
def StatusLine.wire (s : StatusLine) : Str :=
  str "HTTP/" ++ (s.major ++ '.' :: (s.minor ++ ' ' :: (s.code ++ ' ' :: (s.reason ++ crlf))))

/-- The response behind a status line. -/
def StatusLine.response (s : StatusLine) : ParsedResponse :=
  { ParsedResponse.fresh with
    versionMajor := toInt32 (ofDecimal s.major)
    versionMinor := toInt32 (ofDecimal s.minor)
    statusCode := ofDecimal s.code % 2 ^ 32
    status := s.reason }

/-! ## The header lines -/

/-- `SP / HTAB`. -/
def isBlank (c : Char) : Bool := c = ' ' || c = '\t'

/-- A text without control characters. -/
def Clean (text : Str) : Prop := ∀ c ∈ text, isControl c = false

/-- The name of a header. -/
def IsName (text : Str) : Prop := text ≠ [] ∧ ∀ c ∈ text, isNameChar c = true

/-- The blanks before the continuation of a value. -/
def IsIndent (text : Str) : Prop := text ≠ [] ∧ ∀ c ∈ text, isBlank c = true

/-- A header line, or a line that continues the value of the one before it. -/
inductive HeaderLine where
  | field (name value : Str) (named : IsName name) (clean : Clean value)
  | fold (indent piece : Str) (blank : IsIndent indent) (clean : Clean piece)
      (starts : ∀ c ∈ piece.head?, isBlank c = false)

/-- The text of a line. -/
def HeaderLine.wire : HeaderLine → Str
  | .field name value _ _ => name ++ ':' :: ' ' :: (value ++ crlf)
  | .fold indent piece _ _ _ => indent ++ (piece ++ crlf)

/-- Whether a line needs one before it. -/
def HeaderLine.continues : HeaderLine → Bool
  | .field .. => false
  | .fold .. => true

/-- What the parser knows behind some header lines. -/
structure HeaderBlock where
  headers : List HeaderItem
  contentSize : Nat
  chunked : Bool

namespace HeaderBlock

/-- Before the first line. -/
def start : HeaderBlock := ⟨[], 0, false⟩

/-- The length and the coding from the header that was read last. -/
def take (b : HeaderBlock) : HeaderBlock :=
  match b.headers.getLast? with
  | none => b
  | some h =>
      if equalNoCase h.name (str "Content-Length") then
        { b with contentSize := toSize (atoi h.value) }
      else if equalNoCase h.name (str "Transfer-Encoding") then
        if equalNoCase h.value (str "chunked") then { b with chunked := true } else b
      else b

/-- A new header behind the others. -/
def push (b : HeaderBlock) (name value : Str) : HeaderBlock :=
  { b with headers := b.headers ++ [⟨name, value⟩] }

/-- The last value with a piece behind it. -/
def extend (b : HeaderBlock) (piece : Str) : HeaderBlock :=
  { b with headers := b.headers.modifyLast fun h => { h with value := h.value ++ piece } }

/-- The next line. A continuation without a text is skipped. -/
def line (b : HeaderBlock) : HeaderLine → HeaderBlock
  | .field name value _ _ => (b.push name value).take
  | .fold _ piece _ _ _ => if piece = [] then b else (b.extend piece).take

/-! The value of the last header grows piece by piece. -/

theorem exists_concat {b : HeaderBlock} (hb : b.headers ≠ []) :
    ∃ front h, b.headers = front ++ [h] := by
  rcases List.eq_nil_or_concat b.headers with h | ⟨front, h, heq⟩
  · exact absurd h hb
  · exact ⟨front, h, by rw [heq, List.concat_eq_append]⟩

theorem extend_nil {b : HeaderBlock} (hb : b.headers ≠ []) : b.extend [] = b := by
  obtain ⟨front, h, heq⟩ := exists_concat hb
  obtain ⟨headers, contentSize, chunked⟩ := b
  obtain rfl : headers = front ++ [h] := heq
  simp only [extend, List.modifyLast_concat, List.append_nil]

theorem extend_extend {b : HeaderBlock} (hb : b.headers ≠ []) (read piece : Str) :
    (b.extend read).extend piece = b.extend (read ++ piece) := by
  obtain ⟨front, h, heq⟩ := exists_concat hb
  simp only [extend, heq, List.modifyLast_concat, List.append_assoc]

theorem extend_ne_nil {b : HeaderBlock} (hb : b.headers ≠ []) (piece : Str) :
    (b.extend piece).headers ≠ [] := by
  obtain ⟨front, h, heq⟩ := exists_concat hb
  simp [extend, heq, List.modifyLast_concat]

/-- A new header with a value is a header without one, and its value. -/
theorem extend_push (b : HeaderBlock) (name value : Str) :
    (b.push name []).extend value = b.push name value := by
  simp only [extend, push, List.modifyLast_concat, List.nil_append]

theorem push_ne_nil (b : HeaderBlock) (name value : Str) : (b.push name value).headers ≠ [] :=
  List.append_ne_nil_of_right_ne_nil _ (List.cons_ne_nil _ _)

/-- A line can come next: there is a header to continue, and the memory has the length. -/
structure Admits (heap : Nat) (b : HeaderBlock) (line : HeaderLine) : Prop where
  continues : line.continues = true → b.headers ≠ []
  fits : (b.line line).contentSize ≤ heap

end HeaderBlock

/-! ## The body -/

/-- The bytes of the extension of a chunk and of the value of a trailer. -/
def isExtensionChar (c : Char) : Bool := isAlnum c || c = ' '

/-- The text between the size of a chunk and its line end. -/
inductive ChunkExtension where
  | absent
  | name (text : Str) (chars : ∀ c ∈ text, isExtensionChar c = true)
  | nameValue (text value : Str) (chars : ∀ c ∈ text, isExtensionChar c = true)
      (valueChars : ∀ c ∈ value, isExtensionChar c = true)

/-- The text of an extension. -/
def ChunkExtension.wire : ChunkExtension → Str
  | .absent => []
  | .name text _ => ';' :: text
  | .nameValue text value _ _ => ';' :: (text ++ '=' :: value)

/-- The line of the size of a chunk. -/
structure ChunkLine where
  size : Str
  extension : ChunkExtension
  chars : ∀ c ∈ size, isAlnum c = true

/-- The text of the line. -/
def ChunkLine.wire (l : ChunkLine) : Str := l.size ++ (l.extension.wire ++ crlf)

/-- A chunk with as many bytes as its line says. -/
structure Chunk where
  line : ChunkLine
  data : Str
  length_eq : data.length = strtolHex line.size
  ne : data ≠ []

/-- The text of a chunk. -/
def Chunk.wire (c : Chunk) : Str := c.line.wire ++ (c.data ++ crlf)

/-- A line behind the last chunk. -/
structure Trailer where
  first : Char
  name : Str
  value : Str
  firstChar : first.isAlpha = true
  nameChars : ∀ c ∈ name, isAlnum c = true
  valueChars : ∀ c ∈ value, isExtensionChar c = true

/-- The text of a trailer. -/
def Trailer.wire (t : Trailer) : Str := t.first :: (t.name ++ ':' :: (t.value ++ crlf))

/-- The last chunk, whose line does not say a positive number. -/
structure LastChunk where
  line : ChunkLine
  trailers : List Trailer
  zero : strtolHex line.size = 0

/-- The text of the last chunk and the trailers. -/
def LastChunk.wire (c : LastChunk) : Str :=
  c.line.wire ++ (c.trailers.flatMap Trailer.wire ++ crlf)

/-- The end of the headers and the body. Where there is a body, any byte stands for the line feed
behind the headers. -/
inductive Body where
  | empty
  | sized (skipped : Char) (data : Str)
  | chunked (skipped : Char) (chunks : List Chunk) (last : LastChunk)

/-- The text of a body. -/
def Body.wire : Body → Str
  | .empty => ['\n']
  | .sized skipped data => skipped :: data
  | .chunked skipped chunks last => skipped :: (chunks.flatMap Chunk.wire ++ last.wire)

/-- The bytes of a body. -/
def Body.content : Body → Str
  | .empty => []
  | .sized _ data => data
  | .chunked _ chunks _ => chunks.flatMap Chunk.data

/-- The header lines announce this body. -/
def Body.Framed (heap : Nat) (b : HeaderBlock) : Body → Prop
  | .empty => b.chunked = false ∧ b.contentSize = 0
  | .sized _ data => b.chunked = false ∧ data ≠ [] ∧ b.contentSize = data.length
  | .chunked _ chunks _ => b.chunked = true ∧ (chunks.flatMap Chunk.data).length ≤ heap

/-! ## Messages -/

/-- A response on the wire. -/
structure WireMessage where
  status : StatusLine
  lines : List HeaderLine
  body : Body

namespace WireMessage

/-- The text of a message. -/
def wire (m : WireMessage) : Str :=
  m.status.wire ++ (m.lines.flatMap HeaderLine.wire ++ '\r' :: m.body.wire)

/-- What the header lines say. -/
def block (m : WireMessage) : HeaderBlock := runFrom HeaderBlock.line .start m.lines

/-- The lines can follow each other, and announce the body. -/
structure Accepted (heap : Nat) (m : WireMessage) : Prop where
  lines : Along HeaderBlock.line (HeaderBlock.Admits heap) .start m.lines
  framed : m.body.Framed heap m.block

/-- The response that the parser makes of a message. -/
def response (m : WireMessage) : ParsedResponse :=
  { { m.status.response with headers := m.block.headers }.takeKeepAlive with
    content := m.body.content }

end WireMessage

end Ssgx.Http
