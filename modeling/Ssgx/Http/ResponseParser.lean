import Mathlib.Data.List.ModifyLast
import Ssgx.Http.ReadSplits
import Ssgx.Support.Digits

/-!
# The response parser

`HttpResponseParser` of `httpresponseparser.h`, one byte at a time, with the `Response` that it
fills. A `char` is signed, so the bytes from 128 on are neither `isChar` nor `isControl`. `reserve`
of the body throws where the memory does not have that many bytes (`heap`); the exception leaves
`parse` and the loop around it, which is a stop with `threw` here.
-/

set_option autoImplicit false

namespace Ssgx.Http

open Ssgx.Support

/-! ## The classes of bytes -/

/-- `isChar`. -/
def isChar (c : Char) : Bool := c.toNat ≤ 127

/-- `isControl`. -/
def isControl (c : Char) : Bool := c.toNat ≤ 31 || c.toNat = 127

/-- `isSpecial`. -/
def isSpecial (c : Char) : Bool := (str "()<>@,;:\\\"/[]?=\x7b\x7d \t").contains c

/-- The bytes of the name of a header. -/
def isNameChar (c : Char) : Bool := isChar c && !isControl c && !isSpecial c

/-- `isspace`. -/
def isSpace (c : Char) : Bool := c = ' ' || (9 ≤ c.toNat && c.toNat ≤ 13)

/-! ## Numbers -/

/-- `atoi`: `strtol`, which stops at the ends of a `long`, stored in an `int`. -/
def atoi (text : Str) : Int :=
  let number (digits : Str) : Nat := ofDecimal (digits.takeWhile Char.isDigit)
  match text.dropWhile isSpace with
  | '-' :: digits => toInt32 (-(min (number digits) (2 ^ 63) : Nat))
  | '+' :: digits => toInt32 (min (number digits) (2 ^ 63 - 1) : Nat)
  | digits => toInt32 (min (number digits) (2 ^ 63 - 1) : Nat)

/-- An `int` stored in a `size_t`. -/
def toSize (n : Int) : Nat := (n % 2 ^ 64).toNat

/-- The number of a hexadecimal digit. -/
def hexDigit? (c : Char) : Option Nat :=
  if c.isDigit then some (c.toNat - 48)
  else if 97 ≤ c.toNat ∧ c.toNat ≤ 102 then some (c.toNat - 87)
  else if 65 ≤ c.toNat ∧ c.toNat ≤ 70 then some (c.toNat - 55)
  else none

/-- The number of the hexadecimal digits at the beginning of a text, behind a number before it. -/
def hexValue (number : Nat) : Str → Nat
  | [] => number
  | c :: rest =>
      match hexDigit? c with
      | some digit => hexValue (16 * number + digit) rest
      | none => number

/-- `strtol` in base 16 of a text without blanks and signs. -/
def strtolHex (text : Str) : Nat :=
  let number : Nat :=
    match text with
    | '0' :: 'x' :: digits => hexValue 0 digits
    | '0' :: 'X' :: digits => hexValue 0 digits
    | digits => hexValue 0 digits
  min number (2 ^ 63 - 1)

/-- `strcasecmp(a, b) == 0`. -/
def equalNoCase (a b : Str) : Bool := lower a = lower b

/-! ## The response -/

/-- `Response::HeaderItem`. -/
structure HeaderItem where
  name : Str
  value : Str
deriving DecidableEq

/-- `httpparser::Response`. -/
structure ParsedResponse where
  versionMajor : Int
  versionMinor : Int
  headers : List HeaderItem
  content : Str
  keepAlive : Bool
  statusCode : Nat
  status : Str
deriving DecidableEq

namespace ParsedResponse

/-- A response as its constructor leaves it. -/
def fresh : ParsedResponse := ⟨0, 0, [], [], false, 0, []⟩

/-- `headers.back().name.push_back(input)`. -/
def pushName (resp : ParsedResponse) (input : Char) : ParsedResponse :=
  { resp with headers := resp.headers.modifyLast fun h => { h with name := h.name ++ [input] } }

/-- `headers.back().value.push_back(input)`. -/
def pushValue (resp : ParsedResponse) (input : Char) : ParsedResponse :=
  { resp with headers := resp.headers.modifyLast fun h => { h with value := h.value ++ [input] } }

/-- `keepAlive` from the first `Connection` header, or from the version. -/
def takeKeepAlive (resp : ParsedResponse) : ParsedResponse :=
  match resp.headers.find? fun item => equalNoCase item.name (str "Connection") with
  | some item => { resp with keepAlive := equalNoCase item.value (str "Keep-Alive") }
  | none =>
      if resp.versionMajor > 1 ∨ (resp.versionMajor = 1 ∧ resp.versionMinor = 1) then
        { resp with keepAlive := true }
      else resp

/-- Nothing else of the response changes. -/
theorem takeKeepAlive_eq (resp : ParsedResponse) :
    ∃ keepAlive, resp.takeKeepAlive = { resp with keepAlive := keepAlive } := by
  simp only [takeKeepAlive]
  split
  · exact ⟨_, rfl⟩
  · split_ifs
    · exact ⟨_, rfl⟩
    · exact ⟨resp.keepAlive, rfl⟩

end ParsedResponse

/-! ## The parser -/

/-- `HttpResponseParser::State`. -/
inductive ParserState where
  | responseStatusStart
  | responseHttpVersionHt
  | responseHttpVersionHtt
  | responseHttpVersionHttp
  | responseHttpVersionSlash
  | responseHttpVersionMajorStart
  | responseHttpVersionMajor
  | responseHttpVersionMinorStart
  | responseHttpVersionMinor
  | responseHttpVersionStatusCodeStart
  | responseHttpVersionStatusCode
  | responseHttpVersionStatusTextStart
  | responseHttpVersionStatusText
  | responseHttpVersionNewLine
  | headerLineStart
  | headerLws
  | headerName
  | spaceBeforeHeaderValue
  | headerValue
  | expectingNewline2
  | expectingNewline3
  | post
  | chunkSize
  | chunkExtensionName
  | chunkExtensionValue
  | chunkSizeNewLine
  | chunkSizeNewLine2
  | chunkSizeNewLine3
  | chunkTrailerName
  | chunkTrailerValue
  | chunkDataNewLine1
  | chunkDataNewLine2
  | chunkData
deriving DecidableEq

/-- `HttpResponseParser`, with the response that `parse` is given, and whether it has thrown. -/
structure HttpResponseParser where
  state : ParserState
  contentSize : Nat
  chunkSizeStr : Str
  chunkSize : Nat
  chunked : Bool
  resp : ParsedResponse
  threw : Bool
deriving DecidableEq

namespace HttpResponseParser

/-- A parser as its constructor leaves it, with a new response. -/
def fresh : HttpResponseParser := ⟨.responseStatusStart, 0, [], 0, false, .fresh, false⟩

/-- The next byte comes in this state. -/
def goTo (p : HttpResponseParser) (state : ParserState) : HttpResponseParser × ParseResult :=
  ({ p with state := state }, .parsingIncompleted)

/-- `return ParsingError`. -/
def error (p : HttpResponseParser) : HttpResponseParser × ParseResult := (p, .parsingError)

/-- `reserve` throws. -/
def throws (p : HttpResponseParser) : HttpResponseParser × ParseResult :=
  ({ p with threw := true }, .parsingError)

/-- The end of the value of a header: the length of the body and its coding are taken from it. There
is a header, and no text of it has a NUL (`HttpResponseParser.Sound`). -/
def endHeader (heap : Nat) (p : HttpResponseParser) : HttpResponseParser × ParseResult :=
  match p.resp.headers.getLast? with
  | none => p.goTo .expectingNewline2
  | some h =>
      if equalNoCase h.name (str "Content-Length") then
        let p := { p with contentSize := toSize (atoi h.value) }
        if heap < p.contentSize then p.throws else p.goTo .expectingNewline2
      else if equalNoCase h.name (str "Transfer-Encoding") then
        if equalNoCase h.value (str "chunked") then
          { p with chunked := true }.goTo .expectingNewline2
        else p.goTo .expectingNewline2
      else p.goTo .expectingNewline2

/-- `ExpectingNewline_3`. -/
def endHeaders (p : HttpResponseParser) (input : Char) : HttpResponseParser × ParseResult :=
  let p := { p with resp := p.resp.takeKeepAlive }
  -- where a body follows, the byte is not looked at
  if p.chunked then p.goTo .chunkSize
  else if p.contentSize = 0 then
    if input = '\n' then (p, .parsingCompleted) else p.error
  else p.goTo .post

/-- One round of the loop of `consume`. -/
def consume (heap : Nat) (p : HttpResponseParser) (input : Char) :
    HttpResponseParser × ParseResult :=
  match p.state with
  | .responseStatusStart => if input = 'H' then p.goTo .responseHttpVersionHt else p.error
  | .responseHttpVersionHt => if input = 'T' then p.goTo .responseHttpVersionHtt else p.error
  | .responseHttpVersionHtt => if input = 'T' then p.goTo .responseHttpVersionHttp else p.error
  | .responseHttpVersionHttp => if input = 'P' then p.goTo .responseHttpVersionSlash else p.error
  | .responseHttpVersionSlash =>
      if input = '/' then
        { p with resp.versionMajor := 0, resp.versionMinor := 0 }.goTo
          .responseHttpVersionMajorStart
      else p.error
  | .responseHttpVersionMajorStart =>
      if input.isDigit then
        { p with resp.versionMajor := (input.toNat - 48 : Nat) }.goTo .responseHttpVersionMajor
      else p.error
  | .responseHttpVersionMajor =>
      if input = '.' then p.goTo .responseHttpVersionMinorStart
      else if input.isDigit then
        { p with
          resp.versionMajor := toInt32 (p.resp.versionMajor * 10 + (input.toNat - 48 : Nat)) }.goTo
          .responseHttpVersionMajor
      else p.error
  | .responseHttpVersionMinorStart =>
      if input.isDigit then
        { p with resp.versionMinor := (input.toNat - 48 : Nat) }.goTo .responseHttpVersionMinor
      else p.error
  | .responseHttpVersionMinor =>
      if input = ' ' then
        { p with resp.statusCode := 0 }.goTo .responseHttpVersionStatusCodeStart
      else if input.isDigit then
        { p with
          resp.versionMinor := toInt32 (p.resp.versionMinor * 10 + (input.toNat - 48 : Nat)) }.goTo
          .responseHttpVersionMinor
      else p.error
  | .responseHttpVersionStatusCodeStart =>
      if input.isDigit then
        { p with resp.statusCode := input.toNat - 48 }.goTo .responseHttpVersionStatusCode
      else p.error
  | .responseHttpVersionStatusCode =>
      if input.isDigit then
        { p with
          resp.statusCode := (p.resp.statusCode * 10 + (input.toNat - 48)) % 2 ^ 32 }.goTo
          .responseHttpVersionStatusCode
      else if p.resp.statusCode < 100 ∨ p.resp.statusCode > 999 then p.error
      else if input = ' ' then p.goTo .responseHttpVersionStatusTextStart
      else p.error
  | .responseHttpVersionStatusTextStart =>
      if isChar input then
        { p with resp.status := p.resp.status ++ [input] }.goTo .responseHttpVersionStatusText
      else p.error
  | .responseHttpVersionStatusText =>
      if input = '\r' then p.goTo .responseHttpVersionNewLine
      else if isChar input then
        { p with resp.status := p.resp.status ++ [input] }.goTo .responseHttpVersionStatusText
      else p.error
  | .responseHttpVersionNewLine => if input = '\n' then p.goTo .headerLineStart else p.error
  | .headerLineStart =>
      if input = '\r' then p.goTo .expectingNewline3
      else if !p.resp.headers.isEmpty && (input = ' ' || input = '\t') then p.goTo .headerLws
      else if !isChar input || isControl input || isSpecial input then p.error
      else { p with resp.headers := p.resp.headers ++ [HeaderItem.mk [input] []] }.goTo .headerName
  | .headerLws =>
      if input = '\r' then p.goTo .expectingNewline2
      else if input = ' ' ∨ input = '\t' then p.goTo .headerLws
      else if isControl input then p.error
      else { p with resp := p.resp.pushValue input }.goTo .headerValue
  | .headerName =>
      if input = ':' then p.goTo .spaceBeforeHeaderValue
      else if !isChar input || isControl input || isSpecial input then p.error
      else { p with resp := p.resp.pushName input }.goTo .headerName
  | .spaceBeforeHeaderValue => if input = ' ' then p.goTo .headerValue else p.error
  | .headerValue =>
      if input = '\r' then p.endHeader heap
      else if isControl input then p.error
      else { p with resp := p.resp.pushValue input }.goTo .headerValue
  | .expectingNewline2 => if input = '\n' then p.goTo .headerLineStart else p.error
  | .expectingNewline3 => p.endHeaders input
  | .post =>
      let p := { p with
        contentSize := p.contentSize - 1, resp.content := p.resp.content ++ [input] }
      if p.contentSize = 0 then (p, .parsingCompleted) else p.goTo .post
  | .chunkSize =>
      if isAlnum input then
        { p with chunkSizeStr := p.chunkSizeStr ++ [input] }.goTo .chunkSize
      else if input = ';' then p.goTo .chunkExtensionName
      else if input = '\r' then p.goTo .chunkSizeNewLine
      else p.error
  | .chunkExtensionName =>
      if isAlnum input ∨ input = ' ' then p.goTo .chunkExtensionName
      else if input = '=' then p.goTo .chunkExtensionValue
      else if input = '\r' then p.goTo .chunkSizeNewLine
      else p.error
  | .chunkExtensionValue =>
      if isAlnum input ∨ input = ' ' then p.goTo .chunkExtensionValue
      else if input = '\r' then p.goTo .chunkSizeNewLine
      else p.error
  | .chunkSizeNewLine =>
      if input = '\n' then
        let p := { p with chunkSize := strtolHex p.chunkSizeStr, chunkSizeStr := [] }
        -- both are below `2^63`, so the sum does not wrap
        if heap < p.resp.content.length + p.chunkSize then p.throws
        else if p.chunkSize = 0 then p.goTo .chunkSizeNewLine2
        else p.goTo .chunkData
      else p.error
  | .chunkSizeNewLine2 =>
      if input = '\r' then p.goTo .chunkSizeNewLine3
      else if input.isAlpha then p.goTo .chunkTrailerName
      else p.error
  | .chunkSizeNewLine3 => if input = '\n' then (p, .parsingCompleted) else p.error
  | .chunkTrailerName =>
      if isAlnum input then p.goTo .chunkTrailerName
      else if input = ':' then p.goTo .chunkTrailerValue
      else p.error
  | .chunkTrailerValue =>
      if isAlnum input ∨ input = ' ' then p.goTo .chunkTrailerValue
      else if input = '\r' then p.goTo .chunkSizeNewLine
      else p.error
  | .chunkDataNewLine1 => if input = '\r' then p.goTo .chunkDataNewLine2 else p.error
  | .chunkDataNewLine2 => if input = '\n' then p.goTo .chunkSize else p.error
  | .chunkData =>
      let p := { p with
        resp.content := p.resp.content ++ [input], chunkSize := p.chunkSize - 1 }
      if p.chunkSize = 0 then p.goTo .chunkDataNewLine1 else p.goTo .chunkData

/-- The parser that `http_read` feeds. -/
def parser (heap : Nat) : ResponseParser HttpResponseParser := ⟨.fresh, consume heap⟩

end HttpResponseParser

end Ssgx.Http
