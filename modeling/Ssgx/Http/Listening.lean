import Mathlib.Data.List.TakeWhile
import Ssgx.Http.CarriedRequest
import Ssgx.Http.ResponseDelivery
import Ssgx.Http.SentResponse

/-!
# What a listener reads and writes

The library under the listener: it reads the bytes of a request, gives the handler the target as
`Poco::URI` decodes it, and writes the bytes of the response that the handler sends. Poco is a
parameter; `Poco.Works` says what is asked of it.

`Sends.message` says when the bytes of a sent response are a message that the client's parser
accepts, and what that message holds.
-/

set_option autoImplicit false

namespace Ssgx.Http

open Ssgx.Support

/-! ## The library -/

/-- The parts of Poco between a connection and the handler. -/
structure Poco where
  /-- The limits on the lengths and the number of the lines of a request. -/
  withinLimits : Str → Str → List (Str × Str) → Bool
  /-- `Poco::URI` -/
  uri : Str → Option Uri
  /-- `HTTPServerRequest` from the bytes of a request. -/
  receive : Str → Option HttpServerRequest
  /-- The bytes of a response. -/
  send : SentResponse → Str

/-- The characters of a path that `Poco::URI` leaves alone. -/
def isPlainPathChar (c : Char) : Bool := isUnreserved c || c = '/'

/-- A path and parameters whose characters stand for themselves. -/
structure PlainTarget (path : Str) (params : List (Str × Str)) : Prop where
  path : ∀ c ∈ path, isPlainPathChar c = true
  names : ∀ item ∈ params, ∀ c ∈ item.1, isUnreserved c = true
  values : ∀ item ∈ params, ∀ c ∈ item.2, isUnreserved c = true

/-- The names of the headers that the listener has set before the handler is called. -/
def ownNames : List Str := [str "date", str "server", str "connection", str "keep-alive"]

/-- The line of a header. -/
def headerText (item : Str × Str) : Str := item.1 ++ ':' :: ' ' :: (item.2 ++ crlf)

/-- The bytes of a response: a status line with some reason, the headers of the response among those
of the listener, and the body. -/
structure Sends (sent : SentResponse) (own headers : List (Str × Str)) (text : Str) : Prop where
  named : ∀ item ∈ own, lower item.1 ∈ ownNames ∧ IsName item.1 ∧ Clean item.2
  -- a header of the handler replaces one of the listener
  distinct : Keyed.Distinct lower (own ++ sent.headers)
  perm : headers.Perm (own ++ sent.headers)
  text : ∃ reason, IsReason reason ∧ text = str "HTTP/1.1 " ++ (decimal sent.status.toNat ++
    ' ' :: (reason ++ crlf) ++ (headers.flatMap headerText ++ crlf ++ sent.body))

/-- The length among the headers is that of the body. -/
def SentResponse.Measured (sent : SentResponse) : Prop :=
  ∃ text, Keyed.find lower (str "Content-Length") sent.headers = some text ∧
    Denotes text sent.body.length

/-- What is asked of Poco. -/
structure Poco.Works (poco : Poco) : Prop where
  receives : ∀ text (read : Support.Request), parseRequest text = some (read, []) →
    poco.withinLimits read.head.method read.head.target read.head.pairs = true →
    poco.receive text =
      some ⟨read.head.method, poco.uri read.head.target, read.head.pairs, read.body⟩
  targets : ∀ path params, path.head? = some '/' → PlainTarget path params →
    poco.uri (pathWithParams path (paramTexts params)) = some ⟨path, params⟩
  sends : ∀ sent : SentResponse, 0 ≤ sent.status → Keyed.Distinct lower sent.headers →
    sent.Measured → ∃ own headers, Sends sent own headers (poco.send sent)

/-! ## Lengths -/

/-- The number of a text of digits that fits into an `int`. -/
theorem toSize_atoi {text : Str} {n : Nat} (h : Denotes text n) (hn : n < 2 ^ 31) :
    toSize (atoi text) = n := by
  obtain ⟨hne, hdigits, hvalue⟩ := h
  obtain ⟨c, rest, rfl⟩ := List.exists_cons_of_ne_nil hne
  have hcode := (isDigit_iff c).1 (hdigits c List.mem_cons_self)
  -- a digit is neither a blank nor a sign
  have hother : ∀ d : Char, d.toNat < 48 → c ≠ d := by
    rintro d hd rfl
    omega
  have hspace : isSpace c = false := by
    have hcontrol : 13 < c.toNat := by omega
    simp [isSpace, hother ' ' (by decide), hcontrol]
  have hskip : (c :: rest).dropWhile isSpace = c :: rest := by
    rw [List.dropWhile_cons, hspace]
    rfl
  have hall : (c :: rest).takeWhile Char.isDigit = c :: rest :=
    List.takeWhile_eq_self_iff.2 hdigits
  have hnumber : atoi (c :: rest) = toInt32 (min n (2 ^ 63 - 1) : Nat) := by
    simp only [atoi, hskip]
    split
    · next heq => exact absurd (List.cons.inj heq).1 (hother '-' (by decide))
    · next heq => exact absurd (List.cons.inj heq).1 (hother '+' (by decide))
    · rw [hall, hvalue]
  rw [hnumber, Nat.min_eq_left (by omega), toInt32, Int.bmod_eq_of_le (by omega) (by omega), toSize]
  omega

/-! ## Header lines -/

/-- What a block of lines must know behind some headers: the length, once it is given. -/
structure HeaderBlock.Knows (b : HeaderBlock) (items : List (Str × Str)) (n : Nat)
    (e : HeaderBlock) : Prop where
  headers : e.headers = b.headers ++ items.map fun item => ⟨item.1, item.2⟩
  chunked : e.chunked = b.chunked
  contentSize : e.contentSize =
    if (Keyed.find lower (str "Content-Length") items).isSome then n else b.contentSize

/-- A header of a response whose lines announce a body of `n` bytes. -/
structure Announces (n : Nat) (item : Str × Str) : Prop where
  named : IsName item.1
  clean : Clean item.2
  coding : lower item.1 ≠ lower (str "Transfer-Encoding")
  length : lower item.1 = lower (str "Content-Length") → toSize (atoi item.2) = n

/-- One line. -/
theorem HeaderBlock.knows_line (b : HeaderBlock) {n : Nat} {item : Str × Str}
    (h : Announces n item) :
    b.Knows [item] n (b.line (.field item.1 item.2 h.named h.clean)) := by
  have hlast : (b.push item.1 item.2).headers.getLast? = some ⟨item.1, item.2⟩ :=
    List.getLast?_concat
  have htake : b.line (.field item.1 item.2 h.named h.clean) =
      if equalNoCase item.1 (str "Content-Length") then
        { b.push item.1 item.2 with contentSize := toSize (atoi item.2) }
      else if equalNoCase item.1 (str "Transfer-Encoding") then
        if equalNoCase item.2 (str "chunked") then { b.push item.1 item.2 with chunked := true }
        else b.push item.1 item.2
      else b.push item.1 item.2 := by
    simp only [HeaderBlock.line, HeaderBlock.take, hlast]
  have hcoding : ¬ equalNoCase item.1 (str "Transfer-Encoding") = true := fun heq =>
    h.coding (of_decide_eq_true heq)
  rw [htake, if_neg hcoding]
  by_cases hlength : lower item.1 = lower (str "Content-Length")
  · have heq : equalNoCase item.1 (str "Content-Length") = true := decide_eq_true hlength
    rw [if_pos heq]
    refine ⟨rfl, rfl, ?_⟩
    rw [Keyed.find, if_pos hlength]
    exact h.length hlength
  · have hne : ¬ equalNoCase item.1 (str "Content-Length") = true := fun heq =>
      hlength (of_decide_eq_true heq)
    rw [if_neg hne]
    refine ⟨rfl, rfl, ?_⟩
    rw [Keyed.find, if_neg hlength]
    rfl

/-- Lines for some headers: their text, that they can follow each other, and what they say. -/
theorem HeaderBlock.lines_of_items {heap n : Nat} (hn : n ≤ heap) {items : List (Str × Str)}
    (hitems : ∀ item ∈ items, Announces n item) (b : HeaderBlock) (hb : b.contentSize ≤ heap) :
    ∃ lines : List HeaderLine, lines.flatMap HeaderLine.wire = items.flatMap headerText ∧
      Along HeaderBlock.line (HeaderBlock.Admits heap) b lines ∧
      b.Knows items n (runFrom HeaderBlock.line b lines) := by
  induction items generalizing b with
  | nil => exact ⟨[], rfl, trivial, (List.append_nil _).symm, rfl, rfl⟩
  | cons item rest ih =>
      obtain ⟨hitem, hrest⟩ := List.forall_mem_cons.1 hitems
      have hline := b.knows_line hitem
      have hfits : (b.line (.field item.1 item.2 hitem.named hitem.clean)).contentSize ≤ heap := by
        rw [hline.contentSize]
        split
        · exact hn
        · exact hb
      obtain ⟨lines, htext, halong, hknows⟩ := ih hrest _ hfits
      refine ⟨.field item.1 item.2 hitem.named hitem.clean :: lines, ?_, ⟨⟨?_, hfits⟩, halong⟩,
        ?_, ?_, ?_⟩
      · rw [List.flatMap_cons, List.flatMap_cons, htext]
        rfl
      · intro h
        cases h
      · exact hknows.headers.trans (by rw [hline.headers, List.append_assoc]; rfl)
      · exact hknows.chunked.trans hline.chunked
      · refine hknows.contentSize.trans ?_
        rw [hline.contentSize]
        by_cases hlength : lower item.1 = lower (str "Content-Length")
        · have hfound : ∀ more, Keyed.find lower (str "Content-Length") (item :: more) =
              some item.2 := fun more => if_pos hlength
          simp only [hfound, Option.isSome_some, if_true, ite_self]
        · have hother : ∀ more, Keyed.find lower (str "Content-Length") (item :: more) =
              Keyed.find lower (str "Content-Length") more := fun more => if_neg hlength
          have hnone : Keyed.find lower (str "Content-Length")
              ([] : List (Str × Str)) = none := rfl
          simp only [hother, hnone, Option.isSome_none, Bool.false_eq_true, if_false]

/-! ## The message of a response -/

/-- What the first header of a name is called is what the map of the names has. -/
theorem find_headerItems (key : Str) (items : List (Str × Str)) :
    ((items.map fun item => (⟨item.1, item.2⟩ : HeaderItem)).find? fun item =>
      equalNoCase item.name key).map HeaderItem.value = Keyed.find lower key items := by
  induction items with
  | nil => rfl
  | cons item rest ih =>
      rw [List.map_cons, List.find?_cons, Keyed.find]
      by_cases hkey : lower item.1 = lower key
      · have heq : equalNoCase item.1 key = true := decide_eq_true hkey
        rw [if_pos hkey, heq]
        rfl
      · have hne : equalNoCase item.1 key = false := decide_eq_false hkey
        rw [if_neg hkey, hne]
        exact ih

/-- A response that the client can read. -/
structure SentResponse.Readable (sent : SentResponse) (heap : Nat) : Prop where
  status : 100 ≤ sent.status ∧ sent.status ≤ 999
  items : ∀ item ∈ sent.headers, IsName item.1 ∧ Clean item.2
  coding : Keyed.find lower (str "Transfer-Encoding") sent.headers = none
  measured : sent.Measured
  size : sent.body.length < 2 ^ 31
  fits : sent.body.length ≤ heap

/-- Every line of the response announces the length of its body. -/
theorem Sends.announces {sent : SentResponse} {own headers : List (Str × Str)} {text : Str}
    {heap : Nat} (h : Sends sent own headers text) (hsent : sent.Readable heap) :
    ∀ item ∈ headers, Announces sent.body.length item := by
  intro item hitem
  rcases List.mem_append.1 (h.perm.mem_iff.1 hitem) with hown | hmem
  · obtain ⟨hname, hnamed, hclean⟩ := h.named item hown
    refine ⟨hnamed, hclean, fun heq => ?_, fun heq => ?_⟩
    · rw [heq] at hname
      exact absurd hname (by decide)
    · rw [heq] at hname
      exact absurd hname (by decide)
  · obtain ⟨hnamed, hclean⟩ := hsent.items item hmem
    refine ⟨hnamed, hclean, Keyed.find_eq_none_iff.1 hsent.coding item hmem, fun heq => ?_⟩
    obtain ⟨length, hfind, hdenotes⟩ := hsent.measured
    have hdistinct : Keyed.Distinct lower sent.headers :=
      h.distinct.sublist ((List.sublist_append_right own sent.headers).map _)
    have hvalue := (Keyed.find_eq_some_iff hdistinct).2 ⟨item, hmem, heq, rfl⟩
    obtain rfl : item.2 = length := Option.some.inj (hvalue.symm.trans hfind)
    exact toSize_atoi hdenotes hsent.size

/-- **The bytes of a response are a message.** The client's parser accepts it; it has the status and
the body of the response, and each of its headers. -/
theorem Sends.message {sent : SentResponse} {own headers : List (Str × Str)} {text : Str}
    {heap : Nat} (h : Sends sent own headers text) (hsent : sent.Readable heap) :
    ∃ m : WireMessage, m.wire = text ∧ m.Accepted heap ∧
      (ofDecimal m.status.code % 2 ^ 32 : Nat) = sent.status ∧ m.body.content = sent.body ∧
      ∀ key value, Keyed.find lower key sent.headers = some value →
        (m.block.headers.find? fun item => equalNoCase item.name key).map HeaderItem.value =
          some value := by
  obtain ⟨reason, hreason, htext⟩ := h.text
  obtain ⟨lines, hlines, halong, hknows⟩ := HeaderBlock.lines_of_items hsent.fits
    (h.announces hsent) .start (Nat.zero_le heap)
  have hcode : ofDecimal (decimal sent.status.toNat) % 2 ^ 32 = sent.status.toNat := by
    have hhigh := hsent.status.2
    rw [ofDecimal_decimal]
    omega
  have hrange : 100 ≤ ofDecimal (decimal sent.status.toNat) % 2 ^ 32 ∧
      ofDecimal (decimal sent.status.toNat) % 2 ^ 32 ≤ 999 := by
    have hstatus := hsent.status
    rw [hcode]
    omega
  let status : StatusLine := ⟨str "1", str "1", decimal sent.status.toNat, reason, one_number,
    one_number, ⟨decimal_ne_nil _, allDigits_decimal _⟩, hrange, hreason⟩
  -- the length is among the headers
  have hlength : (Keyed.find lower (str "Content-Length") headers).isSome := by
    obtain ⟨length, hfind, -⟩ := hsent.measured
    rw [Keyed.find_perm h.distinct h.perm, Keyed.find_append, hfind]
    cases Keyed.find lower (str "Content-Length") own with
    | none => rfl
    | some value => rfl
  have hcontent := hknows.contentSize
  rw [if_pos hlength] at hcontent
  have hchunked : (runFrom HeaderBlock.line .start lines).chunked = false := hknows.chunked
  have hblock : (runFrom HeaderBlock.line .start lines).headers =
      headers.map fun item => ⟨item.1, item.2⟩ := hknows.headers
  have hfind : ∀ key value, Keyed.find lower key sent.headers = some value →
      ((runFrom HeaderBlock.line .start lines).headers.find? fun item =>
        equalNoCase item.name key).map HeaderItem.value = some value := by
    intro key value hvalue
    rw [hblock, find_headerItems, Keyed.find_perm h.distinct h.perm]
    have hmem := (Keyed.find_eq_some_iff (h.distinct.sublist
      ((List.sublist_append_right own sent.headers).map _))).1 hvalue
    obtain ⟨item, hitem, hkey, hitemValue⟩ := hmem
    exact (Keyed.find_eq_some_iff h.distinct).2
      ⟨item, List.mem_append_right own hitem, hkey, hitemValue⟩
  have hstatus : ((ofDecimal (decimal sent.status.toNat) % 2 ^ 32 : Nat) : Int) = sent.status := by
    have hlow := hsent.status.1
    rw [hcode]
    omega
  by_cases hbody : sent.body = []
  · refine ⟨⟨status, lines, .empty⟩, ?_, ⟨halong, hchunked, ?_⟩, hstatus, hbody.symm, hfind⟩
    · rw [htext, hbody]
      simp [WireMessage.wire, StatusLine.wire, Body.wire, status, hlines, crlf, str]
    · exact hcontent.trans (by rw [hbody]; rfl)
  · refine ⟨⟨status, lines, .sized '\n' sent.body⟩, ?_, ⟨halong, hchunked, hbody, hcontent⟩,
      hstatus, rfl, hfind⟩
    rw [htext]
    simp [WireMessage.wire, StatusLine.wire, Body.wire, status, hlines, crlf, str]

end Ssgx.Http
