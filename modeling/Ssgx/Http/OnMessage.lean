import Ssgx.Http.Json

/-!
# What the host's texts can do before a request is handled

`ssgx_ecall_http_on_message` up to the call of `Process`: the checks of its texts, the two decodings
into one request, the lookup of the server. The `try` block of the call begins behind them, so an
exception of a decoder leaves the call.

`decoders_end_iff` says for which texts the decoders end in a boolean, and for which messages the
call comes to its `try` block or to an error code.
-/

set_option autoImplicit false

namespace Ssgx.Http

open Ssgx.Support

/-- The texts of a message. A missing one is a null pointer; each is the text of a C string. -/
structure Message where
  serverId : Option Str
  method : Option Str
  path : Option Str
  paramsJson : Option Str
  headersJson : Option Str
  body : Option Str

/-- What the call has before its `try` block. -/
inductive Admission (S : Type) where
  | refused (code : Int)
  | admitted (server : S)

variable {S : Type}

/-- A decoding that is skipped without a text. -/
def readJson (parse : JsonParser) : Option Str → Call JsonException Request Bool
  | some text => Request.fromJsonStr parse text
  | none => pure true

/-- The method, the path and the body of the message, over those of the decoders. -/
def Request.fill (m : Message) (r : Request) : Request :=
  let r := r.setMethod (m.method.getD [])
  let r := r.setPath (m.path.getD [])
  match m.body with
  | some body => if body.length > 0 then r.setBody body else r
  | none => r

/-- The call behind the checks of its three names. `query` is the registry of servers. -/
def prepareNamed (parse : JsonParser) (query : Str → Option S) (m : Message) :
    Call JsonException Request (Admission S) := do
  let headersRead ← readJson parse m.headersJson
  if headersRead = false then pure (.refused (-4))
  else do
    let paramsRead ← readJson parse m.paramsJson
    if paramsRead = false then pure (.refused (-5))
    else
      match query (m.serverId.getD []) with
      | none => pure (.refused (-6))
      | some server => do
          Call.update (Request.fill m)
          pure (.admitted server)

/-- `ssgx_ecall_http_on_message` up to its `try` block. -/
def prepareMessage (parse : JsonParser) (query : Str → Option S) (m : Message) :
    Call JsonException Request (Admission S) :=
  if isNonEmptyString m.serverId = false then pure (.refused (-1))
  else if isNonEmptyString m.method = false then pure (.refused (-2))
  else if isNonEmptyString m.path = false then pure (.refused (-3))
  else prepareNamed parse query m

/-! ## The intended end of a decoder -/

/-- **The intended end.** The call ends in a boolean, and where it is `false` the object is as
before. -/
def EndsInBoolean {M : Type} (x : Call JsonException M Bool) (m : M) : Prop :=
  (∃ b, (x m).1 = .ok b) ∧ ((x m).1 = .ok false → (x m).2 = m)

/-- The text of a request has no document, or one of the kinds that `FromJsonStr` reads. -/
def Request.Readable (parse : JsonParser) (text : Str) : Prop :=
  ∀ root, parse (upTo nul text) = some root → Request.WellTyped root

/-- The text of a response has no document, or one of the kinds that `FromJsonStrWithoutBody`
reads. -/
def Response.Readable (parse : JsonParser) (text : Str) : Prop :=
  ∀ root, parse text = some root → Response.WellTyped root

/-- A text that is there has no document. -/
def Unparsable (parse : JsonParser) (json : Option Str) : Prop :=
  ∃ text, json = some text ∧ parse (upTo nul text) = none

/-- The message has its three names, and then its headers are readable and, unless they have no
document, its parameters are. -/
def Message.Readable (parse : JsonParser) (m : Message) : Prop :=
  isNonEmptyString m.serverId = true → isNonEmptyString m.method = true →
    isNonEmptyString m.path = true →
      (∀ text, m.headersJson = some text → Request.Readable parse text) ∧
        (¬ Unparsable parse m.headersJson →
          ∀ text, m.paramsJson = some text → Request.Readable parse text)

/-- A decoding that gives `true` where it ends normally ends as intended exactly where it does. -/
theorem endsInBoolean_iff {M : Type} {x : Call JsonException M Bool} {m : M}
    {result : Except JsonException PUnit} (h : (x m).1 = result.map fun _ => true) :
    EndsInBoolean x m ↔ result = .ok ⟨⟩ := by
  simp only [EndsInBoolean]
  rw [h]
  cases result with
  | ok u => simp [Except.map]
  | error e => simp [Except.map]

theorem Request.endsInBoolean_iff (parse : JsonParser) (text : Str) (r : Request) :
    EndsInBoolean (fromJsonStr parse text) r ↔ Readable parse text := by
  simp only [Readable]
  cases hparse : parse (upTo nul text) with
  | none =>
      simp only [EndsInBoolean]
      rw [fromJsonStr_of_none hparse]
      simp
  | some root =>
      rw [Http.endsInBoolean_iff (congrArg Prod.fst (fromJsonStr_of_some hparse r)),
        (decode_spec root r).1]
      simp

theorem Response.endsInBoolean_iff (parse : JsonParser) (text : Str) (r : Response) :
    EndsInBoolean (fromJsonStrWithoutBody parse text) r ↔ Readable parse text := by
  simp only [Readable]
  cases hparse : parse text with
  | none =>
      simp only [EndsInBoolean]
      rw [fromJsonStrWithoutBody_of_none hparse]
      simp
  | some root =>
      rw [Http.endsInBoolean_iff (congrArg Prod.fst (fromJsonStrWithoutBody_of_some hparse r)),
        (decode_spec root r).1]
      simp

/-! ## The message -/

/-- How a decoding of the message ends. -/
theorem readJson_cases (parse : JsonParser) (json : Option Str) (r : Request) :
    (Unparsable parse json ∧ readJson parse json r = (.ok false, r)) ∨
      (¬ Unparsable parse json ∧ (∀ text, json = some text → Request.Readable parse text) ∧
        ∃ r', readJson parse json r = (.ok true, r')) ∨
      ((¬ ∀ text, json = some text → Request.Readable parse text) ∧
        ∃ e r', readJson parse json r = (.error e, r')) := by
  cases json with
  | none =>
      -- without a text nothing is parsed
      refine .inr (.inl ⟨?_, fun _ h => (nomatch h), r, rfl⟩)
      rintro ⟨text, h, -⟩
      cases h
  | some text =>
      cases hparse : parse (upTo nul text) with
      | none => exact .inl ⟨⟨text, rfl, hparse⟩, Request.fromJsonStr_of_none hparse r⟩
      | some root =>
          have hread := Request.fromJsonStr_of_some hparse r
          have hdecode := (Request.decode_spec root r).1
          have hnot : ¬ Unparsable parse (some text) := by
            rintro ⟨text', h, hnone⟩
            cases h
            rw [hparse] at hnone
            cases hnone
          -- a text that is parsed ends as the decoding of its document does
          cases hresult : (Request.decode root r).1 with
          | ok u =>
              refine .inr (.inl ⟨hnot, ?_, (Request.decode root r).2, ?_⟩)
              · intro text' htext root' hroot
                cases htext
                rw [hparse] at hroot
                cases hroot
                exact hdecode.1 hresult
              · rw [readJson, hread, hresult]
                rfl
          | error e =>
              refine .inr (.inr ⟨?_, e, (Request.decode root r).2, ?_⟩)
              · intro hall
                have hok := hdecode.2 (hall text rfl root hparse)
                rw [hresult] at hok
                cases hok
              · rw [readJson, hread, hresult]
                rfl

/-- A text without a document is readable. -/
theorem Unparsable.readable {parse : JsonParser} {json : Option Str} (h : Unparsable parse json) :
    ∀ text, json = some text → Request.Readable parse text := by
  obtain ⟨text, rfl, hparse⟩ := h
  intro text' htext root hroot
  cases htext
  rw [hparse] at hroot
  cases hroot

/-- The call with its three names comes to an end exactly when its texts are readable. -/
theorem prepareNamed_ends_iff (parse : JsonParser) (query : Str → Option S) (m : Message)
    (r : Request) :
    (∃ a, (prepareNamed parse query m r).1 = .ok a) ↔
      (∀ text, m.headersJson = some text → Request.Readable parse text) ∧
        (¬ Unparsable parse m.headersJson →
          ∀ text, m.paramsJson = some text → Request.Readable parse text) := by
  simp only [prepareNamed]
  rcases readJson_cases parse m.headersJson r with
    ⟨hnone, hread⟩ | ⟨hsome, hreadable, r', hread⟩ | ⟨hnot, e, r', hread⟩
  -- the headers have no document: the call is refused
  · rw [Call.bind_of_ok hread]
    exact iff_of_true ⟨.refused (-4), rfl⟩ ⟨hnone.readable, fun h => absurd hnone h⟩
  · rw [Call.bind_of_ok hread, if_neg (by simp)]
    rcases readJson_cases parse m.paramsJson r' with
      ⟨hnone, hparams⟩ | ⟨-, hparamsReadable, r'', hparams⟩ | ⟨hparamsNot, e, r'', hparams⟩
    · rw [Call.bind_of_ok hparams]
      exact iff_of_true ⟨.refused (-5), rfl⟩ ⟨hreadable, fun _ => hnone.readable⟩
    · rw [Call.bind_of_ok hparams, if_neg (by simp)]
      refine iff_of_true ?_ ⟨hreadable, fun _ => hparamsReadable⟩
      cases query (m.serverId.getD []) with
      | none => exact ⟨.refused (-6), rfl⟩
      | some server => exact ⟨.admitted server, rfl⟩
    -- the parameters are of another kind: the exception leaves the call
    · rw [Call.bind_of_error hparams]
      exact iff_of_false (by simp) fun h => hparamsNot (h.2 hsome)
  · rw [Call.bind_of_error hread]
    exact iff_of_false (by simp) fun h => hnot h.1

/-- **Which messages come to their `try` block or to an error code.** -/
theorem prepareMessage_ends_iff (parse : JsonParser) (query : Str → Option S) (m : Message)
    (r : Request) :
    (∃ a, (prepareMessage parse query m r).1 = .ok a) ↔ m.Readable parse := by
  simp only [prepareMessage, Message.Readable]
  by_cases hid : isNonEmptyString m.serverId = false
  · rw [if_pos hid]
    exact iff_of_true ⟨.refused (-1), rfl⟩ (by simp [hid])
  rw [if_neg hid]
  by_cases hmethod : isNonEmptyString m.method = false
  · rw [if_pos hmethod]
    exact iff_of_true ⟨.refused (-2), rfl⟩ (by simp [hmethod])
  rw [if_neg hmethod]
  by_cases hpath : isNonEmptyString m.path = false
  · rw [if_pos hpath]
    exact iff_of_true ⟨.refused (-3), rfl⟩ (by simp [hpath])
  rw [if_neg hpath]
  rw [Bool.not_eq_false] at hid hmethod hpath
  refine (prepareNamed_ends_iff parse query m r).trans ?_
  simp [hid, hmethod, hpath]

/-- **When the host's texts cannot raise an exception.** A decoder ends as intended exactly on a
readable text, and a message comes to its `try` block or to an error code exactly when it is
readable. -/
theorem decoders_end_iff (parse : JsonParser) :
    (∀ text r, EndsInBoolean (Request.fromJsonStr parse text) r ↔ Request.Readable parse text) ∧
      (∀ text r, EndsInBoolean (Response.fromJsonStrWithoutBody parse text) r ↔
        Response.Readable parse text) ∧
      ∀ (query : Str → Option S) (m : Message),
        (∃ a, (prepareMessage parse query m .fresh).1 = .ok a) ↔ m.Readable parse :=
  ⟨Request.endsInBoolean_iff parse, Response.endsInBoolean_iff parse,
    fun query m => prepareMessage_ends_iff parse query m .fresh⟩

/-- The library's reading of a text whose `method` is a number. -/
def numberForMethod : JsonParser := fun text =>
  if text = str "\x7b\"method\":1\x7d" then some (.object [(str "method", .integer 1)]) else none

/-- Headers with a number for the method raise an exception in both the decoder and the call. -/
theorem number_for_method_throws :
    ¬ EndsInBoolean (Request.fromJsonStr numberForMethod (str "\x7b\"method\":1\x7d")) .fresh ∧
      (prepareMessage numberForMethod (fun _ => some ())
        ⟨some (str "1_u"), some (str "GET"), some (str "/"), none,
          some (str "\x7b\"method\":1\x7d"), none⟩ .fresh).1 = .error .typeError := by
  constructor
  · rintro ⟨⟨b, hb⟩, -⟩
    have hthrows : (Request.fromJsonStr numberForMethod (str "\x7b\"method\":1\x7d") .fresh).1 =
        .error .typeError := by rfl
    rw [hthrows] at hb
    cases hb
  · rfl

end Ssgx.Http
