import Ssgx.Http.Message
import Ssgx.Support.Call

/-!
# Decoding requests and responses

`Request::FromJsonStr` and `Response::FromJsonStrWithoutBody`. Only the parse of the text stands in
a `try` block; the accesses to the document behind it may throw, and what was stored before stays.

The JSON library is a parameter: `JsonParser` gives the document of a text, or nothing where it
throws a parse error. What an access to a document does is written out below.
-/

set_option autoImplicit false

namespace Ssgx.Http

open Ssgx.Support

/-- A JSON document. Of a number that is not an integer only its integral part is kept. -/
inductive Json where
  | null
  | bool (value : Bool)
  | integer (value : Int)
  | float (integral : Int)
  | string (text : Str)
  | array (elements : List Json)
  | object (members : List (Str × Json))

/-- `nlohmann::json::parse`: nothing where it throws. -/
abbrev JsonParser := Str → Option Json

/-- The exceptions of an access to a document. -/
inductive JsonException where
  | typeError
  | invalidIterator
deriving DecidableEq

namespace Json

/-- `contains(key)` and not `is_null()`: the member where both hold. Only an object has members. -/
def member (key : Str) : Json → Option Json
  | .object members =>
      match Keyed.find id key members with
      | some .null => none
      | found => found
  | _ => none

variable {M : Type}

/-- `get<std::string>()`. -/
def getString : Json → Call JsonException M Str
  | .string text => pure text
  | _ => Call.raise .typeError

/-- `get<unsigned short>()`. -/
def getUnsignedShort : Json → Call JsonException M Nat
  | .integer value => pure (value % 65536).toNat
  | .float integral => pure (integral % 65536).toNat
  | .bool value => pure value.toNat
  | _ => Call.raise .typeError

/-- The loop from `begin()` to `end()` over the members of an object. -/
def forMembers (set : Str → Str → M → M) : List (Str × Json) → Call JsonException M PUnit
  | [] => pure ⟨⟩
  | (key, value) :: rest => do
      let text ← value.getString
      Call.update (set key text)
      forMembers set rest

/-- The loop from `begin()` to `end()` over any document. Null and an empty array have no elements;
any other document that is no object has one, whose iterator has no key. -/
def forEach (set : Str → Str → M → M) : Json → Call JsonException M PUnit
  | .object members => forMembers set members
  | .null => pure ⟨⟩
  | .array [] => pure ⟨⟩
  | _ => Call.raise .invalidIterator

/-- A branch taken where the document has the member. -/
def whenMember (root : Json) (key : Str) (branch : Json → Call JsonException M PUnit) :
    Call JsonException M PUnit :=
  match root.member key with
  | some value => branch value
  | none => pure ⟨⟩

end Json

/-- `Request::FromJsonStr` behind the parse. -/
def Request.decode (root : Json) : Call JsonException Request PUnit := do
  root.whenMember (str "method") fun value => do
    let text ← value.getString
    Call.update fun r => r.setMethod text
  root.whenMember (str "path") fun value => do
    let text ← value.getString
    Call.update fun r => r.setPath text
  root.whenMember (str "headers") (Json.forEach fun key val r => r.setHeader key val)
  root.whenMember (str "params") (Json.forEach fun key val r => r.setParam key val)

/-- `Request::FromJsonStr`, which reads its text as a C string. -/
def Request.fromJsonStr (parse : JsonParser) (jsonStr : Str) : Call JsonException Request Bool :=
  match parse (upTo nul jsonStr) with
  | none => pure false
  | some root => do
      Request.decode root
      pure true

/-- `Response::FromJsonStrWithoutBody` behind the parse. -/
def Response.decode (root : Json) : Call JsonException Response PUnit := do
  root.whenMember (str "status_code") fun value => do
    let status ← value.getUnsignedShort
    Call.update fun r => r.setStatusCode status
  root.whenMember (str "headers") (Json.forEach fun key val r => r.setHeader key val)

/-- `Response::FromJsonStrWithoutBody`, which reads its text whole. -/
def Response.fromJsonStrWithoutBody (parse : JsonParser) (jsonStr : Str) :
    Call JsonException Response Bool :=
  match parse jsonStr with
  | none => pure false
  | some root => do
      Response.decode root
      pure true

/-! ## Documents of the right kinds -/

namespace Json

/-- The text that a document is. -/
def asText : Json → Option Str
  | .string text => some text
  | _ => none

/-- `get<std::string>()` gives a text. -/
def isString (value : Json) : Bool := value.asText.isSome

/-- The number that a document is, in 16 bits. -/
def asNumber : Json → Option Nat
  | .integer value => some (value % 65536).toNat
  | .float integral => some (integral % 65536).toNat
  | .bool value => some value.toNat
  | _ => none

/-- `get<unsigned short>()` gives a number. -/
def isNumber (value : Json) : Bool := value.asNumber.isSome

/-- The loop over the members finds only texts. -/
def isStringMap : Json → Bool
  | .object members => members.all fun member => member.2.isString
  | .null => true
  | .array elements => elements.isEmpty
  | _ => false

/-- A member is of a kind, or it is missing or null. -/
def memberIs (kind : Json → Bool) (key : Str) (root : Json) : Bool :=
  ((root.member key).map kind).getD true

end Json

/-- The members that `Request::FromJsonStr` reads are of the kinds it reads them as. -/
def Request.WellTyped (root : Json) : Prop :=
  root.memberIs Json.isString (str "method") = true ∧
    root.memberIs Json.isString (str "path") = true ∧
    root.memberIs Json.isStringMap (str "headers") = true ∧
    root.memberIs Json.isStringMap (str "params") = true

/-- The members that `Response::FromJsonStrWithoutBody` reads are of the kinds it reads them as. -/
def Response.WellTyped (root : Json) : Prop :=
  root.memberIs Json.isNumber (str "status_code") = true ∧
    root.memberIs Json.isStringMap (str "headers") = true

instance (root : Json) : Decidable (Request.WellTyped root) :=
  inferInstanceAs (Decidable (_ ∧ _ ∧ _ ∧ _))

instance (root : Json) : Decidable (Response.WellTyped root) :=
  inferInstanceAs (Decidable (_ ∧ _))

/-! ## What a decoder does -/

namespace Json

/-- The texts that the loop over the members stores: those up to the first member that is no text.
-/
def textsOf : List (Str × Json) → List (Str × Str)
  | [] => []
  | (key, value) :: rest =>
      match value.asText with
      | some text => (key, text) :: textsOf rest
      | none => []

/-- The texts that the loop over the members of a document stores. -/
def entries : Json → List (Str × Str)
  | .object members => textsOf members
  | _ => []

variable {M : Type}

/-- Store each of the texts. -/
def storeAll (set : Str → Str → M → M) (texts : List (Str × Str)) (m : M) : M :=
  runFrom (fun m item => set item.1 item.2 m) m texts

/-- A conversion gives what the document is, or throws. -/
def given {α : Type} : Option α → Call JsonException M α
  | some a => pure a
  | none => Call.raise .typeError

theorem getString_eq (value : Json) :
    (value.getString : Call JsonException M Str) = given value.asText := by
  cases value with
  | string text => rfl
  | null => rfl
  | bool b => rfl
  | integer n => rfl
  | float n => rfl
  | array elements => rfl
  | object members => rfl

theorem getUnsignedShort_eq (value : Json) :
    (value.getUnsignedShort : Call JsonException M Nat) = given value.asNumber := by
  cases value with
  | string text => rfl
  | null => rfl
  | bool b => rfl
  | integer n => rfl
  | float n => rfl
  | array elements => rfl
  | object members => rfl

theorem settles_forMembers (set : Str → Str → M → M) (members : List (Str × Json)) :
    (forMembers set members).Settles ((members.all fun member => member.2.isString) = true)
      (storeAll set (textsOf members)) := by
  induction members with
  | nil =>
      intro m
      exact ⟨rfl, by simp [forMembers]⟩
  | cons member rest ih =>
      obtain ⟨key, value⟩ := member
      intro m
      rw [forMembers, textsOf, getString_eq]
      cases htext : value.asText with
      | some text =>
          obtain ⟨hworld, hend⟩ := ih (set key text m)
          refine ⟨hworld, hend.trans ?_⟩
          simp [isString, htext]
      -- the first member that is no text ends the loop
      | none => exact ⟨rfl, by simp [isString, htext, given, Call.bind_apply]⟩

/-- **The loop over a document.** It stores the texts before the first member that is no text. -/
theorem settles_forEach (set : Str → Str → M → M) (doc : Json) :
    (forEach set doc).Settles (doc.isStringMap = true) (storeAll set doc.entries) := by
  intro m
  cases doc with
  | object members => exact settles_forMembers set members m
  | null => exact ⟨rfl, by simp [forEach, isStringMap]⟩
  | array elements =>
      cases elements with
      | nil => exact ⟨rfl, by simp [forEach, isStringMap]⟩
      | cons first rest => exact ⟨rfl, by simp [forEach, isStringMap]⟩
  | bool b => exact ⟨rfl, by simp [forEach, isStringMap]⟩
  | integer n => exact ⟨rfl, by simp [forEach, isStringMap]⟩
  | float n => exact ⟨rfl, by simp [forEach, isStringMap]⟩
  | string text => exact ⟨rfl, by simp [forEach, isStringMap]⟩

/-- A branch on a member settles where it does for every value of the member. -/
theorem settles_whenMember {root : Json} {key : Str} {branch : Json → Call JsonException M PUnit}
    {kind : Json → Bool} {f : Json → M → M}
    (h : ∀ value, (branch value).Settles (kind value = true) (f value)) :
    (root.whenMember key branch).Settles (root.memberIs kind key = true)
      fun m => ((root.member key).map fun value => f value m).getD m := by
  intro m
  simp only [whenMember, memberIs]
  cases root.member key with
  | none => exact ⟨rfl, by simp⟩
  | some value => exact h value m

/-- The value of a conversion handed on, where there is one. -/
def handOn {α : Type} (f : α → M → M) (found : Option α) (m : M) : M :=
  (found.map fun a => f a m).getD m

/-- What every value leaves, the conversion leaves. -/
theorem handOn_keeps {α β : Type} {f : α → M → M} {part : M → β}
    (h : ∀ a m, part (f a m) = part m) (found : Option α) (m : M) :
    part (handOn f found m) = part m := by
  cases found with
  | some a => exact h a m
  | none => rfl

/-- A conversion of a document whose value is handed on. -/
theorem settles_given {α : Type} (found : Option α) (f : α → M → M) :
    (do
      let a ← given found
      Call.update (f a) : Call JsonException M PUnit).Settles (found.isSome = true)
      (handOn f found) := by
  intro m
  cases found with
  | some a => exact ⟨rfl, by simp [given]⟩
  | none => exact ⟨rfl, by simp [given, Call.bind_apply]⟩

/-- A branch that converts a member and hands its value on. -/
theorem settles_member {α : Type} {get : Json → Call JsonException M α} {as : Json → Option α}
    {kind : Json → Bool} (hget : ∀ value, get value = given (as value))
    (hkind : ∀ value, kind value = (as value).isSome) (root : Json) (key : Str) (f : α → M → M) :
    (root.whenMember key fun value => do
      let a ← get value
      Call.update (f a)).Settles (root.memberIs kind key = true)
      (handOn f ((root.member key).bind as)) := by
  have hbranch : (root.whenMember key fun value => do
      let a ← get value
      Call.update (f a)).Settles (root.memberIs kind key = true)
        fun m => ((root.member key).map fun value => handOn f (as value) m).getD m :=
    settles_whenMember fun value => hget value ▸ hkind value ▸ settles_given (as value) f
  refine hbranch.congr fun m => ?_
  cases root.member key with
  | none => rfl
  | some value => rfl

/-- The texts that a branch stores which loops over a member. -/
def memberEntries (key : Str) (root : Json) : List (Str × Str) :=
  ((root.member key).map entries).getD []

/-- A branch that stores the texts of a member. -/
theorem settles_eachMember (root : Json) (key : Str) (set : Str → Str → M → M) :
    (root.whenMember key (forEach set)).Settles (root.memberIs isStringMap key = true)
      (storeAll set (root.memberEntries key)) := by
  have hbranch : (root.whenMember key (forEach set)).Settles (root.memberIs isStringMap key = true)
      fun m => ((root.member key).map fun value => storeAll set value.entries m).getD m :=
    settles_whenMember fun value => settles_forEach set value
  refine hbranch.congr fun m => ?_
  simp only [memberEntries]
  cases root.member key with
  | none => rfl
  | some value => rfl

end Json

/-! ## The decoder of requests -/

namespace Request

/-- The headers that `FromJsonStr` hands to `SetHeader`. -/
def headerEntries (root : Json) : List (Str × Str) :=
  if root.memberIs Json.isString (str "method") = true ∧
      root.memberIs Json.isString (str "path") = true
  then root.memberEntries (str "headers") else []

/-- The parameters that `FromJsonStr` hands to `SetParam`. -/
def paramEntries (root : Json) : List (Str × Str) :=
  if (root.memberIs Json.isString (str "method") = true ∧
      root.memberIs Json.isString (str "path") = true) ∧
      root.memberIs Json.isStringMap (str "headers") = true
  then root.memberEntries (str "params") else []

theorem headers_storeAll (entries : List (Str × Str)) (r : Request) :
    (Json.storeAll (fun key val r => setHeader r key val) entries r).headers.items =
      runFrom (Keyed.put lower headerPasses) r.headers.items entries :=
  part_runFrom (f := fun r : Request => r.headers.items)
    (fun r item => TypeHeaders.items_set r.headers item.1 item.2) r entries

theorem params_storeAll (entries : List (Str × Str)) (r : Request) :
    (Json.storeAll (fun key val r => setParam r key val) entries r).params.items =
      runFrom (Keyed.put id paramPasses) r.params.items entries :=
  part_runFrom (f := fun r : Request => r.params.items)
    (fun r item => params_setParam r item.1 item.2) r entries

/-- Storing parameters leaves the headers. -/
theorem headers_storeAll_setParam (entries : List (Str × Str)) (r : Request) :
    (Json.storeAll (fun key val r => setParam r key val) entries r).headers = r.headers := by
  simp only [Json.storeAll]
  exact kept_runFrom (fun r item => headers_setParam r item.1 item.2) r entries

/-- Storing headers leaves the parameters. -/
theorem params_storeAll_setHeader (entries : List (Str × Str)) (r : Request) :
    (Json.storeAll (fun key val r => setHeader r key val) entries r).params = r.params := by
  have hstep : ∀ (r : Request) (item : Str × Str), (r.setHeader item.1 item.2).params = r.params :=
    fun _ _ => rfl
  simp only [Json.storeAll]
  exact kept_runFrom hstep r entries

/-- The items of both maps. -/
def maps (r : Request) : List (Str × Str) × List (Str × Str) := (r.headers.items, r.params.items)

theorem maps_storeAll_setHeader (entries : List (Str × Str)) (r : Request) :
    maps (Json.storeAll (fun key val r => setHeader r key val) entries r) =
      (runFrom (Keyed.put lower headerPasses) (maps r).1 entries, (maps r).2) := by
  simp only [maps]
  rw [headers_storeAll, params_storeAll_setHeader]

theorem maps_storeAll_setParam (entries : List (Str × Str)) (r : Request) :
    maps (Json.storeAll (fun key val r => setParam r key val) entries r) =
      ((maps r).1, runFrom (Keyed.put id paramPasses) (maps r).2 entries) := by
  simp only [maps]
  rw [params_storeAll, headers_storeAll_setParam]

/-- The branch on the method. -/
def takeMethod (root : Json) : Request → Request :=
  Json.handOn (fun text r => setMethod r text) ((root.member (str "method")).bind Json.asText)

/-- The branch on the path. -/
def takePath (root : Json) : Request → Request :=
  Json.handOn (fun text r => setPath r text) ((root.member (str "path")).bind Json.asText)

/-- The branch on the headers. -/
def takeHeaders (root : Json) : Request → Request :=
  Json.storeAll (fun key val r => setHeader r key val) (root.memberEntries (str "headers"))

/-- The branch on the parameters. -/
def takeParams (root : Json) : Request → Request :=
  Json.storeAll (fun key val r => setParam r key val) (root.memberEntries (str "params"))

/-- **How the decoder ends and what it stores.** Each branch runs only where the ones before it end
normally. -/
theorem settles_decode (root : Json) :
    (decode root).Settles (WellTyped root) fun r =>
      if root.memberIs Json.isString (str "method") = true then
        if root.memberIs Json.isString (str "path") = true then
          if root.memberIs Json.isStringMap (str "headers") = true then
            takeParams root (takeHeaders root (takePath root (takeMethod root r)))
          else takeHeaders root (takePath root (takeMethod root r))
        else takePath root (takeMethod root r)
      else takeMethod root r := by
  have htext : ∀ (key : Str) (f : Str → Request → Request), _ := fun key f =>
    Json.settles_member Json.getString_eq (fun value => (rfl : value.isString = _)) root key f
  have hmethod := htext (str "method") fun text r => setMethod r text
  have hpath := htext (str "path") fun text r => setPath r text
  have hheaders := Json.settles_eachMember root (str "headers") fun key val r => setHeader r key val
  have hparams := Json.settles_eachMember root (str "params") fun key val r => setParam r key val
  exact Call.settles_bind hmethod fun _ => Call.settles_bind hpath fun _ =>
    Call.settles_bind hheaders fun _ => hparams

/-- A document of the right kinds is stored whole. -/
theorem decode_of_wellTyped {root : Json} (h : WellTyped root) (r : Request) :
    decode root r =
      (.ok ⟨⟩, takeParams root (takeHeaders root (takePath root (takeMethod root r)))) := by
  obtain ⟨hworld, hend⟩ := settles_decode root r
  simp only [h.1, h.2.1, h.2.2.1, if_true] at hworld
  exact Prod.ext (hend.2 h) hworld

/-- The method and the path leave both maps. -/
theorem maps_takeMethod (root : Json) (r : Request) : maps (takeMethod root r) = maps r := by
  have hkeeps : ∀ (text : Str) (r' : Request), maps (setMethod r' text) = maps r' := fun _ _ => rfl
  exact Json.handOn_keeps hkeeps _ r

theorem maps_takePath (root : Json) (r : Request) : maps (takePath root r) = maps r := by
  have hkeeps : ∀ (text : Str) (r' : Request), maps (setPath r' text) = maps r' := fun _ _ => rfl
  exact Json.handOn_keeps hkeeps _ r

/-- **What `FromJsonStr` does with a document.** -/
theorem decode_spec (root : Json) (r : Request) :
    ((decode root r).1 = .ok ⟨⟩ ↔ WellTyped root) ∧
      maps (decode root r).2 =
        (runFrom (Keyed.put lower headerPasses) (maps r).1 (headerEntries root),
          runFrom (Keyed.put id paramPasses) (maps r).2 (paramEntries root)) := by
  obtain ⟨hworld, hend⟩ := settles_decode root r
  refine ⟨hend, ?_⟩
  rw [hworld]
  simp only [headerEntries, paramEntries]
  by_cases hm : root.memberIs Json.isString (str "method") = true
  · by_cases hp : root.memberIs Json.isString (str "path") = true
    · by_cases hh : root.memberIs Json.isStringMap (str "headers") = true
      · simp only [hm, hp, hh, if_true, and_self, takeParams, takeHeaders, maps_storeAll_setParam,
          maps_storeAll_setHeader, maps_takePath, maps_takeMethod]
      · simp only [hm, hp, hh, if_true, and_self, and_false, Bool.false_eq_true, if_false,
          takeHeaders, maps_storeAll_setHeader, maps_takePath, maps_takeMethod]
        rfl
    · simp only [hm, hp, if_true, if_false, Bool.false_eq_true, and_false, false_and,
        maps_takePath, maps_takeMethod]
      rfl
  · simp only [hm, if_false, Bool.false_eq_true, false_and, maps_takeMethod]
    rfl

/-- A text without a document gives `false` and leaves the request. -/
theorem fromJsonStr_of_none {parse : JsonParser} {text : Str}
    (h : parse (upTo nul text) = none) (r : Request) :
    fromJsonStr parse text r = (.ok false, r) := by
  simp only [fromJsonStr]
  rw [h]
  rfl

/-- A text with a document is decoded, and gives `true` where the decoder ends normally. -/
theorem fromJsonStr_of_some {parse : JsonParser} {text : Str} {root : Json}
    (h : parse (upTo nul text) = some root) (r : Request) :
    fromJsonStr parse text r = ((decode root r).1.map fun _ => true, (decode root r).2) := by
  simp only [fromJsonStr]
  rw [h]
  exact Call.bind_pure_apply (decode root) true r

end Request

/-! ## The decoder of responses -/

namespace Response

/-- The headers that `FromJsonStrWithoutBody` hands to `SetHeader`. -/
def headerEntries (root : Json) : List (Str × Str) :=
  if root.memberIs Json.isNumber (str "status_code") = true
  then root.memberEntries (str "headers") else []

theorem headers_storeAll (entries : List (Str × Str)) (r : Response) :
    (Json.storeAll (fun key val r => setHeader r key val) entries r).headers.items =
      runFrom (Keyed.put lower headerPasses) r.headers.items entries :=
  part_runFrom (f := fun r : Response => r.headers.items)
    (fun r item => TypeHeaders.items_set r.headers item.1 item.2) r entries

/-- The branch on the status. -/
def takeStatus (root : Json) : Response → Response :=
  Json.handOn (fun (status : Nat) r => setStatusCode r status)
    ((root.member (str "status_code")).bind Json.asNumber)

/-- The branch on the headers. -/
def takeHeaders (root : Json) : Response → Response :=
  Json.storeAll (fun key val r => setHeader r key val) (root.memberEntries (str "headers"))

/-- **How the decoder ends and what it stores.** -/
theorem settles_decode (root : Json) :
    (decode root).Settles (WellTyped root) fun r =>
      if root.memberIs Json.isNumber (str "status_code") = true then
        takeHeaders root (takeStatus root r)
      else takeStatus root r := by
  have hstatus := Json.settles_member Json.getUnsignedShort_eq
    (fun value => (rfl : value.isNumber = _)) root (str "status_code")
    fun status (r : Response) => r.setStatusCode status
  have hheaders := Json.settles_eachMember root (str "headers") fun key val r => setHeader r key val
  exact Call.settles_bind hstatus fun _ => hheaders

/-- A document of the right kinds is stored whole. -/
theorem decode_of_wellTyped {root : Json} (h : WellTyped root) (r : Response) :
    decode root r = (.ok ⟨⟩, takeHeaders root (takeStatus root r)) := by
  obtain ⟨hworld, hend⟩ := settles_decode root r
  simp only [h.1, if_true] at hworld
  exact Prod.ext (hend.2 h) hworld

/-- **What `FromJsonStrWithoutBody` does with a document.** -/
theorem decode_spec (root : Json) (r : Response) :
    ((decode root r).1 = .ok ⟨⟩ ↔ WellTyped root) ∧
      (decode root r).2.headers.items =
        runFrom (Keyed.put lower headerPasses) r.headers.items (headerEntries root) := by
  obtain ⟨hworld, hend⟩ := settles_decode root r
  refine ⟨hend, ?_⟩
  rw [hworld]
  have hkeeps : ∀ (status : Nat) (r' : Response), (setStatusCode r' status).headers = r'.headers :=
    fun _ _ => rfl
  have hsetStatus : (takeStatus root r).headers = r.headers := Json.handOn_keeps hkeeps _ r
  simp only [headerEntries]
  by_cases hs : root.memberIs Json.isNumber (str "status_code") = true
  · simp only [hs, if_true, takeHeaders, headers_storeAll, hsetStatus]
  · simp only [hs, Bool.false_eq_true, if_false, hsetStatus]
    rfl

/-- A text without a document gives `false` and leaves the response. -/
theorem fromJsonStrWithoutBody_of_none {parse : JsonParser} {text : Str} (h : parse text = none)
    (r : Response) : fromJsonStrWithoutBody parse text r = (.ok false, r) := by
  simp only [fromJsonStrWithoutBody]
  rw [h]
  rfl

/-- A text with a document is decoded, and gives `true` where the decoder ends normally. -/
theorem fromJsonStrWithoutBody_of_some {parse : JsonParser} {text : Str} {root : Json}
    (h : parse text = some root) (r : Response) :
    fromJsonStrWithoutBody parse text r =
      ((decode root r).1.map fun _ => true, (decode root r).2) := by
  simp only [fromJsonStrWithoutBody]
  rw [h]
  exact Call.bind_pure_apply (decode root) true r

end Response

end Ssgx.Http
