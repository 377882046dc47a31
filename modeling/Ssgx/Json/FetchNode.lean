import Ssgx.Support.Call
import Ssgx.Support.Text

/-!
# Values of a JSON object

`fetch_json_*_node` of `ssgx_json_t.cpp`: a member of a JSON object is looked for, its type is
checked, and its value is converted to the type of the output. The six functions are one template
with a check and a conversion each.

`fetchJsonNodeValue_cases` says what a call can do, and `fetchesExactly_iff` when it gives what the
member has: when every member that passes the check has a value of the output's type. The check of
the integers lets a member through that is too large for the output, whose conversion wraps; so
`fetch_exact_iff` has a condition for `int` and for `long`.

A text is a list of characters, one for each byte.
-/

set_option autoImplicit false

namespace Ssgx.Json

open Ssgx.Support

/-! ## Values -/

/-- `nlohmann::json`, by `value_t`. A floating-point number is kept as its bits. An object is a map,
so the first member of a name is the only one. -/
inductive Value where
  | null
  | object (members : List (Str × Value))
  | array (elements : List Value)
  | string (text : Str)
  | boolean (value : Bool)
  | numberInteger (value : Int64)
  | numberUnsigned (value : UInt64)
  | numberFloat (bits : UInt64)
  | binary (bytes : List UInt8)
  | discarded

/-- An exception: a `nlohmann::json::exception` with its `what()`, or another one. -/
inductive Exception where
  | json (what : Str)
  | other
deriving DecidableEq

namespace Value

/-- `type_name()`. -/
def typeName : Value → Str
  | .null => str "null"
  | .object _ => str "object"
  | .array _ => str "array"
  | .string _ => str "string"
  | .boolean _ => str "boolean"
  | .numberInteger _ | .numberUnsigned _ | .numberFloat _ => str "number"
  | .binary _ => str "binary"
  | .discarded => str "discarded"

/-- `find`. What is no object has no members. -/
def find (nodeName : Str) : Value → Option Value
  | .object members => members.lookup nodeName
  | _ => none

/-! ### The checks -/

/-- `isNumberInteger`: signed or unsigned. -/
def isNumberInteger : Value → Bool
  | .numberInteger _ | .numberUnsigned _ => true
  | _ => false

/-- `isString`. -/
def isString : Value → Bool
  | .string _ => true
  | _ => false

/-- `isArray`. -/
def isArray : Value → Bool
  | .array _ => true
  | _ => false

/-- `isObject`. -/
def isObject : Value → Bool
  | .object _ => true
  | _ => false

/-- `isBoolean`. -/
def isBoolean : Value → Bool
  | .boolean _ => true
  | _ => false

/-! ### The conversions -/

/-- The `type_error` of a conversion. -/
def typeError (type : Str) (node : Value) : Exception :=
  .json (str "[json.exception.type_error.302] type must be " ++ type ++ str ", but is " ++
    node.typeName)

/-- The integral part of a double. -/
def integralPart (bits : UInt64) : Int :=
  let exponent := bits.toNat / 2 ^ 52 % 2 ^ 11
  let significand := 2 ^ 52 + bits.toNat % 2 ^ 52
  let magnitude : Int := Int.ofNat (significand * 2 ^ exponent / 2 ^ 1075)
  if bits.toNat < 2 ^ 63 then magnitude else -magnitude

/-- `get<std::string>()`. -/
def getString : Value → Except Exception Str
  | .string text => .ok text
  | node => .error (node.typeError (str "string"))

/-- `get<bool>()`. -/
def getBool : Value → Except Exception Bool
  | .boolean value => .ok value
  | node => .error (node.typeError (str "boolean"))

/-- `get<int>()`, which casts. -/
def getInt : Value → Except Exception Int32
  | .numberUnsigned value => .ok (Int32.ofInt value.toNat)
  | .numberInteger value => .ok (Int32.ofInt value.toInt)
  | .numberFloat bits => .ok (Int32.ofInt (integralPart bits))
  | .boolean value => .ok (Int32.ofInt value.toNat)
  | node => .error (node.typeError (str "number"))

/-- `get<long>()`, which casts. As `long` is the type of the integers of the library, a Boolean is
no number here. -/
def getLong : Value → Except Exception Int64
  | .numberUnsigned value => .ok (Int64.ofInt value.toNat)
  | .numberInteger value => .ok (Int64.ofInt value.toInt)
  | .numberFloat bits => .ok (Int64.ofInt (integralPart bits))
  | node => .error (node.typeError (str "number"))

/-- `get<nlohmann::json>()`. -/
def getJson (node : Value) : Except Exception Value := .ok node

end Value

/-! ## The functions -/

/-- The outputs of a function. -/
structure Outputs (T : Type) where
  value : T
  errMsg : Str

/-- The `catch` of `nlohmann::json::exception`. -/
def catchJson {σ : Type} (x : Call Exception σ Bool) (handler : Str → Call Exception σ Bool) :
    Call Exception σ Bool := fun s =>
  match x s with
  | (.error (.json what), s') => handler what s'
  | result => result

/-- `snprintf` into `msg`, which may use 255 bytes and ends in a NUL. -/
def message (text : Str) : Str := text.take 254

/-- `err_msg = msg` and `return false`. -/
def failWith {T : Type} (text : Str) : Call Exception (Outputs T) Bool := do
  Call.update fun s => { s with errMsg := message text }
  pure false

/-- The error for a member that is missing. The name goes through `snprintf` as a C string. -/
def notExist (nodeName : Str) : Str :=
  str "Invalid json! node '" ++ upTo '\x00' nodeName ++ str "' is not exist!"

/-- The error for a member of another type. -/
def unexpectedType (nodeName : Str) : Str :=
  str "Invalid json! node '" ++ upTo '\x00' nodeName ++ str "' does not have the expected type!"

/-- The `try` block of `fetch_json_node_value`. -/
def tryFetch {T : Type} (get : Value → Except Exception T) (root : Value) (nodeName : Str)
    (checkTypeFunc : Value → Bool) : Call Exception (Outputs T) Bool :=
  match root.find nodeName with
  | none => failWith (notExist nodeName)
  | some node =>
      if checkTypeFunc node = false then failWith (unexpectedType nodeName)
      else
        match get node with
        | .error e => Call.raise e
        | .ok value => do
            Call.update fun s => { s with value := value }
            pure true

/-- `fetch_json_node_value`. -/
def fetchJsonNodeValue {T : Type} (get : Value → Except Exception T) (root : Value)
    (nodeName : Str) (checkTypeFunc : Value → Bool) : Call Exception (Outputs T) Bool :=
  catchJson (tryFetch get root nodeName checkTypeFunc) fun what =>
    failWith (str "Invalid json! Encounter an exception: " ++ upTo '\x00' what)

/-- `fetch_json_string_node`. -/
def fetchJsonStringNode (root : Value) (nodeName : Str) : Call Exception (Outputs Str) Bool :=
  fetchJsonNodeValue Value.getString root nodeName Value.isString

/-- `fetch_json_int_node`. -/
def fetchJsonIntNode (root : Value) (nodeName : Str) : Call Exception (Outputs Int32) Bool :=
  fetchJsonNodeValue Value.getInt root nodeName Value.isNumberInteger

/-- `fetch_json_bool_node`. -/
def fetchJsonBoolNode (root : Value) (nodeName : Str) : Call Exception (Outputs Bool) Bool :=
  fetchJsonNodeValue Value.getBool root nodeName Value.isBoolean

/-- `fetch_json_long_node`. -/
def fetchJsonLongNode (root : Value) (nodeName : Str) : Call Exception (Outputs Int64) Bool :=
  fetchJsonNodeValue Value.getLong root nodeName Value.isNumberInteger

/-- `fetch_json_array_node`. -/
def fetchJsonArrayNode (root : Value) (nodeName : Str) : Call Exception (Outputs Value) Bool :=
  fetchJsonNodeValue Value.getJson root nodeName Value.isArray

/-- `fetch_json_object_node`. -/
def fetchJsonObjectNode (root : Value) (nodeName : Str) : Call Exception (Outputs Value) Bool :=
  fetchJsonNodeValue Value.getJson root nodeName Value.isObject

/-! ## What is intended -/

/-- The root is an object that has a member. -/
def HasMember (root : Value) (nodeName : Str) (node : Value) : Prop :=
  ∃ members, root = .object members ∧ members.lookup nodeName = some node

/-- The number that an integer is. -/
def Value.integer : Value → Option Int
  | .numberInteger value => some value.toInt
  | .numberUnsigned value => some value.toNat
  | _ => none

/-- **The intended function.** It returns true exactly where there is a value that is intended, and
stores one; where it returns false its output is as it was; and it does not throw. -/
structure FetchesExactly {T : Type} (fetch : Call Exception (Outputs T) Bool)
    (intended : T → Prop) : Prop where
  returns : ∀ s, ∃ fetched, (fetch s).1 = .ok fetched
  true_iff : ∀ s, (fetch s).1 = .ok true ↔ ∃ value, intended value
  value : ∀ s, (fetch s).1 = .ok true → intended (fetch s).2.value
  unchanged : ∀ s, (fetch s).1 = .ok false → (fetch s).2.value = s.value

theorem find_eq_some_iff {root : Value} {nodeName : Str} {node : Value} :
    root.find nodeName = some node ↔ HasMember root nodeName node := by
  constructor
  · intro h
    cases root with
    | object members => exact ⟨members, rfl, h⟩
    | null | array | string | boolean | numberInteger | numberUnsigned | numberFloat | binary
    | discarded => exact nomatch h
  · rintro ⟨members, rfl, h⟩
    exact h

/-! ## What a function does -/

section Fetch

variable {T : Type} {get : Value → Except Exception T} {root : Value} {nodeName : Str}
  {checkTypeFunc : Value → Bool}

theorem catchJson_of_ok {σ : Type} {handler : Str → Call Exception σ Bool}
    {x : Call Exception σ Bool} {s s' : σ} {fetched : Bool} (h : x s = (.ok fetched, s')) :
    catchJson x handler s = (.ok fetched, s') := by
  rw [catchJson, h]

theorem tryFetch_of_none (hfind : root.find nodeName = none) (s : Outputs T) :
    tryFetch get root nodeName checkTypeFunc s =
      (.ok false, ⟨s.value, message (notExist nodeName)⟩) := by
  rw [tryFetch, hfind]
  rfl

theorem tryFetch_of_refused {node : Value} (hfind : root.find nodeName = some node)
    (hcheck : checkTypeFunc node = false) (s : Outputs T) :
    tryFetch get root nodeName checkTypeFunc s =
      (.ok false, ⟨s.value, message (unexpectedType nodeName)⟩) := by
  rw [tryFetch, hfind]
  dsimp only
  rw [if_pos hcheck]
  rfl

theorem tryFetch_of_value {node : Value} {value : T} (hfind : root.find nodeName = some node)
    (hcheck : checkTypeFunc node = true) (hvalue : get node = .ok value) (s : Outputs T) :
    tryFetch get root nodeName checkTypeFunc s = (.ok true, ⟨value, s.errMsg⟩) := by
  rw [tryFetch, hfind]
  dsimp only
  rw [if_neg (ne_false_of_eq_true hcheck), hvalue]
  rfl

/-- **What a call can do**, where the conversion takes what passes the check: it stores the value of
a member that passes, or there is none and it reports an error. -/
theorem fetchJsonNodeValue_cases
    (hget : ∀ node, checkTypeFunc node = true → ∃ value, get node = .ok value) (s : Outputs T) :
    (∃ node value, HasMember root nodeName node ∧ checkTypeFunc node = true ∧
        get node = .ok value ∧
        fetchJsonNodeValue get root nodeName checkTypeFunc s = (.ok true, ⟨value, s.errMsg⟩)) ∨
      ((∀ node, HasMember root nodeName node → checkTypeFunc node = false) ∧
        ∃ text ∈ [notExist nodeName, unexpectedType nodeName],
          fetchJsonNodeValue get root nodeName checkTypeFunc s =
            (.ok false, ⟨s.value, message text⟩)) := by
  simp only [← find_eq_some_iff]
  cases hfind : root.find nodeName with
  | none =>
      exact .inr ⟨(fun _ h => nomatch h), _, List.mem_cons_self,
        catchJson_of_ok (tryFetch_of_none hfind s)⟩
  | some node =>
      cases hcheck : checkTypeFunc node with
      | false =>
          exact .inr ⟨(fun _ h => Option.some.inj h ▸ hcheck), _, List.mem_pair.2 (.inr rfl),
            catchJson_of_ok (tryFetch_of_refused hfind hcheck s)⟩
      | true =>
          obtain ⟨value, hvalue⟩ := hget node hcheck
          exact .inl ⟨node, value, rfl, hcheck, hvalue,
            catchJson_of_ok (tryFetch_of_value hfind hcheck hvalue s)⟩

/-- A function that returns false says why, and one that returns true says nothing. -/
theorem fetchJsonNodeValue_errMsg
    (hget : ∀ node, checkTypeFunc node = true → ∃ value, get node = .ok value) (s : Outputs T) :
    ((fetchJsonNodeValue get root nodeName checkTypeFunc s).1 = .ok true ∧
        (fetchJsonNodeValue get root nodeName checkTypeFunc s).2.errMsg = s.errMsg) ∨
      ((fetchJsonNodeValue get root nodeName checkTypeFunc s).1 = .ok false ∧
        str "Invalid json! node '" <+:
          (fetchJsonNodeValue get root nodeName checkTypeFunc s).2.errMsg) := by
  rcases fetchJsonNodeValue_cases hget s with
    ⟨node, value, -, -, -, hcall⟩ | ⟨-, text, htext, hcall⟩
  · rw [hcall]
    exact .inl ⟨rfl, rfl⟩
  · rw [hcall]
    refine .inr ⟨rfl, List.prefix_take_iff.2 ⟨?_, by decide⟩⟩
    rcases List.mem_pair.1 htext with rfl | rfl
    · exact (List.prefix_append _ _).trans (List.prefix_append _ _)
    · exact (List.prefix_append _ _).trans (List.prefix_append _ _)

theorem HasMember.unique {node node' : Value} (h : HasMember root nodeName node)
    (h' : HasMember root nodeName node') : node = node' := by
  rw [← find_eq_some_iff] at h h'
  exact Option.some.inj (h.symm.trans h')

/-- A function that stores what is intended or leaves its output, as there is something intended or
not. -/
theorem fetchesExactly_of_cases {fetch : Call Exception (Outputs T) Bool} {intended : T → Prop}
    (h : ∀ s, (∃ value, intended value ∧ fetch s = (.ok true, ⟨value, s.errMsg⟩)) ∨
      ((¬ ∃ value, intended value) ∧ ∃ errMsg, fetch s = (.ok false, ⟨s.value, errMsg⟩))) :
    FetchesExactly fetch intended where
  returns := by
    intro s
    rcases h s with ⟨value, -, hcall⟩ | ⟨-, errMsg, hcall⟩
    · exact ⟨true, by rw [hcall]⟩
    · exact ⟨false, by rw [hcall]⟩
  true_iff := by
    intro s
    rcases h s with ⟨value, hvalue, hcall⟩ | ⟨hnone, errMsg, hcall⟩
    · rw [hcall]
      exact iff_of_true rfl ⟨value, hvalue⟩
    · rw [hcall]
      exact iff_of_false (fun h => nomatch h) hnone
  value := by
    intro s htrue
    rcases h s with ⟨value, hvalue, hcall⟩ | ⟨-, errMsg, hcall⟩
    · rw [hcall]
      exact hvalue
    · rw [hcall] at htrue
      exact nomatch htrue
  unchanged := by
    intro s hfalse
    rcases h s with ⟨value, -, hcall⟩ | ⟨-, errMsg, hcall⟩
    · rw [hcall] at hfalse
      exact nomatch hfalse
    · rw [hcall]

/-- **When a function does what is intended.** The values intended for a member pass the check and
are what the conversion gives; then it is exactly that every member that passes the check has one.
-/
theorem fetchesExactly_iff {holds : Value → T → Prop}
    (hget : ∀ node, checkTypeFunc node = true → ∃ value, get node = .ok value)
    (hholds : ∀ node value, holds node value → checkTypeFunc node = true ∧ get node = .ok value) :
    FetchesExactly (fetchJsonNodeValue get root nodeName checkTypeFunc)
        (fun value => ∃ node, HasMember root nodeName node ∧ holds node value) ↔
      ∀ node, HasMember root nodeName node → checkTypeFunc node = true →
        ∃ value, holds node value := by
  constructor
  · intro h node hmember hcheck
    obtain ⟨before, -⟩ := hget node hcheck
    rcases fetchJsonNodeValue_cases hget ⟨before, []⟩ with
      ⟨node', value, hmember', -, -, hcall⟩ | ⟨hnone, -⟩
    · -- what was stored is intended
      have hstored := h.value ⟨before, []⟩ (by rw [hcall])
      rw [hcall] at hstored
      obtain ⟨node'', hmember'', hvalue⟩ := hstored
      exact ⟨value, hmember.unique hmember'' ▸ hvalue⟩
    · rw [hnone node hmember] at hcheck
      exact nomatch hcheck
  · intro h
    refine fetchesExactly_of_cases fun s => ?_
    rcases fetchJsonNodeValue_cases hget s with
      ⟨node, value, hmember, hcheck, hvalue, hcall⟩ | ⟨hnone, text, -, hcall⟩
    · obtain ⟨value', hvalue'⟩ := h node hmember hcheck
      -- the conversion gives the value that the member has
      have hget' := (hholds node value' hvalue').2
      obtain rfl : value' = value := Except.ok.inj (hget'.symm.trans hvalue)
      exact .inl ⟨value', ⟨node, hmember, hvalue'⟩, hcall⟩
    · refine .inr ⟨?_, _, hcall⟩
      rintro ⟨value, node, hmember, hvalue⟩
      have hcheck := (hholds node value hvalue).1
      rw [hnone node hmember] at hcheck
      exact nomatch hcheck

/-- A function whose check lets exactly the members through that have a value is exact. -/
theorem fetchesExactly_of_holds {holds : Value → T → Prop}
    (hcheck : ∀ node, checkTypeFunc node = true ↔ ∃ value, holds node value)
    (hget : ∀ node value, holds node value → get node = .ok value) :
    FetchesExactly (fetchJsonNodeValue get root nodeName checkTypeFunc)
      fun value => ∃ node, HasMember root nodeName node ∧ holds node value := by
  refine (fetchesExactly_iff ?_ ?_).2 fun node _ => (hcheck node).1
  · intro node hnode
    obtain ⟨value, hvalue⟩ := (hcheck node).1 hnode
    exact ⟨value, hget node value hvalue⟩
  · intro node value hvalue
    exact ⟨(hcheck node).2 ⟨value, hvalue⟩, hget node value hvalue⟩

theorem isNumberInteger_iff {node : Value} :
    node.isNumberInteger = true ↔ ∃ n, node.integer = some n := by
  cases node with
  | numberInteger value => exact iff_of_true rfl ⟨_, rfl⟩
  | numberUnsigned value => exact iff_of_true rfl ⟨_, rfl⟩
  | null | object | array | string | boolean | numberFloat | binary | discarded =>
      exact iff_of_false Bool.false_ne_true fun ⟨_, h⟩ => nomatch h

/-- A function of an integer type is exact when every integer that the member may be is one of the
type. -/
theorem fetchesExactly_integer_iff {toInt : T → Int} {ofInt : Int → T} {low high : Int}
    (hget : ∀ node n, Value.integer node = some n → get node = .ok (ofInt n))
    (hofInt : ∀ value, ofInt (toInt value) = value)
    (hrange : ∀ n, (∃ value, toInt value = n) ↔ low ≤ n ∧ n < high) :
    FetchesExactly (fetchJsonNodeValue get root nodeName Value.isNumberInteger)
        (fun value => ∃ node, HasMember root nodeName node ∧ node.integer = some (toInt value)) ↔
      ∀ node n, HasMember root nodeName node → node.integer = some n → low ≤ n ∧ n < high := by
  have hexact := @fetchesExactly_iff T get root nodeName Value.isNumberInteger
    fun node value => node.integer = some (toInt value)
  rw [hexact ?_ ?_]
  · constructor
    · intro h node n hmember hn
      obtain ⟨value, hvalue⟩ := h node hmember (isNumberInteger_iff.2 ⟨n, hn⟩)
      exact (hrange n).1 ⟨value, Option.some.inj (hvalue.symm.trans hn)⟩
    · intro h node hmember hcheck
      obtain ⟨n, hn⟩ := isNumberInteger_iff.1 hcheck
      obtain ⟨value, rfl⟩ := (hrange n).2 (h node n hmember hn)
      exact ⟨value, hn⟩
  · intro node hcheck
    obtain ⟨n, hn⟩ := isNumberInteger_iff.1 hcheck
    exact ⟨ofInt n, hget node n hn⟩
  · intro node value hvalue
    refine ⟨isNumberInteger_iff.2 ⟨_, hvalue⟩, ?_⟩
    rw [hget node _ hvalue, hofInt]

end Fetch

/-! ## The checks and the conversions -/

theorem isString_iff (node : Value) :
    node.isString = true ↔ ∃ text, node = .string text := by
  cases node with
  | string text => exact iff_of_true rfl ⟨text, rfl⟩
  | null | object | array | boolean | numberInteger | numberUnsigned | numberFloat | binary
  | discarded => exact iff_of_false Bool.false_ne_true fun ⟨_, h⟩ => nomatch h

theorem isBoolean_iff (node : Value) :
    node.isBoolean = true ↔ ∃ value, node = .boolean value := by
  cases node with
  | boolean value => exact iff_of_true rfl ⟨value, rfl⟩
  | null | object | array | string | numberInteger | numberUnsigned | numberFloat | binary
  | discarded => exact iff_of_false Bool.false_ne_true fun ⟨_, h⟩ => nomatch h

theorem isArray_iff (node : Value) :
    node.isArray = true ↔
      ∃ value elements, node = .array elements ∧ value = Value.array elements := by
  cases node with
  | array elements => exact iff_of_true rfl ⟨_, elements, rfl, rfl⟩
  | null | object | string | boolean | numberInteger | numberUnsigned | numberFloat | binary
  | discarded => exact iff_of_false Bool.false_ne_true fun ⟨_, _, h, _⟩ => nomatch h

theorem isObject_iff (node : Value) :
    node.isObject = true ↔
      ∃ value members, node = .object members ∧ value = Value.object members := by
  cases node with
  | object members => exact iff_of_true rfl ⟨_, members, rfl, rfl⟩
  | null | array | string | boolean | numberInteger | numberUnsigned | numberFloat | binary
  | discarded => exact iff_of_false Bool.false_ne_true fun ⟨_, _, h, _⟩ => nomatch h

theorem getInt_of_integer (node : Value) (n : Int) (h : node.integer = some n) :
    node.getInt = .ok (Int32.ofInt n) := by
  cases node with
  | numberInteger value =>
      obtain rfl := Option.some.inj h
      rfl
  | numberUnsigned value =>
      obtain rfl := Option.some.inj h
      rfl
  | null | object | array | string | boolean | numberFloat | binary | discarded => exact nomatch h

theorem getLong_of_integer (node : Value) (n : Int) (h : node.integer = some n) :
    node.getLong = .ok (Int64.ofInt n) := by
  cases node with
  | numberInteger value =>
      obtain rfl := Option.some.inj h
      rfl
  | numberUnsigned value =>
      obtain rfl := Option.some.inj h
      rfl
  | null | object | array | string | boolean | numberFloat | binary | discarded => exact nomatch h

theorem int32_range (n : Int) : (∃ value : Int32, value.toInt = n) ↔ -2 ^ 31 ≤ n ∧ n < 2 ^ 31 := by
  constructor
  · rintro ⟨value, rfl⟩
    exact ⟨value.le_toInt, value.toInt_lt⟩
  · rintro ⟨hlow, hhigh⟩
    exact ⟨Int32.ofInt n, Int32.toInt_ofInt_of_le hlow hhigh⟩

theorem int64_range (n : Int) : (∃ value : Int64, value.toInt = n) ↔ -2 ^ 63 ≤ n ∧ n < 2 ^ 63 := by
  constructor
  · rintro ⟨value, rfl⟩
    exact ⟨value.le_toInt, value.toInt_lt⟩
  · rintro ⟨hlow, hhigh⟩
    exact ⟨Int64.ofInt n, Int64.toInt_ofInt_of_le hlow hhigh⟩

/-- **When the functions do what is intended.** Those of texts, Booleans, arrays and objects always
do. That of `int` does exactly where the member is no integer outside of `int`, and that of `long`
exactly where it is no integer outside of `long`. -/
theorem fetch_exact_iff (root : Value) (nodeName : Str) :
    FetchesExactly (fetchJsonStringNode root nodeName)
        (fun text => ∃ node, HasMember root nodeName node ∧ node = .string text) ∧
      FetchesExactly (fetchJsonBoolNode root nodeName)
        (fun value => ∃ node, HasMember root nodeName node ∧ node = .boolean value) ∧
      FetchesExactly (fetchJsonArrayNode root nodeName)
        (fun value => ∃ node, HasMember root nodeName node ∧
          ∃ elements, node = .array elements ∧ value = .array elements) ∧
      FetchesExactly (fetchJsonObjectNode root nodeName)
        (fun value => ∃ node, HasMember root nodeName node ∧
          ∃ members, node = .object members ∧ value = .object members) ∧
      (FetchesExactly (fetchJsonIntNode root nodeName)
          (fun value => ∃ node, HasMember root nodeName node ∧ node.integer = some value.toInt) ↔
        ∀ node n, HasMember root nodeName node → node.integer = some n →
          -2 ^ 31 ≤ n ∧ n < 2 ^ 31) ∧
      (FetchesExactly (fetchJsonLongNode root nodeName)
          (fun value => ∃ node, HasMember root nodeName node ∧ node.integer = some value.toInt) ↔
        ∀ node n, HasMember root nodeName node → node.integer = some n →
          -2 ^ 63 ≤ n ∧ n < 2 ^ 63) := by
  refine ⟨fetchesExactly_of_holds isString_iff ?_, fetchesExactly_of_holds isBoolean_iff ?_,
    fetchesExactly_of_holds isArray_iff ?_, fetchesExactly_of_holds isObject_iff ?_,
    fetchesExactly_integer_iff getInt_of_integer (fun _ => Int32.ofInt_toInt _) int32_range,
    fetchesExactly_integer_iff getLong_of_integer (fun _ => Int64.ofInt_toInt _) int64_range⟩
  · rintro node text rfl
    rfl
  · rintro node value rfl
    rfl
  · rintro node value ⟨elements, rfl, rfl⟩
    rfl
  · rintro node value ⟨members, rfl, rfl⟩
    rfl

/-! ### An integer that is too large -/

/-- `{"a": 2147483648}`. -/
def sampleRoot : Value := .object [(['a'], .numberUnsigned 2147483648)]

/-- `fetch_json_int_node` returns true for it, and stores the least `int`. -/
theorem not_fetch_int_exact :
    fetchJsonIntNode sampleRoot ['a'] ⟨0, []⟩ = (.ok true, ⟨-2147483648, []⟩) ∧
      ¬ FetchesExactly (fetchJsonIntNode sampleRoot ['a'])
        (fun value => ∃ node, HasMember sampleRoot ['a'] node ∧
          node.integer = some value.toInt) := by
  refine ⟨rfl, fun h => ?_⟩
  have hrange := (fetchesExactly_integer_iff getInt_of_integer (fun _ => Int32.ofInt_toInt _)
    int32_range).1 h _ 2147483648 ⟨_, rfl, rfl⟩ rfl
  exact absurd hrange.2 (by decide)

end Ssgx.Json
