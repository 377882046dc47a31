import Ssgx.Config.TomlLifetime
import Ssgx.Config.TomlStrings

/-!
# Integers of a configuration

`TomlConfig::GetInteger` and `GetIntegerArray`, from the keys to the value. The keys are collected
backwards, written as JSON, read on the host and followed from the root of the document; an integer
comes back in an out parameter, and an array as JSON text in a block.

`Toml.follow` is where some keys lead, and `queryNode_map_doc` says that the host follows them
there. `getInteger_returns` and `getIntegerArray_returns` go through the nodes that may be there.
The size of the block is an `int32_t`, which is enough as `LoadFile` takes no file of more than 128
KiB (`length_dump_lt`); so the getters are exact (`integers_exact`).
-/

set_option autoImplicit false

namespace Ssgx.Config

open Ssgx.Support
open Ssgx.Attestation (sgxSuccess)
open Ssgx.Boundary (HostAnswer HostWorld HostCall fetchText)

/-! ## Where keys lead -/

/-- The node that a key leads to: a string key in a table, an index from zero on in an array. -/
def Toml.get : Toml → TomlKey → Option Toml
  | .array elements, .integer indexKey =>
      if 0 ≤ indexKey then elements[indexKey.toNat]? else none
  | .table members, .string strKey => members.lookup strKey
  | _, _ => none

/-- **The node that keys lead to**, from the first to the last. -/
def Toml.follow : Toml → List TomlKey → Option Toml
  | node, [] => some node
  | node, key :: keys => (node.get key).bind fun child => child.follow keys

theorem child_doc (node : Toml) (key : TomlKey) : node.child key.doc = node.get key := by
  cases node with
  | array elements =>
      cases key with
      | integer indexKey =>
          cases indexKey with
          | ofNat index =>
              rw [Toml.get, if_pos (show 0 ≤ Int.ofNat index from Int.natCast_nonneg index)]
              rfl
          | negSucc index => rfl
      | string strKey => rfl
  | table members =>
      cases key with
      | integer indexKey => rfl
      | string strKey => rfl
  | string text => rfl
  | integer value => rfl
  | other => rfl

/-- The host follows the keys. -/
theorem queryNode_map_doc (document : Toml) (keys : List TomlKey) :
    queryNode document (keys.map TomlKey.doc) = document.follow keys := by
  induction keys generalizing document with
  | nil => rfl
  | cons key keys ih =>
      rw [List.map_cons, queryNode, child_doc, Toml.follow]
      simp only [ih]

/-! ## The host's side -/

/-- An `int64_t` of the host. -/
def int64Of (a : HostAnswer) : Int := (BitVec.ofNat 64 a.size).toInt

/-- `ssgx_ocall_toml_find_int`. -/
def ssgxOcallTomlFindInt (codec : JsonCodec) (io : HostIo) (refTomlFile : Option Toml)
    (path : List UInt8) : HostAnswer :=
  match refTomlFile with
  | none => io.returns (-1)
  | some context =>
      if path.isEmpty then io.returns (-2)
      else
        match findTomlNode codec path context with
        | none => io.returns (-4)
        | some (.integer value) => { io.returns 0 with size := (BitVec.ofInt 64 value).toNat }
        | some _ => io.returns (-5)

/-! ## The enclave's side -/

/-- `get<long>()` of a JSON integer. -/
def getLong (value : Int) : Int := (BitVec.ofInt 64 value).toInt

/-- The integers of an array whose elements are all integers. -/
def JsonDoc.integers : List JsonDoc → Option (List Int)
  | [] => some []
  | .integer value :: rest => (JsonDoc.integers rest).map (getLong value :: ·)
  | _ :: _ => none

section Getters

variable (codec : JsonCodec) (outside : Nat → Nat → Bool) (refUntrustedTomlObj : Nat)

/-- `TomlConfig::GetInteger` of a path. -/
def tomlGetInteger (path : List TomlKey) : HostCall (Except Str Int) :=
  if refUntrustedTomlObj = 0 then pure (.error (str "The TOML object has not been initialized"))
  else if pathText (getPathStr codec path) = [] then
    pure (.error (str "The input toml file path is empty"))
  else do
    let given ← Boundary.ocall
    if given.1.status ≠ sgxSuccess then
      pure (.error (str "Enclave ssgx_ocall_toml_find_int function call failed, sgx status: 0x" ++
        hexText given.1.status.toNat))
    else if given.1.ret < 0 then
      pure (.error (str "Enclave ssgx_ocall_toml_find_int function call failed, error code: " ++
        toText given.1.ret))
    else pure (.ok (int64Of given.1))

/-- `GetIntegerArray` behind the JSON text of the array. -/
def integerArrayOf (valueStr : List UInt8) : Except Str (List Int) :=
  -- no text is an empty array
  if valueStr.isEmpty then .ok []
  else
    match codec.parse valueStr with
    | .error what =>
        .error (str "The JSON object containing the results failed to parse, exception msg: " ++
          what)
    | .ok (.array (element :: elements)) =>
        match JsonDoc.integers (element :: elements) with
        | some values => .ok values
        | none => .error (str "The results in the JSON object are incorrect")
    | .ok _ => .error (str "The results in the JSON object are incorrect")

/-- `TomlConfig::GetIntegerArray` of a path. -/
def tomlGetIntegerArray (path : List TomlKey) : HostCall (Except Str (List Int)) := do
  let valueStr ← Boundary.getArrayValues outside refUntrustedTomlObj
    (pathText (getPathStr codec path))
  match valueStr with
  | .error errMsg => pure (.error errMsg)
  | .ok value => pure (integerArrayOf codec value)

end Getters

/-! ## What is relied on -/

/-- The value fits in 64 bits. -/
def IsInt64 (value : Int) : Prop := -2 ^ 63 ≤ value ∧ value < 2 ^ 63

instance (value : Int) : Decidable (IsInt64 value) := inferInstanceAs (Decidable (_ ∧ _))

/-- The bytes that an element takes in a file at least. -/
def Toml.elementWeight : Toml → Nat
  | .string text => (utf8 text).length + 1
  | _ => 1

/-- The bytes that the elements of an array take at least. -/
def arrayWeight (elements : List Toml) : Nat := (elements.map Toml.elementWeight).sum

/-- What the TOML parser promises of the tree of a file: the integers have 64 bits, and the elements
of an array took as many bytes of the file as they need at least. -/
structure Toml.ParsedFrom (document : Toml) (size : Nat) : Prop where
  int64 : ∀ keys value, document.follow keys = some (.integer value) → IsInt64 value
  weight : ∀ keys elements, document.follow keys = some (.array elements) →
    arrayWeight elements ≤ size

theorem Toml.ParsedFrom.mono {document : Toml} {size limit : Nat} (h : document.ParsedFrom size)
    (hle : size ≤ limit) : document.ParsedFrom limit where
  int64 := h.int64
  weight := fun keys elements hnode => (h.weight keys elements hnode).trans hle

/-- All are strings, or all are integers. -/
def Uniform (elements : List Toml) : Prop :=
  elements.all Toml.isString = true ∨ elements.all Toml.isInteger = true

/-- The JSON array of the elements. -/
def arrayDoc (elements : List Toml) : JsonDoc := .array (elements.map Toml.element)

/-- What the JSON library promises for an array of strings or of integers: beside what it does for
every document, it writes no byte of a string in more than six, and an integer in at most twenty. -/
structure JsonCodec.Carries (codec : JsonCodec) (elements : List Toml) : Prop where
  exact : codec.Exact (arrayDoc elements)
  compact : (codec.dump (arrayDoc elements)).length ≤ 2 + 21 * arrayWeight elements

/-! ## Numbers of 64 bits -/

theorem toInt_ofInt_64 {value : Int} (h : IsInt64 value) :
    (BitVec.ofInt 64 value).toInt = value := by
  obtain ⟨hlow, hhigh⟩ := h
  rw [BitVec.toInt_ofInt]
  exact Int.bmod_eq_of_le (by omega) (by omega)

/-- An integer goes through the out parameter. -/
theorem int64Of_findInt {io : HostIo} {value : Int} (h : IsInt64 value) :
    int64Of { io.returns 0 with size := (BitVec.ofInt 64 value).toNat } = value := by
  rw [int64Of, BitVec.ofNat_toNat, BitVec.setWidth_eq]
  exact toInt_ofInt_64 h

/-! ## What the getters give -/

/-- **The intended call.** It returns the value that is intended, and `nullopt` where none is. -/
structure Returns {α : Type} (call : Except Str (Except Str α)) (intended : α → Prop) : Prop where
  value : ∀ a, call = .ok (.ok a) ↔ intended a
  nullopt : (∃ errMsg, call = .ok (.error errMsg)) ↔ ¬ ∃ a, intended a

theorem returns_of_value {α : Type} {call : Except Str (Except Str α)} {intended : α → Prop} {a : α}
    (hcall : call = .ok (.ok a)) (hintended : ∀ b, intended b ↔ b = a) : Returns call intended where
  value := by
    intro b
    rw [hintended, hcall, Except.ok.injEq, Except.ok.injEq]
    exact eq_comm
  nullopt := by
    rw [hcall]
    exact iff_of_false (fun ⟨_, h⟩ => nomatch h) fun h => h ⟨a, (hintended a).2 rfl⟩

theorem returns_of_error {α : Type} {call : Except Str (Except Str α)} {intended : α → Prop}
    (hcall : ∃ errMsg, call = .ok (.error errMsg)) (hintended : ∀ a, ¬ intended a) :
    Returns call intended where
  value := by
    obtain ⟨errMsg, rfl⟩ := hcall
    exact fun a => iff_of_false (fun h => nomatch h) (hintended a)
  nullopt := iff_of_true hcall fun ⟨a, ha⟩ => hintended a ha

section Getters

variable {codec : JsonCodec} {outside : Nat → Nat → Bool} {ref : Nat} {path : List TomlKey}
  {w : HostWorld} (href : ref ≠ 0) (hpath : pathText (getPathStr codec path) ≠ [])
  (hstatus : w.answer.status = sgxSuccess)
include href hpath hstatus

/-- An error of the ocall is handed on. -/
theorem tomlGetInteger_of_error (hret : w.answer.ret < 0) :
    ∃ errMsg, (tomlGetInteger codec ref path w).1 = .ok (.error errMsg) := by
  rw [tomlGetInteger, if_neg href, if_neg hpath]
  simp only [Boundary.ocall_bind]
  rw [if_neg (not_not.2 hstatus), if_pos hret]
  exact ⟨_, rfl⟩

theorem tomlGetInteger_of_value (hret : ¬ w.answer.ret < 0) :
    (tomlGetInteger codec ref path w).1 = .ok (.ok (int64Of w.answer)) := by
  rw [tomlGetInteger, if_neg href, if_neg hpath]
  simp only [Boundary.ocall_bind]
  rw [if_neg (not_not.2 hstatus), if_neg hret]
  rfl

theorem getArrayValues_of_error (hret : w.answer.ret < 0) :
    ∃ errMsg, (Boundary.getArrayValues outside ref (pathText (getPathStr codec path)) w).1 =
      .ok (.error errMsg) := by
  rw [Boundary.getArrayValues, fetchText, if_neg href, if_neg hpath]
  simp only [Boundary.ocall_bind]
  rw [if_neg (not_not.2 hstatus), if_pos hret]
  exact ⟨_, rfl⟩

end Getters

/-- What `GetIntegerArray` makes of what `GetArrayValues` gives. -/
theorem tomlGetIntegerArray_fst {codec : JsonCodec} {outside : Nat → Nat → Bool} {ref : Nat}
    {path : List TomlKey} {w : HostWorld} {valueStr : Except Str (List UInt8)}
    (h : (Boundary.getArrayValues outside ref (pathText (getPathStr codec path)) w).1 =
      .ok valueStr) :
    (tomlGetIntegerArray codec outside ref path w).1 =
      .ok (valueStr.bind (integerArrayOf codec)) := by
  rw [tomlGetIntegerArray, Call.bind_fst_of_ok h]
  cases valueStr with
  | error errMsg => rfl
  | ok value => rfl

section Document

variable {codec : JsonCodec} {outside : Nat → Nat → Bool} {io : HostIo} {ref : Nat}
  {document : Toml} {key : TomlKey} {keys : List TomlKey} {w : HostWorld}

/-- The host finds what the keys lead to. -/
theorem findTomlNode_follow (h : codec.Exact (pathDoc (key :: keys))) :
    findTomlNode codec (getPathStr codec (makeArgs (key :: keys))) document =
      document.follow (key :: keys) := by
  rw [findTomlNode_makeArgs h, queryNode_map_doc]

/-- **`GetInteger` returns the integer** that the keys lead to, and `nullopt` where they lead to
none. -/
theorem getInteger_returns (hio : io.Honest outside) (href : ref ≠ 0)
    (hpath : codec.Exact (pathDoc (key :: keys)))
    (hint64 : ∀ value, document.follow (key :: keys) = some (.integer value) → IsInt64 value)
    (hw : w.answer =
      ssgxOcallTomlFindInt codec io (some document) (getPathStr codec (makeArgs (key :: keys)))) :
    Returns (tomlGetInteger codec ref (makeArgs (key :: keys)) w).1
      fun value => document.follow (key :: keys) = some (.integer value) := by
  simp only [ssgxOcallTomlFindInt, List.isEmpty_iff, if_neg (getPathStr_ne_nil hpath),
    findTomlNode_follow hpath] at hw
  have hpathText := pathText_ne_nil hpath
  -- any other node is an error of the ocall
  have herror : ∀ ret : Int, ret < 0 → w.answer = io.returns ret →
      ∃ errMsg, (tomlGetInteger codec ref (makeArgs (key :: keys)) w).1 = .ok (.error errMsg) := by
    intro ret hret hanswer
    exact tomlGetInteger_of_error href hpathText (by rw [hanswer]; exact hio.status)
      (by rw [hanswer]; exact hret)
  cases hnode : document.follow (key :: keys) with
  | none =>
      rw [hnode] at hw
      exact returns_of_error (herror _ (by decide) hw) fun _ h => nomatch h
  | some node =>
      rw [hnode] at hw
      cases node with
      | integer value =>
          have hcall := tomlGetInteger_of_value href hpathText (by rw [hw]; exact hio.status)
            (by rw [hw]; exact lt_irrefl 0)
          rw [hw, int64Of_findInt (hint64 value hnode)] at hcall
          refine returns_of_value hcall fun b => ?_
          rw [Option.some.injEq, Toml.integer.injEq]
          exact eq_comm
      | string text => exact returns_of_error (herror _ (by decide) hw) fun _ h => nomatch h
      | array elements => exact returns_of_error (herror _ (by decide) hw) fun _ h => nomatch h
      | table members => exact returns_of_error (herror _ (by decide) hw) fun _ h => nomatch h
      | other => exact returns_of_error (herror _ (by decide) hw) fun _ h => nomatch h

/-! ### Arrays -/

theorem Toml.follow_append (node : Toml) (front back : List TomlKey) :
    node.follow (front ++ back) = (node.follow front).bind fun child => child.follow back := by
  induction front generalizing node with
  | nil => rfl
  | cons key front ih =>
      rw [List.cons_append, Toml.follow, Toml.follow, Option.bind_assoc]
      simp only [ih]

/-- What each key keeps, keys keep. -/
theorem Toml.follow_preserves {P : Toml → Prop}
    (hget : ∀ node key child, P node → node.get key = some child → P child) {node child : Toml}
    {keys : List TomlKey} (hnode : P node) (h : node.follow keys = some child) : P child := by
  induction keys generalizing node with
  | nil => exact Option.some.inj h ▸ hnode
  | cons key keys ih =>
      rw [Toml.follow, Option.bind_eq_some_iff] at h
      obtain ⟨next, hnext, hrest⟩ := h
      exact ih (hget node key next hnode hnext) hrest

/-- The integers of an array have 64 bits. -/
theorem isInt64_of_mem {size : Nat} (hparsed : document.ParsedFrom size) {values : List Int}
    (hnode : document.follow keys = some (.array (values.map .integer))) :
    ∀ value ∈ values, IsInt64 value := by
  intro value hvalue
  obtain ⟨index, hindex⟩ := List.mem_iff_getElem?.1 hvalue
  refine hparsed.int64 (keys ++ [.integer index]) value ?_
  rw [Toml.follow_append, hnode, Option.bind_some, Toml.follow, Toml.get,
    if_pos (Int.natCast_nonneg index), Int.toNat_natCast, List.getElem?_map, hindex]
  rfl

theorem all_isInteger_iff {elements : List Toml} :
    elements.all Toml.isInteger = true ↔ ∃ values : List Int, elements = values.map .integer := by
  induction elements with
  | nil => exact iff_of_true rfl ⟨[], rfl⟩
  | cons element elements ih =>
      rw [List.all_cons, Bool.and_eq_true, ih]
      constructor
      · rintro ⟨helement, values, rfl⟩
        cases element with
        | integer value => exact ⟨value :: values, rfl⟩
        | string text => exact nomatch helement
        | array inner => exact nomatch helement
        | table members => exact nomatch helement
        | other => exact nomatch helement
      · rintro ⟨values, hvalues⟩
        cases values with
        | nil => exact nomatch hvalues
        | cons value values =>
            rw [List.map_cons, List.cons.injEq] at hvalues
            obtain ⟨rfl, rfl⟩ := hvalues
            exact ⟨rfl, values, rfl⟩

theorem isString_iff {element : Toml} :
    element.isString = true ↔ ∃ text : Str, element = .string text := by
  cases element with
  | string text => exact iff_of_true rfl ⟨text, rfl⟩
  | integer value => exact iff_of_false Bool.false_ne_true fun ⟨_, h⟩ => nomatch h
  | array elements => exact iff_of_false Bool.false_ne_true fun ⟨_, h⟩ => nomatch h
  | table members => exact iff_of_false Bool.false_ne_true fun ⟨_, h⟩ => nomatch h
  | other => exact iff_of_false Bool.false_ne_true fun ⟨_, h⟩ => nomatch h

theorem integers_map_integer {values : List Int} (h : ∀ value ∈ values, IsInt64 value) :
    JsonDoc.integers (values.map .integer) = some values := by
  induction values with
  | nil => rfl
  | cons value values ih =>
      rw [List.map_cons, JsonDoc.integers, ih fun v hv => h v (List.mem_cons_of_mem _ hv),
        Option.map_some, getLong, toInt_ofInt_64 (h value List.mem_cons_self)]

/-- The integers of an array that was dumped. -/
theorem integerArrayOf_dump {values : List Int} (hne : values ≠ [])
    (h : ∀ value ∈ values, IsInt64 value) (hexact : codec.Exact (arrayDoc (values.map .integer))) :
    integerArrayOf codec (codec.dump (arrayDoc (values.map .integer))) = .ok values := by
  rw [integerArrayOf, if_neg (mt List.isEmpty_iff.1 hexact.dump_ne_nil), hexact.parse_dump,
    arrayDoc]
  have helements : (values.map Toml.integer).map Toml.element = values.map JsonDoc.integer := by
    rw [List.map_map]
    rfl
  have hintegers := integers_map_integer h
  rw [helements]
  cases values with
  | nil => exact absurd rfl hne
  | cons value values =>
      rw [List.map_cons] at hintegers ⊢
      dsimp only
      rw [hintegers]

/-- An array that begins with a string has no integers. -/
theorem integerArrayOf_string {text : Str} {elements : List Toml}
    (hexact : codec.Exact (arrayDoc (.string text :: elements))) :
    integerArrayOf codec (codec.dump (arrayDoc (.string text :: elements))) =
      .error (str "The results in the JSON object are incorrect") := by
  rw [integerArrayOf, if_neg (mt List.isEmpty_iff.1 hexact.dump_ne_nil), hexact.parse_dump]
  rfl

/-- **The JSON text of an array of a file** has a size that `int32_t` holds. -/
theorem length_dump_lt {elements : List Toml} (hcarries : codec.Carries elements)
    (hweight : arrayWeight elements ≤ limitedTomlFileSize) :
    (codec.dump (arrayDoc elements)).length + 1 < 2 ^ 31 := by
  have hcompact := hcarries.compact
  have hlimit : limitedTomlFileSize = 131072 := rfl
  omega

/-- The text of an array arrives and is read. -/
theorem getIntegerArray_of_elements (hio : io.Honest outside) (href : ref ≠ 0)
    (hpath : codec.Exact (pathDoc (key :: keys))) {elements : List Toml} (hne : elements ≠ [])
    (huniform : Uniform elements) (hcarries : codec.Carries elements)
    (hweight : arrayWeight elements ≤ limitedTomlFileSize)
    (hnode : document.follow (key :: keys) = some (.array elements))
    (hw : w.answer = ssgxOcallTomlFindArray codec io (some document)
      (getPathStr codec (makeArgs (key :: keys)))) :
    (tomlGetIntegerArray codec outside ref (makeArgs (key :: keys)) w).1 =
      .ok (integerArrayOf codec (codec.dump (arrayDoc elements))) := by
  rw [← queryNode_map_doc] at hnode
  rw [findArray_of_elements hpath hne huniform hcarries.exact.dump_ne_nil hnode] at hw
  have hfetched := fetchText_handsOver hio href (pathText_ne_nil hpath) hw
    (str "ssgx_ocall_toml_find_array")
  have harrives := arrives_of_fits hcarries.exact.no_nul (length_dump_lt hcarries hweight)
  rw [arrayDoc] at harrives
  rw [harrives] at hfetched
  exact tomlGetIntegerArray_fst hfetched

/-- An array of integers comes back. -/
theorem getIntegerArray_of_integers (hio : io.Honest outside) (href : ref ≠ 0)
    (hpath : codec.Exact (pathDoc (key :: keys))) {values : List Int}
    (hne : values.map Toml.integer ≠ []) (hint64 : ∀ value ∈ values, IsInt64 value)
    (hcarries : codec.Carries (values.map .integer))
    (hweight : arrayWeight (values.map .integer) ≤ limitedTomlFileSize)
    (hnode : document.follow (key :: keys) = some (.array (values.map .integer)))
    (hw : w.answer = ssgxOcallTomlFindArray codec io (some document)
      (getPathStr codec (makeArgs (key :: keys)))) :
    (tomlGetIntegerArray codec outside ref (makeArgs (key :: keys)) w).1 = .ok (.ok values) := by
  have hall : (values.map Toml.integer).all Toml.isInteger = true :=
    all_isInteger_iff.2 ⟨values, rfl⟩
  rw [getIntegerArray_of_elements hio href hpath hne (.inr hall) hcarries hweight hnode hw,
    integerArrayOf_dump (mt List.map_eq_nil_iff.2 hne) hint64 hcarries.exact]

/-- The text of an array of strings comes, and is refused. -/
theorem getIntegerArray_of_strings (hio : io.Honest outside) (href : ref ≠ 0)
    (hpath : codec.Exact (pathDoc (key :: keys))) {elements : List Toml} (hne : elements ≠ [])
    (hall : elements.all Toml.isString = true) (hcarries : codec.Carries elements)
    (hweight : arrayWeight elements ≤ limitedTomlFileSize)
    (hnode : document.follow (key :: keys) = some (.array elements))
    (hw : w.answer = ssgxOcallTomlFindArray codec io (some document)
      (getPathStr codec (makeArgs (key :: keys)))) :
    ∃ errMsg, (tomlGetIntegerArray codec outside ref (makeArgs (key :: keys)) w).1 =
      .ok (.error errMsg) := by
  have hcall := getIntegerArray_of_elements hio href hpath hne (.inl hall) hcarries hweight hnode hw
  obtain ⟨element, rest, rfl⟩ := List.exists_cons_of_ne_nil hne
  rw [List.all_cons, Bool.and_eq_true] at hall
  obtain ⟨text, rfl⟩ := isString_iff.1 hall.1
  rw [integerArrayOf_string hcarries.exact] at hcall
  exact ⟨_, hcall⟩

/-- **`GetIntegerArray` returns the integers** of the array that the keys lead to, and `nullopt`
where they lead to none of integers. -/
theorem getIntegerArray_returns (hio : io.Honest outside) (href : ref ≠ 0)
    (hpath : codec.Exact (pathDoc (key :: keys)))
    (hparsed : document.ParsedFrom limitedTomlFileSize)
    (hcarries : ∀ elements, document.follow (key :: keys) = some (.array elements) →
      Uniform elements → codec.Carries elements)
    (hw : w.answer = ssgxOcallTomlFindArray codec io (some document)
      (getPathStr codec (makeArgs (key :: keys)))) :
    Returns (tomlGetIntegerArray codec outside ref (makeArgs (key :: keys)) w).1
      fun values => document.follow (key :: keys) = some (.array (values.map .integer)) := by
  have hpathText := pathText_ne_nil hpath
  have hanswer := hw
  simp only [ssgxOcallTomlFindArray, List.isEmpty_iff, if_neg (getPathStr_ne_nil hpath),
    findTomlNode_follow hpath] at hw
  -- an error of the ocall is handed on
  have herror : ∀ ret : Int, ret < 0 → w.answer = io.returns ret →
      ∃ errMsg, (tomlGetIntegerArray codec outside ref (makeArgs (key :: keys)) w).1 =
        .ok (.error errMsg) := by
    intro ret hret hanswer
    obtain ⟨errMsg, hfetched⟩ := getArrayValues_of_error href hpathText
      (by rw [hanswer]; exact hio.status) (by rw [hanswer]; exact hret)
    exact ⟨errMsg, tomlGetIntegerArray_fst hfetched⟩
  cases hnode : document.follow (key :: keys) with
  | none =>
      rw [hnode] at hw
      exact returns_of_error (herror _ (by decide) hw) fun _ h => by cases h
  | some node =>
      rw [hnode] at hw
      cases node with
      | integer value => exact returns_of_error (herror _ (by decide) hw) fun _ h => by cases h
      | string text => exact returns_of_error (herror _ (by decide) hw) fun _ h => by cases h
      | table members => exact returns_of_error (herror _ (by decide) hw) fun _ h => by cases h
      | other => exact returns_of_error (herror _ (by decide) hw) fun _ h => by cases h
      | array elements =>
          simp only [Option.some.injEq, Toml.array.injEq]
          cases helements : elements with
          | nil =>
              -- no text comes for an empty array
              rw [helements] at hw
              have hfetched := fetchText_returns hio href hpathText hw
                (str "ssgx_ocall_toml_find_array")
              refine returns_of_value (tomlGetIntegerArray_fst hfetched) fun b => ?_
              rw [eq_comm, List.map_eq_nil_iff]
          | cons element rest =>
              rw [helements] at hnode hw
              have hne := List.cons_ne_nil element rest
              have hweight := hparsed.weight _ _ hnode
              by_cases hallInt : (element :: rest).all Toml.isInteger = true
              · have hnodeCarries := hcarries _ hnode (.inr hallInt)
                obtain ⟨values, hvalues⟩ := all_isInteger_iff.1 hallInt
                rw [hvalues] at hne hnode hweight hnodeCarries ⊢
                refine returns_of_value (getIntegerArray_of_integers hio href hpath hne
                  (isInt64_of_mem hparsed hnode) hnodeCarries hweight hnode hanswer) fun b => ?_
                have hinj : Function.Injective (List.map Toml.integer) :=
                  List.map_injective_iff.2 fun _ _ h => Toml.integer.inj h
                rw [hinj.eq_iff]
                exact eq_comm
              · refine returns_of_error ?_ fun values hvalues =>
                  hallInt (all_isInteger_iff.2 ⟨values, hvalues⟩)
                by_cases hallStr : (element :: rest).all Toml.isString = true
                · exact getIntegerArray_of_strings hio href hpath hne hallStr
                    (hcarries _ hnode (.inl hallStr)) hweight hnode hanswer
                · dsimp only at hw
                  rw [if_neg hne, if_pos ⟨hallStr, hallInt⟩] at hw
                  exact herror _ (by decide) hw

end Document

/-- A file that was loaded has an address, and is not too large. -/
theorem loadFile_ok {tomlFilePath : Option (List UInt8)} {status : UInt32} {file : TomlFile}
    {host host' : Allocator} {ref : Nat}
    (h : loadFile tomlFilePath status file host = (.ok ref, host')) :
    ref ≠ 0 ∧ file.size ≤ limitedTomlFileSize := by
  rcases loadFile_cases tomlFilePath status file host with
    ⟨⟨-, -, -, -, hsize, hblock, -⟩, hcall⟩ | ⟨-, errMsg, hcall | hcall⟩
  · rw [hcall, Prod.mk.injEq, Except.ok.injEq] at h
    obtain ⟨rfl, -⟩ := h
    exact ⟨hblock, hsize⟩
  · rw [hcall] at h
    exact nomatch h
  · rw [hcall] at h
    exact nomatch h

/-- **The getters of integers are exact.** For a file that was loaded, `GetInteger` returns an
integer exactly when the keys lead to it in the tree of the file, and `GetIntegerArray` an array of
integers; else they return `nullopt`. -/
theorem integers_exact {codec : JsonCodec} {outside : Nat → Nat → Bool} {io : HostIo}
    (hio : io.Honest outside) {tomlFilePath : Option (List UInt8)} {status : UInt32}
    {file : TomlFile} {host host' : Allocator} {ref : Nat}
    (hload : loadFile tomlFilePath status file host = (.ok ref, host')) {document : Toml}
    (hparsed : document.ParsedFrom file.size) (key : TomlKey) (keys : List TomlKey)
    (hpath : codec.Exact (pathDoc (key :: keys)))
    (hcarries : ∀ elements, document.follow (key :: keys) = some (.array elements) →
      Uniform elements → codec.Carries elements) (w : HostWorld) :
    (w.answer =
        ssgxOcallTomlFindInt codec io (some document) (getPathStr codec (makeArgs (key :: keys))) →
      Returns (tomlGetInteger codec ref (makeArgs (key :: keys)) w).1
        fun value => document.follow (key :: keys) = some (.integer value)) ∧
    (w.answer = ssgxOcallTomlFindArray codec io (some document)
        (getPathStr codec (makeArgs (key :: keys))) →
      Returns (tomlGetIntegerArray codec outside ref (makeArgs (key :: keys)) w).1
        fun values => document.follow (key :: keys) = some (.array (values.map .integer))) := by
  obtain ⟨href, hsize⟩ := loadFile_ok hload
  exact ⟨getInteger_returns hio href hpath (hparsed.int64 _),
    getIntegerArray_returns hio href hpath (hparsed.mono hsize) hcarries⟩

/-! ### The least integer -/

/-- `n = [-9223372036854775808, 3]`. -/
def integersDocument : Toml := .table [(['n'], .array [.integer (-2 ^ 63), .integer 3])]

/-- The file of `integersDocument`. -/
def integersFile : TomlFile := ⟨true, true, 29, 1, true⟩

/-- The JSON library, as it is on two paths and the array of `integersDocument`. -/
def integersCodec : JsonCodec where
  dump := fun
    | .array [.string ['n']] => literal "[\"n\"]"
    | .array [.string ['n'], .integer (.ofNat 0)] => literal "[\"n\",0]"
    | .array [.integer (.negSucc 9223372036854775807), .integer (.ofNat 3)] =>
        literal "[-9223372036854775808,3]"
    | _ => []
  parse := fun text =>
    if text = literal "[\"n\"]" then .ok (.array [.string ['n']])
    else if text = literal "[\"n\",0]" then .ok (.array [.string ['n'], .integer 0])
    else if text = literal "[-9223372036854775808,3]" then
      .ok (.array [.integer (-2 ^ 63), .integer 3])
    else .error (str "parse error")

/-- A node of `integersDocument`. -/
def InIntegersDocument (node : Toml) : Prop :=
  node = integersDocument ∨ node = .array [.integer (-2 ^ 63), .integer 3] ∨
    node = .integer (-2 ^ 63) ∨ node = .integer 3

/-- A key leads from a node of `integersDocument` to one. -/
theorem inIntegersDocument_get {node child : Toml} {key : TomlKey}
    (hnode : InIntegersDocument node) (h : node.get key = some child) :
    InIntegersDocument child := by
  rcases hnode with rfl | rfl | rfl | rfl
  · cases key with
    | integer indexKey => exact nomatch h
    | string strKey =>
        rw [integersDocument, Toml.get, List.lookup_cons] at h
        cases hkey : strKey == ['n'] with
        | true =>
            rw [hkey] at h
            exact .inr (.inl (Option.some.inj h).symm)
        | false =>
            rw [hkey] at h
            exact nomatch h
  · cases key with
    | integer indexKey =>
        rw [Toml.get] at h
        split_ifs at h
        have hmem := List.mem_of_getElem? h
        rw [List.mem_pair] at hmem
        exact .inr (.inr hmem)
    | string strKey => exact nomatch h
  · exact nomatch h
  · exact nomatch h

theorem integersDocument_parsed : integersDocument.ParsedFrom 29 where
  int64 := by
    intro keys value hnode
    rcases Toml.follow_preserves (fun _ _ _ => inIntegersDocument_get) (.inl rfl) hnode with
      h | h | h | h
    · exact nomatch h
    · exact nomatch h
    · obtain rfl := Toml.integer.inj h
      decide
    · obtain rfl := Toml.integer.inj h
      decide
  weight := by
    intro keys elements hnode
    rcases Toml.follow_preserves (fun _ _ _ => inIntegersDocument_get) (.inl rfl) hnode with
      h | h | h | h
    · exact nomatch h
    · obtain rfl := Toml.array.inj h
      decide
    · exact nomatch h
    · exact nomatch h

theorem integersCodec_exact :
    integersCodec.Exact (pathDoc [.string ['n'], .integer 0]) ∧
      integersCodec.Exact (pathDoc [.string ['n']]) ∧
      integersCodec.Carries [.integer (-2 ^ 63), .integer 3] :=
  ⟨⟨rfl, by decide, by decide⟩, ⟨rfl, by decide, by decide⟩,
    ⟨⟨rfl, by decide, by decide⟩, by decide⟩⟩

/-- `GetInteger` of some keys of `integersDocument`. -/
def sampleGetInteger (keys : List TomlKey) : Except Str (Except Str Int) :=
  (tomlGetInteger integersCodec 1 (makeArgs keys)
    (worldAnswering (ssgxOcallTomlFindInt integersCodec sampleIo (some integersDocument)
      (getPathStr integersCodec (makeArgs keys))))).1

/-- `GetIntegerArray` of some keys of `integersDocument`. -/
def sampleGetIntegerArray (keys : List TomlKey) : Except Str (Except Str (List Int)) :=
  (tomlGetIntegerArray integersCodec (fun _ _ => true) 1 (makeArgs keys)
    (worldAnswering (ssgxOcallTomlFindArray integersCodec sampleIo (some integersDocument)
      (getPathStr integersCodec (makeArgs keys))))).1

theorem sample_integers_exact :
    sampleGetInteger [.string ['n'], .integer 0] = .ok (.ok (-2 ^ 63)) ∧
      sampleGetIntegerArray [.string ['n']] = .ok (.ok [-2 ^ 63, 3]) := by
  have hload : loadFile (some [47]) 0 integersFile Allocator.empty =
      (.ok 1, Allocator.empty.allocate 1) := rfl
  constructor
  · refine (((integers_exact sampleIo_honest hload integersDocument_parsed _ _
      integersCodec_exact.1 ?_ _).1 rfl).value _).2 rfl
    exact fun _ h => nomatch h
  · refine (((integers_exact sampleIo_honest hload integersDocument_parsed _ _
      integersCodec_exact.2.1 ?_ _).2 rfl).value _).2 rfl
    intro elements h _
    obtain rfl := Toml.array.inj (Option.some.inj h)
    exact integersCodec_exact.2.2

end Ssgx.Config
