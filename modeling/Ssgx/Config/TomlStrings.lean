import Mathlib.Data.List.TakeWhile
import Ssgx.Config.TomlHost

/-!
# Strings of a configuration

`TomlConfig::GetString` and `GetStringArray`, from the keys to the value, with an honest host behind
the border. What they do with the host's buffer is `Boundary.getString` and
`Boundary.getArrayValues`; here the host's answer is that of the ocalls in `Ssgx.Config.TomlHost`.

A string goes through a C string on its way, and an array through JSON text. `getString_eq` and
`getStringArray_eq` say what arrives in each case; `strings_exact_iff` says when it is what the
document has.
-/

set_option autoImplicit false

namespace Ssgx.Config

open Ssgx.Support
open Ssgx.Attestation (sgxSuccess)
open Ssgx.Boundary (HostAnswer HostWorld HostCall nulIndex fetchText)

/-! ## The enclave's side -/

/-- `TomlKey`. -/
inductive TomlKey where
  | integer (indexKey : Int)
  | string (strKey : Str)

/-- The element of a path that a key is. -/
def TomlKey.doc : TomlKey → JsonDoc
  | .integer indexKey => .integer indexKey
  | .string strKey => .string strKey

/-- `MakeArgs`, which collects the keys from the last to the first. -/
def makeArgs : List TomlKey → List TomlKey
  | [] => []
  | first :: args => makeArgs args ++ [first]

/-- `GetPathStr`, which goes through the path from its end. -/
def getPathStr (codec : JsonCodec) (path : List TomlKey) : List UInt8 :=
  if path.isEmpty then [] else codec.dump (.array (path.reverse.map TomlKey.doc))

/-- The characters that the bytes of a path are. -/
def pathText (path : List UInt8) : Str := path.map fun byte => Char.ofNat byte.toNat

/-- The strings of an array whose elements are all strings. -/
def JsonDoc.strings : List JsonDoc → Option (List Str)
  | [] => some []
  | .string text :: rest => (JsonDoc.strings rest).map (text :: ·)
  | _ :: _ => none

section Getters

variable (codec : JsonCodec) (outside : Nat → Nat → Bool) (refUntrustedTomlObj : Nat)

/-- `TomlConfig::GetString` of a path. -/
def tomlGetString (path : List TomlKey) : HostCall (Except Str (List UInt8)) :=
  Boundary.getString outside refUntrustedTomlObj (pathText (getPathStr codec path))

/-- `GetStringArray` behind the JSON text of the array. -/
def stringArrayOf (valueStr : List UInt8) : Except Str (List (List UInt8)) :=
  -- no text is an empty array
  if valueStr.isEmpty then .ok []
  else
    match codec.parse valueStr with
    | .error what =>
        .error (str "The JSON object containing the results failed to parse, exception msg: " ++
          what)
    | .ok (.array (element :: elements)) =>
        match JsonDoc.strings (element :: elements) with
        | some texts => .ok (texts.map utf8)
        | none => .error (str "The results in the JSON object are incorrect")
    | .ok _ => .error (str "The results in the JSON object are incorrect")

/-- `TomlConfig::GetStringArray` of a path. -/
def tomlGetStringArray (path : List TomlKey) : HostCall (Except Str (List (List UInt8))) := do
  let valueStr ← Boundary.getArrayValues outside refUntrustedTomlObj
    (pathText (getPathStr codec path))
  match valueStr with
  | .error errMsg => pure (.error errMsg)
  | .ok value => pure (stringArrayOf codec value)

end Getters

/-! ## Paths -/

theorem makeArgs_eq (keys : List TomlKey) : makeArgs keys = keys.reverse := by
  induction keys with
  | nil => rfl
  | cons first args ih => rw [makeArgs, ih, List.reverse_cons]

/-- The JSON array of the keys. -/
def pathDoc (keys : List TomlKey) : JsonDoc := .array (keys.map TomlKey.doc)

/-- The path of the keys is the JSON array of the keys in their order. -/
theorem getPathStr_makeArgs (codec : JsonCodec) (key : TomlKey) (keys : List TomlKey) :
    getPathStr codec (makeArgs (key :: keys)) = codec.dump (pathDoc (key :: keys)) := by
  have hne : ¬ (makeArgs (key :: keys)).isEmpty = true := by
    rw [makeArgs_eq, List.isEmpty_iff, List.reverse_eq_nil_iff]
    exact List.cons_ne_nil _ _
  rw [getPathStr, if_neg hne, makeArgs_eq, List.reverse_reverse, pathDoc]

/-- The host finds the node that the keys lead to. -/
theorem findTomlNode_makeArgs {codec : JsonCodec} {key : TomlKey} {keys : List TomlKey}
    (h : codec.Exact (pathDoc (key :: keys))) (document : Toml) :
    findTomlNode codec (getPathStr codec (makeArgs (key :: keys))) document =
      queryNode document ((key :: keys).map TomlKey.doc) := by
  rw [getPathStr_makeArgs, findTomlNode, h.parse_dump, pathDoc, List.map_cons]

/-! ## What the enclave takes from an answer -/

section Fetch

variable {outside : Nat → Nat → Bool} {ocallName pathsStr : Str} {ref : Nat} {w : HostWorld}

/-- No text, or a size that is not positive. -/
theorem fetchText_of_empty (href : ref ≠ 0) (hpath : pathsStr ≠ [])
    (hstatus : w.answer.status = sgxSuccess) (hret : ¬ w.answer.ret < 0)
    (h : w.answer.pointer = 0 ∨ w.answer.int32 ≤ 0) :
    (fetchText outside ocallName ref pathsStr w).1 = .ok (.ok []) := by
  rw [fetchText, if_neg href, if_neg hpath]
  simp only [Boundary.ocall_bind, HostWorld.pointer_address]
  rw [if_neg (not_not.2 hstatus), if_neg hret, if_pos h]
  rfl

/-- The text of a wrong length. -/
def wrongLength : Str :=
  str "The length of the string pointed to by the pointer passed from the " ++
    str "untrusted execution environment is incorrect"

/-- A block outside of the enclave gives its text where that is as long as the size says. -/
theorem fetchText_of_block (href : ref ≠ 0) (hpath : pathsStr ≠ [])
    (hstatus : w.answer.status = sgxSuccess) (hret : ¬ w.answer.ret < 0)
    (hgiven : ¬ (w.answer.pointer = 0 ∨ w.answer.int32 ≤ 0))
    (houtside : outside w.answer.pointer w.answer.int32.toNat = true) :
    (fetchText outside ocallName ref pathsStr w).1 =
      if nulIndex w.answer.memory w.answer.pointer w.answer.int32.toNat ≠
          w.answer.int32.toNat - 1 then .ok (.error wrongLength)
      else .ok (.ok (w.answered.bytesAt w.pointer 0
        (nulIndex w.answer.memory w.answer.pointer w.answer.int32.toNat))) := by
  rw [fetchText, if_neg href, if_neg hpath]
  simp only [Boundary.ocall_bind, HostWorld.pointer_address]
  rw [if_neg (not_not.2 hstatus), if_neg hret, if_neg hgiven]
  simp only [Boundary.isOutsideEnclave_bind, HostWorld.pointer_address, houtside,
    Bool.true_eq_false, if_false]
  -- the block is read as it was when the host answered
  change ((if nulIndex w.answer.memory w.answer.pointer w.answer.int32.toNat ≠
    w.answer.int32.toNat - 1 then _ else _ : HostCall _) _).1 = _
  by_cases hlength : nulIndex w.answer.memory w.answer.pointer w.answer.int32.toNat ≠
      w.answer.int32.toNat - 1
  · rw [if_pos hlength, if_pos hlength]
    exact Boundary.freeOutside_bind_fst _ _ _ _
  · rw [if_neg hlength, if_neg hlength]
    exact Boundary.freeOutside_bind_fst _ _ _ _

end Fetch

/-! ## What is handed over -/

section HandedOver

/-- The bytes of memory that a list lies in. -/
def LiesAt (memory : Nat → UInt8) (address : Nat) (bytes : List UInt8) : Prop :=
  ∀ i (h : i < bytes.length), memory (address + i) = bytes[i]

theorem LiesAt.cons_iff {memory : Nat → UInt8} {address : Nat} {byte : UInt8}
    {bytes : List UInt8} : LiesAt memory address (byte :: bytes) ↔
      memory address = byte ∧ LiesAt memory (address + 1) bytes := by
  constructor
  · intro h
    refine ⟨h 0 (Nat.succ_pos _), fun i hi => ?_⟩
    have haddress : address + 1 + i = address + (i + 1) := by omega
    rw [haddress]
    exact h (i + 1) (Nat.succ_lt_succ hi)
  · rintro ⟨hfirst, hrest⟩ i hi
    cases i with
    | zero => exact hfirst
    | succ i =>
        have haddress : address + (i + 1) = address + 1 + i := by omega
        rw [haddress]
        exact hrest i (Nat.lt_of_succ_lt_succ hi)

/-- The first NUL of a C string, or the limit. -/
theorem nulIndex_of_liesAt {memory : Nat → UInt8} {text : List UInt8} (hnul : 0 ∉ text)
    (address limit : Nat) (h : LiesAt memory address (text ++ [0])) :
    nulIndex memory address limit = min text.length limit := by
  induction limit generalizing text address with
  | zero => rw [nulIndex, Nat.min_zero]
  | succ limit ih =>
      cases text with
      | nil =>
          obtain ⟨hfirst, -⟩ := LiesAt.cons_iff.1 h
          rw [nulIndex, if_pos hfirst]
          exact (Nat.zero_min _).symm
      | cons byte rest =>
          -- the first byte is no NUL, so it goes on with the rest of the text
          obtain ⟨hfirst, hrest⟩ := LiesAt.cons_iff.1 h
          have hbyte : ¬ memory address = 0 := by
            rw [hfirst]
            exact fun hzero => hnul (hzero ▸ List.mem_cons_self)
          rw [nulIndex, if_neg hbyte, ih (fun hmem => hnul (List.mem_cons_of_mem _ hmem)) _ hrest,
            List.length_cons, Nat.succ_min_succ]

/-- The text in front of the NUL is there. -/
theorem bytesAt_of_liesAt {w : HostWorld} {p : Boundary.HostPointer} {text : List UInt8}
    (h : LiesAt w.memory p.address (text ++ [0])) : w.bytesAt p 0 text.length = text := by
  apply List.ext_getElem
  · rw [HostWorld.bytesAt, List.length_map, List.length_range]
  · intro i _ hi
    have hbyte := h i (by rw [List.length_append]; omega)
    rw [List.getElem_append_left hi] at hbyte
    simpa [HostWorld.bytesAt] using hbyte

theorem nul_not_mem_cString (text : List UInt8) : 0 ∉ cString text := by
  intro h
  have hbyte := List.mem_takeWhile_imp h
  simp at hbyte

/-- A C string is the whole text exactly when the text has no NUL. -/
theorem cString_eq_iff (text : List UInt8) : cString text = text ↔ 0 ∉ text := by
  constructor
  · intro h
    rw [← h]
    exact nul_not_mem_cString text
  · intro h
    refine List.takeWhile_eq_self_iff.2 fun byte hbyte => decide_eq_true ?_
    rintro rfl
    exact h hbyte

theorem cString_length_le (text : List UInt8) : (cString text).length ≤ text.length :=
  (List.takeWhile_prefix _).length_le

/-- Behind the C string in the block stands a NUL. -/
theorem liesAt_strncpyBlock (io : HostIo) (address : Nat) (text : List UInt8) :
    LiesAt (io.written address (strncpyBlock text)) address (cString text ++ [0]) := by
  have hle := cString_length_le text
  have hblock : strncpyBlock text =
      (cString text ++ [0]) ++ List.replicate (text.length - (cString text).length) 0 := by
    have hcount : text.length + 1 - (cString text).length =
        text.length - (cString text).length + 1 := by omega
    rw [strncpyBlock, hcount, List.replicate_succ, List.append_assoc, List.singleton_append]
  intro i hi
  have hlt : i < (strncpyBlock text).length := by
    rw [hblock, List.length_append]
    omega
  rw [HostIo.written, if_pos (Nat.le_add_right _ _), Nat.add_sub_cancel_left,
    List.getD_eq_getElem?_getD, List.getElem?_eq_getElem hlt, Option.getD_some]
  simp only [hblock]
  exact List.getElem_append_left hi

/-- A size as the enclave sees it. -/
def int32 (size : Nat) : Int := (BitVec.ofNat 32 size).toInt

theorem int32_of_lt {size : Nat} (h : size < 2 ^ 31) : int32 size = size := by
  rw [int32, BitVec.toInt_ofNat', Int.bmod_eq_of_le (by omega) (by omega)]

theorem int32_lt (size : Nat) : int32 size < 2 ^ 31 := BitVec.toInt_lt

/-- The enclave sees no more than there is. -/
theorem int32_toNat_le (size : Nat) : (int32 size).toNat ≤ size := by
  rcases Nat.lt_or_ge size (2 ^ 31) with hlt | hge
  · rw [int32_of_lt hlt, Int.toNat_natCast]
  · -- from `2 ^ 31` on the size wraps, and stays below that
    have hbound := int32_lt size
    omega

/-- What arrives of a text that is handed over. -/
def arrives (text : List UInt8) : Except Str (List UInt8) :=
  if int32 (text.length + 1) ≤ 0 then .ok []
  else if (cString text).length ≠ (int32 (text.length + 1)).toNat - 1 then .error wrongLength
  else .ok (cString text)

/-- **A text that is handed over** arrives as `arrives` says. -/
theorem fetchText_handsOver {outside : Nat → Nat → Bool} {io : HostIo} (hio : io.Honest outside)
    {ref : Nat} (href : ref ≠ 0) {pathsStr : Str} (hpath : pathsStr ≠ []) {text : List UInt8}
    {noMemory : Int} {w : HostWorld} (hw : w.answer = io.handsOver text noMemory)
    (ocallName : Str) :
    (fetchText outside ocallName ref pathsStr w).1 = .ok (arrives text) := by
  rw [HostIo.handsOver, if_neg (hio.malloc _)] at hw
  have hstatus : w.answer.status = sgxSuccess := by rw [hw]; exact hio.status
  have hret : ¬ w.answer.ret < 0 := by rw [hw]; exact lt_irrefl 0
  have hpointer : w.answer.pointer = io.malloc (text.length + 1) := by rw [hw]
  have hint32 : w.answer.int32 = int32 (text.length + 1) := by rw [hw]; rfl
  have hlies : LiesAt w.answer.memory w.answer.pointer (cString text ++ [0]) := by
    rw [hw]
    exact liesAt_strncpyBlock io _ text
  -- `strncpy` stopped at the first NUL, so that is where `strnlen` stops
  have hindex := nulIndex_of_liesAt (nul_not_mem_cString text) _ w.answer.int32.toNat hlies
  rw [arrives]
  by_cases hsize : int32 (text.length + 1) ≤ 0
  · rw [if_pos hsize]
    exact fetchText_of_empty href hpath hstatus hret (.inr (hint32 ▸ hsize))
  · rw [if_neg hsize]
    have hgiven : ¬ (w.answer.pointer = 0 ∨ w.answer.int32 ≤ 0) := by
      rw [hpointer, hint32]
      rintro (hnull | hnone)
      · exact hio.malloc _ hnull
      · exact hsize hnone
    have houtside : outside w.answer.pointer w.answer.int32.toNat = true := by
      rw [hpointer, hint32]
      exact hio.outside _ _ (int32_toNat_le _)
    rw [fetchText_of_block href hpath hstatus hret hgiven houtside, hindex, hint32]
    by_cases hlength : (cString text).length = (int32 (text.length + 1)).toNat - 1
    · have hmin : min (cString text).length (int32 (text.length + 1)).toNat =
          (cString text).length := by omega
      rw [hmin, if_neg (not_not.2 hlength), if_neg (not_not.2 hlength)]
      rw [bytesAt_of_liesAt hlies]
    · have hmin : min (cString text).length (int32 (text.length + 1)).toNat ≠
          (int32 (text.length + 1)).toNat - 1 := by omega
      rw [if_pos hmin, if_pos hlength]

/-- A text that has no NUL and whose size `int32_t` holds arrives as it is. -/
theorem arrives_of_fits {text : List UInt8} (hnul : 0 ∉ text) (h : text.length + 1 < 2 ^ 31) :
    arrives text = .ok text := by
  have hsize := int32_of_lt h
  rw [arrives, (cString_eq_iff text).2 hnul, hsize, if_neg (by omega), if_neg (by omega)]

/-- What arrives of a text is empty, or the part up to the first NUL, with a size that `int32_t`
holds. -/
theorem arrives_ok {text value : List UInt8} (h : arrives text = .ok value) :
    value = [] ∨ value = cString text ∧ (cString text).length + 1 < 2 ^ 31 := by
  rw [arrives] at h
  split_ifs at h with hsize hlength
  · cases h
    exact .inl rfl
  · cases h
    -- the lengths agree, so the size is that of the C string with its NUL
    have hbound := int32_lt (text.length + 1)
    exact .inr ⟨rfl, by omega⟩

/-- **When a text arrives as it is.** -/
theorem arrives_eq_iff {text : List UInt8} (hne : text ≠ []) :
    arrives text = .ok text ↔ 0 ∉ text ∧ text.length + 1 < 2 ^ 31 := by
  constructor
  · intro h
    rcases arrives_ok h with hnil | ⟨hwhole, hlength⟩
    · exact absurd hnil hne
    · rw [← hwhole] at hlength
      exact ⟨(cString_eq_iff text).1 hwhole.symm, hlength⟩
  · rintro ⟨hnul, hlength⟩
    exact arrives_of_fits hnul hlength

end HandedOver

/-! ## What arrives of a document -/

section Document

variable {codec : JsonCodec} {outside : Nat → Nat → Bool} {io : HostIo} {ref : Nat}
  {document : Toml} {key : TomlKey} {keys : List TomlKey} {w : HostWorld}

/-- The path of some keys has a text. -/
theorem getPathStr_ne_nil (h : codec.Exact (pathDoc (key :: keys))) :
    getPathStr codec (makeArgs (key :: keys)) ≠ [] := by
  rw [getPathStr_makeArgs]
  exact h.dump_ne_nil

theorem pathText_ne_nil (h : codec.Exact (pathDoc (key :: keys))) :
    pathText (getPathStr codec (makeArgs (key :: keys))) ≠ [] :=
  fun hnil => getPathStr_ne_nil h (List.map_eq_nil_iff.1 hnil)

/-- No text is handed over as no text. -/
theorem fetchText_returns (hio : io.Honest outside) (href : ref ≠ 0) {pathsStr : Str}
    (hpath : pathsStr ≠ []) (hw : w.answer = io.returns 0) (ocallName : Str) :
    (fetchText outside ocallName ref pathsStr w).1 = .ok (.ok []) := by
  have hstatus : w.answer.status = sgxSuccess := by rw [hw]; exact hio.status
  have hret : ¬ w.answer.ret < 0 := by rw [hw]; exact lt_irrefl 0
  exact fetchText_of_empty href hpath hstatus hret (.inl (by rw [hw]; rfl))

/-- **What `GetString` gives** for a path to a string. -/
theorem getString_eq (hio : io.Honest outside) (href : ref ≠ 0)
    (hpath : codec.Exact (pathDoc (key :: keys))) {text : Str}
    (hnode : queryNode document ((key :: keys).map TomlKey.doc) = some (.string text))
    (hw : w.answer =
      ssgxOcallTomlFindStr codec io (some document) (getPathStr codec (makeArgs (key :: keys)))) :
    (tomlGetString codec outside ref (makeArgs (key :: keys)) w).1 =
      .ok (if utf8 text = [] then .ok [] else arrives (utf8 text)) := by
  have hpathStr := getPathStr_ne_nil hpath
  simp only [ssgxOcallTomlFindStr, List.isEmpty_iff, if_neg hpathStr, findTomlNode_makeArgs hpath,
    hnode] at hw
  rw [tomlGetString, Boundary.getString]
  by_cases hempty : utf8 text = []
  · rw [if_pos hempty] at hw ⊢
    exact fetchText_returns hio href (pathText_ne_nil hpath) hw _
  · rw [if_neg hempty] at hw ⊢
    exact fetchText_handsOver hio href (pathText_ne_nil hpath) hw _

/-! ### Arrays -/

/-- The JSON array of some strings. -/
def stringsDoc (texts : List Str) : JsonDoc := .array (texts.map .string)

theorem strings_map_string (texts : List Str) :
    JsonDoc.strings (texts.map .string) = some texts := by
  induction texts with
  | nil => rfl
  | cons text rest ih => rw [List.map_cons, JsonDoc.strings, ih, Option.map_some]

/-- The strings of an array that was dumped. -/
theorem stringArrayOf_dump {texts : List Str} (hne : texts ≠ [])
    (h : codec.Exact (stringsDoc texts)) :
    stringArrayOf codec (codec.dump (stringsDoc texts)) = .ok (texts.map utf8) := by
  cases texts with
  | nil => exact absurd rfl hne
  | cons text rest =>
      have hstrings := strings_map_string (text :: rest)
      rw [List.map_cons] at hstrings
      rw [stringArrayOf, if_neg (mt List.isEmpty_iff.1 h.dump_ne_nil), h.parse_dump, stringsDoc,
        List.map_cons]
      dsimp only
      rw [hstrings]

/-- The text of an array whose elements are all strings or all integers is handed over. -/
theorem findArray_of_elements (hpath : codec.Exact (pathDoc (key :: keys))) {elements : List Toml}
    (hne : elements ≠ [])
    (huniform : elements.all Toml.isString = true ∨ elements.all Toml.isInteger = true)
    (hdump : codec.dump (.array (elements.map Toml.element)) ≠ [])
    (hnode : queryNode document ((key :: keys).map TomlKey.doc) = some (.array elements)) :
    ssgxOcallTomlFindArray codec io (some document) (getPathStr codec (makeArgs (key :: keys))) =
      io.handsOver (codec.dump (.array (elements.map Toml.element))) (-12) := by
  -- they are not refused as mixed
  have hmixed : ¬ (¬ elements.all Toml.isString = true ∧ ¬ elements.all Toml.isInteger = true) :=
    fun h => huniform.elim h.1 h.2
  simp only [ssgxOcallTomlFindArray, List.isEmpty_iff, if_neg (getPathStr_ne_nil hpath),
    findTomlNode_makeArgs hpath, hnode, if_neg hne, if_neg hmixed]
  exact if_neg hdump

/-- The text of an array of strings is handed over. -/
theorem findArray_of_strings (hpath : codec.Exact (pathDoc (key :: keys))) {texts : List Str}
    (hne : texts ≠ []) (harray : codec.Exact (stringsDoc texts))
    (hnode : queryNode document ((key :: keys).map TomlKey.doc) =
      some (.array (texts.map .string))) :
    ssgxOcallTomlFindArray codec io (some document) (getPathStr codec (makeArgs (key :: keys))) =
      io.handsOver (codec.dump (stringsDoc texts)) (-12) := by
  have hallStr : (texts.map Toml.string).all Toml.isString = true := by
    rw [List.all_map]
    exact List.all_eq_true.2 fun _ _ => rfl
  have helements : JsonDoc.array ((texts.map Toml.string).map Toml.element) = stringsDoc texts := by
    rw [List.map_map]
    rfl
  rw [← helements]
  exact findArray_of_elements hpath (mt List.map_eq_nil_iff.1 hne) (.inl hallStr)
    (helements ▸ harray.dump_ne_nil) hnode

/-- What `GetStringArray` makes of what `GetArrayValues` gives. -/
theorem tomlGetStringArray_fst {path : List TomlKey} {valueStr : Except Str (List UInt8)}
    (h : (Boundary.getArrayValues outside ref (pathText (getPathStr codec path)) w).1 =
      .ok valueStr) :
    (tomlGetStringArray codec outside ref path w).1 =
      .ok (valueStr.bind (stringArrayOf codec)) := by
  rw [tomlGetStringArray, Call.bind_fst_of_ok h]
  cases valueStr with
  | error errMsg => rfl
  | ok value => rfl

/-- **What `GetStringArray` gives** for a path to an array of strings. -/
theorem getStringArray_eq (hio : io.Honest outside) (href : ref ≠ 0)
    (hpath : codec.Exact (pathDoc (key :: keys))) {texts : List Str}
    (harray : codec.Exact (stringsDoc texts))
    (hnode : queryNode document ((key :: keys).map TomlKey.doc) =
      some (.array (texts.map .string)))
    (hw : w.answer =
      ssgxOcallTomlFindArray codec io (some document) (getPathStr codec (makeArgs (key :: keys)))) :
    (tomlGetStringArray codec outside ref (makeArgs (key :: keys)) w).1 =
      .ok (if texts = [] then .ok []
        else (arrives (codec.dump (stringsDoc texts))).bind (stringArrayOf codec)) := by
  by_cases hempty : texts = []
  · subst hempty
    simp only [ssgxOcallTomlFindArray, List.isEmpty_iff, if_neg (getPathStr_ne_nil hpath),
      findTomlNode_makeArgs hpath, hnode, List.map_nil, if_true] at hw
    rw [if_pos rfl]
    exact tomlGetStringArray_fst (fetchText_returns hio href (pathText_ne_nil hpath) hw _)
  · rw [findArray_of_strings hpath hempty harray hnode] at hw
    rw [if_neg hempty]
    exact tomlGetStringArray_fst (fetchText_handsOver hio href (pathText_ne_nil hpath) hw _)

/-- The text of an array of strings arrives as it is, where `int32_t` holds its size; where not,
the strings do not. -/
theorem arrives_strings_iff {texts : List Str} (hne : texts ≠ [])
    (harray : codec.Exact (stringsDoc texts)) :
    (arrives (codec.dump (stringsDoc texts))).bind (stringArrayOf codec) = .ok (texts.map utf8) ↔
      (codec.dump (stringsDoc texts)).length + 1 < 2 ^ 31 := by
  constructor
  · intro h
    cases hvalue : arrives (codec.dump (stringsDoc texts)) with
    | error errMsg =>
        rw [hvalue] at h
        cases h
    | ok value =>
        rcases arrives_ok hvalue with rfl | ⟨-, hlength⟩
        · -- no text would be an empty array
          rw [hvalue] at h
          have hmap : [] = texts.map utf8 := Except.ok.inj h
          exact absurd (List.map_eq_nil_iff.1 hmap.symm) hne
        · rwa [(cString_eq_iff _).2 harray.no_nul] at hlength
  · intro hlength
    rw [arrives_of_fits harray.no_nul hlength]
    exact stringArrayOf_dump hne harray

end Document

/-- **When the strings of a document arrive.** For a path to a string: exactly when it has no NUL
and `int32_t` holds its size. For a path to an array of strings: exactly when the array is empty or
`int32_t` holds the size of its JSON text. -/
theorem strings_exact_iff {codec : JsonCodec} {outside : Nat → Nat → Bool} {io : HostIo}
    (hio : io.Honest outside) {ref : Nat} (href : ref ≠ 0) (document : Toml) (key : TomlKey)
    (keys : List TomlKey) (hpath : codec.Exact (pathDoc (key :: keys))) (w : HostWorld) :
    (∀ text, queryNode document ((key :: keys).map TomlKey.doc) = some (.string text) →
      w.answer = ssgxOcallTomlFindStr codec io (some document)
        (getPathStr codec (makeArgs (key :: keys))) →
      ((tomlGetString codec outside ref (makeArgs (key :: keys)) w).1 = .ok (.ok (utf8 text)) ↔
        0 ∉ utf8 text ∧ (utf8 text).length + 1 < 2 ^ 31)) ∧
    (∀ texts, queryNode document ((key :: keys).map TomlKey.doc) =
        some (.array (texts.map .string)) →
      codec.Exact (stringsDoc texts) →
      w.answer = ssgxOcallTomlFindArray codec io (some document)
        (getPathStr codec (makeArgs (key :: keys))) →
      ((tomlGetStringArray codec outside ref (makeArgs (key :: keys)) w).1 =
          .ok (.ok (texts.map utf8)) ↔
        texts = [] ∨ (codec.dump (stringsDoc texts)).length + 1 < 2 ^ 31)) := by
  constructor
  · intro text hnode hw
    rw [getString_eq hio href hpath hnode hw, Except.ok.injEq]
    by_cases hempty : utf8 text = []
    · rw [if_pos hempty, hempty]
      exact iff_of_true rfl ⟨List.not_mem_nil, by decide⟩
    · rw [if_neg hempty]
      exact arrives_eq_iff hempty
  · intro texts hnode harray hw
    rw [getStringArray_eq hio href hpath harray hnode hw, Except.ok.injEq]
    by_cases hempty : texts = []
    · rw [if_pos hempty, hempty]
      exact iff_of_true rfl (.inl rfl)
    · rw [if_neg hempty, or_iff_right hempty]
      exact arrives_strings_iff hempty harray

/-! ### A string with a NUL -/

/-- `s = "v"`, `z = "\u0000"` and `a = ["x", "\u0000"]`. -/
def sampleDocument : Toml :=
  .table [(['s'], .string ['v']), (['z'], .string ['\x00']),
    (['a'], .array [.string ['x'], .string ['\x00']])]

/-- The bytes of a literal. -/
def literal (text : String) : List UInt8 := utf8 text.toList

/-- The JSON library, as it is on the paths and the array of `sampleDocument`. -/
def sampleCodec : JsonCodec where
  dump := fun
    | .array [.string ['s']] => literal "[\"s\"]"
    | .array [.string ['z']] => literal "[\"z\"]"
    | .array [.string ['a']] => literal "[\"a\"]"
    | .array [.string ['x'], .string ['\x00']] => literal "[\"x\",\"\\u0000\"]"
    | _ => []
  parse := fun text =>
    if text = literal "[\"s\"]" then .ok (.array [.string ['s']])
    else if text = literal "[\"z\"]" then .ok (.array [.string ['z']])
    else if text = literal "[\"a\"]" then .ok (.array [.string ['a']])
    else if text = literal "[\"x\",\"\\u0000\"]" then
      .ok (.array [.string ['x'], .string ['\x00']])
    else .error (str "parse error")

/-- A host whose blocks lie at 4096. -/
def sampleIo : HostIo := ⟨0, fun _ => 0, fun _ => 4096⟩

/-- The world in which the next ocall is answered so. -/
def worldAnswering (answer : HostAnswer) : HostWorld := ⟨fun _ => 0, fun _ => answer, 0, []⟩

theorem sampleIo_honest : sampleIo.Honest fun _ _ => true where
  status := rfl
  malloc := fun _ h => by cases h
  outside := fun _ _ _ => rfl

/-- The paths of the keys of `sampleDocument` and its array are parsed as they were dumped. -/
theorem sampleCodec_exact :
    sampleCodec.Exact (pathDoc [.string ['s']]) ∧ sampleCodec.Exact (pathDoc [.string ['z']]) ∧
      sampleCodec.Exact (pathDoc [.string ['a']]) ∧
        sampleCodec.Exact (stringsDoc [['x'], ['\x00']]) :=
  ⟨⟨rfl, by decide, by decide⟩, ⟨rfl, by decide, by decide⟩, ⟨rfl, by decide, by decide⟩,
    ⟨rfl, by decide, by decide⟩⟩

/-- `GetString` of a key of `sampleDocument`. -/
def sampleGetString (key : Str) : Except Str (Except Str (List UInt8)) :=
  (tomlGetString sampleCodec (fun _ _ => true) 1 (makeArgs [.string key])
    (worldAnswering (ssgxOcallTomlFindStr sampleCodec sampleIo (some sampleDocument)
      (getPathStr sampleCodec (makeArgs [.string key]))))).1

/-- `GetStringArray` of a key of `sampleDocument`. -/
def sampleGetStringArray (key : Str) : Except Str (Except Str (List (List UInt8))) :=
  (tomlGetStringArray sampleCodec (fun _ _ => true) 1 (makeArgs [.string key])
    (worldAnswering (ssgxOcallTomlFindArray sampleCodec sampleIo (some sampleDocument)
      (getPathStr sampleCodec (makeArgs [.string key]))))).1

theorem sample_strings_exact :
    sampleGetString ['s'] = .ok (.ok (utf8 ['v'])) ∧
      sampleGetStringArray ['a'] = .ok (.ok [utf8 ['x'], utf8 ['\x00']]) :=
  ⟨((strings_exact_iff sampleIo_honest Nat.one_ne_zero sampleDocument _ _ sampleCodec_exact.1 _).1
      ['v'] rfl rfl).2 (by decide),
    ((strings_exact_iff sampleIo_honest Nat.one_ne_zero sampleDocument _ _
      sampleCodec_exact.2.2.1 _).2 [['x'], ['\x00']] rfl sampleCodec_exact.2.2.2 rfl).2
      (.inr (by decide))⟩

/-- The string of one NUL is an error; in an array it arrives. -/
theorem nul_string_refused :
    queryNode sampleDocument ([TomlKey.string ['z']].map TomlKey.doc) = some (.string ['\x00']) ∧
      sampleGetString ['z'] = .ok (.error wrongLength) ∧
      sampleGetString ['z'] ≠ .ok (.ok (utf8 ['\x00'])) := by
  have hnode : queryNode sampleDocument ([TomlKey.string ['z']].map TomlKey.doc) =
      some (.string ['\x00']) := rfl
  have hcall : sampleGetString ['z'] = .ok (.error wrongLength) :=
    getString_eq sampleIo_honest Nat.one_ne_zero sampleCodec_exact.2.1 hnode rfl
  refine ⟨hnode, hcall, fun h => ?_⟩
  rw [hcall] at h
  cases h

end Ssgx.Config
