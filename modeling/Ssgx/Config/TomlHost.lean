import Ssgx.Boundary.Getters

/-!
# TOML documents on the host

`ssgx_config_u.cpp` and the getters of `ocall_config_u.cpp`: a path of keys comes as the text of a
JSON array, the node at its end is found in the document, and a string or an array is handed over
in a block from `malloc`, as a C string with its size. A string goes into the block as it is; an
array goes as JSON text.

Texts are lists of characters; the `std::string` of a text has its bytes in UTF-8 (`utf8`). The JSON
library is a parameter (`JsonCodec`), and so are the border crossing and `malloc` (`HostIo`). Of
JSON documents only the kinds are told apart that the configuration writes; a path of keys has no
others. What an ocall leaves unwritten of its out parameters is zero.
-/

set_option autoImplicit false

namespace Ssgx.Config

open Ssgx.Support
open Ssgx.Attestation (sgxSuccess)
open Ssgx.Boundary (HostAnswer)

/-- The `std::string` of a text. -/
def utf8 (text : Str) : List UInt8 := text.flatMap String.utf8EncodeChar

/-! ## Documents -/

/-- A node of a TOML document. Booleans, floating-point numbers, dates and times are not told apart.
-/
inductive Toml where
  | string (text : Str)
  | integer (value : Int)
  | array (elements : List Toml)
  | table (members : List (Str × Toml))
  | other

/-- `is_string`. -/
def Toml.isString : Toml → Bool
  | .string _ => true
  | _ => false

/-- `is_integer`. -/
def Toml.isInteger : Toml → Bool
  | .integer _ => true
  | _ => false

/-- A JSON document. -/
inductive JsonDoc where
  | string (text : Str)
  | integer (value : Int)
  | array (elements : List JsonDoc)
  | other

/-- `dump` and `parse` of the JSON library. `parse` throws a text. -/
structure JsonCodec where
  dump : JsonDoc → List UInt8
  parse : List UInt8 → Except Str JsonDoc

/-- `toml::get` of a string or an integer, as an element of an array. -/
def Toml.element : Toml → JsonDoc
  | .string text => .string text
  | .integer value => .integer value
  | _ => .other

/-! ## Finding a node -/

/-- One level of `query_node`: an index into an array, or a key of a table. An index that does not
exist, a key of the wrong kind and a node of another kind all throw. -/
def Toml.child : Toml → JsonDoc → Option Toml
  | .array elements, .integer (.ofNat index) => elements[index]?
  | .table members, .string key => members.lookup key
  | _, _ => none

/-- `query_node`. -/
def queryNode : Toml → List JsonDoc → Option Toml
  | root, [] => some root
  | root, key :: keys => (root.child key).bind fun node => queryNode node keys

/-- `find_toml_node`. -/
def findTomlNode (codec : JsonCodec) (path : List UInt8) (context : Toml) : Option Toml :=
  match codec.parse path with
  | .ok (.array (key :: keys)) => queryNode context (key :: keys)
  | _ => none

/-! ## Handing text over -/

/-- The crossing of the border, the memory of the host, and `malloc`, which gives 0 where it fails.
-/
structure HostIo where
  status : UInt32
  memory : Nat → UInt8
  malloc : Nat → Nat

/-- The bytes of a text up to its first NUL. -/
def cString (text : List UInt8) : List UInt8 := text.takeWhile fun byte => byte ≠ 0

/-- The block behind `memset` and `strncpy`. -/
def strncpyBlock (text : List UInt8) : List UInt8 :=
  cString text ++ List.replicate (text.length + 1 - (cString text).length) 0

/-- The memory with a block in it. -/
def HostIo.written (io : HostIo) (address : Nat) (block : List UInt8) (a : Nat) : UInt8 :=
  if address ≤ a then block.getD (a - address) (io.memory a) else io.memory a

/-- `return` of an error or of no text. -/
def HostIo.returns (io : HostIo) (ret : Int) : HostAnswer := ⟨io.status, ret, 0, 0, io.memory⟩

/-- A text is handed over in a block of its own; `noMemory` is the error where there is none. -/
def HostIo.handsOver (io : HostIo) (text : List UInt8) (noMemory : Int) : HostAnswer :=
  if io.malloc (text.length + 1) = 0 then io.returns noMemory
  else
    { status := io.status
      ret := 0
      pointer := io.malloc (text.length + 1)
      size := text.length + 1
      memory := io.written (io.malloc (text.length + 1)) (strncpyBlock text) }

/-! ## The ocalls -/

/-- `ssgx_ocall_toml_find_str`. -/
def ssgxOcallTomlFindStr (codec : JsonCodec) (io : HostIo) (refTomlFile : Option Toml)
    (path : List UInt8) : HostAnswer :=
  match refTomlFile with
  | none => io.returns (-1)
  | some context =>
      if path.isEmpty then io.returns (-2)
      else
        match findTomlNode codec path context with
        | none => io.returns (-5)
        | some (.string text) =>
            -- an empty string leaves the pointer null
            if (utf8 text).isEmpty then io.returns 0 else io.handsOver (utf8 text) (-9)
        | some _ => io.returns (-6)

/-- `ssgx_ocall_toml_find_array`. The document it dumps has an element, and a text. -/
def ssgxOcallTomlFindArray (codec : JsonCodec) (io : HostIo) (refTomlFile : Option Toml)
    (path : List UInt8) : HostAnswer :=
  match refTomlFile with
  | none => io.returns (-1)
  | some context =>
      if path.isEmpty then io.returns (-2)
      else
        match findTomlNode codec path context with
        | none => io.returns (-5)
        | some (.array elements) =>
            if elements.isEmpty then io.returns 0
            -- the elements must be all strings or all integers
            else if ¬ elements.all Toml.isString ∧ ¬ elements.all Toml.isInteger then
              io.returns (-8)
            else
              let arrayStr := codec.dump (.array (elements.map Toml.element))
              if arrayStr.isEmpty then io.returns (-10) else io.handsOver arrayStr (-12)
        | some _ => io.returns (-6)

/-! ## What is relied on -/

/-- What the JSON library promises for a document: it parses what it has dumped, and the text is not
empty and has no NUL, as control characters are escaped. -/
structure JsonCodec.Exact (codec : JsonCodec) (doc : JsonDoc) : Prop where
  parse_dump : codec.parse (codec.dump doc) = .ok doc
  dump_ne_nil : codec.dump doc ≠ []
  no_nul : 0 ∉ codec.dump doc

/-- An honest host: the crossing works, and `malloc` gives blocks that lie outside of the enclave.
-/
structure HostIo.Honest (io : HostIo) (outside : Nat → Nat → Bool) : Prop where
  status : io.status = sgxSuccess
  malloc : ∀ size, io.malloc size ≠ 0
  outside : ∀ size part, part ≤ size → outside (io.malloc size) part = true

end Ssgx.Config
