import Ssgx.Filesystem.PlainFile

/-!
# The metadata file

`FileMetaData` of `FileMetaData.cpp`: the record, the key request it stands for, and its file
format. A metadata file holds the tag, the version, the legacy mode, the key policy, the key id, the
two security version numbers, and the digest of all bytes before it: 94 bytes.

`FromFile` reads the digest at its cursor, behind the 62 bytes of the fields, but compares it with
the digest of everything but the last 32 bytes of the file. For a file of 94 bytes the two agree;
the length is not checked, and a longer file can pass (`fromFile_exact_iff`).
-/

set_option autoImplicit false

namespace Ssgx.Filesystem

open Ssgx.Support

/-- `FS_META_TAG`. -/
def fsMetaTag : List.Vector UInt8 8 := ⟨[0x7b, 0x1d, 0x3f, 0x75, 0xe3, 0x2e, 0x29, 0x20], rfl⟩

/-- `FS_METADATA_VERSION`. -/
def fsMetadataVersion : UInt8 := 0x01

/-- `FileMetaData`. -/
structure FileMetaData where
  version : UInt8
  legacyMode : UInt8
  keyPolicy : UInt16
  keyId : SgxKeyId
  isvSvn : UInt16
  cpuSvn : SgxCpuSvn
deriving DecidableEq

/-- `SGX_KEYSELECT_SEAL`. -/
def sgxKeyselectSeal : UInt16 := 0x0004

/-- `FLAGS_NON_SECURITY_BITS`: the reserved bits 6 to 55, `SGX_FLAGS_MODE64BIT`,
`SGX_FLAGS_PROVISION_KEY` and `SGX_FLAGS_EINITTOKEN_KEY`. -/
def flagsNonSecurityBits : UInt64 := 0xFFFFFFFFFFFFC0 ||| 0x4 ||| 0x10 ||| 0x20

/-- `TSEAL_DEFAULT_FLAGSMASK`. -/
def tsealDefaultFlagsmask : UInt64 := ~~~flagsNonSecurityBits

/-- `MISC_NON_SECURITY_BITS`. -/
def miscNonSecurityBits : UInt32 := 0x0FFFFFFF

/-- `TSEAL_DEFAULT_MISCMASK`. -/
def tsealDefaultMiscmask : UInt32 := ~~~miscNonSecurityBits

namespace FileMetaData

/-- The constructor with five arguments. -/
def make (legacyMode : UInt8) (policy : UInt16) (keyId : SgxKeyId) (isvSvn : UInt16)
    (cpuSvn : SgxCpuSvn) : FileMetaData where
  version := fsMetadataVersion
  legacyMode := legacyMode
  keyPolicy := policy
  keyId := keyId
  isvSvn := isvSvn
  cpuSvn := cpuSvn

/-- The default constructor: its version is 0, not the current one. -/
def default : FileMetaData where
  version := 0
  legacyMode := 0
  keyPolicy := 0
  keyId := List.Vector.replicate 32 0
  isvSvn := 0
  cpuSvn := List.Vector.replicate 16 0

/-- The values of the class: there are two constructors, no setters, and the assignments copy. -/
inductive Constructible : FileMetaData → Prop where
  | default : Constructible default
  | make (legacyMode : UInt8) (policy : UInt16) (keyId : SgxKeyId) (isvSvn : UInt16)
      (cpuSvn : SgxCpuSvn) : Constructible (make legacyMode policy keyId isvSvn cpuSvn)

/-- The values of the current version are those of the constructor with five arguments. -/
theorem constructible_of_version {m : FileMetaData} (h : m.version = fsMetadataVersion) :
    m.Constructible := by
  have hm : m = make m.legacyMode m.keyPolicy m.keyId m.isvSvn m.cpuSvn := by
    rw [make, ← h]
  rw [hm]
  exact .make _ _ _ _ _

/-- `GetKeyRequest`. -/
def getKeyRequest (m : FileMetaData) : SgxKeyRequest where
  keyName := sgxKeyselectSeal
  keyPolicy := m.keyPolicy
  isvSvn := m.isvSvn
  cpuSvn := m.cpuSvn
  attributeMask := ⟨tsealDefaultFlagsmask, 0x0⟩
  keyId := m.keyId
  miscMask := tsealDefaultMiscmask

/-- The size `ToFile` computes: tag, version, legacy mode, key policy, key id, `isv_svn`, `cpu_svn`
and digest. -/
def outputLen : Nat := 8 + 1 + 1 + 2 + 32 + 2 + 16 + 32

section Digest

variable (sha256 : List UInt8 → List.Vector UInt8 32)

/-- The buffer `ToFile` fills. -/
def serialize (m : FileMetaData) : Option (List UInt8) := do
  let w ← (Writer.start outputLen).put fsMetaTag.toList
  let w ← w.put [m.version]
  let w ← w.put [m.legacyMode]
  let w ← w.put (wordBytes m.keyPolicy).toList
  let w ← w.put m.keyId.toList
  let w ← w.put (wordBytes m.isvSvn).toList
  let w ← w.put m.cpuSvn.toList
  -- the digest of all bytes in front of it
  let md := sha256 (w.written.take (outputLen - 32))
  let w ← w.put md.toList
  return w.written

/-- `ToFile`. -/
def toFile (io : WriteIo) (m : FileMetaData) (pathName : Path) : FsCall Bool :=
  if pathName = [] then return false
  else
    match m.serialize sha256 with
    | none => return false
    | some fileContent => do
        writeAllBytes io pathName fileContent
        return true

/-- The part of `FromFile` behind the read: the fields in order, each at the cursor, then the
digest at the cursor against the digest of all but the last 32 bytes. -/
def parse (fileContent : List UInt8) : Option FileMetaData := do
  let (tag, rest) ← takeVector 8 fileContent
  if tag ≠ fsMetaTag then none
  else
    let (version, rest) ← takeHead rest
    if version ≠ fsMetadataVersion then none
    else
      let (legacyMode, rest) ← takeHead rest
      let (keyPolicy, rest) ← takeVector 2 rest
      let (keyId, rest) ← takeVector 32 rest
      let (isvSvn, rest) ← takeVector 2 rest
      let (cpuSvn, rest) ← takeVector 16 rest
      -- what follows the stored digest is not looked at
      let (stored, _) ← takeVector 32 rest
      if sha256 (fileContent.take (fileContent.length - 32)) ≠ stored then none
      else some (make legacyMode (bytesWord keyPolicy) keyId (bytesWord isvSvn) cpuSvn)

/-- `FromFile`. -/
def fromFile (io : ReadIo) (pathName : Path) : FsCall (Option FileMetaData) :=
  if pathName = [] then return none
  else do
    -- the exception of the read is caught, and counts as no metadata
    let fileContent ← Call.attempt (readAllBytes io pathName)
    return fileContent.bind (parse sha256)

/-! ## The format -/

/-- The bytes of the fields, in the order of the file. -/
def body (m : FileMetaData) : List UInt8 :=
  fsMetaTag.toList ++ ([m.version] ++ ([m.legacyMode] ++ ((wordBytes m.keyPolicy).toList ++
    (m.keyId.toList ++ ((wordBytes m.isvSvn).toList ++ m.cpuSvn.toList)))))

/-- The canonical metadata file of `m`: the fields and the digest of exactly their bytes. -/
def encode (m : FileMetaData) : List UInt8 := m.body ++ (sha256 m.body).toList

theorem body_length (m : FileMetaData) : m.body.length = 62 := by
  simp [body]

theorem encode_length (m : FileMetaData) : (m.encode sha256).length = 94 := by
  simp [encode, body_length]

/-- `ToFile` fills the buffer with the canonical file. -/
theorem serialize_eq (m : FileMetaData) : m.serialize sha256 = some (m.encode sha256) := by
  have htake : m.body.take 62 = m.body := List.take_of_length_le (by rw [body_length])
  simp only [body, List.singleton_append] at htake
  simp only [serialize, Writer.put, Writer.start, outputLen, encode, body]
  simp [htake]

/-- What `FromFile` accepts: a file that starts with the fields of a record of the current version
and a digest, the digest being that of everything but the last 32 bytes of the file. -/
theorem parse_eq_some_iff {b : List UInt8} {m : FileMetaData} :
    parse sha256 b = some m ↔
      m.version = fsMetadataVersion ∧
        ∃ tail, b = m.body ++ ((sha256 (b.take (b.length - 32))).toList ++ tail) := by
  constructor
  · intro h
    simp only [parse] at h
    -- each read of the parser is one split of the bytes, named after the field it fills
    obtain ⟨⟨tag, r₁⟩, h₁, h⟩ := Option.bind_eq_some_iff.1 h
    dsimp only at h
    split at h
    · cases h
    next htag =>
    obtain ⟨⟨version, r₂⟩, h₂, h⟩ := Option.bind_eq_some_iff.1 h
    dsimp only at h
    split at h
    · cases h
    next hversion =>
    obtain ⟨⟨legacyMode, r₃⟩, h₃, h⟩ := Option.bind_eq_some_iff.1 h
    obtain ⟨⟨keyPolicy, r₄⟩, h₄, h⟩ := Option.bind_eq_some_iff.1 h
    obtain ⟨⟨keyId, r₅⟩, h₅, h⟩ := Option.bind_eq_some_iff.1 h
    obtain ⟨⟨isvSvn, r₆⟩, h₆, h⟩ := Option.bind_eq_some_iff.1 h
    obtain ⟨⟨cpuSvn, r₇⟩, h₇, h⟩ := Option.bind_eq_some_iff.1 h
    obtain ⟨⟨stored, r₈⟩, h₈, h⟩ := Option.bind_eq_some_iff.1 h
    dsimp only at h
    split at h
    · cases h
    next hstored =>
    cases Option.some.inj h
    -- put together, the splits give the bytes back
    rw [takeVector_eq_some_iff] at h₁ h₄ h₅ h₆ h₇ h₈
    rw [takeHead_eq_some_iff] at h₂ h₃
    rw [not_not] at htag hversion hstored
    dsimp only at h₄ h₅ h₆ h₇ h₈
    refine ⟨rfl, r₈, ?_⟩
    rw [hstored, h₁, h₂, h₃, h₄, h₅, h₆, h₇, h₈, htag, hversion]
    simp [body, make, wordBytes_bytesWord]
  · rintro ⟨hversion, tail, hb⟩
    -- the digest gets a name before the bytes under it are taken apart
    generalize hd : sha256 (b.take (b.length - 32)) = stored at hb
    have hfields : b = fsMetaTag.toList ++ (m.version :: m.legacyMode ::
        ((wordBytes m.keyPolicy).toList ++ (m.keyId.toList ++ ((wordBytes m.isvSvn).toList ++
          (m.cpuSvn.toList ++ (stored.toList ++ tail)))))) := by
      rw [hb]
      simp [body]
    have hm : m = make m.legacyMode m.keyPolicy m.keyId m.isvSvn m.cpuSvn := by
      rw [make, ← hversion]
    simp only [parse]
    rw [hd, hfields]
    simp only [takeVector_append, takeHead, Option.bind_eq_bind, Option.bind_some, ne_eq,
      not_true_eq_false, if_false, hversion, bytesWord_wordBytes]
    rw [← hm]

/-! ## Files that are accepted -/

/-- `FromFile` over a host whose calls work: the parse of the file's bytes. -/
theorem fromFile_of_works {io : ReadIo} (hio : io.Works) {p : Path} (hp : p ≠ []) {w : World}
    {f : HostFile} (hfile : w.files p = some f) :
    fromFile sha256 io p w =
      (.ok (if f.bytes.length ≤ fsMaxFileSize then parse sha256 f.bytes else none), w) := by
  simp only [fromFile]
  rw [if_neg hp]
  by_cases hsize : f.bytes.length ≤ fsMaxFileSize
  · rw [if_pos hsize, Call.bind_of_ok
      (Call.attempt_ok_some_iff.2 (readAllBytes_of_works hio hp hfile hsize))]
    rfl
  · rw [if_neg hsize]
    rcases hread : readAllBytes io p w with ⟨r, w'⟩
    obtain rfl : w' = w := (readsOnly_readAllBytes io p).eq hread
    cases r with
    | ok b =>
        -- a read that returned would have returned the whole, too long file
        obtain ⟨g, hg, rfl, hle⟩ := readAllBytes_ok hread
        rw [hfile] at hg
        cases hg
        exact absurd hle hsize
    | error e => rw [Call.bind_apply, Call.attempt_apply, hread]; rfl

/-- `ToFile` over a host whose calls work: the canonical file. -/
theorem toFile_of_works {io : WriteIo} (hio : io.Works) {p : Path} (hp : p ≠ [])
    (m : FileMetaData) (w : World) :
    toFile sha256 io m p w = (.ok true, w.put p (some (.plain (m.encode sha256)))) := by
  have hsize : (m.encode sha256).length ≤ fsMaxFileSize := by
    rw [encode_length]
    decide
  simp only [toFile]
  rw [if_neg hp, serialize_eq]
  exact Call.bind_of_ok (writeAllBytes_of_works hio hp hsize w)

/-- `ToFile` throws exactly when the write of its 94 bytes does, and never returns `false`. -/
theorem toFile_cases (io : WriteIo) (m : FileMetaData) {p : Path} (hp : p ≠ []) (w : World) :
    (io.Fails 94 ∧ ∃ e, toFile sha256 io m p w =
        (.error e, w.put p (io.leaves (m.encode sha256) (w.files p)))) ∨
      (¬ io.Fails 94 ∧ toFile sha256 io m p w =
        (.ok true, w.put p (some (.plain ((m.encode sha256).take io.flushed))))) := by
  have hlen : (m.encode sha256).length = 94 := encode_length sha256 m
  simp only [toFile]
  rw [if_neg hp, serialize_eq, ← hlen]
  rcases writeAllBytes_short io (m.encode sha256) hp (by rw [hlen]; decide)
    (by rw [hlen]; decide) w with ⟨hf, e, he⟩ | ⟨hf, hok⟩
  · exact Or.inl ⟨hf, e, Call.bind_of_error he⟩
  · exact Or.inr ⟨hf, Call.bind_of_ok hok⟩

/-- A file with bytes behind the stored digest that `FromFile` accepts: the tag and the current
version in front, and behind the fields the digest of all but the last 32 bytes. -/
def Extended (b : List UInt8) : Prop :=
  94 < b.length ∧ b.length ≤ fsMaxFileSize ∧ b.take 8 = fsMetaTag.toList ∧
    b[8]? = some fsMetadataVersion ∧
    (b.drop 62).take 32 = (sha256 (b.take (b.length - 32))).toList

/-- The bytes of the fields of a default-constructed record. -/
def defaultBody : List UInt8 := fsMetaTag.toList ++ List.replicate 54 0

/-- The file that `ToFile` writes for a default-constructed record, which is not of the current
version. -/
def DefaultFile (b : List UInt8) : Prop := b = defaultBody ++ (sha256 defaultBody).toList

/-- Every 62 bytes with the tag in front are the fields of a record, whose version is the byte
behind the tag. -/
theorem exists_eq_body_append {b : List UInt8} (hlen : 62 ≤ b.length)
    (htag : b.take 8 = fsMetaTag.toList) :
    ∃ (m : FileMetaData) (rest : List UInt8), b = m.body ++ rest ∧ b[8]? = some m.version := by
  obtain ⟨tag, r₁, h₁, hr₁⟩ := exists_eq_toList_append (n := 8) (l := b) (by omega)
  obtain rfl : tag = fsMetaTag := by
    rw [h₁, List.take_left' tag.toList_length] at htag
    exact Subtype.ext htag
  obtain ⟨version, r₂, h₂⟩ := List.exists_cons_of_length_pos (l := r₁) (by omega)
  have hr₂ : r₁.length = r₂.length + 1 := by rw [h₂, List.length_cons]
  obtain ⟨legacyMode, r₃, h₃⟩ := List.exists_cons_of_length_pos (l := r₂) (by omega)
  have hr₃ : r₂.length = r₃.length + 1 := by rw [h₃, List.length_cons]
  obtain ⟨keyPolicy, r₄, h₄, hr₄⟩ := exists_eq_toList_append (n := 2) (l := r₃) (by omega)
  obtain ⟨keyId, r₅, h₅, hr₅⟩ := exists_eq_toList_append (n := 32) (l := r₄) (by omega)
  obtain ⟨isvSvn, r₆, h₆, hr₆⟩ := exists_eq_toList_append (n := 2) (l := r₅) (by omega)
  obtain ⟨cpuSvn, r₇, h₇, -⟩ := exists_eq_toList_append (n := 16) (l := r₆) (by omega)
  refine ⟨⟨version, legacyMode, bytesWord keyPolicy, keyId, bytesWord isvSvn, cpuSvn⟩, r₇, ?_, ?_⟩
  · rw [h₁, h₂, h₃, h₄, h₅, h₆, h₇]
    simp [body, wordBytes_bytesWord]
  · rw [h₁, h₂]
    simp

theorem parse_of_short {b : List UInt8} (h : b.length < 94) : parse sha256 b = none := by
  rw [Option.eq_none_iff_forall_ne_some]
  intro m hm
  obtain ⟨-, tail, hb⟩ := (parse_eq_some_iff sha256).1 hm
  have hlen := congrArg List.length hb
  simp only [List.length_append, body_length, List.Vector.toList_length] at hlen
  omega

/-- What the parser accepts has the length of a canonical file or is `Extended`. -/
theorem canonical_or_extended {b : List UInt8} {m : FileMetaData} (hsize : b.length ≤ fsMaxFileSize)
    (h : parse sha256 b = some m) : b = m.encode sha256 ∨ Extended sha256 b := by
  obtain ⟨hversion, tail, hb⟩ := (parse_eq_some_iff sha256).1 h
  have hlen : b.length = 62 + (32 + tail.length) := by
    rw [hb]
    simp [body_length]
  cases tail with
  | nil =>
      -- nothing behind the digest: the two places where the digest is sought are the same
      left
      have htake : b.take (b.length - 32) = m.body := by
        rw [hlen, hb]
        exact List.take_left' (body_length m)
      rw [htake, List.append_nil] at hb
      exact hb
  | cons x tail =>
      -- a byte more, and the digest compared is not over the fields alone
      right
      refine ⟨by simp at hlen; omega, hsize, ?_, ?_, ?_⟩
      · rw [hb]
        simp [body]
      · rw [hb]
        simp [body, hversion]
      · generalize sha256 (b.take (b.length - 32)) = stored at hb ⊢
        rw [hb, List.drop_left' (body_length m), List.take_left' stored.toList_length]

theorem parse_encode {m : FileMetaData} (hversion : m.version = fsMetadataVersion) :
    parse sha256 (m.encode sha256) = some m := by
  refine (parse_eq_some_iff sha256).2 ⟨hversion, [], ?_⟩
  have htake : (m.encode sha256).take ((m.encode sha256).length - 32) = m.body := by
    rw [encode_length]
    exact List.take_left' (body_length m)
  rw [htake, List.append_nil]
  rfl

/-- An `Extended` file parses. -/
theorem Extended.parses {b : List UInt8} (h : Extended sha256 b) :
    ∃ m, parse sha256 b = some m := by
  obtain ⟨hlong, -, htag, hversion, hdigest⟩ := h
  obtain ⟨m, rest, hb, hm⟩ := exists_eq_body_append (by omega) htag
  refine ⟨m, (parse_eq_some_iff sha256).2 ⟨?_, rest.drop 32, ?_⟩⟩
  · rw [hm] at hversion
    exact Option.some.inj hversion
  · rw [← hdigest]
    -- the stored digest lies behind the fields, wherever the file ends
    have hrest : b.drop 62 = rest := by rw [hb, List.drop_left' (body_length m)]
    rw [hrest, List.take_append_drop]
    exact hb

theorem defaultFile_iff {b : List UInt8} : DefaultFile sha256 b ↔ b = default.encode sha256 := by
  have hbody : default.body = defaultBody := by decide
  rw [DefaultFile, encode, hbody]

/-- **When the format is exact.** `FromFile` on a file returns exactly the value of the class, if
there is one, for which `ToFile` writes the bytes of the file: this is so exactly when the file is
not `Extended` and is not the file of a default-constructed record. -/
theorem fromFile_exact_iff {rio : ReadIo} {wio : WriteIo} (hr : rio.Works) (hw : wio.Works)
    {p : Path} (hp : p ≠ []) (w₀ : World) {w : World} {f : HostFile} (hfile : w.files p = some f) :
    (∀ m : FileMetaData, fromFile sha256 rio p w = (.ok (some m), w) ↔
        m.Constructible ∧
          toFile sha256 wio m p w₀ = (.ok true, w₀.put p (some (.plain f.bytes)))) ↔
      ¬ Extended sha256 f.bytes ∧ ¬ DefaultFile sha256 f.bytes := by
  have hto : ∀ m : FileMetaData,
      toFile sha256 wio m p w₀ = (.ok true, w₀.put p (some (.plain f.bytes))) ↔
        f.bytes = m.encode sha256 := by
    intro m
    rw [toFile_of_works sha256 hw hp]
    constructor
    · intro h
      have hput := congrArg (fun x => x.2.files p) h
      simp only [World.put_files_self, Option.some.injEq, HostFile.plain.injEq] at hput
      exact hput.symm
    · intro h
      rw [h]
  have hfrom : ∀ m : FileMetaData, fromFile sha256 rio p w = (.ok (some m), w) ↔
      f.bytes.length ≤ fsMaxFileSize ∧ parse sha256 f.bytes = some m := by
    intro m
    rw [fromFile_of_works sha256 hr hp hfile]
    by_cases hsize : f.bytes.length ≤ fsMaxFileSize
    · simp [hsize]
    · simp [hsize]
  simp only [hto, hfrom]
  constructor
  · intro h
    refine ⟨fun hext => ?_, fun hdefault => ?_⟩
    -- an extended file parses, but is too long to have been written
    · obtain ⟨m, hm⟩ := hext.parses sha256
      have hlen := congrArg List.length ((h m).1 ⟨hext.2.1, hm⟩).2
      rw [encode_length] at hlen
      exact absurd hlen (Nat.ne_of_gt hext.1)
    -- the default record is written, but not read back
    · obtain ⟨-, hm⟩ := (h default).2 ⟨.default, (defaultFile_iff sha256).1 hdefault⟩
      exact absurd ((parse_eq_some_iff sha256).1 hm).1 (by decide)
  · rintro ⟨hext, hdefault⟩ m
    constructor
    · rintro ⟨hsize, hm⟩
      exact ⟨constructible_of_version ((parse_eq_some_iff sha256).1 hm).1,
        (canonical_or_extended sha256 hsize hm).resolve_right hext⟩
    · rintro ⟨hmade, hb⟩
      cases hmade with
      | default => exact absurd ((defaultFile_iff sha256).2 hb) hdefault
      | make legacyMode policy keyId isvSvn cpuSvn =>
          refine ⟨?_, ?_⟩
          · rw [hb, encode_length]
            decide
          · rw [hb]
            exact parse_encode sha256 rfl

end Digest

/-! ## An extended file -/

/-- The metadata of a file written under the policy MRSIGNER by an enclave with `isv_svn` 2. -/
def signerRecord : FileMetaData :=
  make 1 0x0002 (List.Vector.replicate 32 0) 2 (List.Vector.replicate 16 0)

/-- The SHA-256 digest of the fields of `signerRecord` followed by its own first byte. -/
def signerDigest : List.Vector UInt8 32 :=
  ⟨[118, 253, 114, 42, 2, 233, 107, 235, 243, 71, 180, 31, 235, 146, 232, 205, 230, 106, 79, 223,
    181, 3, 131, 202, 94, 237, 186, 253, 176, 222, 214, 47], rfl⟩

/-- SHA-256 on the one input that the file below has it digest. -/
def signerSha256 (l : List UInt8) : List.Vector UInt8 32 :=
  if l = signerRecord.body ++ [118] then signerDigest else List.Vector.replicate 32 0

/-- The fields, the digest and one byte more. -/
def extendedFile : List UInt8 := signerRecord.body ++ (signerDigest.toList ++ [0])

/-- The host with `extendedFile` under the path `m`. -/
def extendedWorld : World := ⟨fun _ => some (.plain extendedFile), []⟩

/-- `FromFile` accepts a file of 95 bytes, which `ToFile` writes for no record. -/
theorem extended_file_accepted :
    ¬ ∀ m : FileMetaData,
      fromFile signerSha256 ReadIo.working ['m'] extendedWorld = (.ok (some m), extendedWorld) ↔
        m.Constructible ∧ toFile signerSha256 WriteIo.working m ['m'] extendedWorld =
          (.ok true, extendedWorld.put ['m'] (some (.plain extendedFile))) := by
  intro h
  have hparse : parse signerSha256 extendedFile = some signerRecord := by decide
  have hfrom := fromFile_of_works signerSha256 ReadIo.working_works (p := ['m']) (by decide)
    (w := extendedWorld) rfl
  obtain ⟨-, hto⟩ := (h signerRecord).1 (by
    rw [hfrom]
    exact congrArg (fun x => (Except.ok x, extendedWorld)) hparse)
  rw [toFile_of_works signerSha256 WriteIo.working_works (p := ['m']) (by decide)] at hto
  have hput := congrArg (fun x => (x.2.files ['m']).map fun f => f.bytes.length) hto
  simp only [World.put_files_self, Option.map_some, HostFile.bytes, encode_length] at hput
  exact absurd hput (by decide)

/-- On the canonical file of the same record the two agree. -/
theorem fromFile_exact_iff_signer :
    let w : World := ⟨fun _ => some (.plain (signerRecord.encode signerSha256)), []⟩
    ∀ m : FileMetaData,
      fromFile signerSha256 ReadIo.working ['m'] w = (.ok (some m), w) ↔
        m.Constructible ∧ toFile signerSha256 WriteIo.working m ['m'] w =
          (.ok true, w.put ['m'] (some (.plain (signerRecord.encode signerSha256)))) := by
  intro w
  refine (fromFile_exact_iff signerSha256 ReadIo.working_works WriteIo.working_works
    (p := ['m']) (by decide) w (w := w) rfl).2 ⟨fun h => ?_, fun h => ?_⟩
  · exact absurd h.1 (by decide)
  -- the byte behind the tag is the version
  · have hversion := congrArg (fun b => b[8]?) h
    exact absurd hversion (by decide)

end FileMetaData

end Ssgx.Filesystem
