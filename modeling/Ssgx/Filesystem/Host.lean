import Ssgx.Support.Call
import Ssgx.Support.Cursor
import Mathlib.Logic.Function.Basic

/-!
# Host files and the calls that reach them

The enclave sees the host's files through ocalls. This module embeds the ocalls of
`ocall_filesystem.cpp` over a map from path names to files, and the trusted functions of
`ssgx_filesystem_t.cpp`, `PlainFileReader.cpp` and `PlainFileWriter.cpp` that call them.

The host is honest but its calls may fail. Each call takes the outcome of every host step as an
argument (`StatIo`, `RemoveIo`, `ReadIo`, `WriteIo`), so that a statement about all outcomes is a
statement about all arguments. A file is plain, or it is a file of the protected file system that
remembers the key it was written under (`HostFile`).
-/

set_option autoImplicit false

namespace Ssgx.Filesystem

open Ssgx.Support

/-- A path name: the characters of `Path::pn_`. Where it goes to the host, as in the modules over
`World`, it is one without NUL, which `c_str` gives in full. -/
abbrev Path := List Char

/-! ## Constants -/

/-- `FS_METADATA_FILE_EXT`. -/
def fsMetadataFileExt : Path := ['.', 'p', 'f', 's', 'm', 'e', 't', 'a']

/-- `FS_MAX_FILE_SIZE` and `SSGX_FS_MAX_FILE_SIZE`. -/
def fsMaxFileSize : Nat := 100 * 1024

/-- `SSGX_FS_BUFFER_SIZE`. -/
def fsBufferSize : Nat := 1024 * 4

/-- The path of the metadata file of a protected file: `Path(file_name) += FS_METADATA_FILE_EXT`. -/
def metadataFile (p : Path) : Path := p ++ fsMetadataFileExt

theorem metadataFile_ne_self (p : Path) : metadataFile p ≠ p := by
  intro h
  have hl := congrArg List.length h
  simp [metadataFile, fsMetadataFileExt] at hl

theorem metadataFile_ne_nil (p : Path) : metadataFile p ≠ [] := by
  simp [metadataFile, fsMetadataFileExt]

/-! ## Keys of protected files -/

/-- `sgx_key_id_t`. -/
abbrev SgxKeyId := List.Vector UInt8 32

/-- `sgx_cpu_svn_t`. -/
abbrev SgxCpuSvn := List.Vector UInt8 16

/-- `sgx_attributes_t`. -/
structure SgxAttributes where
  flags : UInt64
  xfrm : UInt64
deriving DecidableEq

/-- `sgx_key_request_t`, without its reserved bytes and `config_svn`, which stay zero. -/
structure SgxKeyRequest where
  keyName : UInt16
  keyPolicy : UInt16
  isvSvn : UInt16
  cpuSvn : SgxCpuSvn
  attributeMask : SgxAttributes
  keyId : SgxKeyId
  miscMask : UInt32
deriving DecidableEq

/-- The key a protected file is opened with: the one key that `sgx_fopen_auto_key` derives, or the
seal key that `sgx_get_key` derives from a key request. Different requests derive different keys. -/
inductive KeySource where
  | auto
  | seal (request : SgxKeyRequest)
deriving DecidableEq

/-! ## Files -/

/-- A file on the host. A protected file remembers the key it was written under; `raw` is what a
reader of the bare bytes sees. -/
inductive HostFile where
  | plain (content : List UInt8)
  | sealed (key : KeySource) (raw : List UInt8)
deriving DecidableEq

/-- The bytes of a file as the host sees them. -/
def HostFile.bytes : HostFile → List UInt8
  | .plain content => content
  | .sealed _ raw => raw

/-- The key of a protected file. -/
def HostFile.key? : HostFile → Option KeySource
  | .plain _ => none
  | .sealed key _ => some key

/-- The host's files. -/
abbrev HostFiles := Path → Option HostFile

/-- The mode argument of `sgx_fopen`. -/
inductive FopenMode where
  | r
  | w
  | a
deriving DecidableEq

/-- A non-null `SGX_FILE*`. -/
abbrev SgxFile := Nat

/-- What an enclave did with the protected file system: an attempt to open a file with a key, and
its result; a use of a handle; a close of a handle. -/
inductive FsEvent where
  | fopen (path : Path) (mode : FopenMode) (key : KeySource) (result : Option SgxFile)
  | use (file : SgxFile)
  | fclose (file : SgxFile)
deriving DecidableEq

/-- The host's files and the protected file system calls made so far. -/
structure World where
  files : HostFiles
  log : List FsEvent

/-- `FileSystemException`. -/
structure FileSystemException where
  errMsg : String
deriving DecidableEq

/-- A call of the file system module. -/
abbrev FsCall (α : Type) := Call FileSystemException World α

/-- `SGX_SUCCESS`. -/
def sgxSuccess : Nat := 0

/-- `%x` of `FormatStr`. -/
def hexStr (n : Nat) : String := String.ofList (Nat.toDigits 16 n)

/-- The message of a failed boundary crossing. -/
def ocallStatusMsg (call : String) (status : Nat) : String :=
  "Enclave " ++ call ++ " function call failed, sgx status: 0x" ++ hexStr status

/-- The message of a negative return value. -/
def ocallReturnMsg (call : String) (ret : Int) : String :=
  "Enclave " ++ call ++ " function call failed, error code: " ++ toString ret

/-! ## File status -/

/-- `FileType`. -/
inductive FileType where
  | none
  | notFound
  | regular
  | directory
  | symlink
  | block
  | character
  | fifo
  | socket
  | unknown
deriving DecidableEq

/-- The enumerators' values. -/
def FileType.code : FileType → Nat
  | .none => 0
  | .notFound => 1
  | .regular => 2
  | .directory => 3
  | .symlink => 4
  | .block => 5
  | .character => 6
  | .fifo => 7
  | .socket => 8
  | .unknown => 9

/-- `Perms::Mask`. -/
def permsMask : UInt32 := 0o7777

/-- `FileStatus`. -/
structure FileStatus where
  type : FileType
  permissions : UInt32

/-- How `ssgx_ocall_get_file_status` goes: the status of the crossing, whether `stat` fails with an
error other than `ENOENT` and `ENOTDIR`, and the mode bits it reports. -/
structure StatIo where
  sgxStatus : Nat
  fails : Bool
  stMode : UInt32

/-- Nothing fails. -/
def StatIo.Works (io : StatIo) : Prop := io.sgxStatus = sgxSuccess ∧ io.fails = false

instance (io : StatIo) : Decidable io.Works := inferInstanceAs (Decidable (_ ∧ _))

/-- `ssgx_ocall_get_file_status`: return value, file type and permissions. -/
def ssgxOcallGetFileStatus (io : StatIo) (files : HostFiles) (p : Path) :
    Int × FileType × UInt32 :=
  if p = [] then (-1, .none, 0)
  else if io.fails then (-2, .none, 0)
  else
    match files p with
    | some _ => (0, .regular, io.stMode &&& permsMask)
    | none => (0, .notFound, 0)

/-- `Status`. -/
def status (io : StatIo) (p : Path) : FsCall FileStatus := do
  Call.raiseIf (p = []) ⟨"The input file path is empty"⟩
  Call.raiseIf (io.sgxStatus ≠ sgxSuccess)
    ⟨ocallStatusMsg "ssgx_ocall_get_file_status" io.sgxStatus⟩
  let w ← Call.read
  let answer := ssgxOcallGetFileStatus io w.files p
  Call.raiseIf (answer.1 < 0) ⟨ocallReturnMsg "ssgx_ocall_get_file_status" answer.1⟩
  Call.raiseIf (answer.2.1.code ≤ FileType.none.code ∨ FileType.unknown.code ≤ answer.2.1.code)
    ⟨"The file type is invalid, file type: " ++ toString answer.2.1.code⟩
  Call.raiseIf (answer.2.2 &&& ~~~permsMask ≠ 0)
    ⟨"The file permissions are invalid, file permissions: 0" ++
      String.ofList (Nat.toDigits 8 answer.2.2.toNat)⟩
  return ⟨answer.2.1, answer.2.2⟩

/-- `Exists(const FileStatus&)`. -/
def FileStatus.exists (s : FileStatus) : Bool :=
  decide (s.type ≠ .none) && decide (s.type ≠ .notFound)

/-- `Exists(const Path&)`. -/
def existsPath (io : StatIo) (p : Path) : FsCall Bool := do
  let s ← status io p
  return s.exists

theorem permsMask_and_not (x : UInt32) : x &&& permsMask &&& ~~~permsMask = 0 := by
  have h : permsMask &&& ~~~permsMask = 0 := by decide
  rw [UInt32.and_assoc, h, UInt32.and_zero]

/-- A call that leaves the world as it was, also when it throws. -/
def ReadsOnly {α : Type} (x : FsCall α) : Prop := Call.Moves (fun w w' => w' = w) x

theorem ReadsOnly.bind {α β : Type} {x : FsCall α} {f : α → FsCall β} (hx : ReadsOnly x)
    (hf : ∀ a, ReadsOnly (f a)) : ReadsOnly (x >>= f) :=
  Call.moves_bind (fun _ _ _ h₁ h₂ => h₂.trans h₁) hx hf

theorem readsOnly_pure {α : Type} (a : α) : ReadsOnly (pure a : FsCall α) := fun _ => rfl

theorem readsOnly_raise {α : Type} (e : FileSystemException) :
    ReadsOnly (Call.raise e : FsCall α) := fun _ => rfl

theorem readsOnly_raiseIf (p : Prop) [Decidable p] (e : FileSystemException) :
    ReadsOnly (Call.raiseIf p e : FsCall PUnit) :=
  Call.moves_raiseIf (r := fun w w' => w' = w) (fun _ => rfl) p e

theorem readsOnly_read : ReadsOnly (Call.read : FsCall World) := fun _ => rfl

/-- A read-only call is known by its results alone. -/
theorem ReadsOnly.eq {α : Type} {x : FsCall α} (hx : ReadsOnly x) {w w' : World}
    {r : Except FileSystemException α} (h : x w = (r, w')) : w' = w := by
  have hw := hx w
  rw [h] at hw
  exact hw

theorem readsOnly_status (io : StatIo) (p : Path) : ReadsOnly (status io p) :=
  (readsOnly_raiseIf _ _).bind fun _ => (readsOnly_raiseIf _ _).bind fun _ =>
    readsOnly_read.bind fun _ => (readsOnly_raiseIf _ _).bind fun _ =>
      (readsOnly_raiseIf _ _).bind fun _ => (readsOnly_raiseIf _ _).bind fun _ =>
        readsOnly_pure _

/-- The status of a path as a host whose calls work reports it. -/
def World.statusOf (w : World) (io : StatIo) (p : Path) : FileStatus :=
  if (w.files p).isSome then ⟨.regular, io.stMode &&& permsMask⟩ else ⟨.notFound, 0⟩

/-- `Status` answers exactly when the path is not empty and the host's calls work. -/
theorem status_ok_iff {io : StatIo} {p : Path} {w w' : World} {s : FileStatus} :
    status io p w = (.ok s, w') ↔ p ≠ [] ∧ io.Works ∧ s = w.statusOf io p ∧ w' = w := by
  simp only [status]
  simp only [Call.raiseIf_bind_ok_iff, Call.read_bind_apply, Call.pure_apply]
  simp only [ssgxOcallGetFileStatus, StatIo.Works, World.statusOf]
  by_cases hp : p = []
  · simp [hp]
  · cases hf : io.fails with
    | true => simp [hp]
    | false =>
        cases hfile : w.files p with
        | none => simp [hp, FileType.code, eq_comm]
        | some f => simp [hp, FileType.code, permsMask_and_not, eq_comm]

/-- `Exists` answers exactly when the path is not empty and the host's calls work, and then it says
whether the host has the file. -/
theorem existsPath_ok_iff {io : StatIo} {p : Path} {w w' : World} {b : Bool} :
    existsPath io p w = (.ok b, w') ↔
      p ≠ [] ∧ io.Works ∧ b = (w.files p).isSome ∧ w' = w := by
  simp only [existsPath]
  simp only [Call.bind_ok_iff, status_ok_iff, Call.pure_apply, World.statusOf]
  cases hfile : w.files p with
  | none => simp [FileStatus.exists, and_assoc, eq_comm]
  | some f => simp [FileStatus.exists, and_assoc, eq_comm]

theorem readsOnly_existsPath (io : StatIo) (p : Path) : ReadsOnly (existsPath io p) :=
  (readsOnly_status io p).bind fun _ => readsOnly_pure _

/-! ## Removal -/

/-- How `Remove` goes: its `Exists`, the status of the crossing, and whether `remove` fails. -/
structure RemoveIo where
  stat : StatIo
  sgxStatus : Nat
  fails : Bool

/-- Nothing fails after `Exists`. -/
def RemoveIo.Removes (io : RemoveIo) : Prop := io.sgxStatus = sgxSuccess ∧ io.fails = false

/-- `ssgx_ocall_remove_file`: return value and the files left. -/
def ssgxOcallRemoveFile (fails : Bool) (files : HostFiles) (p : Path) : Int × HostFiles :=
  if p = [] then (-1, files)
  else if fails then (-2, files)
  else (0, Function.update files p none)

/-- `Remove`. -/
def remove (io : RemoveIo) (p : Path) : FsCall Bool := do
  Call.raiseIf (p = []) ⟨"The input file path is empty"⟩
  let found ← existsPath io.stat p
  if found then
    Call.raiseIf (io.sgxStatus ≠ sgxSuccess)
      ⟨ocallStatusMsg "ssgx_ocall_remove_file" io.sgxStatus⟩
    let w ← Call.read
    let answer := ssgxOcallRemoveFile io.fails w.files p
    Call.update fun w => { w with files := answer.2 }
    Call.raiseIf (answer.1 < 0) ⟨ocallReturnMsg "ssgx_ocall_remove_file" answer.1⟩
    return true
  else return false

/-- `RemoveProtectedFile`: the second removal runs only when the first one found its file. -/
def removeProtectedFile (fileIo metaIo : RemoveIo) (fileName : Path) : FsCall Bool := do
  let removed ← remove fileIo fileName
  if removed then remove metaIo (metadataFile fileName) else return false

/-- The world without the file at `p`. -/
def World.without (w : World) (p : Path) : World :=
  { w with files := Function.update w.files p none }

/-- `Remove` returns exactly when the path is not empty and what it needs of the host works: `false`
where there is no file, and otherwise `true` with the file gone. -/
theorem remove_ok_iff {io : RemoveIo} {p : Path} {w w' : World} {b : Bool} :
    remove io p w = (.ok b, w') ↔
      p ≠ [] ∧ io.stat.Works ∧ b = (w.files p).isSome ∧
        (if b then io.Removes ∧ w' = w.without p else w' = w) := by
  simp only [remove]
  rw [Call.raiseIf_bind_ok_iff]
  constructor
  · rintro ⟨hp, h⟩
    obtain ⟨found, w₁, hfound, h⟩ := Call.bind_ok_iff.1 h
    obtain ⟨-, hst, rfl, rfl⟩ := existsPath_ok_iff.1 hfound
    cases hfile : w₁.files p with
    | none =>
        rw [hfile] at h
        cases h
        exact ⟨hp, hst, rfl, rfl⟩
    | some f =>
        rw [hfile, Option.isSome_some, if_pos rfl] at h
        obtain ⟨hs, h⟩ := Call.raiseIf_bind_ok_iff.1 h
        simp only [Call.read_bind_apply, Call.update_bind_apply] at h
        obtain ⟨hret, h⟩ := Call.raiseIf_bind_ok_iff.1 h
        cases h
        -- an ocall that fails would have raised its return value
        cases hf : io.fails with
        | true => simp [ssgxOcallRemoveFile, hp, hf] at hret
        | false =>
            refine ⟨hp, hst, rfl, ⟨by simpa using hs, hf⟩, ?_⟩
            simp [ssgxOcallRemoveFile, hp, World.without]
  · rintro ⟨hp, hst, rfl, h⟩
    refine ⟨hp, Call.bind_ok_iff.2 ⟨_, w, existsPath_ok_iff.2 ⟨hp, hst, rfl, rfl⟩, ?_⟩⟩
    cases hfile : w.files p with
    | none =>
        rw [hfile] at h
        exact congrArg (Prod.mk _) h.symm
    | some f =>
        rw [hfile] at h
        obtain ⟨⟨hs, hf⟩, rfl⟩ := h
        refine Call.raiseIf_bind_ok_iff.2 ⟨by simpa using hs, ?_⟩
        simp only [Call.read_bind_apply, Call.update_bind_apply]
        refine Call.raiseIf_bind_ok_iff.2 ⟨by simp [ssgxOcallRemoveFile, hp, hf], ?_⟩
        simp [ssgxOcallRemoveFile, hp, hf, World.without]

end Ssgx.Filesystem
