import Ssgx.Filesystem.MetaData

/-!
# Opening protected files

The constructors of `ProtectedFileReader` and `ProtectedFileWriter`, with `OpenFileForWrite` and
`OpenFileForAppend`, over the protected file system calls `sgx_fopen`, `sgx_fopen_auto_key` and
`sgx_fclose`. A `null` file name makes the constructors throw before anything else; the functions
here take the name of a non-null file name.

The protected file system is not part of the repository. Of it the model has what its documentation
promises: the modes `r` and `a` open an existing file only with the key it was written under, the
mode `w` gives the file the key of the call, and the automatic key is always the same. Whether a
call returns a handle, and what a call that returns null leaves of the file, are parameters.

A writer's constructor has two stages: `openStage` ends with a handle and, where the metadata file
is new, the record to write to it; `saveStage` writes it. `openStage_save_iff` says exactly when the
first stage gets a handle and with which key.
-/

set_option autoImplicit false

namespace Ssgx.Filesystem

open Ssgx.Support

/-! ## The protected file system -/

/-- How `sgx_fopen` goes: the handle, or null, where the key is admitted; the bytes of a file that
the call makes; and what is at the path after a call that returned null. -/
structure FopenIo where
  handle : Option SgxFile
  raw : List UInt8
  left : Option HostFile

/-- Whether a file in this state can be opened in this mode with this key. -/
def FopenMode.admits (mode : FopenMode) (file : Option HostFile) (key : KeySource) : Bool :=
  match mode, file with
  | .w, _ => true
  | .a, none => true
  | .r, none => false
  | _, some f => decide (f.key? = some key)

/-- The file after it was opened. -/
def FopenMode.opened (mode : FopenMode) (raw : List UInt8) (file : Option HostFile)
    (key : KeySource) : Option HostFile :=
  match mode, file with
  | .w, _ => some (.sealed key raw)
  | .a, none => some (.sealed key raw)
  | _, f => f

/-- `sgx_fopen` and `sgx_fopen_auto_key`. -/
def sgxFopen (io : FopenIo) (p : Path) (mode : FopenMode) (key : KeySource) :
    FsCall (Option SgxFile) := fun w =>
  let result := if mode.admits (w.files p) key then io.handle else none
  let left := if result.isSome then mode.opened io.raw (w.files p) key else io.left
  (.ok result, { w.put p left with log := w.log ++ [.fopen p mode key result] })

/-- An open whose null handle makes the constructor throw. -/
def fopenOrRaise (io : FopenIo) (p : Path) (mode : FopenMode) (key : KeySource)
    (errMsg : String) : FsCall SgxFile := do
  let file ← sgxFopen io p mode key
  match file with
  | none => Call.raise ⟨errMsg⟩
  | some file => return file

/-- `sgx_fclose`, whose result the callers in this module do not look at. -/
def sgxFclose (file : SgxFile) : FsCall PUnit :=
  Call.update fun w => { w with log := w.log ++ [.fclose file] }

/-! ## Key policies -/

/-- `SGX_KEYPOLICY_MRENCLAVE`. -/
def sgxKeypolicyMrenclave : UInt16 := 0x0001

/-- `SGX_KEYPOLICY_MRSIGNER`. -/
def sgxKeypolicyMrsigner : UInt16 := 0x0002

/-- `SGX_KEYPOLICY_NOISVPRODID`. -/
def sgxKeypolicyNoisvprodid : UInt16 := 0x0004

/-- `KEY_POLICY_KSS`: `SGX_KEYPOLICY_CONFIGID`, `SGX_KEYPOLICY_ISVFAMILYID` and
`SGX_KEYPOLICY_ISVEXTPRODID`. -/
def keyPolicyKss : UInt16 := 0x0008 ||| 0x0010 ||| 0x0020

/-- `is_valid_key_policy`. -/
def isValidKeyPolicy (keyPolicy : UInt16) : Bool :=
  !(decide (keyPolicy &&& ~~~(sgxKeypolicyMrenclave ||| sgxKeypolicyMrsigner ||| keyPolicyKss |||
      sgxKeypolicyNoisvprodid) ≠ 0) ||
    decide (keyPolicy &&& (sgxKeypolicyMrenclave ||| sgxKeypolicyMrsigner) = 0))

/-! ## Reading -/

/-- How the constructor of `ProtectedFileReader` goes. -/
structure ReaderIo where
  metaRead : ReadIo
  metaStat : StatIo
  getKey : Nat
  fopen : FopenIo

/-- `FileMode`; `other` stands for the values that are not enumerators. -/
inductive FileMode where
  | createNew
  | openOrCreate
  | append
  | other
deriving DecidableEq

/-- The fields of `sgx_self_report` that are read. -/
structure SelfReport where
  isvSvn : UInt16
  cpuSvn : SgxCpuSvn
deriving DecidableEq

/-- How the constructor of `ProtectedFileWriter` goes: the `Exists` calls on the file and on its
metadata, the self report, the random key id, the status of `sgx_get_key`, the open, the read and
the write of the metadata file, and the removal behind a metadata file that was not written. -/
structure WriterIo where
  fileStat : StatIo
  metaStat : StatIo
  report : Option SelfReport
  rand : Option SgxKeyId
  getKey : Nat
  fopen : FopenIo
  metaRead : ReadIo
  metaWrite : WriteIo
  undo : RemoveIo

/-- A writer whose calls all work. -/
def WriterIo.working (report : SelfReport) (keyId : SgxKeyId) (file : SgxFile) : WriterIo where
  fileStat := ⟨sgxSuccess, false, 0⟩
  metaStat := ⟨sgxSuccess, false, 0⟩
  report := some report
  rand := some keyId
  getKey := sgxSuccess
  fopen := ⟨some file, [], none⟩
  metaRead := .working
  metaWrite := .working
  undo := ⟨⟨sgxSuccess, false, 0⟩, sgxSuccess, false⟩

/-- The key that a reader takes for the metadata. -/
def FileMetaData.keySource (m : FileMetaData) : KeySource :=
  if m.legacyMode = 1 then .auto else .seal m.getKeyRequest

section Digest

variable (sha256 : List UInt8 → List.Vector UInt8 32)

/-- The condition of `Metadata file is invalid.`: `Exists` is asked only if nothing was read. -/
def metadataInvalid (io : ReaderIo) (fileName : Path) (metaData : Option FileMetaData) :
    FsCall Bool :=
  if metaData.isNone then existsPath io.metaStat (metadataFile fileName) else return false

/-- The reader's open without metadata, or in the legacy mode. -/
def openAuto (io : ReaderIo) (fileName : Path) : FsCall SgxFile :=
  fopenOrRaise io.fopen fileName .r .auto "Failed to open the file in auto key mode."

/-- The reader's open with the seal key of the metadata. -/
def openSealed (io : ReaderIo) (fileName : Path) (m : FileMetaData) : FsCall SgxFile := do
  Call.raiseIf (io.getKey ≠ sgxSuccess) ⟨"Failed to get seal key"⟩
  fopenOrRaise io.fopen fileName .r (.seal m.getKeyRequest) "Failed to open the file for reading"

/-- The branch of the reader on its metadata. -/
def openWithKey (io : ReaderIo) (fileName : Path) : Option FileMetaData → FsCall SgxFile
  | none => openAuto io fileName
  | some m => if m.legacyMode = 1 then openAuto io fileName else openSealed io fileName m

/-- `ProtectedFileReader::ProtectedFileReader`. -/
def protectedFileReader (io : ReaderIo) (fileName : Path) : FsCall SgxFile := do
  let metaData ← FileMetaData.fromFile sha256 io.metaRead (metadataFile fileName)
  let invalid ← metadataInvalid io fileName metaData
  Call.raiseIf (invalid = true) ⟨"Metadata file is invalid."⟩
  openWithKey io fileName metaData

/-! ## Writing -/

/-- The metadata that the key of the policies other than MRSIGNER is derived from: that of the
existing metadata file, or new one with a random key id. -/
def sealMetadata (io : WriterIo) (policy : UInt16) (report : SelfReport) :
    Option FileMetaData → FsCall FileMetaData
  | some m => return m
  | none =>
      match io.rand with
      | none => Call.raise ⟨"Failed to read random number generator"⟩
      | some keyId => return .make 0 policy keyId report.isvSvn report.cpuSvn

/-- The metadata of a file under the automatic key. Its key id is ignored and zero. -/
def autoMetadata (policy : UInt16) (report : SelfReport) : FileMetaData :=
  .make 1 policy (List.Vector.replicate 32 0) report.isvSvn report.cpuSvn

/-- The branch on the key policy, which `OpenFileForWrite` (without `metafile`) and
`OpenFileForAppend` have in common: the handle, and the metadata its key was derived from. -/
def openUnderPolicy (io : WriterIo) (fileName : Path) (mode : FopenMode) (policy : UInt16)
    (report : SelfReport) (metafile : Option FileMetaData) : FsCall (SgxFile × FileMetaData) := do
  if policy = sgxKeypolicyMrsigner then
    let file ← fopenOrRaise io.fopen fileName mode .auto "Failed to open the file for writing"
    return (file, metafile.getD (autoMetadata policy report))
  else
    let metadata ← sealMetadata io policy report metafile
    Call.raiseIf (io.getKey ≠ sgxSuccess) ⟨"Failed to get seal key"⟩
    let file ← fopenOrRaise io.fopen fileName mode (.seal metadata.getKeyRequest)
      "Failed to open the file for writing"
    return (file, metadata)

/-- The tail of `OpenFileForWrite` and `OpenFileForAppend`: the new metadata goes to its file. The
cleanup runs where `ToFile` returns `false`; where `ToFile` throws, the exception passes through. -/
def saveStage (io : WriterIo) (fileName : Path) (file : SgxFile) (metadata : Option FileMetaData) :
    FsCall SgxFile := do
  match metadata with
  | none => return file
  | some metadata =>
      let saved ← metadata.toFile sha256 io.metaWrite (metadataFile fileName)
      if saved then return file
      else
        sgxFclose file
        let _ ← remove io.undo fileName
        Call.raise ⟨"Failed to create metadata file"⟩

/-- `OpenFileForWrite` up to the metadata file. -/
def openForWrite (io : WriterIo) (fileName : Path) (policy : UInt16) :
    FsCall (SgxFile × Option FileMetaData) := do
  match io.report with
  | none => Call.raise ⟨"Failed to get self Enclave Report"⟩
  | some report =>
      let (file, metadata) ← openUnderPolicy io fileName .w policy report none
      return (file, some metadata)

/-- `OpenFileForWrite`. -/
def openFileForWrite (io : WriterIo) (fileName : Path) (policy : UInt16) : FsCall SgxFile := do
  let (file, metadata) ← openForWrite io fileName policy
  saveStage sha256 io fileName file metadata

/-- What `OpenFileForAppend` checks of an existing metadata file. The two `cpu_svn` are compared on
their first two bytes: the length is that of an `isv_svn`. -/
def checkMetafile (m : FileMetaData) (policy : UInt16) (report : SelfReport) : FsCall PUnit := do
  Call.raiseIf (m.getKeyRequest.keyPolicy ≠ policy)
    ⟨"Invalid parameter, key_policy is not consistent with the existing file"⟩
  Call.raiseIf (m.getKeyRequest.keyPolicy = sgxKeypolicyMrsigner ∧ m.legacyMode ≠ 1)
    ⟨"Invalid metadata file, key_policy and legacy mode are not consistent"⟩
  Call.raiseIf (m.getKeyRequest.isvSvn ≠ report.isvSvn ∨
      m.getKeyRequest.cpuSvn.toList.take 2 ≠ report.cpuSvn.toList.take 2)
    ⟨"A file with the same name already exists and was created by another enclave."⟩

/-- `OpenFileForAppend` up to the metadata file: the metadata is to be written only if there was no
metadata file. -/
def openForAppend (io : WriterIo) (fileName : Path) (policy : UInt16) :
    FsCall (SgxFile × Option FileMetaData) := do
  match io.report with
  | none => Call.raise ⟨"Failed to get self Enclave Report"⟩
  | some report =>
      let found ← existsPath io.metaStat (metadataFile fileName)
      if found then
        let metafile ← FileMetaData.fromFile sha256 io.metaRead (metadataFile fileName)
        match metafile with
        | none => Call.raise ⟨"The file exists, but failed to read its metadata file"⟩
        | some m =>
            checkMetafile m policy report
            let (file, _) ← openUnderPolicy io fileName .a policy report (some m)
            return (file, none)
      else
        let (file, metadata) ← openUnderPolicy io fileName .a policy report none
        return (file, some metadata)

/-- `OpenFileForAppend`. -/
def openFileForAppend (io : WriterIo) (fileName : Path) (policy : UInt16) : FsCall SgxFile := do
  let (file, metadata) ← openForAppend sha256 io fileName policy
  saveStage sha256 io fileName file metadata

/-- The existence check of `FileMode::CreateNew`. -/
def alreadyExists (fileStat metaStat : StatIo) (fileName : Path) : FsCall Bool := do
  let file ← existsPath fileStat fileName
  if file then return true else existsPath metaStat (metadataFile fileName)

/-- `ProtectedFileWriter::ProtectedFileWriter`. -/
def protectedFileWriter (io : WriterIo) (fileName : Path) (fileMode : FileMode)
    (keyPolicy : UInt16) : FsCall SgxFile := do
  Call.raiseIf (isValidKeyPolicy keyPolicy = false) ⟨"Invalid parameter, key_policy is invalid"⟩
  match fileMode with
  | .createNew =>
      let found ← alreadyExists io.fileStat io.metaStat fileName
      Call.raiseIf (found = true) ⟨"The file already exists"⟩
      openFileForWrite sha256 io fileName keyPolicy
  | .openOrCreate => openFileForWrite sha256 io fileName keyPolicy
  | .append => openFileForAppend sha256 io fileName keyPolicy
  | .other => Call.raise ⟨"Invalid file mode"⟩

/-- The constructor up to the metadata file. -/
def openStage (io : WriterIo) (fileName : Path) (fileMode : FileMode) (keyPolicy : UInt16) :
    FsCall (SgxFile × Option FileMetaData) := do
  Call.raiseIf (isValidKeyPolicy keyPolicy = false) ⟨"Invalid parameter, key_policy is invalid"⟩
  match fileMode with
  | .createNew =>
      let found ← alreadyExists io.fileStat io.metaStat fileName
      Call.raiseIf (found = true) ⟨"The file already exists"⟩
      openForWrite io fileName keyPolicy
  | .openOrCreate => openForWrite io fileName keyPolicy
  | .append => openForAppend sha256 io fileName keyPolicy
  | .other => Call.raise ⟨"Invalid file mode"⟩

end Digest

/-! ## Opens -/

/-- The world after `sgx_fopen` returned the handle. -/
def World.afterFopen (w : World) (io : FopenIo) (p : Path) (mode : FopenMode) (key : KeySource)
    (file : SgxFile) : World :=
  { w.put p (mode.opened io.raw (w.files p) key) with
    log := w.log ++ [.fopen p mode key (some file)] }

/-- The world after `sgx_fopen` returned null. -/
def World.afterNull (w : World) (io : FopenIo) (p : Path) (mode : FopenMode) (key : KeySource) :
    World :=
  { w.put p io.left with log := w.log ++ [.fopen p mode key none] }

theorem World.afterFopen_files_self (w : World) (io : FopenIo) (p : Path) (mode : FopenMode)
    (key : KeySource) (file : SgxFile) :
    (w.afterFopen io p mode key file).files p = mode.opened io.raw (w.files p) key :=
  Function.update_self ..

theorem World.afterFopen_files_of_ne (w : World) (io : FopenIo) {p q : Path} (h : q ≠ p)
    (mode : FopenMode) (key : KeySource) (file : SgxFile) :
    (w.afterFopen io p mode key file).files q = w.files q := Function.update_of_ne h ..

theorem World.afterNull_files_self (w : World) (io : FopenIo) (p : Path) (mode : FopenMode)
    (key : KeySource) : (w.afterNull io p mode key).files p = io.left := Function.update_self ..

theorem World.afterNull_files_of_ne (w : World) (io : FopenIo) {p q : Path} (h : q ≠ p)
    (mode : FopenMode) (key : KeySource) : (w.afterNull io p mode key).files q = w.files q :=
  Function.update_of_ne h ..

/-- The call returns null: it gives no handle, or the mode does not admit the key. -/
def FopenIo.Null (io : FopenIo) (mode : FopenMode) (file : Option HostFile) (key : KeySource) :
    Prop :=
  io.handle = none ∨ mode.admits file key = false

/-- A file that was opened has the key of the call. -/
theorem FopenMode.opened_key {mode : FopenMode} (raw : List UInt8) {file : Option HostFile}
    {key : KeySource} (h : mode.admits file key = true) :
    ∃ f, mode.opened raw file key = some f ∧ f.key? = some key := by
  cases mode with
  | w => exact ⟨.sealed key raw, by cases file <;> rfl, rfl⟩
  | r =>
      cases file with
      | none => cases h
      | some f => exact ⟨f, rfl, of_decide_eq_true h⟩
  | a =>
      cases file with
      | none => exact ⟨.sealed key raw, rfl, rfl⟩
      | some f => exact ⟨f, rfl, of_decide_eq_true h⟩

/-- An open returns a handle exactly when the mode admits the key and the call gives one. -/
theorem fopenOrRaise_ok_iff {io : FopenIo} {p : Path} {mode : FopenMode} {key : KeySource}
    {errMsg : String} {w w' : World} {file : SgxFile} :
    fopenOrRaise io p mode key errMsg w = (.ok file, w') ↔
      mode.admits (w.files p) key = true ∧ io.handle = some file ∧
        w' = w.afterFopen io p mode key file := by
  simp only [fopenOrRaise, sgxFopen, Call.bind_apply]
  cases hopens : mode.admits (w.files p) key with
  | false => simp
  | true =>
      cases hh : io.handle with
      | none => simp
      | some f =>
          simp only [if_true, Option.isSome_some, Call.pure_apply, Prod.mk.injEq, Except.ok.injEq,
            true_and, Option.some.injEq]
          constructor
          · rintro ⟨rfl, rfl⟩
            exact ⟨rfl, rfl⟩
          · rintro ⟨rfl, rfl⟩
            exact ⟨rfl, rfl⟩

/-- An open throws exactly when `sgx_fopen` returns null. -/
theorem fopenOrRaise_error_iff {io : FopenIo} {p : Path} {mode : FopenMode} {key : KeySource}
    {errMsg : String} {w w' : World} {e : FileSystemException} :
    fopenOrRaise io p mode key errMsg w = (.error e, w') ↔
      io.Null mode (w.files p) key ∧ e = ⟨errMsg⟩ ∧ w' = w.afterNull io p mode key := by
  simp only [fopenOrRaise, sgxFopen, Call.bind_apply, FopenIo.Null]
  cases hopens : mode.admits (w.files p) key with
  | false => simp [World.afterNull, eq_comm]
  | true =>
      cases hh : io.handle with
      | none => simp [World.afterNull, eq_comm]
      | some f => simp

end Ssgx.Filesystem
