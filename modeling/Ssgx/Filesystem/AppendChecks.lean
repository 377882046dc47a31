import Ssgx.Filesystem.WriterOpen

/-!
# What appending checks

`OpenFileForAppend` compares existing metadata with the key policy it is asked for and with the
report of the enclave before it opens the file. Behind the comparison it opens the file under the
key of the metadata (`openFileForAppend_of_metadata`).

Metadata may pass that does not fit: of `cpu_svn` two bytes are compared, and the legacy mode is
looked at under MRSIGNER alone (`SlipsThrough`). `openFileForAppend_guards_iff` says that there is
no other.
-/

set_option autoImplicit false

namespace Ssgx.Filesystem

open Ssgx.Support

/-- The metadata fits the key policy and the enclave. -/
structure Compatible (m : FileMetaData) (policy : UInt16) (report : SelfReport) : Prop where
  keyPolicy : m.keyPolicy = policy
  legacyMode : m.legacyMode = 1 ↔ policy = sgxKeypolicyMrsigner
  isvSvn : m.isvSvn = report.isvSvn
  cpuSvn : m.cpuSvn = report.cpuSvn

/-- The metadata passes the checks and does not fit: it differs in a later byte of `cpu_svn`, or has
the legacy mode under another policy than MRSIGNER. -/
structure SlipsThrough (m : FileMetaData) (policy : UInt16) (report : SelfReport) : Prop where
  keyPolicy : m.keyPolicy = policy
  legacyMode : policy = sgxKeypolicyMrsigner → m.legacyMode = 1
  isvSvn : m.isvSvn = report.isvSvn
  cpuSvn : m.cpuSvn.toList.take 2 = report.cpuSvn.toList.take 2
  differs : m.cpuSvn ≠ report.cpuSvn ∨ (policy ≠ sgxKeypolicyMrsigner ∧ m.legacyMode = 1)

/-- The texts of the checks. -/
def checkTexts : List String :=
  ["Invalid parameter, key_policy is not consistent with the existing file",
    "Invalid metadata file, key_policy and legacy mode are not consistent",
    "A file with the same name already exists and was created by another enclave."]

/-- The texts of the errors behind the checks. -/
def openTexts : List String := ["Failed to get seal key", "Failed to open the file for writing"]

/-- What `OpenFileForAppend` does behind the checks of existing metadata. -/
def openWithMetadata (io : WriterIo) (fileName : Path) (policy : UInt16) (report : SelfReport)
    (m : FileMetaData) : FsCall SgxFile := do
  let (file, _) ← openUnderPolicy io fileName .a policy report (some m)
  return file

/-! ## The checks -/

section Checks

variable {m : FileMetaData} {policy : UInt16} {report : SelfReport} {w w' : World}
  {e : FileSystemException}

/-- The checks pass what fits, and what slips through. -/
theorem checkMetafile_passes_iff :
    checkMetafile m policy report w = (.ok ⟨⟩, w) ↔
      Compatible m policy report ∨ SlipsThrough m policy report := by
  rw [checkMetafile_ok_iff]
  constructor
  · rintro ⟨hpolicy, hlegacy, hisv, hcpu, -⟩
    rw [hpolicy] at hlegacy
    by_cases hdiffers : m.cpuSvn ≠ report.cpuSvn ∨
        (policy ≠ sgxKeypolicyMrsigner ∧ m.legacyMode = 1)
    · exact .inr ⟨hpolicy, hlegacy, hisv, hcpu, hdiffers⟩
    · obtain ⟨hsame, hmode⟩ := not_or.1 hdiffers
      refine .inl ⟨hpolicy, ⟨fun hone => ?_, hlegacy⟩, hisv, not_not.1 hsame⟩
      by_contra hsigner
      exact hmode ⟨hsigner, hone⟩
  · rintro (h | h)
    · exact ⟨h.keyPolicy, fun hsigner => h.legacyMode.2 (h.keyPolicy ▸ hsigner), h.isvSvn,
        by rw [h.cpuSvn], rfl⟩
    · exact ⟨h.keyPolicy, fun hsigner => h.legacyMode (h.keyPolicy ▸ hsigner), h.isvSvn, h.cpuSvn,
        rfl⟩

/-- What slips through does not fit. -/
theorem SlipsThrough.not_compatible (h : SlipsThrough m policy report) :
    ¬ Compatible m policy report := by
  intro hfits
  rcases h.differs with hcpu | ⟨hpolicy, hone⟩
  · exact hcpu hfits.cpuSvn
  · exact hpolicy (hfits.legacyMode.1 hone)

theorem checkMetafile_error (h : checkMetafile m policy report w = (.error e, w')) :
    e.errMsg ∈ checkTexts ∧ w' = w := by
  simp only [checkMetafile] at h
  rcases Call.raiseIf_bind_error_iff.1 h with ⟨-, rfl, rfl⟩ | ⟨-, h⟩
  · exact ⟨by decide, rfl⟩
  rcases Call.raiseIf_bind_error_iff.1 h with ⟨-, rfl, rfl⟩ | ⟨-, h⟩
  · exact ⟨by decide, rfl⟩
  obtain ⟨-, rfl, rfl⟩ := Call.raiseIf_error_iff.1 h
  exact ⟨by decide, rfl⟩

/-- An open that throws has the text it was given. -/
theorem fopenOrRaise_error_text {io : FopenIo} {p : Path} {mode : FopenMode} {key : KeySource}
    {errMsg : String} (h : fopenOrRaise io p mode key errMsg w = (.error e, w')) :
    e = ⟨errMsg⟩ := by
  rcases Call.bind_error_iff.1 h with hopen | ⟨result, w₁, -, hrest⟩
  · cases hopen
  · cases result with
    | none =>
        cases hrest
        rfl
    | some file => cases hrest

theorem openWithMetadata_error {io : WriterIo} {p : Path}
    (h : openWithMetadata io p policy report m w = (.error e, w')) : e.errMsg ∈ openTexts := by
  rcases Call.bind_error_iff.1 h with hopen | ⟨x, w₁, -, hret⟩
  · simp only [openUnderPolicy] at hopen
    by_cases hp : policy = sgxKeypolicyMrsigner
    · rw [if_pos hp] at hopen
      rcases Call.bind_error_iff.1 hopen with hf | ⟨file, w₁, -, hret⟩
      · rw [fopenOrRaise_error_text hf]
        decide
      · cases hret
    · rw [if_neg hp] at hopen
      rcases Call.bind_error_iff.1 hopen with hseal | ⟨m', w₁, -, hrest⟩
      · cases hseal
      rcases Call.raiseIf_bind_error_iff.1 hrest with ⟨-, rfl, -⟩ | ⟨-, hrest⟩
      · decide
      rcases Call.bind_error_iff.1 hrest with hf | ⟨file, w₂, -, hret⟩
      · rw [fopenOrRaise_error_text hf]
        decide
      · cases hret
  · cases hret

end Checks

/-! ## Appending to a file with metadata -/

section Append

variable (sha256 : List UInt8 → List.Vector UInt8 32)

/-- The metadata file exists and is read as this metadata. -/
structure HasMetadata (io : WriterIo) (p : Path) (w : World) (m : FileMetaData) : Prop where
  stat : io.metaStat.Works
  read : FileMetaData.fromFile sha256 io.metaRead (metadataFile p) w = (.ok (some m), w)

variable {sha256} {io : WriterIo} {p : Path} {policy : UInt16} {report : SelfReport} {w : World}
  {m : FileMetaData}

/-- `OpenFileForAppend` of a file with metadata. -/
theorem openFileForAppend_of_metadata (hreport : io.report = some report)
    (hmeta : HasMetadata sha256 io p w m) :
    openFileForAppend sha256 io p policy w =
      (do checkMetafile m policy report; openWithMetadata io p policy report m : FsCall SgxFile)
        w := by
  obtain ⟨f, hfile, -⟩ := fromFile_some sha256 hmeta.read
  have hexists : existsPath io.metaStat (metadataFile p) w = (.ok true, w) :=
    existsPath_ok_iff.2 ⟨metadataFile_ne_nil p, hmeta.stat, by rw [hfile]; rfl, rfl⟩
  have hopen : openForAppend sha256 io p policy w =
      (do
        checkMetafile m policy report
        let (file, _) ← openUnderPolicy io p .a policy report (some m)
        return (file, none) : FsCall (SgxFile × Option FileMetaData)) w := by
    simp only [openForAppend, hreport]
    rw [Call.bind_of_ok hexists]
    exact Call.bind_of_ok hmeta.read
  rw [openFileForAppend, Call.bind_apply, hopen]
  simp only [Call.bind_apply, openWithMetadata]
  rcases checkMetafile m policy report w with ⟨checked, w₁⟩
  cases checked with
  | error e => rfl
  | ok u =>
      dsimp only
      -- behind the checks the record is saved already
      rcases openUnderPolicy io p .a policy report (some m) w₁ with ⟨opened, w₂⟩
      cases opened with
      | error e => rfl
      | ok x => rfl

/-- The call goes past the checks to the opening of the file. -/
def GoesPast (sha256 : List UInt8 → List.Vector UInt8 32) (io : WriterIo) (p : Path)
    (policy : UInt16) (report : SelfReport) (w : World) (m : FileMetaData) : Prop :=
  openFileForAppend sha256 io p policy w = openWithMetadata io p policy report m w

/-- What is expected of the checks: only metadata that fits goes past them, and any other makes the
call throw, with every file as it was. -/
structure Guards (sha256 : List UInt8 → List.Vector UInt8 32) (io : WriterIo) (p : Path)
    (policy : UInt16) (report : SelfReport) (w : World) (m : FileMetaData) : Prop where
  fits : GoesPast sha256 io p policy report w m → Compatible m policy report
  throws : ¬ Compatible m policy report →
    ∃ e w', openFileForAppend sha256 io p policy w = (.error e, w') ∧ w'.files = w.files

/-- Metadata that the checks refuse makes the call throw, and no call to the host follows. -/
theorem openFileForAppend_refused (hreport : io.report = some report)
    (hmeta : HasMetadata sha256 io p w m)
    (hrefused : checkMetafile m policy report w ≠ (.ok ⟨⟩, w)) :
    ∃ e, e.errMsg ∈ checkTexts ∧ openFileForAppend sha256 io p policy w = (.error e, w) := by
  rw [openFileForAppend_of_metadata hreport hmeta]
  rcases hcheck : checkMetafile m policy report w with ⟨checked, w₁⟩
  cases checked with
  | ok u =>
      obtain rfl := (readsOnly_checkMetafile m policy report).eq hcheck
      exact absurd hcheck hrefused
  | error e =>
      obtain ⟨htext, rfl⟩ := checkMetafile_error hcheck
      exact ⟨e, htext, Call.bind_of_error hcheck⟩

/-- Exactly what passes the checks goes past them. -/
theorem goesPast_iff (hreport : io.report = some report) (hmeta : HasMetadata sha256 io p w m) :
    GoesPast sha256 io p policy report w m ↔
      Compatible m policy report ∨ SlipsThrough m policy report := by
  rw [← @checkMetafile_passes_iff m policy report w]
  constructor
  · intro hpast
    by_contra hrefused
    obtain ⟨e, htext, hcall⟩ := openFileForAppend_refused hreport hmeta hrefused
    -- the error would have to be one of the opening
    have hopen := openWithMetadata_error (hpast.symm.trans hcall)
    have hdisjoint : ∀ text ∈ checkTexts, text ∉ openTexts := by decide
    exact hdisjoint _ htext hopen
  · intro hpasses
    rw [GoesPast, openFileForAppend_of_metadata hreport hmeta]
    exact Call.bind_of_ok hpasses

/-- **What the checks of appending are good for.** For existing metadata they do what is expected of
them exactly where it does not slip through. -/
theorem openFileForAppend_guards_iff (hreport : io.report = some report)
    (hmeta : HasMetadata sha256 io p w m) :
    Guards sha256 io p policy report w m ↔ ¬ SlipsThrough m policy report := by
  constructor
  · intro hguards hslips
    exact hslips.not_compatible (hguards.fits ((goesPast_iff hreport hmeta).2 (.inr hslips)))
  · intro hnot
    refine ⟨fun hpast => ?_, fun hunfit => ?_⟩
    · exact ((goesPast_iff hreport hmeta).1 hpast).resolve_right hnot
    · have hrefused : checkMetafile m policy report w ≠ (.ok ⟨⟩, w) := by
        rw [ne_eq, checkMetafile_passes_iff, not_or]
        exact ⟨hunfit, hnot⟩
      obtain ⟨e, -, hcall⟩ := openFileForAppend_refused hreport hmeta hrefused
      exact ⟨e, w, hcall, rfl⟩

end Append

/-! ### Metadata of an enclave -/

/-- The metadata of a file under MRENCLAVE, written at the security versions 0. -/
def enclaveRecord : FileMetaData :=
  .make 0 sgxKeypolicyMrenclave (List.Vector.replicate 32 0) 0 (List.Vector.replicate 16 0)

/-- The SHA-256 digest of the fields of `enclaveRecord`. -/
def enclaveDigest : List.Vector UInt8 32 :=
  ⟨[20, 242, 183, 181, 210, 220, 10, 39, 164, 241, 115, 112, 149, 81, 193, 98, 40, 218, 51, 63,
    116, 189, 235, 68, 181, 155, 94, 118, 137, 179, 161, 201], rfl⟩

/-- SHA-256 on the fields of `enclaveRecord`. -/
def enclaveSha256 (l : List UInt8) : List.Vector UInt8 32 :=
  if l = enclaveRecord.body then enclaveDigest else List.Vector.replicate 32 0

/-- The host with the protected file `f` under its seal key, and its metadata file. -/
def enclaveWorld : World where
  files := fun path =>
    if path = metadataFile ['f'] then some (.plain (enclaveRecord.encode enclaveSha256))
    else some (.sealed (.seal enclaveRecord.getKeyRequest) [])
  log := []

/-- The report of an enclave at the `cpu_svn`. -/
def reportAt (cpuSvn : List.Vector UInt8 16) : SelfReport := ⟨0, cpuSvn⟩

/-- Every call works. -/
def appendIo (report : SelfReport) : WriterIo := .working report (List.Vector.replicate 32 0) 1

theorem enclaveWorld_hasMetadata (report : SelfReport) :
    HasMetadata enclaveSha256 (appendIo report) ['f'] enclaveWorld enclaveRecord := by
  refine ⟨⟨rfl, rfl⟩, ?_⟩
  have hfile : enclaveWorld.files (metadataFile ['f']) =
      some (.plain (enclaveRecord.encode enclaveSha256)) := rfl
  have hread := FileMetaData.fromFile_of_works enclaveSha256 ReadIo.working_works
    (metadataFile_ne_nil ['f']) hfile
  rw [HostFile.bytes, FileMetaData.encode_length, if_pos (by decide),
    FileMetaData.parse_encode _ rfl] at hread
  exact hread

theorem enclave_append_guards :
    Guards enclaveSha256 (appendIo (reportAt (List.Vector.replicate 16 0))) ['f']
      sgxKeypolicyMrenclave (reportAt (List.Vector.replicate 16 0)) enclaveWorld enclaveRecord := by
  refine (openFileForAppend_guards_iff rfl (enclaveWorld_hasMetadata _)).2 fun h => ?_
  rcases h.differs with hcpu | ⟨-, hone⟩
  · exact hcpu rfl
  · exact absurd hone (by decide)

/-- The platform was updated: `cpu_svn` differs in its third byte. The file is opened. -/
theorem later_cpuSvn_appends :
    let report := reportAt ⟨[0, 0, 1, 0, 0, 0, 0, 0, 0, 0, 0, 0, 0, 0, 0, 0], rfl⟩
    GoesPast enclaveSha256 (appendIo report) ['f'] sgxKeypolicyMrenclave report enclaveWorld
        enclaveRecord ∧
      enclaveRecord.cpuSvn ≠ report.cpuSvn ∧
      (openFileForAppend enclaveSha256 (appendIo report) ['f'] sgxKeypolicyMrenclave
        enclaveWorld).1 = .ok 1 := by
  intro report
  have hmeta := enclaveWorld_hasMetadata report
  have hpast : GoesPast enclaveSha256 (appendIo report) ['f'] sgxKeypolicyMrenclave report
      enclaveWorld enclaveRecord :=
    (goesPast_iff rfl hmeta).2 (.inr ⟨rfl, fun h => absurd h (by decide), rfl, rfl,
      .inl (by decide)⟩)
  refine ⟨hpast, by decide, ?_⟩
  rw [hpast]
  rfl

end Ssgx.Filesystem
