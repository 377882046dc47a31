import Ssgx.Filesystem.ReaderOpen
import Mathlib.Tactic.Tauto

/-!
# What a writer's constructor does

The constructor of `ProtectedFileWriter` in two stages: the first ends with a handle and, for a new
metadata file, the record to save (`openStage_save_iff`), the second saves it. All later results
about writers use `protectedFileWriter_outcome`: the constructor ends in one of five ways, with the
files it leaves in each of them.
-/

set_option autoImplicit false

namespace Ssgx.Filesystem

open Ssgx.Support

/-! ## The key of a writer -/

/-- The key a writer opens the file with. -/
def writerKey (policy : UInt16) (m : FileMetaData) : KeySource :=
  if policy = sgxKeypolicyMrsigner then .auto else .seal m.getKeyRequest

/-- The metadata a writer derives its key from, if it gets that far. -/
def WriterIo.metadataFor (io : WriterIo) (policy : UInt16) (report : SelfReport)
    (metafile : Option FileMetaData) : Option FileMetaData :=
  match metafile with
  | some m => some m
  | none =>
      if policy = sgxKeypolicyMrsigner then some (autoMetadata policy report)
      else io.rand.map fun keyId => .make 0 policy keyId report.isvSvn report.cpuSvn

theorem sealMetadata_ok_iff {io : WriterIo} {policy : UInt16} {report : SelfReport}
    {metafile : Option FileMetaData} {m : FileMetaData} {w w' : World}
    (hp : policy ≠ sgxKeypolicyMrsigner) :
    sealMetadata io policy report metafile w = (.ok m, w') ↔
      io.metadataFor policy report metafile = some m ∧ w' = w := by
  cases metafile with
  | some m₀ => simp [sealMetadata, WriterIo.metadataFor, eq_comm]
  | none =>
      cases hr : io.rand with
      | none => simp [sealMetadata, WriterIo.metadataFor, hr, hp]
      | some keyId => simp [sealMetadata, WriterIo.metadataFor, hr, hp, eq_comm]

theorem readsOnly_sealMetadata (io : WriterIo) (policy : UInt16) (report : SelfReport)
    (metafile : Option FileMetaData) : ReadsOnly (sealMetadata io policy report metafile) := by
  cases metafile with
  | some m => exact readsOnly_pure m
  | none =>
      cases hr : io.rand with
      | none => simpa only [sealMetadata, hr] using readsOnly_raise _
      | some keyId => simpa only [sealMetadata, hr] using readsOnly_pure _

/-- When the branch on the key policy gets a handle, and which key it takes. -/
theorem openUnderPolicy_ok_iff {io : WriterIo} {p : Path} {mode : FopenMode} {policy : UInt16}
    {report : SelfReport} {metafile : Option FileMetaData} {w w' : World} {file : SgxFile}
    {m : FileMetaData} :
    openUnderPolicy io p mode policy report metafile w = (.ok (file, m), w') ↔
      io.metadataFor policy report metafile = some m ∧
        (policy = sgxKeypolicyMrsigner ∨ io.getKey = sgxSuccess) ∧
        mode.admits (w.files p) (writerKey policy m) = true ∧ io.fopen.handle = some file ∧
        w' = w.afterFopen io.fopen p mode (writerKey policy m) file := by
  simp only [openUnderPolicy]
  by_cases hp : policy = sgxKeypolicyMrsigner
  · have hm : io.metadataFor policy report metafile =
        some (metafile.getD (autoMetadata policy report)) := by
      cases metafile with
      | some m₀ => rfl
      | none => exact if_pos hp
    -- under MRSIGNER the key is the automatic one, whatever the metadata says
    rw [if_pos hp, writerKey, if_pos hp, hm]
    constructor
    · intro h
      obtain ⟨f, w₁, hf, h⟩ := Call.bind_ok_iff.1 h
      obtain ⟨hopens, hh, rfl⟩ := fopenOrRaise_ok_iff.1 hf
      cases h
      exact ⟨rfl, Or.inl hp, hopens, hh, rfl⟩
    · rintro ⟨hm', -, hopens, hh, rfl⟩
      cases hm'
      exact Call.bind_ok_iff.2 ⟨file, _, fopenOrRaise_ok_iff.2 ⟨hopens, hh, rfl⟩, rfl⟩
  -- under any other policy it is the seal key of the metadata
  · rw [if_neg hp, writerKey, if_neg hp]
    constructor
    · intro h
      obtain ⟨m', w₁, hseal, hrest⟩ := Call.bind_ok_iff.1 h
      obtain ⟨hm, rfl⟩ := (sealMetadata_ok_iff hp).1 hseal
      obtain ⟨hkey, hrest⟩ := Call.raiseIf_bind_ok_iff.1 hrest
      obtain ⟨f, w₂, hf, hret⟩ := Call.bind_ok_iff.1 hrest
      obtain ⟨hopens, hh, rfl⟩ := fopenOrRaise_ok_iff.1 hf
      cases hret
      exact ⟨hm, Or.inr (not_not.1 hkey), hopens, hh, rfl⟩
    · rintro ⟨hm, hkey, hopens, hh, rfl⟩
      refine Call.bind_ok_iff.2 ⟨m, w, (sealMetadata_ok_iff hp).2 ⟨hm, rfl⟩, ?_⟩
      refine Call.raiseIf_bind_ok_iff.2 ⟨not_not.2 (hkey.resolve_left hp), ?_⟩
      exact Call.bind_ok_iff.2 ⟨file, _, fopenOrRaise_ok_iff.2 ⟨hopens, hh, rfl⟩, rfl⟩

/-- Where the branch on the key policy throws, it stopped before its open, or the open with the key
of the policy returned null. -/
theorem openUnderPolicy_error {io : WriterIo} {p : Path} {mode : FopenMode} {policy : UInt16}
    {report : SelfReport} {metafile : Option FileMetaData} {w w' : World} {e : FileSystemException}
    (h : openUnderPolicy io p mode policy report metafile w = (.error e, w')) :
    w' = w ∨ ∃ m, io.metadataFor policy report metafile = some m ∧
      (policy = sgxKeypolicyMrsigner ∨ io.getKey = sgxSuccess) ∧
      io.fopen.Null mode (w.files p) (writerKey policy m) ∧
      w' = w.afterNull io.fopen p mode (writerKey policy m) := by
  simp only [openUnderPolicy] at h
  by_cases hp : policy = sgxKeypolicyMrsigner
  · rw [if_pos hp] at h
    right
    refine ⟨metafile.getD (autoMetadata policy report), ?_, Or.inl hp, ?_⟩
    · cases metafile with
      | some m₀ => rfl
      | none => exact if_pos hp
    · rcases Call.bind_error_iff.1 h with h | ⟨f, w₁, -, h⟩
      · obtain ⟨hnull, -, hw'⟩ := fopenOrRaise_error_iff.1 h
        rw [writerKey, if_pos hp]
        exact ⟨hnull, hw'⟩
      · cases h
  · rw [if_neg hp] at h
    rcases Call.bind_error_iff.1 h with hseal | ⟨m, w₁, hseal, hrest⟩
    -- no key id, no key: in both cases `sgx_fopen` is not reached
    · exact Or.inl ((readsOnly_sealMetadata io policy report metafile).eq hseal)
    obtain ⟨hm, rfl⟩ := (sealMetadata_ok_iff hp).1 hseal
    rcases Call.raiseIf_bind_error_iff.1 hrest with ⟨-, -, rfl⟩ | ⟨hkey, hrest⟩
    · exact Or.inl rfl
    rcases Call.bind_error_iff.1 hrest with hf | ⟨f, w₂, -, hret⟩
    · obtain ⟨hnull, -, hw'⟩ := fopenOrRaise_error_iff.1 hf
      refine Or.inr ⟨m, hm, Or.inr (not_not.1 hkey), ?_⟩
      rw [writerKey, if_neg hp]
      exact ⟨hnull, hw'⟩
    · cases hret

/-- The branch on the key policy throws where its open returns null. -/
theorem openUnderPolicy_null {io : WriterIo} {p : Path} {mode : FopenMode} {policy : UInt16}
    {report : SelfReport} {metafile : Option FileMetaData} {w : World} {m : FileMetaData}
    (hm : io.metadataFor policy report metafile = some m)
    (hkey : policy = sgxKeypolicyMrsigner ∨ io.getKey = sgxSuccess)
    (hnull : io.fopen.Null mode (w.files p) (writerKey policy m)) :
    ∃ e, openUnderPolicy io p mode policy report metafile w =
      (.error e, w.afterNull io.fopen p mode (writerKey policy m)) := by
  refine ⟨⟨"Failed to open the file for writing"⟩, ?_⟩
  simp only [openUnderPolicy]
  by_cases hp : policy = sgxKeypolicyMrsigner
  · rw [if_pos hp]
    rw [writerKey, if_pos hp] at hnull ⊢
    rw [Call.bind_of_error (fopenOrRaise_error_iff.2 ⟨hnull, rfl, rfl⟩)]
  · rw [if_neg hp, Call.bind_of_ok ((sealMetadata_ok_iff hp).2 ⟨hm, rfl⟩)]
    rw [writerKey, if_neg hp] at hnull ⊢
    rw [Call.bind_of_ok (Call.raiseIf_of_not (not_not.2 (hkey.resolve_left hp)) _ _),
      Call.bind_of_error (fopenOrRaise_error_iff.2 ⟨hnull, rfl, rfl⟩)]

/-! ## The two stages of a writer's constructor -/

/-- The mode of `sgx_fopen` under a file mode. -/
def FileMode.fopenMode : FileMode → FopenMode
  | .append => .a
  | _ => .w

/-- The constructor gets the handle and comes to write the record `m` to the metadata file: a
condition on the outcomes of the calls before and on the files. -/
structure WriterIo.ReachesSave (io : WriterIo) (p : Path) (fileMode : FileMode) (policy : UInt16)
    (w : World) (file : SgxFile) (m : FileMetaData) : Prop where
  valid : isValidKeyPolicy policy = true
  metadata : ∃ report, io.report = some report ∧ io.metadataFor policy report none = some m
  getKey : policy = sgxKeypolicyMrsigner ∨ io.getKey = sgxSuccess
  handle : io.fopen.handle = some file
  mode : match fileMode with
    | .createNew => p ≠ [] ∧ io.fileStat.Works ∧ io.metaStat.Works ∧ w.files p = none ∧
        w.files (metadataFile p) = none
    | .openOrCreate => True
    | .append => io.metaStat.Works ∧ w.files (metadataFile p) = none ∧
        FopenMode.a.admits (w.files p) (writerKey policy m) = true
    | .other => False

section Digest

variable (sha256 : List UInt8 → List.Vector UInt8 32)

/-- The constructor is its two stages. -/
theorem protectedFileWriter_eq (io : WriterIo) (p : Path) (fileMode : FileMode) (policy : UInt16) :
    protectedFileWriter sha256 io p fileMode policy =
      openStage sha256 io p fileMode policy >>= fun x => saveStage sha256 io p x.1 x.2 := by
  simp only [protectedFileWriter, openStage]
  rw [Call.bind_assoc]
  congr 1
  funext _
  cases fileMode with
  | createNew =>
      simp only [Call.bind_assoc]
      rfl
  | openOrCreate => rfl
  | append => rfl
  | other => rfl

/-- What each file mode finds before it comes to `sgx_fopen`; `metafile` is the existing record of
a file that is appended to. -/
def WriterIo.Finds (io : WriterIo) (p : Path) (policy : UInt16) (w : World) (report : SelfReport) :
    FileMode → Option FileMetaData → Prop
  | .createNew, none => p ≠ [] ∧ io.fileStat.Works ∧ io.metaStat.Works ∧ w.files p = none ∧
      w.files (metadataFile p) = none
  | .openOrCreate, none => True
  | .append, none => io.metaStat.Works ∧ w.files (metadataFile p) = none
  | .append, some m => io.metaStat.Works ∧
      FileMetaData.fromFile sha256 io.metaRead (metadataFile p) w = (.ok (some m), w) ∧
      m.keyPolicy = policy ∧ (m.keyPolicy = sgxKeypolicyMrsigner → m.legacyMode = 1) ∧
      m.isvSvn = report.isvSvn ∧ m.cpuSvn.toList.take 2 = report.cpuSvn.toList.take 2
  | _, some _ => False
  | .other, none => False

/-- The constructor comes to `sgx_fopen` with the key of the metadata `m`: a condition on the
outcomes of the calls before and on the files. -/
structure WriterIo.ReachesOpen (io : WriterIo) (p : Path) (fileMode : FileMode) (policy : UInt16)
    (w : World) (metafile : Option FileMetaData) (m : FileMetaData) : Prop where
  valid : isValidKeyPolicy policy = true
  metadata : ∃ report, io.report = some report ∧ io.metadataFor policy report metafile = some m ∧
    io.Finds sha256 p policy w report fileMode metafile
  getKey : policy = sgxKeypolicyMrsigner ∨ io.getKey = sgxSuccess

/-- When the existence check answers, and what it says. -/
theorem alreadyExists_ok_iff {fileStat metaStat : StatIo} {p : Path} {w w' : World} {b : Bool} :
    alreadyExists fileStat metaStat p w = (.ok b, w') ↔
      p ≠ [] ∧ fileStat.Works ∧ w' = w ∧
        (b = true ∧ (w.files p).isSome ∨
          w.files p = none ∧ metaStat.Works ∧ b = (w.files (metadataFile p)).isSome) := by
  simp only [alreadyExists]
  simp only [Call.bind_ok_iff, existsPath_ok_iff]
  cases hf : w.files p with
  | none =>
      simp [existsPath_ok_iff, metadataFile_ne_nil]
      tauto
  | some f =>
      simp [eq_comm]
      tauto

theorem openForWrite_ok_iff {io : WriterIo} {p : Path} {policy : UInt16} {w w' : World}
    {file : SgxFile} {new : Option FileMetaData} :
    openForWrite io p policy w = (.ok (file, new), w') ↔
      ∃ m, new = some m ∧
        (∃ report, io.report = some report ∧ io.metadataFor policy report none = some m) ∧
        (policy = sgxKeypolicyMrsigner ∨ io.getKey = sgxSuccess) ∧ io.fopen.handle = some file ∧
        w' = w.afterFopen io.fopen p .w (writerKey policy m) file := by
  simp only [openForWrite]
  cases hr : io.report with
  | none => simp
  | some report =>
      constructor
      · intro h
        obtain ⟨⟨f, m⟩, w₁, hopen, hret⟩ := Call.bind_ok_iff.1 h
        obtain ⟨hm, hkey, -, hh, rfl⟩ := openUnderPolicy_ok_iff.1 hopen
        cases hret
        exact ⟨m, rfl, ⟨report, rfl, hm⟩, hkey, hh, rfl⟩
      · rintro ⟨m, rfl, ⟨report', hr', hm⟩, hkey, hh, rfl⟩
        cases hr'
        exact Call.bind_ok_iff.2
          ⟨(file, m), _, openUnderPolicy_ok_iff.2 ⟨hm, hkey, rfl, hh, rfl⟩, rfl⟩

theorem openForWrite_error {io : WriterIo} {p : Path} {policy : UInt16} {w w' : World}
    {e : FileSystemException} (h : openForWrite io p policy w = (.error e, w')) :
    w' = w ∨ ∃ report m, io.report = some report ∧ io.metadataFor policy report none = some m ∧
      (policy = sgxKeypolicyMrsigner ∨ io.getKey = sgxSuccess) ∧
      io.fopen.Null .w (w.files p) (writerKey policy m) ∧
      w' = w.afterNull io.fopen p .w (writerKey policy m) := by
  simp only [openForWrite] at h
  cases hr : io.report with
  | none =>
      rw [hr] at h
      cases h
      exact Or.inl rfl
  | some report =>
      rw [hr] at h
      rcases Call.bind_error_iff.1 h with hopen | ⟨x, w₁, -, hret⟩
      · rcases openUnderPolicy_error hopen with rfl | ⟨m, hm, hkey, hnull, rfl⟩
        · exact Or.inl rfl
        · exact Or.inr ⟨report, m, rfl, hm, hkey, hnull, rfl⟩
      · cases hret

theorem openForWrite_null {io : WriterIo} {p : Path} {policy : UInt16} {w : World}
    {report : SelfReport} {m : FileMetaData} (hreport : io.report = some report)
    (hm : io.metadataFor policy report none = some m)
    (hkey : policy = sgxKeypolicyMrsigner ∨ io.getKey = sgxSuccess)
    (hnull : io.fopen.Null .w (w.files p) (writerKey policy m)) :
    ∃ e, openForWrite io p policy w =
      (.error e, w.afterNull io.fopen p .w (writerKey policy m)) := by
  obtain ⟨e, he⟩ := openUnderPolicy_null hm hkey hnull
  refine ⟨e, ?_⟩
  simp only [openForWrite, hreport]
  exact Call.bind_of_error he

/-- The checks of an existing metadata file: its policy, the legacy mode under MRSIGNER, and the
security version numbers as far as they are compared. -/
theorem checkMetafile_ok_iff {m : FileMetaData} {policy : UInt16} {report : SelfReport}
    {w w' : World} {u : PUnit} :
    checkMetafile m policy report w = (.ok u, w') ↔
      m.keyPolicy = policy ∧ (m.keyPolicy = sgxKeypolicyMrsigner → m.legacyMode = 1) ∧
        m.isvSvn = report.isvSvn ∧ m.cpuSvn.toList.take 2 = report.cpuSvn.toList.take 2 ∧
        w' = w := by
  simp only [checkMetafile]
  rw [Call.raiseIf_bind_ok_iff, Call.raiseIf_bind_ok_iff, Call.raiseIf_ok_iff]
  simp only [FileMetaData.getKeyRequest, not_or, not_not, not_and, ne_eq, and_assoc]

theorem readsOnly_checkMetafile (m : FileMetaData) (policy : UInt16) (report : SelfReport) :
    ReadsOnly (checkMetafile m policy report) :=
  (readsOnly_raiseIf _ _).bind fun _ => (readsOnly_raiseIf _ _).bind fun _ => readsOnly_raiseIf _ _

/-- Appending without a metadata file: the record is new, and it is to be saved. -/
theorem openForAppend_new_iff {io : WriterIo} {p : Path} {policy : UInt16} {w w' : World}
    {file : SgxFile} {m : FileMetaData} :
    openForAppend sha256 io p policy w = (.ok (file, some m), w') ↔
      (∃ report, io.report = some report ∧ io.metadataFor policy report none = some m) ∧
        (policy = sgxKeypolicyMrsigner ∨ io.getKey = sgxSuccess) ∧ io.fopen.handle = some file ∧
        (io.metaStat.Works ∧ w.files (metadataFile p) = none ∧
          FopenMode.a.admits (w.files p) (writerKey policy m) = true) ∧
        w' = w.afterFopen io.fopen p .a (writerKey policy m) file := by
  simp only [openForAppend]
  cases hr : io.report with
  | none => simp
  | some report =>
      constructor
      · intro h
        obtain ⟨found, w₁, hfound, hrest⟩ := Call.bind_ok_iff.1 h
        obtain ⟨-, hst, rfl, rfl⟩ := existsPath_ok_iff.1 hfound
        cases hmeta : w₁.files (metadataFile p) with
        | none =>
            rw [hmeta] at hrest
            obtain ⟨⟨f, m'⟩, w₂, hopen, hret⟩ := Call.bind_ok_iff.1 hrest
            obtain ⟨hm, hkey, hopens, hh, rfl⟩ := openUnderPolicy_ok_iff.1 hopen
            -- an append to a file with metadata saves no record
            cases hret
            exact ⟨⟨report, rfl, hm⟩, hkey, hh, ⟨hst, rfl, hopens⟩, rfl⟩
        | some g =>
            rw [hmeta] at hrest
            obtain ⟨metafile, w₂, -, hrest⟩ := Call.bind_ok_iff.1 hrest
            cases metafile with
            | none => cases hrest
            | some m' =>
                obtain ⟨_, w₃, -, hrest⟩ := Call.bind_ok_iff.1 hrest
                obtain ⟨_, w₄, -, hret⟩ := Call.bind_ok_iff.1 hrest
                cases hret
      · rintro ⟨⟨report', hr', hm⟩, hkey, hh, ⟨hst, hmeta, hopens⟩, rfl⟩
        cases hr'
        refine Call.bind_ok_iff.2 ⟨false, w, existsPath_ok_iff.2
          ⟨metadataFile_ne_nil p, hst, by rw [hmeta]; rfl, rfl⟩, ?_⟩
        exact Call.bind_ok_iff.2
          ⟨(file, m), _, openUnderPolicy_ok_iff.2 ⟨hm, hkey, hopens, hh, rfl⟩, rfl⟩

/-- Appending with a metadata file: its record passed the checks, and the key is the one it says. -/
theorem openForAppend_existing {io : WriterIo} {p : Path} {policy : UInt16} {w w' : World}
    {file : SgxFile} (h : openForAppend sha256 io p policy w = (.ok (file, none), w')) :
    ∃ m, FileMetaData.fromFile sha256 io.metaRead (metadataFile p) w = (.ok (some m), w) ∧
      m.keyPolicy = policy ∧ (m.keyPolicy = sgxKeypolicyMrsigner → m.legacyMode = 1) ∧
      FopenMode.a.admits (w.files p) (writerKey policy m) = true ∧
      w' = w.afterFopen io.fopen p .a (writerKey policy m) file := by
  simp only [openForAppend] at h
  cases hr : io.report with
  | none =>
      rw [hr] at h
      cases h
  | some report =>
      rw [hr] at h
      obtain ⟨found, w₁, hfound, hrest⟩ := Call.bind_ok_iff.1 h
      obtain ⟨-, hst, rfl, rfl⟩ := existsPath_ok_iff.1 hfound
      cases hmeta : w₁.files (metadataFile p) with
      | none =>
          rw [hmeta] at hrest
          obtain ⟨x, w₂, -, hret⟩ := Call.bind_ok_iff.1 hrest
          cases hret
      | some g =>
          rw [hmeta] at hrest
          obtain ⟨metafile, w₂, hfrom, hrest⟩ := Call.bind_ok_iff.1 hrest
          obtain rfl := (readsOnly_fromFile sha256 io.metaRead (metadataFile p)).eq hfrom
          cases metafile with
          | none => cases hrest
          | some m =>
              obtain ⟨_, w₃, hcheck, htail⟩ := Call.bind_ok_iff.1 hrest
              obtain ⟨hpolicy, hlegacy, -, -, rfl⟩ := checkMetafile_ok_iff.1 hcheck
              obtain ⟨⟨f, m'⟩, w₄, hopen, hret⟩ := Call.bind_ok_iff.1 htail
              obtain ⟨hm, -, hopens, -, rfl⟩ := openUnderPolicy_ok_iff.1 hopen
              -- the branch on the policy was given this record, so the key comes from it
              cases hm
              cases hret
              exact ⟨m, hfrom, hpolicy, hlegacy, hopens, rfl⟩

/-- Where appending throws before the metadata file is written, it stopped before its open, or the
open returned null. -/
theorem openForAppend_error {io : WriterIo} {p : Path} {policy : UInt16} {w w' : World}
    {e : FileSystemException} (h : openForAppend sha256 io p policy w = (.error e, w')) :
    w' = w ∨ ∃ report metafile m, io.report = some report ∧
      io.metadataFor policy report metafile = some m ∧
      io.Finds sha256 p policy w report .append metafile ∧
      (policy = sgxKeypolicyMrsigner ∨ io.getKey = sgxSuccess) ∧
      io.fopen.Null .a (w.files p) (writerKey policy m) ∧
      w' = w.afterNull io.fopen p .a (writerKey policy m) := by
  simp only [openForAppend] at h
  cases hr : io.report with
  | none =>
      rw [hr] at h
      cases h
      exact Or.inl rfl
  | some report =>
      rw [hr] at h
      rcases Call.bind_error_iff.1 h with hfound | ⟨found, w₁, hfound, hrest⟩
      · exact Or.inl ((readsOnly_existsPath io.metaStat (metadataFile p)).eq hfound)
      obtain ⟨-, hst, rfl, rfl⟩ := existsPath_ok_iff.1 hfound
      cases hmeta : w₁.files (metadataFile p) with
      | none =>
          rw [hmeta] at hrest
          rcases Call.bind_error_iff.1 hrest with hopen | ⟨x, w₂, -, hret⟩
          · -- no metadata file: the key is of metadata made for the policy
            rcases openUnderPolicy_error hopen with rfl | ⟨m, hm, hkey, hnull, rfl⟩
            · exact Or.inl rfl
            · exact Or.inr ⟨report, none, m, rfl, hm, ⟨hst, hmeta⟩, hkey, hnull, rfl⟩
          · cases hret
      | some g =>
          rw [hmeta] at hrest
          -- the metadata file is there, so its record must be read and checked
          rcases Call.bind_error_iff.1 hrest with hfrom | ⟨metafile, w₂, hfrom, hrest⟩
          · exact Or.inl ((readsOnly_fromFile sha256 io.metaRead (metadataFile p)).eq hfrom)
          obtain rfl := (readsOnly_fromFile sha256 io.metaRead (metadataFile p)).eq hfrom
          cases metafile with
          | none =>
              cases hrest
              exact Or.inl rfl
          | some m =>
              rcases Call.bind_error_iff.1 hrest with hcheck | ⟨_, w₃, hcheck, htail⟩
              · exact Or.inl ((readsOnly_checkMetafile m policy report).eq hcheck)
              obtain ⟨hpolicy, hlegacy, hisv, hcpu, rfl⟩ := checkMetafile_ok_iff.1 hcheck
              rcases Call.bind_error_iff.1 htail with hopen | ⟨x, w₄, -, hret⟩
              · rcases openUnderPolicy_error hopen with rfl | ⟨m', hm', hkey, hnull, rfl⟩
                · exact Or.inl rfl
                · exact Or.inr ⟨report, some m, m', rfl, hm',
                    ⟨hst, hfrom, hpolicy, hlegacy, hisv, hcpu⟩, hkey, hnull, rfl⟩
              · cases hret

theorem openForAppend_null {io : WriterIo} {p : Path} {policy : UInt16} {w : World}
    {report : SelfReport} {metafile : Option FileMetaData} {m : FileMetaData}
    (hreport : io.report = some report) (hm : io.metadataFor policy report metafile = some m)
    (hfinds : io.Finds sha256 p policy w report .append metafile)
    (hkey : policy = sgxKeypolicyMrsigner ∨ io.getKey = sgxSuccess)
    (hnull : io.fopen.Null .a (w.files p) (writerKey policy m)) :
    ∃ e, openForAppend sha256 io p policy w =
      (.error e, w.afterNull io.fopen p .a (writerKey policy m)) := by
  obtain ⟨e, he⟩ := openUnderPolicy_null hm hkey hnull
  refine ⟨e, ?_⟩
  simp only [openForAppend, hreport]
  cases metafile with
  | none =>
      obtain ⟨hst, hmeta⟩ := hfinds
      have hfound : existsPath io.metaStat (metadataFile p) w = (.ok false, w) :=
        existsPath_ok_iff.2 ⟨metadataFile_ne_nil p, hst, by rw [hmeta]; rfl, rfl⟩
      rw [Call.bind_of_ok hfound]
      exact Call.bind_of_error he
  | some m' =>
      obtain ⟨hst, hfrom, hchecks⟩ := hfinds
      obtain ⟨f, hmeta, -⟩ := fromFile_some sha256 hfrom
      have hfound : existsPath io.metaStat (metadataFile p) w = (.ok true, w) :=
        existsPath_ok_iff.2 ⟨metadataFile_ne_nil p, hst, by rw [hmeta]; rfl, rfl⟩
      have hcheck : checkMetafile m' policy report w = (.ok ⟨⟩, w) := by
        obtain ⟨hpolicy, hlegacy, hisv, hcpu⟩ := hchecks
        exact checkMetafile_ok_iff.2 ⟨hpolicy, hlegacy, hisv, hcpu, rfl⟩
      rw [Call.bind_of_ok hfound]
      refine (Call.bind_of_ok hfrom).trans ((Call.bind_of_ok hcheck).trans ?_)
      exact Call.bind_of_error he

/-- The first stage ends with a record to save exactly when it `ReachesSave`. -/
theorem openStage_save_iff {io : WriterIo} {p : Path} {fileMode : FileMode} {policy : UInt16}
    {w w' : World} {file : SgxFile} {m : FileMetaData} :
    openStage sha256 io p fileMode policy w = (.ok (file, some m), w') ↔
      io.ReachesSave p fileMode policy w file m ∧
        w' = w.afterFopen io.fopen p fileMode.fopenMode (writerKey policy m) file := by
  simp only [openStage]
  rw [Call.raiseIf_bind_ok_iff, Bool.not_eq_false]
  constructor
  · rintro ⟨hvalid, h⟩
    cases fileMode with
    | createNew =>
        obtain ⟨found, w₁, hfound, hrest⟩ := Call.bind_ok_iff.1 h
        obtain ⟨hp, hst, rfl, hans⟩ := alreadyExists_ok_iff.1 hfound
        obtain ⟨hnot, hopen⟩ := Call.raiseIf_bind_ok_iff.1 hrest
        obtain ⟨m', hm', hmeta, hkey, hh, rfl⟩ := openForWrite_ok_iff.1 hopen
        cases hm'
        -- the check said no, so it got as far as the metadata file and found neither
        obtain ⟨hfile, hst', hb⟩ := hans.resolve_left fun hans => hnot hans.1
        have hnone : w₁.files (metadataFile p) = none := by
          rw [Bool.not_eq_true] at hnot
          rw [hnot] at hb
          simpa using hb.symm
        exact ⟨⟨hvalid, hmeta, hkey, hh, hp, hst, hst', hfile, hnone⟩, rfl⟩
    | openOrCreate =>
        obtain ⟨m', hm', hmeta, hkey, hh, rfl⟩ := openForWrite_ok_iff.1 h
        cases hm'
        exact ⟨⟨hvalid, hmeta, hkey, hh, trivial⟩, rfl⟩
    | append =>
        obtain ⟨hmeta, hkey, hh, hmode, rfl⟩ := (openForAppend_new_iff sha256).1 h
        exact ⟨⟨hvalid, hmeta, hkey, hh, hmode⟩, rfl⟩
    | other => cases h
  · rintro ⟨⟨hvalid, hmeta, hkey, hh, hmode⟩, rfl⟩
    refine ⟨hvalid, ?_⟩
    cases fileMode with
    | createNew =>
        obtain ⟨hp, hst, hst', hfile, hnone⟩ := hmode
        refine Call.bind_ok_iff.2 ⟨false, w, alreadyExists_ok_iff.2
          ⟨hp, hst, rfl, Or.inr ⟨hfile, hst', by rw [hnone]; rfl⟩⟩, ?_⟩
        refine Call.raiseIf_bind_ok_iff.2 ⟨Bool.false_ne_true, ?_⟩
        exact openForWrite_ok_iff.2 ⟨m, rfl, hmeta, hkey, hh, rfl⟩
    | openOrCreate => exact openForWrite_ok_iff.2 ⟨m, rfl, hmeta, hkey, hh, rfl⟩
    | append => exact (openForAppend_new_iff sha256).2 ⟨hmeta, hkey, hh, hmode, rfl⟩
    | other => exact hmode.elim

/-- The first stage ends without a record to save only where it appends to a file with metadata. -/
theorem openStage_existing {io : WriterIo} {p : Path} {fileMode : FileMode} {policy : UInt16}
    {w w' : World} {file : SgxFile}
    (h : openStage sha256 io p fileMode policy w = (.ok (file, none), w')) :
    fileMode = .append ∧ openForAppend sha256 io p policy w = (.ok (file, none), w') := by
  simp only [openStage] at h
  obtain ⟨-, h⟩ := Call.raiseIf_bind_ok_iff.1 h
  cases fileMode with
  | createNew =>
      obtain ⟨found, w₁, -, hrest⟩ := Call.bind_ok_iff.1 h
      obtain ⟨-, hopen⟩ := Call.raiseIf_bind_ok_iff.1 hrest
      obtain ⟨m, hm, -⟩ := openForWrite_ok_iff.1 hopen
      cases hm
  | openOrCreate =>
      obtain ⟨m, hm, -⟩ := openForWrite_ok_iff.1 h
      cases hm
  | append => exact ⟨rfl, h⟩
  | other => cases h

theorem readsOnly_alreadyExists (fileStat metaStat : StatIo) (p : Path) :
    ReadsOnly (alreadyExists fileStat metaStat p) := by
  refine (readsOnly_existsPath fileStat p).bind fun found => ?_
  cases found with
  | true => exact readsOnly_pure true
  | false => exact readsOnly_existsPath metaStat (metadataFile p)

/-- Where the first stage throws, it stopped before its open, or the open returned null. -/
theorem openStage_error {io : WriterIo} {p : Path} {fileMode : FileMode} {policy : UInt16}
    {w w' : World} {e : FileSystemException}
    (h : openStage sha256 io p fileMode policy w = (.error e, w')) :
    w' = w ∨ ∃ metafile m, io.ReachesOpen sha256 p fileMode policy w metafile m ∧
      io.fopen.Null fileMode.fopenMode (w.files p) (writerKey policy m) ∧
      w' = w.afterNull io.fopen p fileMode.fopenMode (writerKey policy m) := by
  simp only [openStage] at h
  rcases Call.raiseIf_bind_error_iff.1 h with ⟨-, -, rfl⟩ | ⟨hvalid, h⟩
  · exact Or.inl rfl
  rw [Bool.not_eq_false] at hvalid
  cases fileMode with
  | createNew =>
      rcases Call.bind_error_iff.1 h with hfound | ⟨found, w₁, hfound, hrest⟩
      · exact Or.inl ((readsOnly_alreadyExists io.fileStat io.metaStat p).eq hfound)
      obtain ⟨hp, hst, rfl, hans⟩ := alreadyExists_ok_iff.1 hfound
      rcases Call.raiseIf_bind_error_iff.1 hrest with ⟨-, -, rfl⟩ | ⟨hnot, hopen⟩
      · exact Or.inl rfl
      rcases openForWrite_error hopen with rfl | ⟨report, m, hr, hm, hkey, hnull, rfl⟩
      · exact Or.inl rfl
      -- the check said no: there was neither file
      obtain ⟨hfile, hst', hb⟩ := hans.resolve_left fun hans => hnot hans.1
      have hnone : w₁.files (metadataFile p) = none := by
        rw [Bool.not_eq_true] at hnot
        rw [hnot] at hb
        simpa using hb.symm
      exact Or.inr ⟨none, m, ⟨hvalid, ⟨report, hr, hm, hp, hst, hst', hfile, hnone⟩, hkey⟩,
        hnull, rfl⟩
  | openOrCreate =>
      rcases openForWrite_error h with rfl | ⟨report, m, hr, hm, hkey, hnull, rfl⟩
      · exact Or.inl rfl
      · exact Or.inr ⟨none, m, ⟨hvalid, ⟨report, hr, hm, trivial⟩, hkey⟩, hnull, rfl⟩
  | append =>
      rcases openForAppend_error sha256 h with
        rfl | ⟨report, metafile, m, hr, hm, hfinds, hkey, hnull, rfl⟩
      · exact Or.inl rfl
      · exact Or.inr ⟨metafile, m, ⟨hvalid, ⟨report, hr, hm, hfinds⟩, hkey⟩, hnull, rfl⟩
  | other =>
      cases h
      exact Or.inl rfl

/-- The first stage throws where it comes to its open and the open returns null. -/
theorem openStage_null {io : WriterIo} {p : Path} {fileMode : FileMode} {policy : UInt16}
    {w : World} {metafile : Option FileMetaData} {m : FileMetaData}
    (h : io.ReachesOpen sha256 p fileMode policy w metafile m)
    (hnull : io.fopen.Null fileMode.fopenMode (w.files p) (writerKey policy m)) :
    ∃ e, openStage sha256 io p fileMode policy w =
      (.error e, w.afterNull io.fopen p fileMode.fopenMode (writerKey policy m)) := by
  obtain ⟨report, hr, hm, hfinds⟩ := h.metadata
  have hvalid : ¬ isValidKeyPolicy policy = false := by rw [h.valid]; decide
  simp only [openStage]
  rw [Call.bind_of_ok (Call.raiseIf_of_not hvalid _ _)]
  cases fileMode with
  | createNew =>
      cases metafile with
      | some m' => exact hfinds.elim
      | none =>
          obtain ⟨hp, hst, hst', hfile, hmeta⟩ := hfinds
          obtain ⟨e, he⟩ := openForWrite_null hr hm h.getKey hnull
          have hfound : alreadyExists io.fileStat io.metaStat p w = (.ok false, w) :=
            alreadyExists_ok_iff.2 ⟨hp, hst, rfl, Or.inr ⟨hfile, hst', by rw [hmeta]; rfl⟩⟩
          refine ⟨e, (Call.bind_of_ok hfound).trans ?_⟩
          exact (Call.bind_of_ok (Call.raiseIf_of_not Bool.false_ne_true _ _)).trans he
  | openOrCreate =>
      cases metafile with
      | some m' => exact hfinds.elim
      | none => exact openForWrite_null hr hm h.getKey hnull
  | append => exact openForAppend_null sha256 hr hm hfinds h.getKey hnull
  | other =>
      cases metafile with
      | some m' => exact hfinds.elim
      | none => exact hfinds.elim

/-- An open that returns null makes the constructor throw. -/
theorem protectedFileWriter_null {io : WriterIo} {p : Path} {fileMode : FileMode}
    {policy : UInt16} {w : World} {metafile : Option FileMetaData} {m : FileMetaData}
    (h : io.ReachesOpen sha256 p fileMode policy w metafile m)
    (hnull : io.fopen.Null fileMode.fopenMode (w.files p) (writerKey policy m)) :
    ∃ e, protectedFileWriter sha256 io p fileMode policy w =
      (.error e, w.afterNull io.fopen p fileMode.fopenMode (writerKey policy m)) := by
  obtain ⟨e, he⟩ := openStage_null sha256 h hnull
  exact ⟨e, by rw [protectedFileWriter_eq, Call.bind_of_error he]⟩

theorem WriterIo.ReachesSave.admits {io : WriterIo} {p : Path} {fileMode : FileMode}
    {policy : UInt16} {w : World} {file : SgxFile} {m : FileMetaData}
    (h : io.ReachesSave p fileMode policy w file m) :
    fileMode.fopenMode.admits (w.files p) (writerKey policy m) = true := by
  have hmode := h.mode
  cases fileMode with
  | createNew => rfl
  | openOrCreate => rfl
  | append => exact hmode.2.2
  | other => exact hmode.elim

/-- The constructor of a writer that `ReachesSave`, where the write of the metadata throws: the file
stays as `sgx_fopen` left it, and the metadata file as the write left it. -/
theorem protectedFileWriter_unsaved {io : WriterIo} {p : Path} {fileMode : FileMode}
    {policy : UInt16} {w : World} {file : SgxFile} {m : FileMetaData}
    (h : io.ReachesSave p fileMode policy w file m) (hfails : io.metaWrite.Fails 94) :
    ∃ e, protectedFileWriter sha256 io p fileMode policy w = (.error e,
      (w.afterFopen io.fopen p fileMode.fopenMode (writerKey policy m) file).put (metadataFile p)
        (io.metaWrite.leaves (m.encode sha256) (w.files (metadataFile p)))) := by
  have hmeta := World.afterFopen_files_of_ne w io.fopen (metadataFile_ne_self p)
    fileMode.fopenMode (writerKey policy m) file
  rcases FileMetaData.toFile_cases sha256 io.metaWrite m (metadataFile_ne_nil p)
    (w.afterFopen io.fopen p fileMode.fopenMode (writerKey policy m) file) with
    ⟨-, e, he⟩ | ⟨hf, -⟩
  · refine ⟨e, ?_⟩
    rw [protectedFileWriter_eq, Call.bind_of_ok ((openStage_save_iff sha256).2 ⟨h, rfl⟩)]
    -- the exception of `ToFile` passes through: the cleanup behind it is not reached
    simp only [saveStage]
    rw [Call.bind_of_error he, hmeta]
  · exact absurd hfails hf

/-- The constructor of a writer that `ReachesSave`, where the metadata is written. -/
theorem protectedFileWriter_saved {io : WriterIo} {p : Path} {fileMode : FileMode}
    {policy : UInt16} {w : World} {file : SgxFile} {m : FileMetaData}
    (h : io.ReachesSave p fileMode policy w file m) (hwritten : ¬ io.metaWrite.Fails 94) :
    protectedFileWriter sha256 io p fileMode policy w = (.ok file,
      (w.afterFopen io.fopen p fileMode.fopenMode (writerKey policy m) file).put (metadataFile p)
        (some (.plain ((m.encode sha256).take io.metaWrite.flushed)))) := by
  rcases FileMetaData.toFile_cases sha256 io.metaWrite m (metadataFile_ne_nil p)
    (w.afterFopen io.fopen p fileMode.fopenMode (writerKey policy m) file) with
    ⟨hf, -⟩ | ⟨-, hok⟩
  · exact absurd hf hwritten
  · rw [protectedFileWriter_eq, Call.bind_of_ok ((openStage_save_iff sha256).2 ⟨h, rfl⟩)]
    simp only [saveStage]
    rw [Call.bind_of_ok hok]
    rfl

/-- The five ways a writer's constructor ends: it throws before its open; its open returns null; it
appends to a file with metadata; it saves new metadata; or it has a handle and the write of the
metadata throws. -/
inductive WriterOutcome (io : WriterIo) (p : Path) (fileMode : FileMode) (policy : UInt16)
    (w : World) : Except FileSystemException SgxFile → World → Prop where
  | stopped {e : FileSystemException} : WriterOutcome io p fileMode policy w (.error e) w
  | refused {e : FileSystemException} {metafile : Option FileMetaData} {m : FileMetaData}
      (reaches : io.ReachesOpen sha256 p fileMode policy w metafile m)
      (null : io.fopen.Null fileMode.fopenMode (w.files p) (writerKey policy m)) :
      WriterOutcome io p fileMode policy w (.error e)
        (w.afterNull io.fopen p fileMode.fopenMode (writerKey policy m))
  | appended {file : SgxFile} {w' : World} (append : fileMode = .append)
      (existing : openForAppend sha256 io p policy w = (.ok (file, none), w')) :
      WriterOutcome io p fileMode policy w (.ok file) w'
  | saved {file : SgxFile} {m : FileMetaData} (reaches : io.ReachesSave p fileMode policy w file m)
      (written : ¬ io.metaWrite.Fails 94) :
      WriterOutcome io p fileMode policy w (.ok file)
        ((w.afterFopen io.fopen p fileMode.fopenMode (writerKey policy m) file).put (metadataFile p)
          (some (.plain ((m.encode sha256).take io.metaWrite.flushed))))
  | unsaved {e : FileSystemException} {file : SgxFile} {m : FileMetaData}
      (reaches : io.ReachesSave p fileMode policy w file m) (fails : io.metaWrite.Fails 94) :
      WriterOutcome io p fileMode policy w (.error e)
        ((w.afterFopen io.fopen p fileMode.fopenMode (writerKey policy m) file).put (metadataFile p)
          (io.metaWrite.leaves (m.encode sha256) (w.files (metadataFile p))))

/-- **Every run of a writer's constructor ends in one of the five ways.** -/
theorem protectedFileWriter_outcome {io : WriterIo} {p : Path} {fileMode : FileMode}
    {policy : UInt16} {w w' : World} {r : Except FileSystemException SgxFile}
    (h : protectedFileWriter sha256 io p fileMode policy w = (r, w')) :
    WriterOutcome sha256 io p fileMode policy w r w' := by
  rcases hstage : openStage sha256 io p fileMode policy w with ⟨stage, w₁⟩
  cases stage with
  | error e =>
      rw [protectedFileWriter_eq, Call.bind_of_error hstage] at h
      cases h
      rcases openStage_error sha256 hstage with rfl | ⟨metafile, m, hreaches, hnull, rfl⟩
      · exact .stopped
      · exact .refused hreaches hnull
  | ok x =>
      obtain ⟨file, new⟩ := x
      cases new with
      | none =>
          rw [protectedFileWriter_eq, Call.bind_of_ok hstage] at h
          obtain ⟨hmode, hopen⟩ := openStage_existing sha256 hstage
          cases h
          exact .appended hmode hopen
      | some m =>
          obtain ⟨hreaches, -⟩ := (openStage_save_iff sha256).1 hstage
          -- only the write of the metadata is left, and it either throws or succeeds
          by_cases hfails : io.metaWrite.Fails 94
          · obtain ⟨e, he⟩ := protectedFileWriter_unsaved sha256 hreaches hfails
            rw [he] at h
            cases h
            exact .unsaved hreaches hfails
          · rw [protectedFileWriter_saved sha256 hreaches hfails] at h
            cases h
            exact .saved hreaches hfails

end Digest

end Ssgx.Filesystem
