import Ssgx.Filesystem.ProtectedFile

/-!
# What a reader's constructor does

The key that the constructor of `ProtectedFileReader` selects is the automatic one without a
metadata file and otherwise the one its metadata says (`readerKey`). `Opens` says that the
constructor can open the file, with which key and which metadata; `opens_iff` reads it off the two
files.
-/

set_option autoImplicit false

namespace Ssgx.Filesystem

open Ssgx.Support

/-- The key a reader selects. -/
def readerKey : Option FileMetaData → KeySource
  | none => .auto
  | some m => m.keySource

section Digest

variable (sha256 : List UInt8 → List.Vector UInt8 32)

theorem readsOnly_fromFile (io : ReadIo) (p : Path) :
    ReadsOnly (FileMetaData.fromFile sha256 io p) := by
  simp only [FileMetaData.fromFile]
  split
  · exact readsOnly_pure _
  · exact ReadsOnly.bind (Call.moves_attempt (readsOnly_readAllBytes io p))
      fun _ => readsOnly_pure _

/-- `FromFile` never throws. -/
theorem fromFile_total (io : ReadIo) (p : Path) (w : World) :
    ∃ md, FileMetaData.fromFile sha256 io p w = (.ok md, w) := by
  rcases h : FileMetaData.fromFile sha256 io p w with ⟨r, w'⟩
  obtain rfl := (readsOnly_fromFile sha256 io p).eq h
  cases r with
  | ok md => exact ⟨md, rfl⟩
  | error e =>
      exfalso
      simp only [FileMetaData.fromFile] at h
      split at h
      · cases h
      · rcases Call.bind_error_iff.1 h with hread | ⟨x, w₁, -, hret⟩
        · rw [Call.attempt_apply] at hread
          rcases hall : readAllBytes io p w' with ⟨r', w''⟩
          rw [hall] at hread
          cases r' with
          | ok b => cases hread
          | error e' => cases hread
        · cases hret

/-- What `FromFile` returns is what the file's bytes parse to. -/
theorem fromFile_some {io : ReadIo} {p : Path} {w : World} {m : FileMetaData}
    (h : FileMetaData.fromFile sha256 io p w = (.ok (some m), w)) :
    ∃ f, w.files p = some f ∧ f.bytes.length ≤ fsMaxFileSize ∧
      FileMetaData.parse sha256 f.bytes = some m := by
  simp only [FileMetaData.fromFile] at h
  split at h
  · cases h
  · obtain ⟨content, w₁, hread, hret⟩ := Call.bind_ok_iff.1 h
    cases content with
    | none => cases hret
    | some b =>
        obtain ⟨f, hfile, rfl, hsize⟩ := readAllBytes_ok (Call.attempt_ok_some_iff.1 hread)
        simp only [Call.pure_apply, Option.bind_some, Prod.mk.injEq, Except.ok.injEq] at hret
        exact ⟨f, hfile, hsize, hret.1⟩

/-- What a reader takes the metadata file for. -/
def ReadsAs : Option HostFile → Option FileMetaData → Prop
  | none, md => md = none
  | some f, md =>
      f.bytes.length ≤ fsMaxFileSize ∧ md ≠ none ∧ FileMetaData.parse sha256 f.bytes = md

theorem metadataInvalid_ok_iff {io : ReaderIo} {p : Path} {md : Option FileMetaData}
    {w w' : World} {b : Bool} :
    metadataInvalid io p md w = (.ok b, w') ↔
      (md.isSome ∧ b = false ∧ w' = w) ∨
        (md = none ∧ io.metaStat.Works ∧ b = (w.files (metadataFile p)).isSome ∧ w' = w) := by
  simp only [metadataInvalid]
  cases md with
  -- `Exists` is asked only here: no metadata was read
  | none =>
      rw [Option.isNone_none, if_pos rfl, existsPath_ok_iff]
      simp [metadataFile_ne_nil]
  | some m => simp [eq_comm]

theorem readsOnly_metadataInvalid (io : ReaderIo) (p : Path) (md : Option FileMetaData) :
    ReadsOnly (metadataInvalid io p md) := by
  cases md with
  | none => exact readsOnly_existsPath io.metaStat (metadataFile p)
  | some m => exact readsOnly_pure false

theorem openWithKey_ok_iff {io : ReaderIo} {p : Path} {md : Option FileMetaData} {w w' : World}
    {file : SgxFile} :
    openWithKey io p md w = (.ok file, w') ↔
      (∀ m, md = some m → m.legacyMode ≠ 1 → io.getKey = sgxSuccess) ∧
        FopenMode.r.admits (w.files p) (readerKey md) = true ∧ io.fopen.handle = some file ∧
        w' = w.afterFopen io.fopen p .r (readerKey md) file := by
  cases md with
  | none =>
      simp only [openWithKey, openAuto]
      rw [fopenOrRaise_ok_iff]
      simp [readerKey]
  | some m =>
      simp only [openWithKey]
      by_cases hm : m.legacyMode = 1
      · rw [if_pos hm, openAuto, fopenOrRaise_ok_iff]
        simp [readerKey, FileMetaData.keySource, hm]
      · rw [if_neg hm, openSealed, Call.raiseIf_bind_ok_iff, fopenOrRaise_ok_iff]
        simp [readerKey, FileMetaData.keySource, hm]

theorem openWithKey_error {io : ReaderIo} {p : Path} {md : Option FileMetaData} {w w' : World}
    {e : FileSystemException} (h : openWithKey io p md w = (.error e, w')) :
    w' = w ∨ w' = w.afterNull io.fopen p .r (readerKey md) := by
  cases md with
  | none => exact Or.inr (fopenOrRaise_error_iff.1 h).2.2
  | some m =>
      simp only [openWithKey] at h
      by_cases hm : m.legacyMode = 1
      · rw [if_pos hm] at h
        right
        rw [readerKey, FileMetaData.keySource, if_pos hm]
        exact (fopenOrRaise_error_iff.1 h).2.2
      · rw [if_neg hm] at h
        rcases Call.raiseIf_bind_error_iff.1 h with ⟨-, -, rfl⟩ | ⟨-, h⟩
        · exact Or.inl rfl
        · right
          rw [readerKey, FileMetaData.keySource, if_neg hm]
          exact (fopenOrRaise_error_iff.1 h).2.2

/-- When a reader gets its handle. -/
theorem protectedFileReader_ok_iff {io : ReaderIo} {p : Path} {w w' : World} {file : SgxFile} :
    protectedFileReader sha256 io p w = (.ok file, w') ↔
      ∃ md, FileMetaData.fromFile sha256 io.metaRead (metadataFile p) w = (.ok md, w) ∧
        (md = none → io.metaStat.Works ∧ w.files (metadataFile p) = none) ∧
        (∀ m, md = some m → m.legacyMode ≠ 1 → io.getKey = sgxSuccess) ∧
        FopenMode.r.admits (w.files p) (readerKey md) = true ∧ io.fopen.handle = some file ∧
        w' = w.afterFopen io.fopen p .r (readerKey md) file := by
  obtain ⟨md, hmd⟩ := fromFile_total sha256 io.metaRead (metadataFile p) w
  simp only [protectedFileReader]
  rw [Call.bind_of_ok hmd]
  constructor
  · intro h
    obtain ⟨invalid, w₁, hinvalid, hrest⟩ := Call.bind_ok_iff.1 h
    obtain rfl := (readsOnly_metadataInvalid io p md).eq hinvalid
    obtain ⟨hvalid, hopen⟩ := Call.raiseIf_bind_ok_iff.1 hrest
    obtain ⟨hkey, hopens, hh, rfl⟩ := openWithKey_ok_iff.1 hopen
    refine ⟨md, hmd, ?_, hkey, hopens, hh, rfl⟩
    rintro rfl
    -- without a record the metadata file must not be there
    rcases metadataInvalid_ok_iff.1 hinvalid with ⟨hsome, -⟩ | ⟨-, hst, rfl, -⟩
    · cases hsome
    · exact ⟨hst, by simpa using hvalid⟩
  · rintro ⟨md', hmd', hnone, hkey, hopens, hh, rfl⟩
    obtain rfl : md = md' := by
      rw [hmd] at hmd'
      exact Except.ok.inj (congrArg Prod.fst hmd')
    refine Call.bind_ok_iff.2 ⟨false, w, ?_, Call.raiseIf_bind_ok_iff.2
      ⟨Bool.false_ne_true, openWithKey_ok_iff.2 ⟨hkey, hopens, hh, rfl⟩⟩⟩
    cases md with
    | none =>
        obtain ⟨hst, hmeta⟩ := hnone rfl
        exact metadataInvalid_ok_iff.2 (Or.inr ⟨rfl, hst, by rw [hmeta]; rfl, rfl⟩)
    | some m => exact metadataInvalid_ok_iff.2 (Or.inl ⟨rfl, rfl, rfl⟩)

/-- A reader that throws stopped before its open, or the open returned null; the key that it tried
is the one of the metadata it read, and without metadata it tries one only if there is no metadata
file. -/
theorem protectedFileReader_error {io : ReaderIo} {p : Path} {w w' : World}
    {e : FileSystemException} (h : protectedFileReader sha256 io p w = (.error e, w')) :
    w' = w ∨ ∃ md, FileMetaData.fromFile sha256 io.metaRead (metadataFile p) w = (.ok md, w) ∧
      (md = none → w.files (metadataFile p) = none) ∧
      w' = w.afterNull io.fopen p .r (readerKey md) := by
  obtain ⟨md, hmd⟩ := fromFile_total sha256 io.metaRead (metadataFile p) w
  simp only [protectedFileReader] at h
  rw [Call.bind_of_ok hmd] at h
  rcases Call.bind_error_iff.1 h with hinvalid | ⟨invalid, w₁, hinvalid, hrest⟩
  · exact Or.inl ((readsOnly_metadataInvalid io p md).eq hinvalid)
  obtain rfl := (readsOnly_metadataInvalid io p md).eq hinvalid
  rcases Call.raiseIf_bind_error_iff.1 hrest with ⟨-, -, rfl⟩ | ⟨hvalid, hopen⟩
  · exact Or.inl rfl
  rcases openWithKey_error hopen with rfl | rfl
  · exact Or.inl rfl
  · refine Or.inr ⟨md, hmd, ?_, rfl⟩
    -- a key was tried without metadata, so `Exists` did not find the file
    rintro rfl
    rcases metadataInvalid_ok_iff.1 hinvalid with ⟨hsome, -⟩ | ⟨-, -, rfl, -⟩
    · cases hsome
    · simpa using hvalid

/-! ## What can be opened -/

/-- `ProtectedFileReader` can open the file, with this key and this metadata. -/
def Opens (w : World) (p : Path) (key : KeySource) (md : Option FileMetaData) : Prop :=
  ∃ io file w', protectedFileReader sha256 io p w = (.ok file, w') ∧
    FileMetaData.fromFile sha256 io.metaRead (metadataFile p) w = (.ok md, w) ∧
    w'.log = w.log ++ [.fopen p .r key (some file)]

/-- A reader whose calls all work. -/
def ReaderIo.working (file : SgxFile) : ReaderIo where
  metaRead := .working
  metaStat := ⟨sgxSuccess, false, 0⟩
  getKey := sgxSuccess
  fopen := ⟨some file, [], none⟩

/-- What a working host lets the reader read. -/
theorem fromFile_working_iff {p : Path} {w : World} {md : Option FileMetaData}
    (hreads : ReadsAs sha256 (w.files (metadataFile p)) md) :
    FileMetaData.fromFile sha256 .working (metadataFile p) w = (.ok md, w) := by
  cases hfile : w.files (metadataFile p) with
  | none =>
      rw [hfile] at hreads
      obtain rfl : md = none := hreads
      obtain ⟨md, hmd⟩ := fromFile_total sha256 .working (metadataFile p) w
      cases md with
      | none => exact hmd
      | some m =>
          obtain ⟨f, hf, -⟩ := fromFile_some sha256 hmd
          rw [hfile] at hf
          cases hf
  | some f =>
      rw [hfile] at hreads
      obtain ⟨hsize, -, hparse⟩ := hreads
      rw [FileMetaData.fromFile_of_works sha256 ReadIo.working_works (metadataFile_ne_nil p) hfile,
        if_pos hsize, hparse]

/-- **What a reader can open, read off the two files.** -/
theorem opens_iff {w : World} {p : Path} {key : KeySource} {md : Option FileMetaData} :
    Opens sha256 w p key md ↔
      (∃ f, w.files p = some f ∧ f.key? = some key) ∧ key = readerKey md ∧
        ReadsAs sha256 (w.files (metadataFile p)) md := by
  constructor
  · rintro ⟨io, file, w', hread, hfrom, hlog⟩
    obtain ⟨md', hmd', hnone, -, hopens, -, rfl⟩ := (protectedFileReader_ok_iff sha256).1 hread
    obtain rfl : md = md' := by
      rw [hfrom] at hmd'
      exact Except.ok.inj (congrArg Prod.fst hmd')
    obtain rfl : key = readerKey md := by
      simp only [World.afterFopen, List.append_cancel_left_eq, List.cons.injEq,
        FsEvent.fopen.injEq] at hlog
      exact hlog.1.2.2.1.symm
    refine ⟨?_, rfl, ?_⟩
    · cases hfile : w.files p with
      | none =>
          rw [hfile] at hopens
          cases hopens
      | some f =>
          rw [hfile] at hopens
          exact ⟨f, rfl, of_decide_eq_true hopens⟩
    · cases md with
      | none =>
          rw [(hnone rfl).2]
          exact rfl
      | some m =>
          obtain ⟨f, hfile, hsize, hparse⟩ := fromFile_some sha256 hfrom
          rw [hfile]
          exact ⟨hsize, Option.some_ne_none m, hparse⟩
  · rintro ⟨⟨f, hfile, hkey⟩, rfl, hreads⟩
    -- a reader whose calls all work is witness enough
    have hfrom := fromFile_working_iff sha256 hreads
    refine ⟨.working 0, 0, w.afterFopen (ReaderIo.working 0).fopen p .r (readerKey md) 0,
      (protectedFileReader_ok_iff sha256).2 ⟨md, hfrom, ?_, fun _ _ _ => rfl, ?_, rfl, rfl⟩,
      hfrom, rfl⟩
    · rintro rfl
      refine ⟨⟨rfl, rfl⟩, ?_⟩
      cases hmeta : w.files (metadataFile p) with
      | none => rfl
      | some g =>
          rw [hmeta] at hreads
          exact absurd rfl hreads.2.1
    · rw [hfile]
      exact decide_eq_true hkey

end Digest

end Ssgx.Filesystem
