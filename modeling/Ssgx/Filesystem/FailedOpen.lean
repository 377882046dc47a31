import Ssgx.Filesystem.PairRun

/-!
# What a failed open leaves behind

A constructor of `ProtectedFileWriter` that throws should leave the pair of protected file and
metadata file as it found it. It does where it throws before `sgx_fopen`; where that returns null,
the pair is what the protected file system leaves. Behind the handle, the only step that can throw
is the write of the metadata file, and the cleanup that `OpenFileForWrite` and `OpenFileForAppend`
have for it is never run: `ToFile` returns `false` only for an empty name, and reports a failed
write by an exception. The file has been created or given a new key by then.

`failedOpen_kept_iff` says exactly when the pair is kept nevertheless.
-/

set_option autoImplicit false

namespace Ssgx.Filesystem

open Ssgx.Support

section Digest

variable (sha256 : List UInt8 → List.Vector UInt8 32)

/-- The pair is not left half-changed: what a reader could open it can open with the same key and
metadata, and where there was neither file there is none. -/
structure KeptPair (p : Path) (w w' : World) : Prop where
  opens : ∀ key md, Opens sha256 w p key md → Opens sha256 w' p key md
  absent : w.files p = none → w.files (metadataFile p) = none →
    w'.files p = none ∧ w'.files (metadataFile p) = none

/-- The failed write of a metadata file leaves it as it was. -/
def WriteIo.LeavesAlone (io : WriteIo) (file : Option HostFile) : Prop :=
  io.sgxStatus ≠ sgxSuccess ∨ io.opens = false ∨
    (file = none ∧ io.locks = true ∧ io.removes = true)

/-- A failed write of 94 bytes keeps what a reader reads exactly when it leaves the file alone. -/
theorem readsAs_leaves_iff {io : WriteIo} (hfails : io.Fails 94) {data : List UInt8}
    {file : Option HostFile} {md : Option FileMetaData} (hreads : ReadsAs sha256 file md) :
    ReadsAs sha256 (io.leaves data file) md ↔ io.LeavesAlone file := by
  by_cases hearly : io.sgxStatus ≠ sgxSuccess ∨ io.opens = false
  · rw [WriteIo.leaves, if_pos hearly]
    exact iff_of_true hreads (hearly.imp_right Or.inl)
  -- a file that is too short for a record is no longer read as before
  have hshort : ∀ b : List UInt8, b.length < 94 → ¬ ReadsAs sha256 (some (.plain b)) md := by
    rintro b hb ⟨-, hne, hparse⟩
    rw [HostFile.bytes, FileMetaData.parse_of_short sha256 hb] at hparse
    exact hne hparse.symm
  have halone : io.LeavesAlone file ↔ file = none ∧ io.locks = true ∧ io.removes = true := by
    rw [WriteIo.LeavesAlone, ← or_assoc, or_iff_right hearly]
  rw [halone, WriteIo.leaves, if_neg hearly]
  cases hl : io.locks with
  | false =>
      rw [if_pos rfl]
      -- `fopen` has emptied the file before the lock failed
      exact iff_of_false (hshort [] (by decide)) (by simp)
  | true =>
      rw [if_neg (by decide)]
      cases hr : io.removes with
      | false =>
          have hlen : io.fwrite 0 < 94 := by
            rw [WriteIo.Fails, ← or_assoc, or_iff_right hearly, hl] at hfails
            simpa using hfails
          refine iff_of_false (hshort _ ?_) (by simp)
          rw [List.length_take, List.length_take]
          omega
      | true =>
          -- the file is gone: the same as before only where there was none
          cases file with
          | none => exact iff_of_true hreads ⟨rfl, rfl, rfl⟩
          | some f => exact iff_of_false (fun h => hreads.2.1 h) (by simp)

/-- What a null of `sgx_fopen` leaves at the path does for the file before: one that a reader could
open has its key still, and where there was neither file there is none. -/
structure FopenIo.LeavesPair (io : FopenIo) (p : Path) (w : World) : Prop where
  key : ∀ key md, Opens sha256 w p key md → ∃ f, io.left = some f ∧ f.key? = some key
  absent : w.files p = none → w.files (metadataFile p) = none → io.left = none

/-- The steps behind which a constructor throws do no harm. Where `sgx_fopen` returns null, it
leaves the pair; and where the write of the metadata fails, nothing is lost by then: one of the
files existed, and a file that could be opened keeps its key and its metadata. -/
structure FailsHarmlessly (io : WriterIo) (p : Path) (fileMode : FileMode) (policy : UInt16)
    (w : World) : Prop where
  refused : ∀ metafile m, io.ReachesOpen sha256 p fileMode policy w metafile m →
    io.fopen.Null fileMode.fopenMode (w.files p) (writerKey policy m) →
      io.fopen.LeavesPair sha256 p w
  unsaved : ∀ file m, io.ReachesSave p fileMode policy w file m → io.metaWrite.Fails 94 →
    (w.files p ≠ none ∨ w.files (metadataFile p) ≠ none) ∧
      ∀ key md, Opens sha256 w p key md →
        key = writerKey policy m ∧ io.metaWrite.LeavesAlone (w.files (metadataFile p))

/-- The pair after an open that returned null. -/
theorem keptPair_refused_iff {io : FopenIo} {p : Path} {w : World} (mode : FopenMode)
    (key : KeySource) :
    KeptPair sha256 p w (w.afterNull io p mode key) ↔ io.LeavesPair sha256 p w := by
  have hfile := World.afterNull_files_self w io p mode key
  have hmeta := World.afterNull_files_of_ne w io (metadataFile_ne_self p) mode key
  constructor
  · rintro ⟨hopens, habsent⟩
    refine ⟨fun k md hbefore => ?_, fun hp hm => ?_⟩
    · obtain ⟨hleft, -, -⟩ := (opens_iff sha256).1 (hopens k md hbefore)
      rwa [hfile] at hleft
    · rw [← hfile]
      exact (habsent hp hm).1
  · rintro ⟨hkey, habsent⟩
    refine ⟨fun k md hbefore => ?_, fun hp hm => ?_⟩
    -- the metadata file is as it was, so the reader takes the same key
    · obtain ⟨-, hreader, hreads⟩ := (opens_iff sha256).1 hbefore
      refine (opens_iff sha256).2 ⟨?_, hreader, ?_⟩
      · rw [hfile]
        exact hkey k md hbefore
      · rwa [hmeta]
    · rw [hfile, hmeta]
      exact ⟨habsent hp hm, hm⟩

/-- The pair after a failed write of the metadata. -/
theorem keptPair_unsaved_iff {io : WriterIo} {p : Path} {fileMode : FileMode} {policy : UInt16}
    {w : World} {file : SgxFile} {m : FileMetaData}
    (h : io.ReachesSave p fileMode policy w file m) (hfails : io.metaWrite.Fails 94) :
    KeptPair sha256 p w ((w.afterFopen io.fopen p fileMode.fopenMode (writerKey policy m) file).put
        (metadataFile p) (io.metaWrite.leaves (m.encode sha256) (w.files (metadataFile p)))) ↔
      (w.files p ≠ none ∨ w.files (metadataFile p) ≠ none) ∧
        ∀ key md, Opens sha256 w p key md →
          key = writerKey policy m ∧ io.metaWrite.LeavesAlone (w.files (metadataFile p)) := by
  generalize hw' : (w.afterFopen io.fopen p fileMode.fopenMode (writerKey policy m) file).put
    (metadataFile p) (io.metaWrite.leaves (m.encode sha256) (w.files (metadataFile p))) = w'
  have hmeta : w'.files (metadataFile p) =
      io.metaWrite.leaves (m.encode sha256) (w.files (metadataFile p)) := by
    rw [← hw', World.put_files_self]
  -- the open behind the failed write gave the file the key of the new record
  obtain ⟨f, hf, hkey⟩ := FopenMode.opened_key io.fopen.raw h.admits
  have hfile : w'.files p = some f := by
    rw [← hw', World.put_files_of_ne _ (metadataFile_ne_self p).symm,
      World.afterFopen_files_self, hf]
  constructor
  · rintro ⟨hopens, habsent⟩
    refine ⟨?_, fun key md hbefore => ?_⟩
    · by_contra hnone
      rw [not_or, not_not, not_not] at hnone
      have hgone := (habsent hnone.1 hnone.2).1
      rw [hfile] at hgone
      cases hgone
    · obtain ⟨-, -, hreads⟩ := (opens_iff sha256).1 hbefore
      obtain ⟨⟨g, hg, hgkey⟩, -, hafter⟩ := (opens_iff sha256).1 (hopens key md hbefore)
      rw [hfile] at hg
      cases hg
      rw [hmeta] at hafter
      exact ⟨Option.some.inj (hgkey.symm.trans hkey),
        (readsAs_leaves_iff sha256 hfails hreads).1 hafter⟩
  · rintro ⟨hsome, hkept⟩
    refine ⟨fun key md hbefore => ?_, fun hp hm => ?_⟩
    · obtain ⟨hsame, halone⟩ := hkept key md hbefore
      obtain ⟨-, hreader, hreads⟩ := (opens_iff sha256).1 hbefore
      refine (opens_iff sha256).2 ⟨⟨f, hfile, by rw [hkey, hsame]⟩, hreader, ?_⟩
      rw [hmeta]
      exact (readsAs_leaves_iff sha256 hfails hreads).2 halone
    · rcases hsome with hne | hne
      · exact absurd hp hne
      · exact absurd hm hne

/-- **When a failed open keeps the pair.** For every outcome of every call, every mode and policy
and every state of the two files: a constructor that throws keeps the pair exactly when it fails
harmlessly. -/
theorem failedOpen_kept_iff (io : WriterIo) (p : Path) (fileMode : FileMode) (policy : UInt16)
    (w : World) :
    (∀ e w', protectedFileWriter sha256 io p fileMode policy w = (.error e, w') →
        KeptPair sha256 p w w') ↔
      FailsHarmlessly sha256 io p fileMode policy w := by
  constructor
  · intro h
    refine ⟨fun metafile m hreaches hnull => ?_, fun file m hreaches hfails => ?_⟩
    · obtain ⟨e, he⟩ := protectedFileWriter_null sha256 hreaches hnull
      exact (keptPair_refused_iff sha256 _ _).1 (h e _ he)
    · obtain ⟨e, he⟩ := protectedFileWriter_unsaved sha256 hreaches hfails
      exact (keptPair_unsaved_iff sha256 hreaches hfails).1 (h e _ he)
  · intro h e w' hthrows
    cases protectedFileWriter_outcome sha256 hthrows with
    | stopped => exact ⟨fun _ _ hbefore => hbefore, fun hp hm => ⟨hp, hm⟩⟩
    | refused hreaches hnull =>
        exact (keptPair_refused_iff sha256 _ _).2 (h.refused _ _ hreaches hnull)
    | unsaved hreaches hfails =>
        exact (keptPair_unsaved_iff sha256 hreaches hfails).2 (h.unsaved _ _ hreaches hfails)

/-! ## Runs -/

/-- An open that throws keeps the pair. -/
def KeepsOnThrow (p : Path) (w : World) : PairOp → Prop
  | .openWriter io fileMode policy =>
      ∀ e w', protectedFileWriter sha256 io p fileMode policy w = (.error e, w') →
        KeptPair sha256 p w w'
  | _ => True

/-- An open fails harmlessly if it fails. -/
def Harmless (p : Path) (w : World) : PairOp → Prop
  | .openWriter io fileMode policy => FailsHarmlessly sha256 io p fileMode policy w
  | _ => True

/-- **When failed opens keep the pair along a run.** In every run from any state of the two files,
every open that throws keeps the pair exactly when every open of the run fails harmlessly if it
fails. -/
theorem failedOpens_kept_iff (p : Path) (w : World) (ops : List PairOp) :
    Along (pairStep sha256 p) (KeepsOnThrow sha256 p) w ops ↔
      Along (pairStep sha256 p) (Harmless sha256 p) w ops := by
  apply along_congr
  intro w op
  cases op with
  | openWriter io fileMode policy => exact failedOpen_kept_iff sha256 io p fileMode policy w
  | writeContent raw => exact Iff.rfl
  | openLegacy raw => exact Iff.rfl
  | remove io ofMetadata => exact Iff.rfl
  | removeProtected fileIo metaIo ofMetadata => exact Iff.rfl

end Digest

/-! ## A lost file -/

/-- An enclave's report. -/
def sampleReport : SelfReport := ⟨1, List.Vector.replicate 16 0⟩

/-- A run under the policy MRENCLAVE: a file is created, and opened again with `OpenOrCreate` where
the host cannot open the metadata file for writing. -/
def lostFileRun : List PairOp :=
  [.openWriter (.working sampleReport (List.Vector.replicate 32 1) 1) .createNew
      sgxKeypolicyMrenclave,
    .openWriter { WriterIo.working sampleReport (List.Vector.replicate 32 2) 2 with
        metaWrite := { WriteIo.working with opens := false } } .openOrCreate sgxKeypolicyMrenclave]

/-- No files. -/
def World.empty : World := ⟨fun _ => none, []⟩

/-- The second open throws, and the file that could be read before it no longer can be. -/
theorem failed_open_loses_file :
    ¬ Along (pairStep (fun _ => List.Vector.replicate 32 0) ['f'])
      (KeepsOnThrow (fun _ => List.Vector.replicate 32 0) ['f']) World.empty lostFileRun := by
  rintro ⟨-, hkeeps, -⟩
  have hkept := hkeeps _ _ rfl
  have hbefore := (opens_iff (fun _ => List.Vector.replicate 32 0)
    (w := pairStep (fun _ => List.Vector.replicate 32 0) ['f'] World.empty
      (lostFileRun.head (by decide)))
    (p := ['f'])).2 ⟨⟨_, rfl, rfl⟩, rfl, by decide, by decide, rfl⟩
  obtain ⟨⟨f, hf, hkey⟩, -⟩ := (opens_iff _).1 (hkept.opens _ _ hbefore)
  cases hf
  exact absurd hkey (by decide)

end Ssgx.Filesystem
