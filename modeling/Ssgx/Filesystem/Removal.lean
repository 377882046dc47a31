import Ssgx.Filesystem.PairRun
import Ssgx.Filesystem.FailedOpen

/-!
# Removing a pair

`RemoveProtectedFile` removes the protected file and then, only if that removal found its file, the
metadata file; it returns whether both were there. So from a pair with one file only it does not do
what it is documented to do: a metadata file without its protected file stays, and a protected file
without metadata is removed under the result `false`. `removeProtectedFile_exact` says that these
are the only states in which it goes wrong.
-/

set_option autoImplicit false

namespace Ssgx.Filesystem

open Ssgx.Support

/-- When `RemoveProtectedFile` returns, and what it has done then. -/
theorem removeProtectedFile_ok_iff {fileIo metaIo : RemoveIo} {p : Path} {w w' : World} {b : Bool} :
    removeProtectedFile fileIo metaIo p w = (.ok b, w') ↔
      p ≠ [] ∧ fileIo.stat.Works ∧
        ((w.files p = none ∧ b = false ∧ w' = w) ∨
          (w.files p ≠ none ∧ fileIo.Removes ∧ metaIo.stat.Works ∧
            b = (w.files (metadataFile p)).isSome ∧
            (if b then metaIo.Removes ∧ w' = (w.without p).without (metadataFile p)
              else w' = w.without p))) := by
  have hmeta : (w.without p).files (metadataFile p) = w.files (metadataFile p) :=
    Function.update_of_ne (metadataFile_ne_self p) ..
  simp only [removeProtectedFile]
  constructor
  · intro h
    obtain ⟨removed, w₁, hfirst, hrest⟩ := Call.bind_ok_iff.1 h
    obtain ⟨hp, hst, rfl, hw₁⟩ := remove_ok_iff.1 hfirst
    refine ⟨hp, hst, ?_⟩
    cases hfile : w.files p with
    | none =>
        rw [hfile] at hrest hw₁
        obtain rfl : w₁ = w := hw₁
        cases hrest
        exact Or.inl ⟨rfl, rfl, rfl⟩
    | some f =>
        rw [hfile] at hrest hw₁
        -- the file is gone: the metadata file is looked for in what is left
        obtain ⟨hremoves, rfl⟩ := hw₁
        obtain ⟨-, hst', hb, hw'⟩ := remove_ok_iff.1 hrest
        rw [hmeta] at hb
        exact Or.inr ⟨Option.some_ne_none f, hremoves, hst', hb, hw'⟩
  · rintro ⟨hp, hst, ⟨hfile, rfl, rfl⟩ | ⟨hfile, hremoves, hst', hb, hw'⟩⟩
    · exact Call.bind_ok_iff.2 ⟨false, w', remove_ok_iff.2
        ⟨hp, hst, by rw [hfile]; rfl, rfl⟩, rfl⟩
    · have hsome : (w.files p).isSome = true := Option.isSome_iff_ne_none.2 hfile
      refine Call.bind_ok_iff.2 ⟨true, w.without p, remove_ok_iff.2
        ⟨hp, hst, hsome.symm, hremoves, rfl⟩, ?_⟩
      exact remove_ok_iff.2 ⟨metadataFile_ne_nil p, hst', by rw [hmeta]; exact hb, hw'⟩

/-- What a call that returned should have done: neither file is left, the existence check of a
`CreateNew` that follows does not find one, and the result says whether the protected file
existed. -/
structure RemovedPair (p : Path) (w : World) (b : Bool) (w' : World) : Prop where
  file : w'.files p = none
  metadata : w'.files (metadataFile p) = none
  creatable : ∀ fileStat metaStat w'', alreadyExists fileStat metaStat p w' ≠ (.ok true, w'')
  result : b = true ↔ (w.files p).isSome

/-- Both files of the pair exist, or neither does. -/
def PairComplete (p : Path) (w : World) : Prop :=
  (w.files p).isSome = (w.files (metadataFile p)).isSome

/-- Where both files are gone, the existence check does not find one. -/
theorem alreadyExists_ne_true {p : Path} {w : World} (hfile : w.files p = none)
    (hmeta : w.files (metadataFile p) = none) (fileStat metaStat : StatIo) (w'' : World) :
    alreadyExists fileStat metaStat p w ≠ (.ok true, w'') := by
  intro h
  obtain ⟨-, -, -, hans⟩ := alreadyExists_ok_iff.1 h
  rcases hans with ⟨-, hsome⟩ | ⟨-, -, hb⟩
  · rw [hfile] at hsome
    cases hsome
  · rw [hmeta] at hb
    cases hb

/-- A returning call has removed the pair exactly when the pair was complete. -/
theorem removedPair_iff {fileIo metaIo : RemoveIo} {p : Path} {w w' : World} {b : Bool}
    (h : removeProtectedFile fileIo metaIo p w = (.ok b, w')) :
    RemovedPair p w b w' ↔ PairComplete p w := by
  obtain ⟨-, -, ⟨hfile, rfl, rfl⟩ | ⟨hfile, -, -, hb, hw'⟩⟩ := removeProtectedFile_ok_iff.1 h
  -- no protected file: nothing is removed, and that is right if there is no metadata either
  · rw [PairComplete, hfile]
    constructor
    · intro hremoved
      rw [hremoved.metadata]
    · intro hcomplete
      have hmeta : w'.files (metadataFile p) = none := Option.isNone_iff_eq_none.1 (by
        rw [← Option.not_isSome, ← hcomplete]
        rfl)
      exact ⟨hfile, hmeta, alreadyExists_ne_true hfile hmeta, by rw [hfile]; exact Iff.rfl⟩
  · have hsome : (w.files p).isSome = true := Option.isSome_iff_ne_none.2 hfile
    rw [PairComplete, hsome, ← hb]
    cases b with
    -- the metadata was missing: the file is gone, but the result denies that it existed
    | false =>
        refine iff_of_false (fun hremoved => ?_) (by decide)
        exact Bool.false_ne_true (hremoved.result.2 hsome)
    | true =>
        refine iff_of_true ?_ rfl
        obtain ⟨-, rfl⟩ := hw'
        have hfile' : ((w.without p).without (metadataFile p)).files p = none := by
          have hkept : ((w.without p).without (metadataFile p)).files p = (w.without p).files p :=
            Function.update_of_ne (metadataFile_ne_self p).symm ..
          rw [hkept]
          exact Function.update_self ..
        have hmeta' : ((w.without p).without (metadataFile p)).files (metadataFile p) = none :=
          Function.update_self ..
        exact ⟨hfile', hmeta', alreadyExists_ne_true hfile' hmeta', by simp [hsome]⟩

/-- A call of `RemoveProtectedFile` on the path that returns removes the pair. -/
def RemovesPair (p : Path) (w : World) : PairOp → Prop
  | .removeProtected fileIo metaIo false =>
      ∀ b w', removeProtectedFile fileIo metaIo p w = (.ok b, w') → RemovedPair p w b w'
  | _ => True

/-- A call of `RemoveProtectedFile` on the path that returns does what it should exactly when the
pair is complete. -/
def RemovesExactly (p : Path) (w : World) : PairOp → Prop
  | .removeProtected fileIo metaIo false =>
      ∀ b w', removeProtectedFile fileIo metaIo p w = (.ok b, w') →
        (RemovedPair p w b w' ↔ PairComplete p w)
  | _ => True

section Digest

variable (sha256 : List UInt8 → List.Vector UInt8 32)

/-- **Where the removal of a pair is right.** In every run on the pair, from any state of the two
files, every call of `RemoveProtectedFile` that returns removes the pair and reports whether the
protected file existed exactly when the pair is complete at the call. -/
theorem removeProtectedFile_exact (p : Path) (w : World) (ops : List PairOp) :
    Along (pairStep sha256 p) (RemovesExactly p) w ops := by
  refine along_of_forall (fun w op => ?_) w ops
  cases op with
  | removeProtected fileIo metaIo ofMetadata =>
      cases ofMetadata with
      | false =>
          intro b w' hret
          exact removedPair_iff hret
      | true => trivial
  | openWriter io fileMode policy => trivial
  | writeContent raw => trivial
  | openLegacy raw => trivial
  | remove io ofMetadata => trivial

end Digest

/-- A removal whose host calls all work. -/
def RemoveIo.working : RemoveIo := ⟨⟨sgxSuccess, false, 0⟩, sgxSuccess, false⟩

/-- A file is created, then removed with `Remove`, and then its pair is removed. -/
def leftMetadataRun : List PairOp :=
  [.openWriter (.working sampleReport (List.Vector.replicate 32 1) 1) .createNew
      sgxKeypolicyMrenclave,
    .remove .working false, .removeProtected .working .working false]

/-- The last call returns `false`, and the metadata file stays. -/
theorem remove_protected_leaves_metadata :
    ¬ Along (pairStep (fun _ => List.Vector.replicate 32 0) ['f']) (RemovesPair ['f']) World.empty
      leftMetadataRun := by
  rintro ⟨-, -, hremoves, -⟩
  have hremoved := hremoves false _ rfl
  have hmeta := hremoved.metadata
  exact absurd (congrArg Option.isSome hmeta) (by decide)

end Ssgx.Filesystem
