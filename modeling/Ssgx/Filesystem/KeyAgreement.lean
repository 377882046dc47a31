import Ssgx.Filesystem.PairRun

/-!
# Writers and readers agree on the key

The key request of a protected file is built in three places: when it is created, when it is
appended to, and when it is read. They agree because of one invariant of the pair
(`MetadataAgrees`): the metadata file, where there is one, is the file of a record of the current
version (or the front part of it, where the host lost the rest at `fclose`), whose legacy mode says
whether its policy is MRSIGNER, and the key of the protected file, where there is one, is the key of
that record.

Every open that succeeds and every removal keeps the invariant, and `key_agreement` draws the
conclusion for readers and for appends.
-/

set_option autoImplicit false

namespace Ssgx.Filesystem

open Ssgx.Support

/-! ## Removals only remove -/

/-- Every file is as it was, or gone. -/
def Shrinks (w w' : World) : Prop := ∀ q, w'.files q = w.files q ∨ w'.files q = none

theorem Shrinks.refl (w : World) : Shrinks w w := fun _ => Or.inl rfl

theorem Shrinks.trans (a b c : World) (hab : Shrinks a b) (hbc : Shrinks b c) : Shrinks a c := by
  intro q
  rcases hbc q with h | h
  · rw [h]
    exact hab q
  · exact Or.inr h

theorem shrinks_without (w : World) (p : Path) : Shrinks w (w.without p) := by
  intro q
  by_cases hq : q = p
  · right
    rw [hq]
    exact Function.update_self ..
  · left
    exact Function.update_of_ne hq ..

/-- `Remove` only removes, whatever fails. -/
theorem shrinks_remove (io : RemoveIo) (p : Path) : Call.Moves Shrinks (remove io p) := by
  intro w
  rcases hrun : remove io p w with ⟨r, w'⟩
  cases r with
  | ok b =>
      obtain ⟨-, -, -, hw'⟩ := remove_ok_iff.1 hrun
      cases b with
      | false =>
          rw [show w' = w from hw']
          exact Shrinks.refl w
      | true =>
          rw [hw'.2]
          exact shrinks_without w p
  | error e =>
      simp only [remove] at hrun
      rcases Call.raiseIf_bind_error_iff.1 hrun with ⟨-, -, rfl⟩ | ⟨hp, hrest⟩
      · exact Shrinks.refl _
      rcases Call.bind_error_iff.1 hrest with hfound | ⟨found, w₁, hfound, hrest⟩
      · rw [(readsOnly_existsPath io.stat p).eq hfound]
        exact Shrinks.refl w
      obtain rfl := (readsOnly_existsPath io.stat p).eq hfound
      cases found with
      | false => cases hrest
      | true =>
          rw [if_pos rfl] at hrest
          rcases Call.raiseIf_bind_error_iff.1 hrest with ⟨-, -, rfl⟩ | ⟨-, htail⟩
          · exact Shrinks.refl _
          simp only [Call.read_bind_apply, Call.update_bind_apply] at htail
          rcases Call.raiseIf_bind_error_iff.1 htail with ⟨-, -, rfl⟩ | ⟨-, hret⟩
          -- an error answer of the ocall: nothing was removed, or the answer is not an error
          · intro q
            by_cases hf : io.fails = true
            · left
              simp [ssgxOcallRemoveFile, hp, hf]
            · simp only [ssgxOcallRemoveFile, if_neg hp, if_neg hf]
              exact shrinks_without w₁ p q
          · cases hret

/-- `RemoveProtectedFile` only removes, whatever fails. -/
theorem shrinks_removeProtectedFile (fileIo metaIo : RemoveIo) (p : Path) :
    Call.Moves Shrinks (removeProtectedFile fileIo metaIo p) := by
  refine Call.moves_bind Shrinks.trans (shrinks_remove fileIo p) fun removed => ?_
  cases removed with
  | false => exact Call.moves_pure Shrinks.refl false
  | true => exact shrinks_remove metaIo (metadataFile p)

section Digest

variable (sha256 : List UInt8 → List.Vector UInt8 32)

/-! ## The invariant -/

/-- The metadata file is the front part, of at least `least` bytes, of the file of a record that
agrees with the protected file on the key. -/
structure RecordAgrees (least : Nat) (p : Path) (w : World) (m : FileMetaData) : Prop where
  stored : ∃ n, least ≤ n ∧
    w.files (metadataFile p) = some (.plain ((m.encode sha256).take n))
  version : m.version = fsMetadataVersion
  legacy : m.legacyMode = 1 ↔ m.keyPolicy = sgxKeypolicyMrsigner
  key : ∀ f key, w.files p = some f → f.key? = some key → key = m.keySource

/-- There is no metadata file, or it agrees with the protected file. -/
def MetadataAgrees (least : Nat) (p : Path) (w : World) : Prop :=
  w.files (metadataFile p) = none ∨ ∃ m, RecordAgrees sha256 least p w m

/-- Of the file of a record only the whole parses, and to that record. -/
theorem parse_take_encode {m m' : FileMetaData} {n : Nat} (hversion : m.version = fsMetadataVersion)
    (h : FileMetaData.parse sha256 ((m.encode sha256).take n) = some m') : m' = m := by
  by_cases hn : n < 94
  · rw [FileMetaData.parse_of_short sha256 (by rw [List.length_take]; omega)] at h
    cases h
  · rw [List.take_of_length_le (by rw [FileMetaData.encode_length]; omega),
      FileMetaData.parse_encode sha256 hversion] at h
    exact (Option.some.inj h).symm

/-- A record that `FromFile` returns is the one that agrees. -/
theorem RecordAgrees.eq_of_fromFile {least : Nat} {p : Path} {w : World} {m m' : FileMetaData}
    {io : ReadIo} (h : RecordAgrees sha256 least p w m)
    (hfrom : FileMetaData.fromFile sha256 io (metadataFile p) w = (.ok (some m'), w)) : m' = m := by
  obtain ⟨n, -, hstored⟩ := h.stored
  obtain ⟨f, hfile, -, hparse⟩ := fromFile_some sha256 hfrom
  rw [hstored] at hfile
  cases hfile
  exact parse_take_encode sha256 h.version hparse

/-- Under its own policy a writer takes the key that readers take. -/
theorem writerKey_of_legacy {m : FileMetaData}
    (h : m.legacyMode = 1 ↔ m.keyPolicy = sgxKeypolicyMrsigner) :
    writerKey m.keyPolicy m = m.keySource := by
  simp only [writerKey, FileMetaData.keySource]
  by_cases hp : m.keyPolicy = sgxKeypolicyMrsigner
  · rw [if_pos hp, if_pos (h.2 hp)]
  · rw [if_neg hp, if_neg (fun hl => hp (h.1 hl))]

/-- A new record agrees with its policy. -/
theorem metadataFor_new {io : WriterIo} {policy : UInt16} {report : SelfReport} {m : FileMetaData}
    (h : io.metadataFor policy report none = some m) :
    m.version = fsMetadataVersion ∧ m.keyPolicy = policy ∧
      (m.legacyMode = 1 ↔ m.keyPolicy = sgxKeypolicyMrsigner) := by
  simp only [WriterIo.metadataFor] at h
  by_cases hp : policy = sgxKeypolicyMrsigner
  · simp only [if_pos hp, Option.some.injEq] at h
    subst h
    exact ⟨rfl, rfl, iff_of_true rfl hp⟩
  · simp only [if_neg hp, Option.map_eq_some_iff] at h
    obtain ⟨keyId, -, rfl⟩ := h
    exact ⟨rfl, rfl, iff_of_false (fun h => absurd (show (0 : UInt8) = 1 from h) (by decide)) hp⟩

/-! ## Steps that keep it -/

/-- The open succeeds, and the host keeps at least `least` bytes of the metadata it writes; no other
application opens the file. -/
def Succeeds (least : Nat) (p : Path) (w : World) : PairOp → Prop
  | .openWriter io fileMode policy =>
      (∃ file w', protectedFileWriter sha256 io p fileMode policy w = (.ok file, w')) ∧
        least ≤ io.metaWrite.flushed
  | .openLegacy _ => False
  | _ => True

/-- Removals keep the invariant. -/
theorem MetadataAgrees.of_shrinks {least : Nat} {p : Path} {w w' : World} (hw : Shrinks w w')
    (h : MetadataAgrees sha256 least p w) : MetadataAgrees sha256 least p w' := by
  rcases hw (metadataFile p) with hmeta | hmeta
  · rcases h with hnone | ⟨m, hm⟩
    · left
      rw [hmeta, hnone]
    · refine Or.inr ⟨m, ?_, hm.version, hm.legacy, fun f key hfile hkey => ?_⟩
      · rw [hmeta]
        exact hm.stored
      -- the protected file is unchanged, or gone and then there is no key to agree with
      · rcases hw p with hp | hp
        · rw [hp] at hfile
          exact hm.key f key hfile hkey
        · rw [hp] at hfile
          cases hfile
  · exact Or.inl hmeta

/-- An open that succeeds keeps the invariant. -/
theorem MetadataAgrees.openWriter {least : Nat} {p : Path} {w w' : World} {io : WriterIo}
    {fileMode : FileMode} {policy : UInt16} {file : SgxFile}
    (hopen : protectedFileWriter sha256 io p fileMode policy w = (.ok file, w'))
    (hleast : least ≤ io.metaWrite.flushed) (h : MetadataAgrees sha256 least p w) :
    MetadataAgrees sha256 least p w' := by
  cases protectedFileWriter_outcome sha256 hopen with
  -- the record stays; the mode `a` opened the file only because it has the key of the record
  | appended hmode existing =>
      obtain ⟨m', hfrom, hpolicy, -, hopens, rfl⟩ := openForAppend_existing sha256 existing
      rcases h with hnone | ⟨m, hm⟩
      · obtain ⟨f, hfile, -⟩ := fromFile_some sha256 hfrom
        rw [hnone] at hfile
        cases hfile
      · obtain rfl := hm.eq_of_fromFile sha256 hfrom
        refine Or.inr ⟨m', ?_, hm.version, hm.legacy, fun f key hfile hkey => ?_⟩
        · rw [World.afterFopen_files_of_ne w io.fopen (metadataFile_ne_self p)]
          exact hm.stored
        · obtain ⟨g, hg, hgkey⟩ := FopenMode.opened_key io.fopen.raw hopens
          rw [World.afterFopen_files_self, hg] at hfile
          cases hfile
          rw [← hpolicy, writerKey_of_legacy hm.legacy, hkey] at hgkey
          exact Option.some.inj hgkey
  -- a new record, and the file has just been opened with its key
  | @saved _ m reaches written =>
      obtain ⟨report, -, hm⟩ := reaches.metadata
      obtain ⟨hversion, hpolicy, hlegacy⟩ := metadataFor_new hm
      refine Or.inr ⟨m, ⟨io.metaWrite.flushed, hleast, World.put_files_self ..⟩, hversion, hlegacy,
        fun f key hfile hkey => ?_⟩
      obtain ⟨g, hg, hgkey⟩ := FopenMode.opened_key io.fopen.raw reaches.admits
      rw [World.put_files_of_ne _ (metadataFile_ne_self p).symm, World.afterFopen_files_self,
        hg] at hfile
      cases hfile
      rw [← hpolicy, writerKey_of_legacy hlegacy, hkey] at hgkey
      exact Option.some.inj hgkey

/-- **One step keeps the invariant.** -/
theorem metadataAgrees_step {least : Nat} {p : Path} (w : World) (op : PairOp)
    (hop : Succeeds sha256 least p w op) (h : MetadataAgrees sha256 least p w) :
    MetadataAgrees sha256 least p (pairStep sha256 p w op) := by
  cases op with
  | openWriter io fileMode policy =>
      obtain ⟨⟨file, w', hopen⟩, hleast⟩ := hop
      simp only [pairStep]
      rw [hopen]
      exact h.openWriter sha256 hopen hleast
  | writeContent raw =>
      rcases h with hnone | ⟨m, hm⟩
      · left
        simp only [pairStep]
        rw [World.put_files_of_ne _ (metadataFile_ne_self p), hnone]
      · refine Or.inr ⟨m, ?_, hm.version, hm.legacy, fun f key hfile hkey => ?_⟩
        · simp only [pairStep]
          rw [World.put_files_of_ne _ (metadataFile_ne_self p)]
          exact hm.stored
        -- the content is new, the key is that of before
        · simp only [pairStep, World.put_files_self, Option.map_eq_some_iff] at hfile
          obtain ⟨g, hg, rfl⟩ := hfile
          apply hm.key g key hg
          cases g with
          | plain content => exact hkey
          | «sealed» k old => exact hkey
  | openLegacy raw => exact hop.elim
  | remove io ofMetadata => exact h.of_shrinks sha256 (shrinks_remove io _ w)
  | removeProtected fileIo metaIo ofMetadata =>
      exact h.of_shrinks sha256 (shrinks_removeProtectedFile fileIo metaIo _ w)

/-! ## The agreement -/

/-- A call selected no key for the path, or exactly this one. -/
def Tries (p : Path) (mode : FopenMode) (key : KeySource) (w w' : World) : Prop :=
  w'.log = w.log ∨ ∃ result, w'.log = w.log ++ [.fopen p mode key result]

/-- The keys that calls select for a protected file under `key`: beside a metadata file, readers and
appends select no other; and an append that returns, with or without one, has selected it. -/
structure KeysAgree (p : Path) (w : World) (key : KeySource) : Prop where
  reader : w.files (metadataFile p) ≠ none →
    ∀ io, Tries p .r key w (protectedFileReader sha256 io p w).2
  append : w.files (metadataFile p) ≠ none →
    ∀ io policy, Tries p .a key w (protectedFileWriter sha256 io p .append policy w).2
  appended : ∀ io policy file w',
    protectedFileWriter sha256 io p .append policy w = (.ok file, w') →
    w'.log = w.log ++ [.fopen p .a key (some file)]

/-- The key of a reader over metadata that agrees. -/
theorem reader_tries {least : Nat} {p : Path} {w : World} {m : FileMetaData}
    (hm : RecordAgrees sha256 least p w m) (io : ReaderIo) :
    Tries p .r m.keySource w (protectedFileReader sha256 io p w).2 := by
  obtain ⟨n, -, hstored⟩ := hm.stored
  have hselected : ∀ md, FileMetaData.fromFile sha256 io.metaRead (metadataFile p) w = (.ok md, w) →
      (md = none → w.files (metadataFile p) = none) → readerKey md = m.keySource := by
    intro md hfrom hnone
    cases md with
    | none =>
        rw [hnone rfl] at hstored
        cases hstored
    | some m' =>
        rw [hm.eq_of_fromFile sha256 hfrom]
        rfl
  rcases hread : protectedFileReader sha256 io p w with ⟨r, w'⟩
  cases r with
  | ok file =>
      obtain ⟨md, hfrom, hnone, -, -, -, rfl⟩ := (protectedFileReader_ok_iff sha256).1 hread
      rw [hselected md hfrom fun h => (hnone h).2]
      exact Or.inr ⟨some file, rfl⟩
  | error e =>
      rcases protectedFileReader_error sha256 hread with rfl | ⟨md, hfrom, hnone, rfl⟩
      · exact Or.inl rfl
      · rw [hselected md hfrom hnone]
        exact Or.inr ⟨none, rfl⟩

/-- The key of an append over metadata that agrees. -/
theorem append_tries {least : Nat} {p : Path} {w : World} {m : FileMetaData}
    (hm : RecordAgrees sha256 least p w m) (io : WriterIo) (policy : UInt16) :
    Tries p .a m.keySource w (protectedFileWriter sha256 io p .append policy w).2 := by
  obtain ⟨n, -, hstored⟩ := hm.stored
  rcases hstage : openStage sha256 io p .append policy w with ⟨r, w₁⟩
  rw [protectedFileWriter_eq]
  cases r with
  | error e =>
      rw [Call.bind_of_error hstage]
      simp only [openStage] at hstage
      rcases Call.raiseIf_bind_error_iff.1 hstage with ⟨-, -, rfl⟩ | ⟨-, hopen⟩
      · exact Or.inl rfl
      rcases openForAppend_error sha256 hopen with
        rfl | ⟨report, metafile, m', -, hm', hfinds, -, -, rfl⟩
      · exact Or.inl rfl
      cases metafile with
      | none =>
          -- there is a metadata file, so the append did not go on without one
          rw [hfinds.2] at hstored
          cases hstored
      | some m₀ =>
          cases hm'
          obtain ⟨-, hfrom, hpolicy, -⟩ := hfinds
          obtain rfl := hm.eq_of_fromFile sha256 hfrom
          rw [← hpolicy, writerKey_of_legacy hm.legacy]
          exact Or.inr ⟨none, rfl⟩
  | ok x =>
      obtain ⟨file, new⟩ := x
      cases new with
      | none =>
          obtain ⟨-, hopen⟩ := openStage_existing sha256 hstage
          obtain ⟨m', hfrom, hpolicy, -, -, rfl⟩ := openForAppend_existing sha256 hopen
          obtain rfl := hm.eq_of_fromFile sha256 hfrom
          rw [Call.bind_of_ok hstage, ← hpolicy, writerKey_of_legacy hm.legacy]
          exact Or.inr ⟨some file, rfl⟩
      | some m' =>
          obtain ⟨hreaches, -⟩ := (openStage_save_iff sha256).1 hstage
          -- a new record is saved only where there was no metadata file
          have hnone : w.files (metadataFile p) = none := hreaches.mode.2.1
          rw [hnone] at hstored
          cases hstored

/-- An append that returns took the key of the file it found. -/
theorem append_key {p : Path} {w w' : World} {io : WriterIo} {policy : UInt16} {file : SgxFile}
    {f : HostFile} {key : KeySource} (hfile : w.files p = some f) (hkey : f.key? = some key)
    (h : protectedFileWriter sha256 io p .append policy w = (.ok file, w')) :
    w'.log = w.log ++ [.fopen p .a key (some file)] := by
  have hsame : ∀ k, FopenMode.a.admits (w.files p) k = true → k = key := by
    intro k hopens
    rw [hfile] at hopens
    exact Option.some.inj ((of_decide_eq_true hopens).symm.trans hkey)
  cases protectedFileWriter_outcome sha256 h with
  | appended hmode existing =>
      obtain ⟨m, -, -, -, hopens, rfl⟩ := openForAppend_existing sha256 existing
      rw [hsame _ hopens]
      rfl
  | saved reaches written =>
      rw [hsame _ reaches.admits]
      rfl

/-- **Writers and readers agree on the key.** After every run of opens that succeed, writes and
removals on one path, from a state without a metadata file: readers and appends select the key under
which the protected file was written, and no other. Where moreover the host has lost nothing of the
metadata that was written, a reader whose calls work opens every protected file that has a metadata
file. -/
theorem key_agreement {p : Path} {w₀ : World} (hmeta : w₀.files (metadataFile p) = none)
    {ops : List PairOp} (hops : Along (pairStep sha256 p) (Succeeds sha256 0 p) w₀ ops)
    {f : HostFile} {key : KeySource}
    (hfile : (runFrom (pairStep sha256 p) w₀ ops).files p = some f) (hkey : f.key? = some key) :
    KeysAgree sha256 p (runFrom (pairStep sha256 p) w₀ ops) key ∧
      (Along (pairStep sha256 p) (Succeeds sha256 94 p) w₀ ops →
        (runFrom (pairStep sha256 p) w₀ ops).files (metadataFile p) ≠ none →
          ∃ m, Opens sha256 (runFrom (pairStep sha256 p) w₀ ops) p key (some m)) := by
  have hagrees : ∀ least, Along (pairStep sha256 p) (Succeeds sha256 least p) w₀ ops →
      (runFrom (pairStep sha256 p) w₀ ops).files (metadataFile p) ≠ none →
      ∃ m, RecordAgrees sha256 least p (runFrom (pairStep sha256 p) w₀ ops) m := by
    intro least hadmitted hne
    have hinv := invariant_runFrom (metadataAgrees_step sha256) hadmitted (Or.inl hmeta)
    exact hinv.resolve_left hne
  -- the run is over: what follows looks at the state it ends in
  generalize runFrom (pairStep sha256 p) w₀ ops = w at *
  refine ⟨⟨fun hne io => ?_, fun hne io policy => ?_, fun io policy file w' h => ?_⟩,
    fun hkept hne => ?_⟩
  · obtain ⟨m, hm⟩ := hagrees 0 hops hne
    rw [hm.key f key hfile hkey]
    exact reader_tries sha256 hm io
  · obtain ⟨m, hm⟩ := hagrees 0 hops hne
    rw [hm.key f key hfile hkey]
    exact append_tries sha256 hm io policy
  · exact append_key sha256 hfile hkey h
  · obtain ⟨m, hm⟩ := hagrees 94 hkept hne
    obtain ⟨n, hn, hstored⟩ := hm.stored
    refine ⟨m, (opens_iff sha256).2 ⟨⟨f, hfile, hkey⟩, hm.key f key hfile hkey, ?_⟩⟩
    rw [hstored, List.take_of_length_le (by rw [FileMetaData.encode_length]; exact hn)]
    refine ⟨?_, Option.some_ne_none m, FileMetaData.parse_encode sha256 hm.version⟩
    rw [HostFile.bytes, FileMetaData.encode_length]
    decide

end Digest

/-- A file is created under the policy MRENCLAVE and then appended to. -/
def appendRun : List PairOp :=
  [.openWriter (.working ⟨1, List.Vector.replicate 16 0⟩ (List.Vector.replicate 32 1) 1) .createNew
      sgxKeypolicyMrenclave,
    .openWriter (.working ⟨1, List.Vector.replicate 16 0⟩ (List.Vector.replicate 32 2) 2) .append
      sgxKeypolicyMrenclave]

/-- The agreement after `appendRun`: the key has the key id of the first open. -/
theorem key_agreement_append :
    KeysAgree (fun _ => List.Vector.replicate 32 0) ['f']
      (runFrom (pairStep (fun _ => List.Vector.replicate 32 0) ['f']) ⟨fun _ => none, []⟩ appendRun)
      (.seal (FileMetaData.make 0 sgxKeypolicyMrenclave (List.Vector.replicate 32 1) 1
        (List.Vector.replicate 16 0)).getKeyRequest) := by
  have hops : Along (pairStep (fun _ => List.Vector.replicate 32 0) ['f'])
      (Succeeds (fun _ => List.Vector.replicate 32 0) 0 ['f']) ⟨fun _ => none, []⟩ appendRun :=
    ⟨⟨⟨1, _, rfl⟩, Nat.zero_le _⟩, ⟨⟨2, _, rfl⟩, Nat.zero_le _⟩, trivial⟩
  exact (key_agreement (fun _ => List.Vector.replicate 32 0) rfl hops rfl rfl).1

end Ssgx.Filesystem
