import Ssgx.Filesystem.PlainFile

/-!
# Writing a plain file and reading it back

A write reports a short `fwrite`, but not a short flush: `ssgx_ocall_write_file` does not look at
what `fclose` returns. `write_kept_iff` says for which outcomes of the host's steps a write that
returns has put exactly its data into the file, so that a read behind it gives them back.
-/

set_option autoImplicit false

namespace Ssgx.Filesystem

open Ssgx.Support

/-- `PlainFileWriter::WriteAllText`. It opens with `w` in the place of `wb`, which is one mode on
the host. -/
def writeAllText (io : WriteIo) (p : Path) (text : List UInt8) : FsCall PUnit :=
  writePlainFile io p text

/-- `PlainFileReader::ReadAllText`, which opens with `r` in the place of `rb`. -/
def readAllText (io : ReadIo) (p : Path) : FsCall (List UInt8) := readPlainFile io p

/-- Every chunk of the loop is accepted: those of `SSGX_FS_BUFFER_SIZE` bytes and the rest. -/
def WriteIo.TakesChunks (io : WriteIo) (size : Nat) : Prop :=
  ∀ k, k * fsBufferSize < size →
    min (size - k * fsBufferSize) fsBufferSize ≤ io.fwrite (k * fsBufferSize)

/-- The write comes to `fclose` with all of its data accepted. -/
structure WriteIo.Accepts (io : WriteIo) (p : Path) (size : Nat) : Prop where
  named : p ≠ []
  fits : size ≤ fsMaxFileSize
  crosses : io.sgxStatus = sgxSuccess
  opens : io.opens = true
  locks : io.locks = true
  chunks : io.TakesChunks size

/-- The loop from the start of a chunk ends with every chunk accepted exactly when the host takes
the chunks from there on. -/
theorem writeLoop_fst_iff (fwrite : Nat → Nat) (size : Nat) :
    ∀ rounds k, size ≤ k * fsBufferSize + rounds →
      ((writeLoop fwrite size rounds (min (k * fsBufferSize) size)).1 = true ↔
        ∀ j, k ≤ j → j * fsBufferSize < size →
          min (size - j * fsBufferSize) fsBufferSize ≤ fwrite (j * fsBufferSize)) := by
  intro rounds
  induction rounds with
  | zero =>
      intro k hle
      apply iff_of_true rfl
      -- no rounds are left, and no bytes either
      intro j hj hlt
      have hmul := Nat.mul_le_mul_right fsBufferSize hj
      omega
  | succ rounds ih =>
      intro k hle
      have hnext : (k + 1) * fsBufferSize = k * fsBufferSize + fsBufferSize := Nat.succ_mul ..
      have hbuffer : 0 < fsBufferSize := by decide
      by_cases hlt : k * fsBufferSize < size
      · rw [Nat.min_eq_left (Nat.le_of_lt hlt), writeLoop, if_pos hlt]
        dsimp only
        by_cases hchunk : min (size - k * fsBufferSize) fsBufferSize ≤ fwrite (k * fsBufferSize)
        · -- the chunk is accepted: the loop goes on at the next one
          rw [Nat.min_eq_right hchunk, if_neg (not_not.2 rfl)]
          have hoffset : k * fsBufferSize + min (size - k * fsBufferSize) fsBufferSize =
              min ((k + 1) * fsBufferSize) size := by omega
          rw [hoffset, ih (k + 1) (by omega)]
          constructor
          · intro h j hj hjlt
            rcases Nat.eq_or_lt_of_le hj with rfl | hj
            · exact hchunk
            · exact h j hj hjlt
          · intro h j hj hjlt
            exact h j (by omega) hjlt
        · -- the chunk falls short, and the loop ends there
          rw [Nat.min_eq_left (by omega), if_pos (by omega)]
          exact iff_of_false (by simp) fun h => hchunk (h k (Nat.le_refl k) hlt)
      · -- every byte was handed over before
        rw [Nat.min_eq_right (Nat.not_lt.1 hlt), writeLoop, if_neg (Nat.lt_irrefl _)]
        apply iff_of_true rfl
        intro j hj hjlt
        have hmul := Nat.mul_le_mul_right fsBufferSize hj
        omega

/-- The loop of the call accepts everything exactly when the host takes the chunks. -/
theorem writeLoop_accepts_iff (io : WriteIo) (size : Nat) :
    (writeLoop io.fwrite size size 0).1 = true ↔ io.TakesChunks size := by
  have h := writeLoop_fst_iff io.fwrite size size 0 (by omega)
  rw [Nat.zero_mul, Nat.zero_min] at h
  rw [h]
  simp only [WriteIo.TakesChunks]
  simp

/-- The ocall on data within the bounds gives no error code exactly when it comes to `fclose` with
all of them accepted. -/
theorem ssgxOcallWriteFile_nonneg_iff {io : WriteIo} {p : Path} {data : List UInt8} (hp : p ≠ [])
    (hsize : data.length ≤ fsMaxFileSize) (files : HostFiles) :
    0 ≤ (ssgxOcallWriteFile io files p data).1 ↔
      io.opens = true ∧ io.locks = true ∧ io.TakesChunks data.length := by
  simp only [ssgxOcallWriteFile]
  rw [if_neg hp, if_neg (not_lt.2 hsize), ← writeLoop_accepts_iff]
  cases io.opens with
  | false => simp
  | true =>
      cases io.locks with
      | false => simp
      | true =>
          cases (writeLoop io.fwrite data.length data.length 0).1 with
          | false => simp
          | true => simp

/-- A write returns exactly when it comes to `fclose` with all of its data accepted. -/
theorem writeAllBytes_returns_iff {io : WriteIo} {p : Path} {data : List UInt8} {w : World} :
    (∃ u w', writeAllBytes io p data w = (.ok u, w')) ↔ io.Accepts p data.length := by
  constructor
  · rintro ⟨u, w', h⟩
    obtain ⟨hp, hsize, hs, hret, -⟩ := writeAllBytes_ok_iff.1 h
    obtain ⟨ho, hl, hchunks⟩ := (ssgxOcallWriteFile_nonneg_iff hp hsize w.files).1 hret
    exact ⟨hp, hsize, hs, ho, hl, hchunks⟩
  · intro h
    have hret := (ssgxOcallWriteFile_nonneg_iff h.named h.fits w.files).2
      ⟨h.opens, h.locks, h.chunks⟩
    exact ⟨⟨⟩, _, writeAllBytes_ok_iff.2 ⟨h.named, h.fits, h.crosses, hret, rfl⟩⟩

/-- **The intended write.** If the call returns, the file holds exactly the data, and every read
that returns gives them back. -/
def Kept (write : FsCall PUnit) (read : ReadIo → FsCall (List UInt8)) (p : Path)
    (data : List UInt8) (w : World) : Prop :=
  ∀ u w', write w = (.ok u, w') →
    w'.files p = some (.plain data) ∧
      ∀ rio b w'', read rio w' = (.ok b, w'') → b = data

/-- **When a write is kept.** Exactly when the flush at `fclose` writes all of the data that the
host has accepted before it. Text is written and read as bytes are. -/
theorem write_kept_iff (io : WriteIo) (p : Path) (data : List UInt8) (w : World) :
    (Kept (writeAllBytes io p data) (fun rio => readAllBytes rio p) p data w ↔
        (io.Accepts p data.length → data.length ≤ io.flushed)) ∧
      (Kept (writeAllText io p data) (fun rio => readAllText rio p) p data w ↔
        (io.Accepts p data.length → data.length ≤ io.flushed)) := by
  have hbytes : Kept (writeAllBytes io p data) (fun rio => readAllBytes rio p) p data w ↔
      (io.Accepts p data.length → data.length ≤ io.flushed) := by
    constructor
    · intro hkept haccepts
      obtain ⟨u, w', hreturns⟩ := writeAllBytes_returns_iff.2 haccepts
      obtain ⟨hfile, -⟩ := hkept u w' hreturns
      rw [writeAllBytes_ok hreturns, World.put_files_self] at hfile
      have htake : data.take io.flushed = data := HostFile.plain.inj (Option.some.inj hfile)
      rw [← htake]
      exact List.length_take_le _ _
    · intro hflush u w' hreturns
      have haccepts := writeAllBytes_returns_iff.1 ⟨u, w', hreturns⟩
      have hfile : w'.files p = some (.plain data) := by
        rw [writeAllBytes_ok hreturns, World.put_files_self,
          List.take_of_length_le (hflush haccepts)]
      refine ⟨hfile, ?_⟩
      intro rio b w'' hread
      obtain ⟨f, hf, rfl, -⟩ := readAllBytes_ok hread
      rw [hfile] at hf
      cases hf
      rfl
  exact ⟨hbytes, hbytes⟩

/-- A write of one byte returns though the flush at `fclose` fails, and a read gives no bytes. -/
theorem unflushed_write_returns :
    ¬ Kept (writeAllBytes { WriteIo.working with flushed := 0 } ['f'] [1])
      (fun rio => readAllBytes rio ['f']) ['f'] [1] ⟨fun _ => none, []⟩ := by
  intro hkept
  obtain ⟨hfile, -⟩ := hkept ⟨⟩ ((⟨fun _ => none, []⟩ : World).put ['f'] (some (.plain []))) rfl
  rw [World.put_files_self] at hfile
  cases hfile

end Ssgx.Filesystem
