import Ssgx.Filesystem.Host

/-!
# Plain files

`ssgx_ocall_read_file` and `ssgx_ocall_write_file` of `ocall_filesystem.cpp`, and the trusted
`PlainFileReader` and `PlainFileWriter` over them. Both ocalls move the data in chunks of
`SSGX_FS_BUFFER_SIZE` bytes; a chunk that `fread` or `fwrite` cuts short ends the call with an
error.

A write that returns is not proof that the data is in the file: `fclose` flushes what `stdio` still
buffers and its result is not looked at (`WriteIo.flushed`). A write that fails leaves the file as
it was, empty, gone, or holding a prefix of the data, depending on the step that fails.
-/

set_option autoImplicit false

namespace Ssgx.Filesystem

open Ssgx.Support

/-! ## Reading -/

/-- How `ssgx_ocall_read_file` goes: the status of the crossing, whether `fopen`, `flock`, `fstat`
and `malloc` succeed, the count `fread` returns when asked at each offset, and whether the buffer
passes `sgx_is_outside_enclave`. -/
structure ReadIo where
  sgxStatus : Nat
  opens : Bool
  locks : Bool
  stats : Bool
  mallocs : Bool
  fread : Nat → Nat
  outside : Bool

/-- Nothing fails. -/
structure ReadIo.Works (io : ReadIo) : Prop where
  crosses : io.sgxStatus = sgxSuccess
  opens : io.opens = true
  locks : io.locks = true
  stats : io.stats = true
  mallocs : io.mallocs = true
  fread : ∀ offset, fsBufferSize ≤ io.fread offset
  outside : io.outside = true

/-- A read in which nothing fails. -/
def ReadIo.working : ReadIo where
  sgxStatus := sgxSuccess
  opens := true
  locks := true
  stats := true
  mallocs := true
  fread := fun _ => fsBufferSize
  outside := true

theorem ReadIo.working_works : ReadIo.working.Works where
  crosses := rfl
  opens := rfl
  locks := rfl
  stats := rfl
  mallocs := rfl
  fread := fun _ => Nat.le_refl _
  outside := rfl

/-- The reading loop from the offset `totalRead`: the number of bytes read when it ends, or `none`
where a chunk is cut short. Every round reads at least one byte, so `fileSize` rounds suffice. -/
def readLoop (fread : Nat → Nat) (fileSize : Nat) : Nat → Nat → Option Nat
  | 0, totalRead => some totalRead
  | rounds + 1, totalRead =>
      if totalRead < fileSize then
        let chunk := min (fileSize - totalRead) fsBufferSize
        let count := min (fread totalRead) chunk
        -- `fread` came back short: the call answers -7 whatever has been read so far
        if count ≠ chunk then none else readLoop fread fileSize rounds (totalRead + count)
      else some totalRead

/-- `ssgx_ocall_read_file`: return value, data buffer and size. -/
def ssgxOcallReadFile (io : ReadIo) (files : HostFiles) (p : Path) :
    Int × Option (List UInt8) × Nat :=
  if p = [] then (-1, none, 0)
  else
    match files p with
    | none => (-2, none, 0)
    | some f =>
        if !io.opens then (-2, none, 0)
        else if !io.locks then (-3, none, 0)
        else if !io.stats then (-4, none, 0)
        -- an empty file is a success without a buffer
        else if f.bytes.length = 0 then (0, none, 0)
        else if fsMaxFileSize < f.bytes.length then (-5, none, 0)
        else if !io.mallocs then (-6, none, 0)
        else
          match readLoop io.fread f.bytes.length f.bytes.length 0 with
          | none => (-7, none, 0)
          | some totalRead =>
              -- the loop only ends here with everything read, so -8 is never returned
              if totalRead ≠ f.bytes.length then (-8, none, 0)
              else (0, some (f.bytes.take totalRead), f.bytes.length)

/-- `ReadPlainFile`: the bytes at the returned buffer. -/
def readPlainFile (io : ReadIo) (p : Path) : FsCall (List UInt8) := do
  Call.raiseIf (p = []) ⟨"Invalid parameter, filepath is empty"⟩
  Call.raiseIf (io.sgxStatus ≠ sgxSuccess)
    ⟨"Failed to call function ssgx_ocall_read_file(), sgx status: 0x" ++ hexStr io.sgxStatus⟩
  let w ← Call.read
  let answer := ssgxOcallReadFile io w.files p
  Call.raiseIf (answer.1 < 0)
    ⟨"Function ssgx_ocall_read_file() return errors, error code: " ++ toString answer.1⟩
  if 0 < answer.2.2 then
    match answer.2.1 with
    | none => Call.raise ⟨"Internal error, data_buf is nullptr"⟩
    | some dataBuf => do
        Call.raiseIf (io.outside = false)
          ⟨"Invalid external input detected, with traces of enclave memory found"⟩
        return dataBuf
  else return []

/-- `PlainFileReader::ReadAllBytes`. -/
def readAllBytes (io : ReadIo) (p : Path) : FsCall (List UInt8) := readPlainFile io p

/-- A loop that ends has read the whole file. -/
theorem readLoop_eq_size {fread : Nat → Nat} {fileSize : Nat} :
    ∀ {rounds totalRead n : Nat}, fileSize ≤ totalRead + rounds → totalRead ≤ fileSize →
      readLoop fread fileSize rounds totalRead = some n → n = fileSize := by
  intro rounds
  induction rounds with
  | zero =>
      intro totalRead n hle hge h
      simp only [readLoop, Option.some.injEq] at h
      omega
  | succ rounds ih =>
      intro totalRead n hle hge h
      simp only [readLoop] at h
      split at h
      · next hlt =>
          split at h
          · cases h
          · next hcount =>
              -- a full chunk is not empty, so the rounds that are left still cover the rest
              have hchunk : 0 < min (fileSize - totalRead) fsBufferSize := by
                simp only [fsBufferSize]
                omega
              have heq := not_not.1 hcount
              exact ih (by omega) (by omega) h
      · simp only [Option.some.injEq] at h
        omega

/-- A loop over full chunks ends. -/
theorem readLoop_isSome {fread : Nat → Nat} (hf : ∀ offset, fsBufferSize ≤ fread offset)
    (fileSize : Nat) : ∀ rounds totalRead, (readLoop fread fileSize rounds totalRead).isSome
  | 0, _ => rfl
  | rounds + 1, totalRead => by
      simp only [readLoop]
      split
      · have h := hf totalRead
        rw [if_neg (by omega)]
        exact readLoop_isSome hf fileSize rounds _
      · rfl

theorem readsOnly_readAllBytes (io : ReadIo) (p : Path) : ReadsOnly (readAllBytes io p) := by
  refine (readsOnly_raiseIf _ _).bind fun _ => (readsOnly_raiseIf _ _).bind fun _ =>
    readsOnly_read.bind fun w => (readsOnly_raiseIf _ _).bind fun _ => ?_
  split
  · split
    · exact readsOnly_raise _
    · exact (readsOnly_raiseIf _ _).bind fun _ => readsOnly_pure _
  · exact readsOnly_pure _

/-- The three answers of `ssgx_ocall_read_file`: an error code, nothing for an empty file, or the
whole content of a file that is not too long. -/
theorem ssgxOcallReadFile_cases (io : ReadIo) (files : HostFiles) (p : Path) :
    (∃ code : Int, code < 0 ∧ ssgxOcallReadFile io files p = (code, none, 0)) ∨
      ∃ f, files p = some f ∧ f.bytes.length ≤ fsMaxFileSize ∧
        ssgxOcallReadFile io files p =
          if f.bytes.length = 0 then (0, none, 0) else (0, some f.bytes, f.bytes.length) := by
  simp only [ssgxOcallReadFile]
  by_cases hp : p = []
  · exact Or.inl ⟨-1, by decide, if_pos hp⟩
  · rw [if_neg hp]
    cases hfile : files p with
    | none => exact Or.inl ⟨-2, by decide, rfl⟩
    | some f =>
        dsimp only
        by_cases hopens : (!io.opens) = true
        · exact Or.inl ⟨-2, by decide, if_pos hopens⟩
        rw [if_neg hopens]
        by_cases hlocks : (!io.locks) = true
        · exact Or.inl ⟨-3, by decide, if_pos hlocks⟩
        rw [if_neg hlocks]
        by_cases hstats : (!io.stats) = true
        · exact Or.inl ⟨-4, by decide, if_pos hstats⟩
        rw [if_neg hstats]
        by_cases hz : f.bytes.length = 0
        · exact Or.inr ⟨f, rfl, by simp [hz], by simp [hz]⟩
        rw [if_neg hz]
        by_cases hlong : fsMaxFileSize < f.bytes.length
        · exact Or.inl ⟨-5, by decide, if_pos hlong⟩
        rw [if_neg hlong]
        by_cases hmallocs : (!io.mallocs) = true
        · exact Or.inl ⟨-6, by decide, if_pos hmallocs⟩
        rw [if_neg hmallocs]
        cases hloop : readLoop io.fread f.bytes.length f.bytes.length 0 with
        | none => exact Or.inl ⟨-7, by decide, rfl⟩
        -- the loop ended, so it has read everything and the check behind it passes
        | some n =>
            have hn : n = f.bytes.length := readLoop_eq_size (by omega) (by omega) hloop
            subst hn
            exact Or.inr ⟨f, rfl, Nat.not_lt.1 hlong, by simp [hz]⟩

/-- What is read is what the file holds, whatever may fail on the way. -/
theorem readAllBytes_ok {io : ReadIo} {p : Path} {w w' : World} {b : List UInt8}
    (h : readAllBytes io p w = (.ok b, w')) :
    ∃ f, w.files p = some f ∧ b = f.bytes ∧ b.length ≤ fsMaxFileSize := by
  simp only [readAllBytes, readPlainFile] at h
  obtain ⟨-, h⟩ := Call.raiseIf_bind_ok_iff.1 h
  obtain ⟨-, h⟩ := Call.raiseIf_bind_ok_iff.1 h
  rw [Call.read_bind_apply] at h
  obtain ⟨hret, h⟩ := Call.raiseIf_bind_ok_iff.1 h
  rcases ssgxOcallReadFile_cases io w.files p with ⟨code, hcode, hans⟩ | ⟨f, hfile, hle, hans⟩
  · rw [hans] at hret
    exact absurd hcode hret
  · rw [hans] at h
    -- an empty file comes back as no buffer and size zero, which reads as no bytes
    by_cases hz : f.bytes.length = 0
    · rw [if_pos hz] at h
      cases h
      exact ⟨f, hfile, (List.length_eq_zero_iff.1 hz).symm, Nat.zero_le _⟩
    · rw [if_neg hz, if_pos (Nat.pos_of_ne_zero hz)] at h
      obtain ⟨-, h⟩ := Call.raiseIf_bind_ok_iff.1 h
      cases h
      exact ⟨f, hfile, rfl, hle⟩

/-- A host whose calls work hands over every file of at most `FS_MAX_FILE_SIZE` bytes. -/
theorem readAllBytes_of_works {io : ReadIo} {p : Path} {w : World} {f : HostFile}
    (hio : io.Works) (hp : p ≠ []) (hfile : w.files p = some f)
    (hsize : f.bytes.length ≤ fsMaxFileSize) : readAllBytes io p w = (.ok f.bytes, w) := by
  simp only [readAllBytes, readPlainFile]
  refine Call.raiseIf_bind_ok_iff.2 ⟨hp, Call.raiseIf_bind_ok_iff.2
    ⟨by simpa using hio.crosses, ?_⟩⟩
  rw [Call.read_bind_apply]
  obtain ⟨n, hn⟩ := Option.isSome_iff_exists.1
    (readLoop_isSome hio.fread f.bytes.length f.bytes.length 0)
  have hnlen : n = f.bytes.length := readLoop_eq_size (by omega) (by omega) hn
  subst hnlen
  have hans : ssgxOcallReadFile io w.files p =
      if f.bytes.length = 0 then (0, none, 0) else (0, some f.bytes, f.bytes.length) := by
    simp [ssgxOcallReadFile, hp, hfile, hio.opens, hio.locks, hio.stats, hio.mallocs, hn,
      Nat.not_lt.2 hsize]
  rw [hans]
  by_cases hz : f.bytes.length = 0
  · rw [if_pos hz]
    refine Call.raiseIf_bind_ok_iff.2 ⟨by decide, ?_⟩
    rw [List.length_eq_zero_iff.1 hz]
    rfl
  · rw [if_neg hz]
    refine Call.raiseIf_bind_ok_iff.2 ⟨by simp, ?_⟩
    rw [if_pos (Nat.pos_of_ne_zero hz)]
    exact Call.raiseIf_bind_ok_iff.2 ⟨by simp [hio.outside], rfl⟩

/-! ## Writing -/

/-- How `ssgx_ocall_write_file` goes: the status of the crossing, whether `fopen` and `flock`
succeed, the count `fwrite` returns at each offset, how many of the accepted bytes are in the file
after `fclose`, and whether the `remove` behind a short write succeeds. -/
structure WriteIo where
  sgxStatus : Nat
  opens : Bool
  locks : Bool
  fwrite : Nat → Nat
  flushed : Nat
  removes : Bool

/-- Nothing fails, the flush at `fclose` included. -/
structure WriteIo.Works (io : WriteIo) : Prop where
  crosses : io.sgxStatus = sgxSuccess
  opens : io.opens = true
  locks : io.locks = true
  fwrite : ∀ offset, fsBufferSize ≤ io.fwrite offset
  flushed : fsMaxFileSize ≤ io.flushed

/-- A write in which nothing fails. -/
def WriteIo.working : WriteIo where
  sgxStatus := sgxSuccess
  opens := true
  locks := true
  fwrite := fun _ => fsBufferSize
  flushed := fsMaxFileSize
  removes := true

theorem WriteIo.working_works : WriteIo.working.Works where
  crosses := rfl
  opens := rfl
  locks := rfl
  fwrite := fun _ => Nat.le_refl _
  flushed := Nat.le_refl _

/-- The writing loop from the offset `writeSize`: whether every chunk was accepted, and the number
of bytes that were. -/
def writeLoop (fwrite : Nat → Nat) (size : Nat) : Nat → Nat → Bool × Nat
  | 0, writeSize => (true, writeSize)
  | rounds + 1, writeSize =>
      if writeSize < size then
        let chunkSize := min (size - writeSize) fsBufferSize
        let count := min (fwrite writeSize) chunkSize
        -- what `fwrite` did accept of the last chunk counts: it may still reach the file
        if count ≠ chunkSize then (false, writeSize + count)
        else writeLoop fwrite size rounds (writeSize + count)
      else (true, writeSize)

/-- `ssgx_ocall_write_file`: return value and the files left. The buffer of a non-empty vector is
never null, so the check of `data` is not repeated here. -/
def ssgxOcallWriteFile (io : WriteIo) (files : HostFiles) (p : Path) (data : List UInt8) :
    Int × HostFiles :=
  if p = [] then (-1, files)
  else if fsMaxFileSize < data.length then (-3, files)
  else if !io.opens then (-4, files)
  else if !io.locks then
    -- `fopen` has truncated the file before the lock is tried
    (-5, Function.update files p (some (.plain [])))
  else
    let written := writeLoop io.fwrite data.length data.length 0
    let left := some (HostFile.plain ((data.take written.2).take io.flushed))
    if written.1 then (0, Function.update files p left)
    -- behind a short write the file is removed, or it stays with the accepted part
    else (-6, Function.update files p (if io.removes then none else left))

/-- `WritePlainFile`. -/
def writePlainFile (io : WriteIo) (p : Path) (data : List UInt8) : FsCall PUnit := do
  Call.raiseIf (p = []) ⟨"Invalid parameter, filepath is empty"⟩
  Call.raiseIf (fsMaxFileSize < data.length)
    ⟨"Invalid parameter, data size has exceeded the max (100 KB)"⟩
  Call.raiseIf (io.sgxStatus ≠ sgxSuccess)
    ⟨"Failed to call function ssgx_ocall_write_file(), sgx status: 0x" ++ hexStr io.sgxStatus⟩
  let w ← Call.read
  let answer := ssgxOcallWriteFile io w.files p data
  Call.update fun w => { w with files := answer.2 }
  Call.raiseIf (answer.1 < 0)
    ⟨"Function ssgx_ocall_write_file() return errors, error code: " ++ toString answer.1⟩

/-- `PlainFileWriter::WriteAllBytes`. -/
def writeAllBytes (io : WriteIo) (p : Path) (data : List UInt8) : FsCall PUnit :=
  writePlainFile io p data

/-- The world with `f` at `p`. -/
def World.put (w : World) (p : Path) (f : Option HostFile) : World :=
  { w with files := Function.update w.files p f }

@[simp] theorem World.put_files_self (w : World) (p : Path) (f : Option HostFile) :
    (w.put p f).files p = f := Function.update_self ..

theorem World.put_files_of_ne (w : World) {p q : Path} (h : q ≠ p) (f : Option HostFile) :
    (w.put p f).files q = w.files q := Function.update_of_ne h ..

theorem World.put_self (w : World) (p : Path) : w.put p (w.files p) = w := by
  simp [World.put]

/-- A loop whose chunks are all accepted has written everything. -/
theorem writeLoop_true {fwrite : Nat → Nat} {size : Nat} :
    ∀ {rounds writeSize n : Nat}, size ≤ writeSize + rounds → writeSize ≤ size →
      writeLoop fwrite size rounds writeSize = (true, n) → n = size := by
  intro rounds
  induction rounds with
  | zero =>
      intro writeSize n hle hge h
      simp only [writeLoop, Prod.mk.injEq, true_and] at h
      omega
  | succ rounds ih =>
      intro writeSize n hle hge h
      simp only [writeLoop] at h
      split at h
      · split at h
        · cases h
        · next hcount =>
            -- as in the reading loop, an accepted chunk is not empty
            have hchunk : 0 < min (size - writeSize) fsBufferSize := by
              simp only [fsBufferSize]
              omega
            have heq := not_not.1 hcount
            exact ih (by omega) (by omega) h
      · simp only [Prod.mk.injEq, true_and] at h
        omega

theorem writeLoop_of_works {fwrite : Nat → Nat} (hf : ∀ offset, fsBufferSize ≤ fwrite offset)
    (size : Nat) : ∀ rounds writeSize, (writeLoop fwrite size rounds writeSize).1 = true
  | 0, _ => rfl
  | rounds + 1, writeSize => by
      simp only [writeLoop]
      split
      · have h := hf writeSize
        rw [if_neg (by omega)]
        exact writeLoop_of_works hf size rounds _
      · rfl

/-- The two answers of `ssgx_ocall_write_file`: success with the flushed part of the data in the
file, or an error code with no other file changed. -/
theorem ssgxOcallWriteFile_cases (io : WriteIo) (files : HostFiles) (p : Path)
    (data : List UInt8) :
    ssgxOcallWriteFile io files p data =
        (0, Function.update files p (some (.plain (data.take io.flushed)))) ∨
      ∃ code : Int, code < 0 ∧ ∃ f,
        ssgxOcallWriteFile io files p data = (code, Function.update files p f) := by
  have hsame : files = Function.update files p (files p) := (Function.update_eq_self p files).symm
  simp only [ssgxOcallWriteFile]
  by_cases hp : p = []
  · exact Or.inr ⟨-1, by decide, files p, by rw [if_pos hp, ← hsame]⟩
  rw [if_neg hp]
  by_cases hsize : fsMaxFileSize < data.length
  · exact Or.inr ⟨-3, by decide, files p, by rw [if_pos hsize, ← hsame]⟩
  rw [if_neg hsize]
  cases io.opens with
  | false => exact Or.inr ⟨-4, by decide, files p, by rw [← hsame]; rfl⟩
  | true =>
      cases io.locks with
      | false => exact Or.inr ⟨-5, by decide, some (.plain []), rfl⟩
      | true =>
          rcases hloop : writeLoop io.fwrite data.length data.length 0 with ⟨all, n⟩
          cases all with
          | false => exact Or.inr ⟨-6, by decide, _, rfl⟩
          | true =>
              have hn : n = data.length := writeLoop_true (by omega) (Nat.zero_le _) hloop
              apply Or.inl
              simp [hn]

/-- **When a write returns.** Exactly when the checks pass, the ocall crosses and its answer is no
error code. -/
theorem writeAllBytes_ok_iff {io : WriteIo} {p : Path} {data : List UInt8} {w w' : World}
    {u : PUnit} :
    writeAllBytes io p data w = (.ok u, w') ↔
      p ≠ [] ∧ data.length ≤ fsMaxFileSize ∧ io.sgxStatus = sgxSuccess ∧
        0 ≤ (ssgxOcallWriteFile io w.files p data).1 ∧
        w' = { w with files := (ssgxOcallWriteFile io w.files p data).2 } := by
  simp only [writeAllBytes, writePlainFile]
  simp only [Call.raiseIf_bind_ok_iff, Call.read_bind_apply, Call.update_bind_apply,
    Call.raiseIf_ok_iff, not_lt, not_not, ne_eq]

/-- A write that returns has put a prefix of the data into the file: all that `fclose` flushed. -/
theorem writeAllBytes_ok {io : WriteIo} {p : Path} {data : List UInt8} {w w' : World}
    {u : PUnit} (h : writeAllBytes io p data w = (.ok u, w')) :
    w' = w.put p (some (.plain (data.take io.flushed))) := by
  obtain ⟨-, -, -, hret, rfl⟩ := writeAllBytes_ok_iff.1 h
  rcases ssgxOcallWriteFile_cases io w.files p data with hans | ⟨code, hcode, f, hans⟩
  · rw [hans]
    rfl
  · rw [hans] at hret
    exact absurd hcode (not_lt.2 hret)

/-- A write over a host whose calls work puts exactly the data into the file. -/
theorem writeAllBytes_of_works {io : WriteIo} (hio : io.Works) {p : Path} (hp : p ≠ [])
    {data : List UInt8} (hsize : data.length ≤ fsMaxFileSize) (w : World) :
    writeAllBytes io p data w = (.ok ⟨⟩, w.put p (some (.plain data))) := by
  have hwritten := writeLoop_of_works hio.fwrite data.length data.length 0
  have hn := writeLoop_true (n := (writeLoop io.fwrite data.length data.length 0).2)
    (by omega) (Nat.zero_le _) (Prod.ext hwritten rfl)
  have hans : ssgxOcallWriteFile io w.files p data =
      (0, Function.update w.files p (some (.plain data))) := by
    simp [ssgxOcallWriteFile, hp, Nat.not_lt.2 hsize, hio.opens, hio.locks, hwritten, hn,
      List.take_of_length_le (hsize.trans hio.flushed)]
  refine writeAllBytes_ok_iff.2 ⟨hp, hsize, hio.crosses, ?_, ?_⟩
  · rw [hans]
  · rw [hans]
    rfl

/-! ## Writes of one chunk -/

/-- The write of one chunk of this size throws. -/
def WriteIo.Fails (io : WriteIo) (size : Nat) : Prop :=
  io.sgxStatus ≠ sgxSuccess ∨ io.opens = false ∨ io.locks = false ∨ io.fwrite 0 < size

/-- The file after the write of one chunk threw. -/
def WriteIo.leaves (io : WriteIo) (data : List UInt8) (file : Option HostFile) : Option HostFile :=
  if io.sgxStatus ≠ sgxSuccess ∨ io.opens = false then file
  else if io.locks = false then some (.plain [])
  else if io.removes then none
  else some (.plain ((data.take (io.fwrite 0)).take io.flushed))

theorem writeLoop_short (fwrite : Nat → Nat) {size : Nat} (hpos : 0 < size)
    (hsize : size ≤ fsBufferSize) :
    writeLoop fwrite size size 0 =
      if fwrite 0 < size then (false, fwrite 0) else (true, size) := by
  obtain ⟨rounds, rfl⟩ := Nat.exists_eq_succ_of_ne_zero (Nat.ne_of_gt hpos)
  simp only [writeLoop, if_pos hpos, Nat.sub_zero, Nat.min_eq_left hsize, Nat.zero_add]
  by_cases h : fwrite 0 < rounds.succ
  · rw [if_pos h, Nat.min_eq_left (Nat.le_of_lt h), if_pos (Nat.ne_of_lt h)]
  · rw [if_neg h, Nat.min_eq_right (Nat.not_lt.1 h), if_neg (not_not.2 rfl)]
    cases rounds with
    | zero => rfl
    | succ rounds => exact if_neg (Nat.lt_irrefl _)

/-- The ocall on one chunk, where the crossing works. -/
theorem ssgxOcallWriteFile_short {io : WriteIo} {p : Path} {data : List UInt8} (hp : p ≠ [])
    (hpos : 0 < data.length) (hsize : data.length ≤ fsBufferSize)
    (hs : io.sgxStatus = sgxSuccess) (files : HostFiles) :
    (io.Fails data.length ∧ ∃ code : Int, code < 0 ∧ ssgxOcallWriteFile io files p data =
        (code, Function.update files p (io.leaves data (files p)))) ∨
      (¬ io.Fails data.length ∧ ssgxOcallWriteFile io files p data =
        (0, Function.update files p (some (.plain (data.take io.flushed))))) := by
  have hmax : ¬ fsMaxFileSize < data.length := by
    simp only [fsBufferSize, fsMaxFileSize] at hsize ⊢
    omega
  have hloop := writeLoop_short io.fwrite hpos hsize
  simp only [ssgxOcallWriteFile]
  rw [if_neg hp, if_neg hmax]
  cases ho : io.opens with
  | false =>
      refine Or.inl ⟨Or.inr (Or.inl ho), -4, by decide, ?_⟩
      simp [WriteIo.leaves, ho]
  | true =>
      cases hl : io.locks with
      | false =>
          refine Or.inl ⟨Or.inr (Or.inr (Or.inl hl)), -5, by decide, ?_⟩
          simp [WriteIo.leaves, ho, hl, hs]
      | true =>
          by_cases hf : io.fwrite 0 < data.length
          · refine Or.inl ⟨Or.inr (Or.inr (Or.inr hf)), -6, by decide, ?_⟩
            simp [WriteIo.leaves, ho, hl, hs, hloop, hf]
          · refine Or.inr ⟨by simp [WriteIo.Fails, hs, ho, hl, hf], ?_⟩
            simp [hloop, hf]

/-- The write of one chunk throws exactly when it `Fails`. -/
theorem writeAllBytes_short (io : WriteIo) {p : Path} (data : List UInt8) (hp : p ≠ [])
    (hpos : 0 < data.length) (hsize : data.length ≤ fsBufferSize) (w : World) :
    (io.Fails data.length ∧ ∃ e,
        writeAllBytes io p data w = (.error e, w.put p (io.leaves data (w.files p)))) ∨
      (¬ io.Fails data.length ∧
        writeAllBytes io p data w = (.ok ⟨⟩, w.put p (some (.plain (data.take io.flushed))))) := by
  have hmax : ¬ fsMaxFileSize < data.length := by
    simp only [fsBufferSize, fsMaxFileSize] at hsize ⊢
    omega
  simp only [writeAllBytes, writePlainFile]
  rw [Call.bind_of_ok (Call.raiseIf_of_not hp _ _), Call.bind_of_ok (Call.raiseIf_of_not hmax _ _)]
  by_cases hs : io.sgxStatus = sgxSuccess
  · rw [Call.bind_of_ok (Call.raiseIf_of_not (not_not.2 hs) _ _)]
    simp only [Call.read_bind_apply, Call.update_bind_apply]
    rcases ssgxOcallWriteFile_short hp hpos hsize hs w.files with
      ⟨hf, code, hcode, hans⟩ | ⟨hf, hans⟩
    · refine Or.inl ⟨hf, ?_⟩
      rw [hans]
      exact ⟨_, Call.raiseIf_of hcode _ _⟩
    · refine Or.inr ⟨hf, ?_⟩
      rw [hans]
      exact Call.raiseIf_of_not (lt_irrefl _) _ _
  · left
    rw [Call.bind_of_error (Call.raiseIf_of hs _ _)]
    rw [WriteIo.leaves, if_pos (Or.inl hs), World.put_self]
    exact ⟨Or.inl hs, _, rfl⟩

end Ssgx.Filesystem
