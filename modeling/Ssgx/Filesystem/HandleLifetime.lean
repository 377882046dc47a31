import Ssgx.Support.Resource
import Ssgx.Filesystem.WriterOpen

/-!
# The handle of a file object

A `ProtectedFileReader` or `ProtectedFileWriter` owns one handle of the protected file system from
its constructor to its destructor. Every method throws where the object holds no handle; `Close`
forgets the handle only after `sgx_fclose` reported success, and the destructor closes a handle that
is still held.

The objects are owners in the sense of `Support.Resource`: one call of a method is one request to
the owner (`readerStep_owner`, `writerStep_owner`). So a life releases its handle once exactly when
the first `Close` reports success; and a constructor that throws must not have obtained one
(`handle_released_once_iff`).
-/

set_option autoImplicit false

namespace Ssgx.Filesystem

open Ssgx.Support

/-- An object: `file_`, and the calls made so far. -/
structure FileObject where
  file : Option SgxFile
  log : List FsEvent

/-- A method of an object. -/
abbrev ObjectCall (α : Type) := Call FileSystemException FileObject α

/-- The handle, if `file_` is not null. -/
def heldFile (errMsg : String) : ObjectCall SgxFile := do
  let o ← Call.read
  match o.file with
  | none => Call.raise ⟨errMsg⟩
  | some file => return file

/-- A call of the protected file system on the handle. -/
def useFile (file : SgxFile) : ObjectCall PUnit :=
  Call.update fun o => { o with log := o.log ++ [.use file] }

/-- `Close` of both classes. -/
def closeFile (fclose : Int) : ObjectCall PUnit := do
  let o ← Call.read
  match o.file with
  | none => return
  | some file =>
      Call.update fun o => { o with log := o.log ++ [.fclose file] }
      -- a reported failure throws before `file_` is cleared
      Call.raiseIf (fclose ≠ 0) ⟨"Close error"⟩
      Call.update fun o => { o with file := none }

/-- The destructor of both classes. -/
def destroy (o : FileObject) : List FsEvent :=
  match o.file with
  | none => o.log
  | some file => o.log ++ [.fclose file]

/-! ## The reader -/

/-- `ProtectedFileReader::Read`, with whether the buffer is not null and the results of `sgx_fread`
and `sgx_ferror`. -/
def readerRead (buffer : Bool) (size bytesRead : Nat) (ferror : Int) : ObjectCall Nat := do
  let file ← heldFile "Invalid read parameters"
  Call.raiseIf (buffer = false ∨ size = 0) ⟨"Invalid read parameters"⟩
  useFile file
  if bytesRead = 0 then
    useFile file
    Call.raiseIf (ferror ≠ 0) ⟨"Read error"⟩
    return bytesRead
  else return bytesRead

/-- `ProtectedFileReader::Tell`, with the result of `sgx_ftell`. -/
def readerTell (ftell : Int) : ObjectCall Int := do
  let file ← heldFile "File not open"
  useFile file
  Call.raiseIf (ftell < 0) ⟨"Tell error"⟩
  return ftell

/-- `ProtectedFileReader::Seek`, with the result of `sgx_fseek`. -/
def readerSeek (fseek : Int) : ObjectCall PUnit := do
  let file ← heldFile "File not open"
  useFile file
  Call.raiseIf (fseek ≠ 0) ⟨"Seek error"⟩

/-- A call of a method of the reader, with the results of the calls it makes. -/
inductive ReaderOp where
  | read (buffer : Bool) (size bytesRead : Nat) (ferror : Int)
  | tell (ftell : Int)
  | seek (fseek : Int)
  | close (fclose : Int)

/-- The reader after the call, whether it returned or threw. -/
def readerStep (o : FileObject) : ReaderOp → FileObject
  | .read buffer size bytesRead ferror => (readerRead buffer size bytesRead ferror o).2
  | .tell ftell => (readerTell ftell o).2
  | .seek fseek => (readerSeek fseek o).2
  | .close fclose => (closeFile fclose o).2

/-! ## The writer -/

/-- `ProtectedFileWriter::Write`, with whether the data is not null and the result of `sgx_fwrite`.
-/
def writerWrite (data : Bool) (size written : Nat) : ObjectCall PUnit := do
  let file ← heldFile "Invalid write parameters"
  Call.raiseIf (data = false ∨ size = 0) ⟨"Invalid write parameters"⟩
  useFile file
  Call.raiseIf (written ≠ size) ⟨"Write error"⟩

/-- `ProtectedFileWriter::Flush`, with the result of `sgx_fflush`. -/
def writerFlush (fflush : Int) : ObjectCall PUnit := do
  let file ← heldFile "File not open"
  useFile file
  Call.raiseIf (fflush ≠ 0) ⟨"Flush error"⟩

/-- A call of a method of the writer, with the results of the calls it makes. -/
inductive WriterOp where
  | write (data : Bool) (size written : Nat)
  | flush (fflush : Int)
  | close (fclose : Int)

/-- The writer after the call, whether it returned or threw. -/
def writerStep (o : FileObject) : WriterOp → FileObject
  | .write data size written => (writerWrite data size written o).2
  | .flush fflush => (writerFlush fflush o).2
  | .close fclose => (closeFile fclose o).2

/-! ## Objects as owners -/

/-- What a call of the protected file system does with a handle. -/
def FsEvent.onHandle : FsEvent → Option (ResourceEvent SgxFile)
  | .fopen _ _ _ (some file) => some (.acquire file)
  | .fopen _ _ _ none => none
  | .use file => some (.use file)
  | .fclose file => some (.release file)

/-- The life of the handles in a log. -/
def handleTrace (log : List FsEvent) : List (ResourceEvent SgxFile) :=
  log.filterMap FsEvent.onHandle

/-- An object as an owner of its handle. -/
def FileObject.owner (o : FileObject) : Owner SgxFile := ⟨o.file, handleTrace o.log⟩

/-- What a call of a reader's method asks of the owner. `Read` looks at `sgx_ferror` where nothing
was read. -/
def ReaderOp.request : ReaderOp → OwnerOp
  | .read buffer size bytesRead _ =>
      .access (if buffer = false ∨ size = 0 then 0 else if bytesRead = 0 then 2 else 1)
  | .tell _ => .access 1
  | .seek _ => .access 1
  | .close fclose => .close (fclose = 0)

/-- What a call of a writer's method asks of the owner. -/
def WriterOp.request : WriterOp → OwnerOp
  | .write data size _ => .access (if data = false ∨ size = 0 then 0 else 1)
  | .flush _ => .access 1
  | .close fclose => .close (fclose = 0)

theorem handleTrace_append (l₁ l₂ : List FsEvent) :
    handleTrace (l₁ ++ l₂) = handleTrace l₁ ++ handleTrace l₂ := List.filterMap_append

theorem destroy_owner (o : FileObject) : handleTrace (destroy o) = o.owner.finish := by
  simp only [destroy, Owner.finish, FileObject.owner]
  cases o.file with
  | none => rfl
  | some file => exact handleTrace_append _ _

/-- `Close` is the request to close. -/
theorem closeFile_owner (fclose : Int) (o : FileObject) :
    (closeFile fclose o).2.owner = ownerStep o.owner (.close (fclose = 0)) := by
  obtain ⟨file, log⟩ := o
  cases file with
  | none => rfl
  | some file =>
      have htrace : handleTrace (log ++ [.fclose file]) = handleTrace log ++ [.release file] :=
        handleTrace_append _ _
      simp only [closeFile]
      simp only [Call.read_bind_apply, Call.update_bind_apply]
      by_cases hf : fclose = 0
      · rw [Call.bind_of_ok (Call.raiseIf_of_not (not_not.2 hf) _ _)]
        simp only [Call.update_apply, FileObject.owner, ownerStep, htrace, hf, decide_true, if_true]
      · rw [Call.bind_of_error (Call.raiseIf_of hf _ _)]
        simp only [FileObject.owner, ownerStep, htrace, hf, decide_false]
        rfl

/-- A method that needs the handle, uses it some number of times and changes nothing else. -/
theorem method_owner {α : Type} {errMsg : String} {body : SgxFile → ObjectCall α} {uses : Nat}
    (hbody : ∀ file log, (body file ⟨some file, log⟩).2 =
      ⟨some file, log ++ List.replicate uses (.use file)⟩) (o : FileObject) :
    ((heldFile errMsg >>= body) o).2.owner = ownerStep o.owner (.access uses) := by
  obtain ⟨file, log⟩ := o
  cases file with
  | none => rfl
  | some file =>
      have hrun : (heldFile errMsg >>= body) ⟨some file, log⟩ = body file ⟨some file, log⟩ := rfl
      have huses : handleTrace (List.replicate uses (.use file)) =
          List.replicate uses (.use file) := List.filterMap_replicate_of_some rfl
      rw [hrun, hbody]
      simp only [FileObject.owner, ownerStep, handleTrace_append, huses]

/-- A check at the end of a method changes nothing. -/
theorem raiseIf_state (p : Prop) [Decidable p] (e : FileSystemException) (o : FileObject) :
    ((Call.raiseIf p e : ObjectCall PUnit) o).2 = o := by
  by_cases hp : p
  · rw [Call.raiseIf_of hp]
  · rw [Call.raiseIf_of_not hp]

/-- Nor does one before the result is returned. -/
theorem raiseIf_then_pure {α : Type} (p : Prop) [Decidable p] (e : FileSystemException) (a : α)
    (o : FileObject) :
    ((Call.raiseIf p e >>= fun _ => pure a : ObjectCall α) o).2 = o := by
  by_cases hp : p
  · rw [Call.bind_of_error (Call.raiseIf_of hp _ _)]
  · rw [Call.bind_of_ok (Call.raiseIf_of_not hp _ _)]
    rfl

/-- **A call of a reader's method is the request to the owner.** -/
theorem readerStep_owner (o : FileObject) (op : ReaderOp) :
    (readerStep o op).owner = ownerStep o.owner op.request := by
  cases op with
  | read buffer size bytesRead ferror =>
      refine method_owner (fun file log => ?_) o
      by_cases hargs : buffer = false ∨ size = 0
      · rw [if_pos hargs, Call.bind_of_error (Call.raiseIf_of hargs _ _)]
        simp
      rw [if_neg hargs, Call.bind_of_ok (Call.raiseIf_of_not hargs _ _)]
      by_cases hread : bytesRead = 0
      · rw [if_pos hread, if_pos hread]
        simp only [useFile, Call.update_bind_apply]
        rw [raiseIf_then_pure]
        simp
      · rw [if_neg hread, if_neg hread]
        rfl
  | tell ftell => exact method_owner (fun file log => raiseIf_then_pure _ _ _ _) o
  | seek fseek => exact method_owner (fun file log => raiseIf_state _ _ _) o
  | close fclose => exact closeFile_owner fclose o

/-- **A call of a writer's method is the request to the owner.** -/
theorem writerStep_owner (o : FileObject) (op : WriterOp) :
    (writerStep o op).owner = ownerStep o.owner op.request := by
  cases op with
  | write data size written =>
      refine method_owner (fun file log => ?_) o
      by_cases hargs : data = false ∨ size = 0
      · rw [if_pos hargs, Call.bind_of_error (Call.raiseIf_of hargs _ _)]
        simp
      · rw [if_neg hargs, Call.bind_of_ok (Call.raiseIf_of_not hargs _ _)]
        exact raiseIf_state _ _ _
  | flush fflush => exact method_owner (fun file log => raiseIf_state _ _ _) o
  | close fclose => exact closeFile_owner fclose o

/-! ## Lives -/

section Digest

variable (sha256 : List UInt8 → List.Vector UInt8 32)

/-- The life of a reader: the constructor; if it returns, calls of methods, and the destructor. -/
def readerLife (io : ReaderIo) (p : Path) (ops : List ReaderOp) (files : HostFiles) :
    List FsEvent :=
  match protectedFileReader sha256 io p ⟨files, []⟩ with
  | (.ok file, w) => destroy (runFrom readerStep ⟨some file, w.log⟩ ops)
  | (.error _, w) => w.log

/-- The life of a writer: the constructor; if it returns, calls of methods, and the destructor. -/
def writerLife (io : WriterIo) (p : Path) (fileMode : FileMode) (policy : UInt16)
    (ops : List WriterOp) (files : HostFiles) : List FsEvent :=
  match protectedFileWriter sha256 io p fileMode policy ⟨files, []⟩ with
  | (.ok file, w) => destroy (runFrom writerStep ⟨some file, w.log⟩ ops)
  | (.error _, w) => w.log

/-- The first call of `Close`, if there is one, is reported a success by `sgx_fclose`. -/
def ReaderClosesWell (ops : List ReaderOp) : Prop := FirstCloseReports (ops.map ReaderOp.request)

/-- The first call of `Close`, if there is one, is reported a success by `sgx_fclose`. -/
def WriterClosesWell (ops : List WriterOp) : Prop := FirstCloseReports (ops.map WriterOp.request)

/-- The life of an object from its handle on, for a class whose methods are requests. -/
theorem life_released_iff {ι : Type} {step : FileObject → ι → FileObject} {request : ι → OwnerOp}
    (hstep : ∀ o op, (step o op).owner = ownerStep o.owner (request op)) {file : SgxFile}
    {log : List FsEvent} (hlog : handleTrace log = [.acquire file]) (ops : List ι) :
    ReleasedOnce (handleTrace (destroy (runFrom step ⟨some file, log⟩ ops))) ↔
      FirstCloseReports (ops.map request) := by
  have howner : FileObject.owner ⟨some file, log⟩ = ⟨some file, [.acquire file]⟩ := by
    rw [FileObject.owner, hlog]
  rw [destroy_owner, map_runFrom hstep, howner]
  exact releasedOnce_life_iff file (ops.map request)

/-- The life of a reader releases its handle once exactly when it never gets one or its first close
reports success. -/
theorem readerLife_released_iff (io : ReaderIo) (p : Path) (ops : List ReaderOp)
    (files : HostFiles) :
    ReleasedOnce (handleTrace (readerLife sha256 io p ops files)) ↔
      ∀ file w, protectedFileReader sha256 io p ⟨files, []⟩ = (.ok file, w) →
        ReaderClosesWell ops := by
  simp only [readerLife]
  rcases hread : protectedFileReader sha256 io p ⟨files, []⟩ with ⟨r, w⟩
  cases r with
  | ok file =>
      obtain ⟨md, -, -, -, -, -, rfl⟩ := (protectedFileReader_ok_iff sha256).1 hread
      exact (life_released_iff readerStep_owner rfl ops).trans
        ⟨fun h _ _ _ => h, fun h => h file _ rfl⟩
  | error e =>
      refine iff_of_true (releasedOnce_of_not_acquired fun file hacquire => ?_) ?_
      · rcases protectedFileReader_error sha256 hread with rfl | ⟨md, -, -, rfl⟩
        · cases hacquire
        · cases hacquire
      · intro file w' h
        cases h

/-- A writer's constructor that ends with a handle has written its metadata. -/
theorem metadata_written_of_ok {io : WriterIo} {p : Path} {fileMode : FileMode} {policy : UInt16}
    {w w' : World} {file : SgxFile}
    (h : protectedFileWriter sha256 io p fileMode policy w = (.ok file, w')) :
    ∀ file m, io.ReachesSave p fileMode policy w file m → ¬ io.metaWrite.Fails 94 := by
  intro file m hreaches hfails
  obtain ⟨e, he⟩ := protectedFileWriter_unsaved sha256 hreaches hfails
  rw [h] at he
  cases he

/-- A constructor that throws without a handle leaves nothing to close, and has not come to the
write of the metadata. -/
theorem life_without_handle {io : WriterIo} {p : Path} {fileMode : FileMode} {policy : UInt16}
    {ops : List WriterOp} {w w' : World} {e : FileSystemException}
    (h : protectedFileWriter sha256 io p fileMode policy w = (.error e, w'))
    (hlog : handleTrace w'.log = []) :
    ReleasedOnce (handleTrace w'.log) ↔
      (∀ file m, io.ReachesSave p fileMode policy w file m → ¬ io.metaWrite.Fails 94) ∧
        ∀ file w₁, ((.error e : Except FileSystemException SgxFile), w') = (.ok file, w₁) →
          WriterClosesWell ops := by
  refine iff_of_true (releasedOnce_of_not_acquired fun file hacquire => ?_) ⟨?_, ?_⟩
  · rw [hlog] at hacquire
    cases hacquire
  · intro file m hreaches hfails
    obtain ⟨e', he⟩ := protectedFileWriter_unsaved sha256 hreaches hfails
    rw [h] at he
    -- the log of a constructor that comes to the write has its handle in it
    obtain ⟨-, rfl⟩ := Prod.mk.inj he
    have htrace : handleTrace (w.log ++ [.fopen p fileMode.fopenMode (writerKey policy m)
        (some file)]) = [] := hlog
    rw [handleTrace_append, List.append_eq_nil_iff] at htrace
    cases htrace.2
  · intro file w₁ hok
    cases hok

/-- The life of a writer releases its handle once exactly when its constructor does not throw with a
handle, and its first close, if there is one, reports success. -/
theorem writerLife_released_iff (io : WriterIo) (p : Path) (fileMode : FileMode) (policy : UInt16)
    (ops : List WriterOp) (files : HostFiles) :
    ReleasedOnce (handleTrace (writerLife sha256 io p fileMode policy ops files)) ↔
      (∀ file m, io.ReachesSave p fileMode policy ⟨files, []⟩ file m → ¬ io.metaWrite.Fails 94) ∧
        ∀ file w, protectedFileWriter sha256 io p fileMode policy ⟨files, []⟩ = (.ok file, w) →
          WriterClosesWell ops := by
  simp only [writerLife]
  rcases hopen : protectedFileWriter sha256 io p fileMode policy ⟨files, []⟩ with ⟨r, w⟩
  cases protectedFileWriter_outcome sha256 hopen with
  | stopped => exact life_without_handle sha256 hopen rfl
  | refused reaches null => exact life_without_handle sha256 hopen rfl
  | @appended file _ hmode existing =>
      obtain ⟨m, -, -, -, -, rfl⟩ := openForAppend_existing sha256 existing
      refine (life_released_iff writerStep_owner rfl ops).trans
        ⟨fun h => ⟨metadata_written_of_ok sha256 hopen, fun _ _ _ => h⟩, fun h => h.2 file _ rfl⟩
  | @saved file m reaches written =>
      refine (life_released_iff writerStep_owner rfl ops).trans
        ⟨fun h => ⟨metadata_written_of_ok sha256 hopen, fun _ _ _ => h⟩, fun h => h.2 file _ rfl⟩
  | @unsaved e file m reaches fails =>
      -- the exception leaves a handle behind, and no object is there to close it
      refine iff_of_false (not_releasedOnce_of_kept (r := file) ?_ ?_) ?_
      · exact List.mem_singleton.2 rfl
      · intro hrelease
        cases List.mem_singleton.1 hrelease
      · intro h
        exact h.1 file m reaches fails

/-- **When every handle is closed exactly once.** For every outcome of every call, the life of a
reader and the life of a writer close each handle they obtained exactly once, after its last use,
exactly when the first call of `Close`, if there is one, is reported a success by `sgx_fclose`, and
no constructor of a writer throws in the write of the metadata file behind its open. -/
theorem handle_released_once_iff :
    (∀ (io : ReaderIo) (p : Path) (ops : List ReaderOp) (files : HostFiles),
      ReleasedOnce (handleTrace (readerLife sha256 io p ops files)) ↔
        ∀ file w, protectedFileReader sha256 io p ⟨files, []⟩ = (.ok file, w) →
          ReaderClosesWell ops) ∧
      ∀ (io : WriterIo) (p : Path) (fileMode : FileMode) (policy : UInt16) (ops : List WriterOp)
        (files : HostFiles),
        ReleasedOnce (handleTrace (writerLife sha256 io p fileMode policy ops files)) ↔
          (∀ file m, io.ReachesSave p fileMode policy ⟨files, []⟩ file m →
              ¬ io.metaWrite.Fails 94) ∧
            ∀ file w, protectedFileWriter sha256 io p fileMode policy ⟨files, []⟩ = (.ok file, w) →
              WriterClosesWell ops :=
  ⟨readerLife_released_iff sha256, writerLife_released_iff sha256⟩

end Digest

/-! ## A handle that is closed twice -/

/-- A writer creates a file, and `sgx_fclose` reports a failure to its `Close`. -/
def failedCloseLife : List FsEvent :=
  writerLife (fun _ => List.Vector.replicate 32 0)
    (.working ⟨1, List.Vector.replicate 16 0⟩ (List.Vector.replicate 32 1) 1) ['f'] .createNew
    sgxKeypolicyMrenclave [.close (-1)] (fun _ => none)

/-- The destructor closes the handle again. -/
theorem handle_closed_twice : ¬ ReleasedOnce (handleTrace failedCloseLife) := by
  have htrace : handleTrace failedCloseLife = [.acquire 1, .release 1, .release 1] := rfl
  rw [htrace]
  exact not_releasedOnce_of_twice [.acquire 1] [.release 1]
    List.mem_cons_self List.mem_cons_self

end Ssgx.Filesystem
