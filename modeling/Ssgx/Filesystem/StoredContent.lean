import Ssgx.Filesystem.HandleLifetime
import Ssgx.Filesystem.KeyAgreement

/-!
# What is read back from protected files

An application uses a protected file in sessions. A session of a writer constructs a
`ProtectedFileWriter`, calls its methods in any order and destroys it; a session of a reader calls
`Read` until it returns 0. Between them files may be removed by `RemoveProtectedFile`.

The protected file system is not part of the repository. What its calls do behind a handle is a
parameter (`ProtectedFs`), with what its documentation says of them as hypotheses
(`ProtectedFs.Documented`): a content that was closed under a key is found again under that key.
Every call may fail. So the content comes back if the reader takes the key of the last writer,
whichever modes and policies there were and whichever constructors threw. `stored_content` says that
it does: the pair of files refines one sequence of bytes.
-/

set_option autoImplicit false

namespace Ssgx.Filesystem

open Ssgx.Support

/-! ## The calls behind a handle -/

/-- The protected file system behind a handle, whose state is in `σ`. The seed of an open stands for
the random numbers and the host's answers that its calls depend on. `sgx_fread` gives the bytes
read, and `sgx_fclose` its result and the bytes that are in the file then. -/
structure ProtectedFs (σ : Type) where
  opened : Nat → FopenMode → KeySource → Option HostFile → σ
  sgxFwrite : σ → List UInt8 → Nat × σ
  sgxFflush : σ → Int × σ
  sgxFread : σ → Nat → List UInt8 × σ
  sgxFerror : σ → Int
  sgxFclose : σ → Int × List UInt8

/-- What is documented of the calls, where they report success: the mode `w` starts with no content
and the mode `a` with that of the file; `sgx_fwrite` adds to it and `sgx_fclose` stores it under the
key of the open; `sgx_fread` gives what is left piece by piece, and gives nothing without an error
only at the end. -/
structure ProtectedFs.Documented {σ : Type} (lib : ProtectedFs σ)
    (unprotect : KeySource → List UInt8 → Option (List UInt8))
    (Writes : σ → KeySource → List UInt8 → Prop) (Reads : σ → List UInt8 → Prop) : Prop where
  opened_w : ∀ seed key file, Writes (lib.opened seed .w key file) key []
  opened_new : ∀ seed key, Writes (lib.opened seed .a key none) key []
  opened_a : ∀ seed key raw content, unprotect key raw = some content →
    Writes (lib.opened seed .a key (some (.sealed key raw))) key content
  opened_r : ∀ seed key raw content, unprotect key raw = some content →
    Reads (lib.opened seed .r key (some (.sealed key raw))) content
  fwrite : ∀ s key content data, Writes s key content →
    (lib.sgxFwrite s data).1 = data.length → Writes (lib.sgxFwrite s data).2 key (content ++ data)
  fflush : ∀ s key content, Writes s key content → (lib.sgxFflush s).1 = 0 →
    Writes (lib.sgxFflush s).2 key content
  fclose : ∀ s key content, Writes s key content → (lib.sgxFclose s).1 = 0 →
    unprotect key (lib.sgxFclose s).2 = some content
  fread : ∀ s size left, Reads s left → 0 < size → ∃ rest,
    left = (lib.sgxFread s size).1 ++ rest ∧ Reads (lib.sgxFread s size).2 rest ∧
      ((lib.sgxFread s size).1 = [] → lib.sgxFerror (lib.sgxFread s size).2 = 0 → rest = [])

/-! ## Objects over an open file -/

/-- An object, the state behind its handle, and the bytes that are in the file. -/
structure OpenFile (σ : Type) where
  object : FileObject
  stream : σ
  raw : List UInt8

/-- A call of a method of the writer; the buffer of `Write` is not null. -/
inductive WriterAction where
  | write (data : List UInt8)
  | flush
  | close

section Calls

variable {σ : Type} (lib : ProtectedFs σ)

/-- The writer after the call, whether it returned or threw. Without a handle, or where the buffer
is refused, nothing is called. -/
def OpenFile.act (o : OpenFile σ) : WriterAction → OpenFile σ
  | .write data =>
      let result := lib.sgxFwrite o.stream data
      { o with
        object := (writerWrite true data.length result.1 o.object).2
        stream := if o.object.file.isSome ∧ data ≠ [] then result.2 else o.stream }
  | .flush =>
      let result := lib.sgxFflush o.stream
      { o with
        object := (writerFlush result.1 o.object).2
        stream := if o.object.file.isSome then result.2 else o.stream }
  | .close =>
      let result := lib.sgxFclose o.stream
      { o with
        object := (closeFile result.1 o.object).2
        raw := if o.object.file.isSome then result.2 else o.raw }

/-- The calls that the method makes report success. -/
def OpenFile.Succeeds (o : OpenFile σ) : WriterAction → Prop
  | .write data => o.object.file.isSome → data ≠ [] →
      (lib.sgxFwrite o.stream data).1 = data.length
  | .flush => o.object.file.isSome → (lib.sgxFflush o.stream).1 = 0
  | .close => o.object.file.isSome → (lib.sgxFclose o.stream).1 = 0

/-- The bytes in the file after the destructor, which closes a handle that is still held. -/
def OpenFile.finish (o : OpenFile σ) : List UInt8 :=
  if o.object.file.isSome then (lib.sgxFclose o.stream).2 else o.raw

/-- `Read` into a buffer that is not null: the bytes that it puts there. -/
def OpenFile.read (o : OpenFile σ) (size : Nat) :
    Except FileSystemException (List UInt8) × OpenFile σ :=
  let result := lib.sgxFread o.stream size
  match readerRead true size result.1.length (lib.sgxFerror result.2) o.object with
  | (.ok n, object) => (.ok (result.1.take n), { o with object, stream := result.2 })
  | (.error e, object) => (.error e, { o with object, stream := result.2 })

/-- The loop that calls `Read` until it returns 0: what it has read, or what was thrown. There is no
result where it has not ended after this many calls. -/
def OpenFile.readToEnd (size : Nat) :
    Nat → OpenFile σ → List UInt8 → Option (Except FileSystemException (List UInt8))
  | 0, _, _ => none
  | calls + 1, o, data =>
      match o.read lib size with
      | (.ok [], _) => some (.ok data)
      | (.ok bytes, o') => readToEnd size calls o' (data ++ bytes)
      | (.error e, _) => some (.error e)

/-! ## Sessions -/

/-- A session of a writer: how its constructor goes, the seed of its open, and the calls up to its
destructor. -/
structure Session where
  io : WriterIo
  fileMode : FileMode
  policy : UInt16
  seed : Nat
  actions : List WriterAction

/-- The writer that a constructor made, whose open is under the key. -/
def Session.start (s : Session) (file : SgxFile) (key : KeySource) (before : Option HostFile)
    (raw : List UInt8) : OpenFile σ :=
  ⟨⟨some file, []⟩, lib.opened s.seed s.fileMode.fopenMode key before, raw⟩

/-- The file at the end of a session; `before` is the one that was opened. -/
def Session.stored (s : Session) (file : SgxFile) (before : Option HostFile) :
    HostFile → HostFile
  | .plain content => .plain content
  | .sealed key raw => .sealed key
      ((runFrom (OpenFile.act lib) (s.start lib file key before raw) s.actions).finish lib)

/-- An operation of an application on a protected file. -/
inductive StoreOp where
  | session (s : Session)
  | removeProtected (fileIo metaIo : RemoveIo)

variable (sha256 : List UInt8 → List.Vector UInt8 32) (p : Path)

/-- The world after the operation. -/
def storeStep (w : World) : StoreOp → World
  | .session s =>
      match protectedFileWriter sha256 s.io p s.fileMode s.policy w with
      | (.error _, w') => w'
      | (.ok file, w') => w'.put p ((w'.files p).map (s.stored lib file (w.files p)))
  | .removeProtected fileIo metaIo => (removeProtectedFile fileIo metaIo p w).2

/-- The state behind the handle of a reader whose constructor returned. -/
def readerStream (seed : Nat) (w : World) : Option σ :=
  ((w.files p).bind HostFile.key?).map fun key => lib.opened seed .r key (w.files p)

/-! ## The abstract file -/

/-- What the calls of a session write: up to the first `Close`. -/
def writtenBy : List WriterAction → List UInt8
  | [] => []
  | .write data :: rest => data ++ writtenBy rest
  | .flush :: rest => writtenBy rest
  | .close :: _ => []

/-- What an operation does to the content, where its constructor returned or its first removal
returned true. -/
inductive StoreEvent where
  | unchanged
  | replaced (data : List UInt8)
  | extended (data : List UInt8)
  | removed

/-- The event that is seen of an operation. -/
def storeEvent (w : World) : StoreOp → StoreEvent
  | .session s =>
      match (protectedFileWriter sha256 s.io p s.fileMode s.policy w).1 with
      | .error _ => .unchanged
      | .ok _ =>
          if s.fileMode = .append then .extended (writtenBy s.actions)
          else .replaced (writtenBy s.actions)
  | .removeProtected fileIo _ =>
      match (remove fileIo p w).1 with
      | .ok true => .removed
      | _ => .unchanged

/-- The content of a file, or no file. -/
def abstractStep (content : Option (List UInt8)) : StoreEvent → Option (List UInt8)
  | .unchanged => content
  | .replaced data => some data
  | .extended data => some (content.getD [] ++ data)
  | .removed => none

/-- The files and the content beside each other. -/
def pairedStep (s : World × Option (List UInt8)) (op : StoreOp) : World × Option (List UInt8) :=
  (storeStep lib sha256 p s.1 op, abstractStep s.2 (storeEvent sha256 p s.1 op))

/-- The content after the operations, from no file. -/
def contentAfter (w : World) (ops : List StoreOp) : Option (List UInt8) :=
  (runFrom (pairedStep lib sha256 p) (w, none) ops).2

/-- What is asked of the host and of the protected file system in a session: the metadata is kept as
it is given, and is written wherever a constructor has opened the file and comes to it; a call of
`sgx_fopen` that returns null leaves the file as it was; and the calls behind the handle report
success, that of the destructor included. -/
def Faithful (w : World) : StoreOp → Prop
  | .session s => 94 ≤ s.io.metaWrite.flushed ∧
      (∀ file m, s.io.ReachesSave p s.fileMode s.policy w file m → ¬ s.io.metaWrite.Fails 94) ∧
      (∀ metafile m, s.io.ReachesOpen sha256 p s.fileMode s.policy w metafile m →
        s.io.fopen.Null s.fileMode.fopenMode (w.files p) (writerKey s.policy m) →
          s.io.fopen.left = w.files p) ∧
      ∀ file w' key raw, protectedFileWriter sha256 s.io p s.fileMode s.policy w = (.ok file, w') →
        w'.files p = some (.sealed key raw) →
        let start := s.start lib file key (w.files p) raw
        let last := runFrom (OpenFile.act lib) start s.actions
        Along (OpenFile.act lib) (OpenFile.Succeeds lib) start s.actions ∧
          (last.object.file.isSome → (lib.sgxFclose last.stream).1 = 0)
  | .removeProtected _ _ => True

end Calls

/-! ## Writing -/

section Documented

variable {σ : Type} {lib : ProtectedFs σ} {unprotect : KeySource → List UInt8 → Option (List UInt8)}
  {Writes : σ → KeySource → List UInt8 → Prop} {Reads : σ → List UInt8 → Prop}

/-- A `Write` that succeeds keeps the handle, and adds the buffer. -/
theorem OpenFile.write_held (hdoc : lib.Documented unprotect Writes Reads) {o : OpenFile σ}
    {file : SgxFile} {key : KeySource} {content data : List UInt8}
    (hheld : o.object.file = some file) (hwrites : Writes o.stream key content)
    (hworks : o.Succeeds lib (.write data)) :
    (o.act lib (.write data)).object.file = some file ∧
      Writes (o.act lib (.write data)).stream key (content ++ data) := by
  obtain ⟨⟨held, log⟩, stream, raw⟩ := o
  obtain rfl : held = some file := hheld
  by_cases hempty : data = []
  · -- an empty buffer is refused, and adds nothing
    subst hempty
    have hrefused : true = false ∨ ([] : List UInt8).length = 0 := Or.inr rfl
    simp only [OpenFile.act, writerWrite]
    rw [Call.bind_of_ok (show heldFile "Invalid write parameters" ⟨some file, log⟩ =
      (.ok file, ⟨some file, log⟩) from rfl), Call.bind_of_error (Call.raiseIf_of hrefused _ _)]
    rw [if_neg (fun h => h.2 rfl), List.append_nil]
    exact ⟨rfl, hwrites⟩
  · have hwritten : (lib.sgxFwrite stream data).1 = data.length := hworks rfl hempty
    have hvalid : ¬ (true = false ∨ data.length = 0) := by
      rw [List.length_eq_zero_iff]
      simpa using hempty
    simp only [OpenFile.act, writerWrite]
    rw [Call.bind_of_ok (show heldFile "Invalid write parameters" ⟨some file, log⟩ =
      (.ok file, ⟨some file, log⟩) from rfl), Call.bind_of_ok (Call.raiseIf_of_not hvalid _ _)]
    simp only [useFile, Call.update_bind_apply]
    rw [Call.raiseIf_of_not (not_not.2 hwritten), if_pos ⟨rfl, hempty⟩]
    exact ⟨rfl, hdoc.fwrite stream key content data hwrites hwritten⟩

/-- So does a `Flush`, which adds nothing. -/
theorem OpenFile.flush_held (hdoc : lib.Documented unprotect Writes Reads) {o : OpenFile σ}
    {file : SgxFile} {key : KeySource} {content : List UInt8} (hheld : o.object.file = some file)
    (hwrites : Writes o.stream key content) (hworks : o.Succeeds lib .flush) :
    (o.act lib .flush).object.file = some file ∧
      Writes (o.act lib .flush).stream key content := by
  obtain ⟨⟨held, log⟩, stream, raw⟩ := o
  obtain rfl : held = some file := hheld
  have hflushed : (lib.sgxFflush stream).1 = 0 := hworks rfl
  simp only [OpenFile.act, writerFlush]
  rw [Call.bind_of_ok (show heldFile "File not open" ⟨some file, log⟩ =
    (.ok file, ⟨some file, log⟩) from rfl)]
  simp only [useFile, Call.update_bind_apply]
  rw [Call.raiseIf_of_not (not_not.2 hflushed), if_pos Option.isSome_some]
  exact ⟨rfl, hdoc.fflush stream key content hwrites hflushed⟩

/-- A `Close` that succeeds gives up the handle, and the content is in the file. -/
theorem OpenFile.close_held (hdoc : lib.Documented unprotect Writes Reads) {o : OpenFile σ}
    {file : SgxFile} {key : KeySource} {content : List UInt8} (hheld : o.object.file = some file)
    (hwrites : Writes o.stream key content) (hworks : o.Succeeds lib .close) :
    (o.act lib .close).object.file = none ∧
      unprotect key (o.act lib .close).raw = some content := by
  obtain ⟨⟨held, log⟩, stream, raw⟩ := o
  obtain rfl : held = some file := hheld
  have hclosed : (lib.sgxFclose stream).1 = 0 := hworks rfl
  simp only [OpenFile.act, closeFile]
  simp only [Call.read_bind_apply, Call.update_bind_apply]
  rw [Call.bind_of_ok (Call.raiseIf_of_not (not_not.2 hclosed) _ _), if_pos Option.isSome_some]
  exact ⟨rfl, hdoc.fclose stream key content hwrites hclosed⟩

variable (lib) in
/-- An object without a handle calls nothing. -/
theorem OpenFile.act_closed {o : OpenFile σ} (hclosed : o.object.file = none)
    (action : WriterAction) :
    (o.act lib action).object.file = none ∧ (o.act lib action).raw = o.raw := by
  obtain ⟨⟨held, log⟩, stream, raw⟩ := o
  obtain rfl : held = none := hclosed
  cases action with
  | write data => exact ⟨rfl, rfl⟩
  | flush => exact ⟨rfl, rfl⟩
  | close => exact ⟨rfl, rfl⟩

/-- Nor does its destructor. -/
theorem OpenFile.finish_closed {o : OpenFile σ} (hclosed : o.object.file = none)
    (actions : List WriterAction) : (runFrom (OpenFile.act lib) o actions).finish lib = o.raw := by
  induction actions generalizing o with
  | nil => rw [runFrom, OpenFile.finish, if_neg (by rw [hclosed]; exact Bool.false_ne_true)]
  | cons action rest ih =>
      obtain ⟨hstill, hraw⟩ := OpenFile.act_closed lib hclosed action
      rw [runFrom, ih hstill, hraw]

/-- **What a session writes**: the buffers one behind the other, up to the first `Close`; the
content is in the file when the object is gone. -/
theorem OpenFile.finish_content (hdoc : lib.Documented unprotect Writes Reads) {file : SgxFile}
    {key : KeySource} {actions : List WriterAction} {o : OpenFile σ} {content : List UInt8}
    (hheld : o.object.file = some file) (hwrites : Writes o.stream key content)
    (hworks : Along (OpenFile.act lib) (OpenFile.Succeeds lib) o actions)
    (hlast : (runFrom (OpenFile.act lib) o actions).object.file.isSome →
      (lib.sgxFclose (runFrom (OpenFile.act lib) o actions).stream).1 = 0) :
    unprotect key ((runFrom (OpenFile.act lib) o actions).finish lib) =
      some (content ++ writtenBy actions) := by
  induction actions generalizing o content with
  | nil =>
      have hsome : o.object.file.isSome := by
        rw [hheld]
        rfl
      rw [runFrom, OpenFile.finish, if_pos hsome, writtenBy, List.append_nil]
      exact hdoc.fclose o.stream key content hwrites (hlast hsome)
  | cons action rest ih =>
      obtain ⟨hfirst, hrest⟩ := hworks
      rw [runFrom] at hlast ⊢
      cases action with
      | write data =>
          obtain ⟨hstill, hadded⟩ := OpenFile.write_held hdoc hheld hwrites hfirst
          rw [ih hstill hadded hrest hlast, writtenBy, List.append_assoc]
      | flush =>
          obtain ⟨hstill, hsame⟩ := OpenFile.flush_held hdoc hheld hwrites hfirst
          exact ih hstill hsame hrest hlast
      -- behind `Close` the object has no handle
      | close =>
          obtain ⟨hclosed, hstored⟩ := OpenFile.close_held hdoc hheld hwrites hfirst
          rw [OpenFile.finish_closed hclosed, hstored, writtenBy, List.append_nil]

/-! ## Reading -/

variable (lib) in
/-- `Read` gives what `sgx_fread` gave; it throws where that is nothing and there is an error. -/
theorem OpenFile.read_held (file : SgxFile) (log : List FsEvent) (stream : σ) (raw : List UInt8)
    {size : Nat} (hsize : 0 < size) :
    ∃ log', (OpenFile.mk ⟨some file, log⟩ stream raw).read lib size =
      (if (lib.sgxFread stream size).1 = [] ∧
          lib.sgxFerror (lib.sgxFread stream size).2 ≠ 0 then .error ⟨"Read error"⟩
        else .ok (lib.sgxFread stream size).1,
        ⟨⟨some file, log'⟩, (lib.sgxFread stream size).2, raw⟩) := by
  have hvalid : ¬ (true = false ∨ size = 0) := by
    rintro (h | h)
    · cases h
    · omega
  simp only [OpenFile.read, readerRead]
  rw [Call.bind_of_ok (show heldFile "Invalid read parameters" ⟨some file, log⟩ =
    (.ok file, ⟨some file, log⟩) from rfl), Call.bind_of_ok (Call.raiseIf_of_not hvalid _ _)]
  simp only [useFile, Call.update_bind_apply]
  by_cases hnil : (lib.sgxFread stream size).1 = []
  · rw [if_pos (List.length_eq_zero_iff.2 hnil), Call.update_bind_apply]
    by_cases herror : lib.sgxFerror (lib.sgxFread stream size).2 ≠ 0
    · rw [Call.bind_of_error (Call.raiseIf_of herror _ _), if_pos ⟨hnil, herror⟩]
      exact ⟨_, rfl⟩
    · rw [Call.bind_of_ok (Call.raiseIf_of_not herror _ _), if_neg fun h => herror h.2]
      refine ⟨log ++ [.use file] ++ [.use file], ?_⟩
      simp only [Call.pure_apply, List.take_length]
  · rw [if_neg fun h => hnil (List.length_eq_zero_iff.1 h), if_neg fun h => hnil h.1]
    refine ⟨log ++ [.use file], ?_⟩
    simp only [Call.pure_apply, List.take_length]

/-- How the reading loop ends: with what was left, or with the exception of a `Read` that had an
error; where no call has one, with what was left. -/
structure ReadsBack (lib : ProtectedFs σ) (size : Nat) (stream : σ) (left : List UInt8)
    (result : Option (Except FileSystemException (List UInt8))) : Prop where
  ends : result = some (.ok left) ∨ result = some (.error ⟨"Read error"⟩)
  works : (∀ n, lib.sgxFerror ((fun s => (lib.sgxFread s size).2)^[n] stream) = 0) →
    result = some (.ok left)

/-- **The reading loop** reads what is left of the content, in pieces of any size. -/
theorem OpenFile.readToEnd_spec (hdoc : lib.Documented unprotect Writes Reads) {size : Nat}
    (hsize : 0 < size) (file : SgxFile) (raw : List UInt8) {calls : Nat} :
    ∀ (log : List FsEvent) (stream : σ) (left data : List UInt8), Reads stream left →
      left.length < calls → ReadsBack lib size stream (data ++ left)
        (OpenFile.readToEnd lib size calls ⟨⟨some file, log⟩, stream, raw⟩ data) := by
  induction calls with
  | zero =>
      intro log stream left data hreads h
      exact absurd h (Nat.not_lt_zero _)
  | succ calls ih =>
      intro log stream left data hreads h
      obtain ⟨log', hread⟩ := OpenFile.read_held lib file log stream raw hsize
      obtain ⟨rest, hleft, hrest, hend⟩ := hdoc.fread stream size left hreads hsize
      rw [OpenFile.readToEnd, hread]
      generalize hbytes : (lib.sgxFread stream size).1 = bytes at hleft hend ⊢
      cases bytes with
      | nil =>
          by_cases herror : lib.sgxFerror (lib.sgxFread stream size).2 = 0
          · have hnothing : rest = [] := hend rfl herror
            subst hnothing hleft
            rw [if_neg fun h => h.2 herror]
            exact ⟨Or.inl (by rw [List.append_nil, List.append_nil]),
              fun _ => by rw [List.append_nil, List.append_nil]⟩
          · rw [if_pos ⟨rfl, herror⟩]
            exact ⟨Or.inr rfl, fun hworks => absurd (hworks 1) herror⟩
      | cons b more =>
          rw [if_neg fun h => List.cons_ne_nil b more h.1]
          have hfewer : rest.length < calls := by
            rw [hleft, List.length_append, List.length_cons] at h
            omega
          obtain ⟨ends, works⟩ := ih log' _ rest (data ++ b :: more) hrest hfewer
          rw [hleft, ← List.append_assoc]
          exact ⟨ends, fun hworks => works fun n => hworks (n + 1)⟩

end Documented

/-! ## The invariant -/

section Digest

variable {σ : Type} {lib : ProtectedFs σ} {unprotect : KeySource → List UInt8 → Option (List UInt8)}
  {Writes : σ → KeySource → List UInt8 → Prop} {Reads : σ → List UInt8 → Prop}
  {sha256 : List UInt8 → List.Vector UInt8 32} {p : Path}

variable (unprotect sha256 p) in
/-- The metadata agrees with the protected file, and the protected file has the content. -/
structure Stores (w : World) (content : Option (List UInt8)) : Prop where
  agrees : MetadataAgrees sha256 94 p w
  absent : content = none → w.files p = none
  present : ∀ bytes, content = some bytes → w.files (metadataFile p) ≠ none ∧
    ∃ key raw, w.files p = some (.sealed key raw) ∧ unprotect key raw = some bytes

theorem Stores.of_files_eq {w w' : World} {content : Option (List UInt8)}
    (h : Stores unprotect sha256 p w content) (hfiles : w'.files = w.files) :
    Stores unprotect sha256 p w' content := by
  obtain ⟨hagrees, habsent, hpresent⟩ := h
  refine ⟨hagrees.of_shrinks sha256 fun q => Or.inl (by rw [hfiles]), ?_, ?_⟩
  · rw [hfiles]
    exact habsent
  · rw [hfiles]
    exact hpresent

/-- A constructor that returned has opened a file that has a key, and there is metadata. -/
theorem sealed_of_open {w w' : World} {io : WriterIo} {fileMode : FileMode} {policy : UInt16}
    {file : SgxFile} (h : protectedFileWriter sha256 io p fileMode policy w = (.ok file, w')) :
    w'.files (metadataFile p) ≠ none ∧ ∃ key raw, w'.files p = some (.sealed key raw) ∧
      w'.files p = fileMode.fopenMode.opened io.fopen.raw (w.files p) key := by
  have hsealed : ∀ (mode : FopenMode) (key : KeySource), mode.admits (w.files p) key = true →
      ∃ raw, mode.opened io.fopen.raw (w.files p) key = some (.sealed key raw) := by
    intro mode key hadmits
    obtain ⟨f, hopened, hkey⟩ := FopenMode.opened_key io.fopen.raw hadmits
    rw [hopened]
    cases f with
    | plain content => cases hkey
    | «sealed» k raw =>
        cases hkey
        exact ⟨raw, rfl⟩
  cases protectedFileWriter_outcome sha256 h with
  | appended hmode existing =>
      obtain ⟨m, hfrom, -, -, hadmits, rfl⟩ := openForAppend_existing sha256 existing
      obtain ⟨f, hmeta, -⟩ := fromFile_some sha256 hfrom
      obtain ⟨raw, hraw⟩ := hsealed _ _ hadmits
      subst hmode
      refine ⟨?_, writerKey policy m, raw, ?_, ?_⟩
      · rw [World.afterFopen_files_of_ne w io.fopen (metadataFile_ne_self p), hmeta]
        exact Option.some_ne_none f
      · rw [World.afterFopen_files_self, hraw]
      · rw [World.afterFopen_files_self]
        rfl
  | @saved _ m reaches written =>
      obtain ⟨raw, hraw⟩ := hsealed _ _ reaches.admits
      refine ⟨?_, writerKey policy m, raw, ?_, ?_⟩
      · rw [World.put_files_self]
        exact Option.some_ne_none _
      · rw [World.put_files_of_ne _ (metadataFile_ne_self p).symm, World.afterFopen_files_self,
          hraw]
      · rw [World.put_files_of_ne _ (metadataFile_ne_self p).symm, World.afterFopen_files_self]

/-- The content that a handle of a writer starts with is the stored one, and nothing behind a file
mode that makes the file new. -/
theorem Stores.start (hdoc : lib.Documented unprotect Writes Reads) {w : World}
    {content : Option (List UInt8)} (h : Stores unprotect sha256 p w content) (s : Session)
    (file : SgxFile) {key : KeySource} {raw : List UInt8}
    (hopened : some (.sealed key raw) =
      s.fileMode.fopenMode.opened s.io.fopen.raw (w.files p) key) :
    Writes (s.start lib file key (w.files p) raw).stream key
      (if s.fileMode = .append then content.getD [] else []) := by
  rw [Session.start]
  by_cases happend : s.fileMode = .append
  · rw [if_pos happend, happend]
    rw [happend] at hopened
    cases content with
    | none =>
        rw [h.absent rfl]
        exact hdoc.opened_new s.seed key
    | some bytes =>
        obtain ⟨-, stored, bare, hfile, hbytes⟩ := h.present bytes rfl
        rw [hfile] at hopened ⊢
        -- the mode `a` opens a file that exists as it is
        obtain ⟨rfl, rfl⟩ : key = stored ∧ raw = bare := by
          injection hopened with hsame
          injection hsame with hkey hraw
          exact ⟨hkey, hraw⟩
        exact hdoc.opened_a s.seed key raw bytes hbytes
  · have hmode : s.fileMode.fopenMode = .w := by
      cases hfileMode : s.fileMode with
      | append => exact absurd hfileMode happend
      | createNew => rfl
      | openOrCreate => rfl
      | other => rfl
    rw [if_neg happend, hmode]
    exact hdoc.opened_w s.seed key (w.files p)

/-- A file that keeps its key and has a new content keeps the invariant, where there is metadata. -/
theorem Stores.rewritten {w : World} {key : KeySource} {raw new bytes : List UInt8}
    (hagrees : MetadataAgrees sha256 94 p w) (hmeta : w.files (metadataFile p) ≠ none)
    (hfile : w.files p = some (.sealed key raw)) (hnew : unprotect key new = some bytes) :
    Stores unprotect sha256 p (w.put p (some (.sealed key new))) (some bytes) := by
  refine ⟨?_, fun hnone => (Option.some_ne_none bytes hnone).elim, ?_⟩
  · -- it is the step that writes through a handle
    have hstep : MetadataAgrees sha256 94 p (pairStep sha256 p w (.writeContent new)) :=
      metadataAgrees_step sha256 w (.writeContent new) trivial hagrees
    have hsame : (w.files p).map (HostFile.rewritten new) = some (.sealed key new) := by
      rw [hfile]
      rfl
    rw [pairStep, hsame] at hstep
    exact hstep
  · rintro bytes' heq
    cases heq
    rw [World.put_files_of_ne w (metadataFile_ne_self p)]
    exact ⟨hmeta, key, new, World.put_files_self .., hnew⟩

/-! ## Steps -/

/-- A session keeps the invariant. -/
theorem Stores.session (hdoc : lib.Documented unprotect Writes Reads) {w : World}
    {content : Option (List UInt8)} (h : Stores unprotect sha256 p w content) {s : Session}
    (hfaithful : Faithful lib sha256 p w (.session s)) :
    Stores unprotect sha256 p (storeStep lib sha256 p w (.session s))
      (abstractStep content (storeEvent sha256 p w (.session s))) := by
  obtain ⟨hkept, hwritten, hleft, hworks⟩ := hfaithful
  rcases hopen : protectedFileWriter sha256 s.io p s.fileMode s.policy w with ⟨r, w'⟩
  simp only [storeStep, storeEvent, hopen]
  cases r with
  | error e =>
      cases protectedFileWriter_outcome sha256 hopen with
      | stopped => exact h
      | refused reaches null =>
          apply h.of_files_eq
          rw [World.afterNull, hleft _ _ reaches null]
          exact Function.update_eq_self p w.files
      | unsaved reaches fails => exact absurd fails (hwritten _ _ reaches)
  | ok file =>
      obtain ⟨hmeta, key, raw, hfile, hopened⟩ := sealed_of_open hopen
      obtain ⟨halong, hlast⟩ := hworks file w' key raw hopen hfile
      have hnew := OpenFile.finish_content hdoc rfl
        (h.start hdoc s file (hfile.symm.trans hopened)) halong hlast
      have habstract : abstractStep content (if s.fileMode = .append then
          .extended (writtenBy s.actions) else .replaced (writtenBy s.actions)) =
            some ((if s.fileMode = .append then content.getD [] else []) ++
              writtenBy s.actions) := by
        by_cases happend : s.fileMode = .append
        · rw [if_pos happend, if_pos happend, abstractStep]
        · rw [if_neg happend, if_neg happend, abstractStep, List.nil_append]
      rw [habstract]
      simp only [hfile, Option.map_some, Session.stored]
      exact Stores.rewritten (h.agrees.openWriter sha256 hopen hkept) hmeta hfile hnew

/-- `Remove` changes no file where it throws. -/
theorem remove_error {io : RemoveIo} {q : Path} {w w' : World} {e : FileSystemException}
    (h : remove io q w = (.error e, w')) : w'.files = w.files := by
  simp only [remove] at h
  rcases Call.raiseIf_bind_error_iff.1 h with ⟨-, -, rfl⟩ | ⟨hq, hrest⟩
  · rfl
  rcases Call.bind_error_iff.1 hrest with hfound | ⟨found, w₁, hfound, hrest⟩
  · rw [(readsOnly_existsPath io.stat q).eq hfound]
  obtain rfl := (readsOnly_existsPath io.stat q).eq hfound
  cases found with
  | false => cases hrest
  | true =>
      rw [if_pos rfl] at hrest
      rcases Call.raiseIf_bind_error_iff.1 hrest with ⟨-, -, rfl⟩ | ⟨-, htail⟩
      · rfl
      simp only [Call.read_bind_apply, Call.update_bind_apply] at htail
      rcases Call.raiseIf_bind_error_iff.1 htail with ⟨hret, -, rfl⟩ | ⟨-, hret⟩
      -- the answer is negative only where nothing was removed
      · by_cases hf : io.fails = true
        · simp [ssgxOcallRemoveFile, hq, hf]
        · simp [ssgxOcallRemoveFile, hq, hf] at hret
      · cases hret

variable (lib) in
/-- A removal keeps the invariant. -/
theorem Stores.removeProtected {w : World} {content : Option (List UInt8)}
    (h : Stores unprotect sha256 p w content) (fileIo metaIo : RemoveIo) :
    Stores unprotect sha256 p (storeStep lib sha256 p w (.removeProtected fileIo metaIo))
      (abstractStep content (storeEvent sha256 p w (.removeProtected fileIo metaIo))) := by
  rcases hremove : remove fileIo p w with ⟨r, w₁⟩
  simp only [storeStep, storeEvent, hremove, removeProtectedFile]
  cases r with
  | error e =>
      rw [Call.bind_of_error hremove]
      exact h.of_files_eq (remove_error hremove)
  | ok found =>
      rw [Call.bind_of_ok hremove]
      obtain ⟨-, -, -, hw₁⟩ := remove_ok_iff.1 hremove
      cases found with
      | false =>
          obtain rfl : w₁ = w := hw₁
          exact h
      | true =>
          -- the file is gone, whatever the removal of its metadata does
          have hgone : w₁.files p = none := by
            rw [hw₁.2]
            exact Function.update_self ..
          have hshrinks := shrinks_remove metaIo (metadataFile p) w₁
          rw [if_pos rfl]
          refine ⟨?_, fun _ => ?_, fun bytes hnone => by cases hnone⟩
          · exact (h.agrees.of_shrinks sha256 (hw₁.2 ▸ shrinks_without w p)).of_shrinks sha256
              hshrinks
          · rcases hshrinks p with hsame | hnone
            · rw [hsame, hgone]
            · exact hnone

/-! ## Reading back -/

variable (lib p) in
/-- The reading loop over a reader whose constructor returned. -/
def readBack (size seed calls : Nat) (file : SgxFile) (w : World) :
    Option (Except FileSystemException (List UInt8)) :=
  (readerStream lib p seed w).bind fun stream =>
    OpenFile.readToEnd lib size calls ⟨⟨some file, []⟩, stream, []⟩ []

/-- There is a content where a reader's constructor returns, and it is read back. -/
theorem Stores.readBack_of_ok (hdoc : lib.Documented unprotect Writes Reads) {w w' : World}
    {content : Option (List UInt8)} (h : Stores unprotect sha256 p w content) {io : ReaderIo}
    {file : SgxFile} (hopen : protectedFileReader sha256 io p w = (.ok file, w')) {size : Nat}
    (hsize : 0 < size) :
    ∃ bytes, content = some bytes ∧ ∀ seed calls, bytes.length < calls →
      ∃ stream, readerStream lib p seed w = some stream ∧
        ReadsBack lib size stream bytes (readBack lib p size seed calls file w) := by
  obtain ⟨md, -, -, -, hadmits, -, -⟩ := (protectedFileReader_ok_iff sha256).1 hopen
  cases content with
  | none =>
      rw [h.absent rfl] at hadmits
      cases hadmits
  | some bytes =>
      obtain ⟨-, key, raw, hfile, hraw⟩ := h.present bytes rfl
      refine ⟨bytes, rfl, fun seed calls hcalls => ?_⟩
      have hstream : readerStream lib p seed w =
          some (lib.opened seed .r key (some (.sealed key raw))) := by
        rw [readerStream, hfile]
        rfl
      rw [readBack, hstream]
      exact ⟨_, rfl, OpenFile.readToEnd_spec hdoc hsize file [] [] _ bytes []
        (hdoc.opened_r seed key raw bytes hraw) hcalls⟩

/-- Where there is a content, a reader whose calls work opens the file. -/
theorem Stores.opens {w : World} {bytes : List UInt8}
    (h : Stores unprotect sha256 p w (some bytes)) :
    ∃ io file w', protectedFileReader sha256 io p w = (.ok file, w') := by
  obtain ⟨hmeta, key, raw, hfile, -⟩ := h.present bytes rfl
  obtain ⟨m, hm⟩ := h.agrees.resolve_left hmeta
  obtain ⟨n, hn, hstored⟩ := hm.stored
  have hreads : ReadsAs sha256 (w.files (metadataFile p)) (some m) := by
    rw [hstored, List.take_of_length_le (by rw [FileMetaData.encode_length]; exact hn)]
    refine ⟨?_, Option.some_ne_none m, FileMetaData.parse_encode sha256 hm.version⟩
    rw [HostFile.bytes, FileMetaData.encode_length]
    decide
  have hopens : Opens sha256 w p key (some m) :=
    (opens_iff sha256).2 ⟨⟨_, hfile, rfl⟩, hm.key _ key hfile rfl, hreads⟩
  obtain ⟨io, file, w', hread, -⟩ := hopens
  exact ⟨io, file, w', hread⟩

variable (p) in
/-- The invariant holds after every run, from no files. -/
theorem stores_run (hdoc : lib.Documented unprotect Writes Reads) {w₀ : World}
    (hfile : w₀.files p = none) (hmeta : w₀.files (metadataFile p) = none) {ops : List StoreOp}
    (hops : Along (storeStep lib sha256 p) (Faithful lib sha256 p) w₀ ops) :
    Stores unprotect sha256 p (runFrom (storeStep lib sha256 p) w₀ ops)
      (contentAfter lib sha256 p w₀ ops) := by
  -- the world of the paired run is that of the run
  have hpart : (runFrom (pairedStep lib sha256 p) (w₀, none) ops).1 =
      runFrom (storeStep lib sha256 p) w₀ ops := part_runFrom (fun _ _ => rfl) _ _
  have hpaired : ∀ (s : World × Option (List UInt8)),
      Along (storeStep lib sha256 p) (Faithful lib sha256 p) s.1 ops →
      Along (pairedStep lib sha256 p) (fun s op => Faithful lib sha256 p s.1 op) s ops := by
    clear hops hpart
    induction ops with
    | nil => exact fun _ _ => trivial
    | cons op rest ih => exact fun s h => ⟨h.1, ih _ h.2⟩
  rw [← hpart, contentAfter]
  have hstep : ∀ (s : World × Option (List UInt8)) (op : StoreOp), Faithful lib sha256 p s.1 op →
      Stores unprotect sha256 p s.1 s.2 →
      Stores unprotect sha256 p (pairedStep lib sha256 p s op).1
        (pairedStep lib sha256 p s op).2 := by
    rintro ⟨w, content⟩ op hfaithful hstores
    cases op with
    | session s => exact hstores.session hdoc hfaithful
    | removeProtected fileIo metaIo => exact hstores.removeProtected lib fileIo metaIo
  have hstart : Stores unprotect sha256 p w₀ none :=
    ⟨Or.inl hmeta, fun _ => hfile, fun bytes hnone => by cases hnone⟩
  exact @invariant_runFrom _ _ _ _ (fun s => Stores unprotect sha256 p s.1 s.2) hstep _ _
    (hpaired (w₀, none) hops) hstart

/-- **Protected files give back what was written.** After every run of sessions and removals on one
path, with any modes, policies and outcomes of the calls, from no files and on a faithful host: a
reader whose constructor returns reads the content that the sessions wrote or has a `Read` that
throws, which needs an error of the stream; and there is such a reader wherever there is a content.
-/
theorem stored_content (hdoc : lib.Documented unprotect Writes Reads) {w₀ : World}
    (hfile : w₀.files p = none) (hmeta : w₀.files (metadataFile p) = none) {ops : List StoreOp}
    (hops : Along (storeStep lib sha256 p) (Faithful lib sha256 p) w₀ ops) {size : Nat}
    (hsize : 0 < size) :
    let w := runFrom (storeStep lib sha256 p) w₀ ops
    let content := contentAfter lib sha256 p w₀ ops
    (∀ io file w', protectedFileReader sha256 io p w = (.ok file, w') →
      ∃ bytes, content = some bytes ∧ ∀ seed calls, bytes.length < calls →
        ∃ stream, readerStream lib p seed w = some stream ∧
          ReadsBack lib size stream bytes (readBack lib p size seed calls file w)) ∧
    ∀ bytes, content = some bytes →
      ∃ io file w', protectedFileReader sha256 io p w = (.ok file, w') := by
  have hstores := stores_run p hdoc hfile hmeta hops
  intro w content
  refine ⟨fun io file w' hopen => hstores.readBack_of_ok hdoc hopen hsize, fun bytes hbytes => ?_⟩
  rw [show contentAfter lib sha256 p w₀ ops = some bytes from hbytes] at hstores
  exact hstores.opens

end Digest

/-- A protected file system that keeps contents as they are; behind a handle is what was written, or
what is left to be read. -/
def ProtectedFs.bare : ProtectedFs (List UInt8) where
  opened _ mode _ file :=
    match mode with
    | .w => []
    | _ => (file.map HostFile.bytes).getD []
  sgxFwrite s data := (data.length, s ++ data)
  sgxFflush s := (0, s)
  sgxFread s size := (s.take size, s.drop size)
  sgxFerror _ := 0
  sgxFclose s := (0, s)

theorem ProtectedFs.bare_documented :
    ProtectedFs.bare.Documented (fun _ raw => some raw) (fun s _ content => s = content) Eq where
  opened_w _ _ _ := rfl
  opened_new _ _ := rfl
  opened_a _ _ _ _ h := Option.some.inj h
  opened_r _ _ _ _ h := Option.some.inj h
  fwrite s _ content data h _ := congrArg (· ++ data) h
  fflush _ _ _ h _ := h
  fclose _ _ _ h _ := congrArg some h
  fread s size left h hsize := by
    subst h
    refine ⟨s.drop size, (List.take_append_drop size s).symm, rfl, fun hnothing _ => ?_⟩
    rcases List.take_eq_nil_iff.1 hnothing with hzero | hnil
    · omega
    · rw [hnil, List.drop_nil]

/-- The record of the first session below. -/
def contentRecord : FileMetaData :=
  .make 0 sgxKeypolicyMrenclave (List.Vector.replicate 32 1) 1 (List.Vector.replicate 16 0)

/-- The calls of a later session; a null open would leave the file of the first. -/
def contentIo (file : SgxFile) : WriterIo :=
  { WriterIo.working ⟨1, List.Vector.replicate 16 0⟩ (List.Vector.replicate 32 2) file with
    fopen := ⟨some file, [], some (.sealed contentRecord.keySource [1, 2, 3])⟩ }

/-- A file is created under MRENCLAVE, opened under a policy that does not match, and appended to;
between the writes of the last session is a `Close`. -/
def contentRun : List StoreOp :=
  [.session ⟨.working ⟨1, List.Vector.replicate 16 0⟩ (List.Vector.replicate 32 1) 1, .createNew,
      sgxKeypolicyMrenclave, 0, [.write [1, 2], .flush, .write [3]]⟩,
    .session ⟨contentIo 2, .append, sgxKeypolicyMrsigner, 1, [.write [9]]⟩,
    .session ⟨contentIo 3, .append, sgxKeypolicyMrenclave, 2, [.write [4], .close, .write [5]]⟩]

theorem contentRun_read :
    ∃ io file w', protectedFileReader (fun _ => List.Vector.replicate 32 0) io ['f']
        (runFrom (storeStep .bare (fun _ => List.Vector.replicate 32 0) ['f'])
          ⟨fun _ => none, []⟩ contentRun) = (.ok file, w') ∧
      readBack .bare ['f'] 3 0 5 file
        (runFrom (storeStep .bare (fun _ => List.Vector.replicate 32 0) ['f'])
          ⟨fun _ => none, []⟩ contentRun) = some (.ok [1, 2, 3, 4]) := by
  have hwritten : ¬ WriteIo.working.Fails 94 := by
    simp [WriteIo.Fails, WriteIo.working, fsBufferSize]
  have hworks : ∀ (s : Session) (file : SgxFile) (key : KeySource) (before : Option HostFile)
      (raw : List UInt8), Along (OpenFile.act .bare) (OpenFile.Succeeds .bare)
        (s.start .bare file key before raw) s.actions := by
    intro s file key before raw
    apply along_of_forall
    intro o action
    cases action with
    | write data => exact fun _ _ => rfl
    | flush => exact fun _ => rfl
    | close => exact fun _ => rfl
  have hops : Along (storeStep .bare (fun _ => List.Vector.replicate 32 0) ['f'])
      (Faithful .bare (fun _ => List.Vector.replicate 32 0) ['f']) ⟨fun _ => none, []⟩
      contentRun := by
    refine ⟨⟨by decide, fun _ _ _ => hwritten, fun _ _ _ _ => rfl, ?_⟩,
      ⟨by decide, fun _ _ _ => hwritten, fun _ _ _ _ => ?_, ?_⟩,
      ⟨by decide, fun _ _ _ => hwritten, fun _ _ _ _ => ?_, ?_⟩, trivial⟩
    · exact fun _ _ _ _ _ _ => ⟨hworks _ _ _ _ _, fun _ => rfl⟩
    · decide +kernel
    · exact fun _ _ _ _ _ _ => ⟨hworks _ _ _ _ _, fun _ => rfl⟩
    · decide +kernel
    · exact fun _ _ _ _ _ _ => ⟨hworks _ _ _ _ _, fun _ => rfl⟩
  have hcontent : contentAfter .bare (fun _ => List.Vector.replicate 32 0) ['f']
      ⟨fun _ => none, []⟩ contentRun = some [1, 2, 3, 4] := by
    decide +kernel
  have hsize : 0 < 3 := by decide
  obtain ⟨hreads, hopens⟩ := stored_content ProtectedFs.bare_documented rfl rfl hops hsize
  obtain ⟨io, file, w', hopen⟩ := hopens _ hcontent
  obtain ⟨bytes, hbytes, hback⟩ := hreads io file w' hopen
  obtain rfl : bytes = [1, 2, 3, 4] := Option.some.inj (hbytes.symm.trans hcontent)
  obtain ⟨stream, -, hends⟩ := hback 0 5 (by decide)
  exact ⟨io, file, w', hopen, hends.works fun _ => rfl⟩

end Ssgx.Filesystem
