import Ssgx.Support.Run
import Ssgx.Support.Threads
import Ssgx.Filesystem.Host

/-!
# Concurrent reads and writes of a plain file

The steps of any number of `ssgx_ocall_read_file` and `ssgx_ocall_write_file` calls on one path,
none of which fails. The file is shared; a call has its place in the function, what `stdio` has read
ahead of it or holds back for it, and the lock that its open file has.

`fopen` with mode `w` empties the file before `flock` is asked for it, and `flock(LOCK_UN)` gives
the lock up before `fclose` writes what `stdio` still holds. `atomic_along` says in which runs the
lock makes the calls atomic all the same.
-/

set_option autoImplicit false

namespace Ssgx.Filesystem

open Ssgx.Support

/-! ## The file -/

/-- `fopen` with mode `w`: the file is created or emptied. -/
def openedForWrite (_content : Option (List UInt8)) : Option (List UInt8) := some []

/-- A `write` of bytes at an offset: a gap in front of them is filled with zeros, and what is behind
them stays. -/
def overwrite (old : List UInt8) (offset : Nat) (bytes : List UInt8) : List UInt8 :=
  if bytes = [] then old
  else
    (old ++ List.replicate (offset - old.length) 0).take offset ++ bytes ++
      old.drop (offset + bytes.length)

/-- A `write` to the open file. -/
def writeBytes (content : Option (List UInt8)) (offset : Nat) (bytes : List UInt8) :
    Option (List UInt8) :=
  content.map fun old => overwrite old offset bytes

/-- The modes of `flock`. -/
inductive LockMode where
  | shared
  | exclusive
deriving DecidableEq

/-! ## The calls -/

/-- Where a call is. A read has the size it saw, the bytes in its buffer and those that `stdio` has
read ahead; a write has the numbers of bytes that `fwrite` took and that `stdio` has written. -/
inductive FileStage where
  | readEntered
  | readOpened
  | readLocked
  | reading (fileSize : Nat) (fileBuf stdio : List UInt8)
  | readUnlocking (ret : Int) (data : List UInt8)
  | readClosing (ret : Int) (data : List UInt8)
  | readReturned (ret : Int) (data : List UInt8)
  | writeEntered (data : List UInt8)
  | writeOpened (data : List UInt8)
  | writing (data : List UInt8) (writeSize flushed : Nat)
  | writeRefused (data : List UInt8)
  | flushing (data : List UInt8) (flushed : Nat)
  | writeReturned (data : List UInt8) (ret : Int)
deriving DecidableEq

/-- A call, with the content that its `fopen` found. -/
structure FileCall where
  stage : FileStage
  found : Option (List UInt8)
deriving DecidableEq

/-- What the host asks for. -/
inductive FileOp where
  | readFile
  | writeFile (data : List UInt8)

/-- A call enters its function. -/
def FileOp.enter : FileOp → FileCall
  | .readFile => ⟨.readEntered, none⟩
  | .writeFile data => ⟨.writeEntered data, none⟩

/-- The next thing a call does. `fill` and `flush` are the system calls that `stdio` makes. -/
inductive FileAction where
  | fopen
  | flock
  | fstat
  | fill (k : Nat)
  | fread
  | fwrite
  | flush (k : Nat)
  | unlock
  | fclose

/-- The calls on one path: what is shared is the content of the file. -/
abbrev SharedFile := Threads (Option (List UInt8)) FileCall

namespace FileCall

/-- The call goes on to another place. -/
def goto (call : FileCall) (stage : FileStage) : FileCall := { call with stage := stage }

/-- The lock that the open file of a call has. -/
def lock (call : FileCall) : Option LockMode :=
  match call.stage with
  | .readLocked => some .shared
  | .reading .. => some .shared
  | .readUnlocking .. => some .shared
  | .writing .. => some .exclusive
  | _ => none

/-- The size of the next chunk. -/
def chunk (total done : Nat) : Nat := min (total - done) fsBufferSize

end FileCall

/-- `flock` with `LOCK_NB` gets the lock in a mode. -/
def SharedFile.lockFree (s : SharedFile) (mode : LockMode) : Bool :=
  s.locals.all fun call =>
    match call.lock with
    | none => true
    | some held => held = .shared ∧ mode = .shared

namespace FileCall

/-- What a step of a call makes of the content and the call; none where the call is elsewhere. -/
def next (s : SharedFile) (call : FileCall) : FileAction → Option (Option (List UInt8) × FileCall)
  | .fopen =>
      match call.stage with
      | .readEntered =>
          match s.shared with
          | none => some (s.shared, call.goto (.readReturned (-2) []))
          | some _ => some (s.shared, ⟨.readOpened, s.shared⟩)
      | .writeEntered data =>
          if fsMaxFileSize < data.length then some (s.shared, call.goto (.writeReturned data (-3)))
          -- the content goes before the lock is asked for
          else some (openedForWrite s.shared, ⟨.writeOpened data, s.shared⟩)
      | _ => none
  | .flock =>
      match call.stage with
      | .readOpened =>
          if s.lockFree .shared then some (s.shared, call.goto .readLocked)
          else some (s.shared, call.goto (.readClosing (-3) []))
      | .writeOpened data =>
          if s.lockFree .exclusive then some (s.shared, call.goto (.writing data 0 0))
          else some (s.shared, call.goto (.writeRefused data))
      | _ => none
  | .fstat =>
      match call.stage with
      | .readLocked =>
          let fileSize := (s.shared.getD []).length
          if fileSize = 0 then some (s.shared, call.goto (.readUnlocking 0 []))
          else if fsMaxFileSize < fileSize then some (s.shared, call.goto (.readUnlocking (-5) []))
          else some (s.shared, call.goto (.reading fileSize [] []))
      | _ => none
  | .fill k =>
      match call.stage with
      | .reading fileSize fileBuf stdio =>
          if fileBuf.length < fileSize ∧ stdio.length < chunk fileSize fileBuf.length then
            let rest := (s.shared.getD []).drop (fileBuf.length + stdio.length)
            -- the end of the file comes too early and `fread` is short
            if rest = [] then some (s.shared, call.goto (.readUnlocking (-7) []))
            else if k = 0 then none
            else some (s.shared, call.goto (.reading fileSize fileBuf (stdio ++ rest.take k)))
          else none
      | _ => none
  | .fread =>
      match call.stage with
      | .reading fileSize fileBuf stdio =>
          let count := chunk fileSize fileBuf.length
          if fileBuf.length < fileSize ∧ count ≤ stdio.length then
            some (s.shared,
              call.goto (.reading fileSize (fileBuf ++ stdio.take count) (stdio.drop count)))
          else none
      | _ => none
  | .fwrite =>
      match call.stage with
      | .writing data writeSize flushed =>
          if writeSize < data.length then
            some (s.shared,
              call.goto (.writing data (writeSize + chunk data.length writeSize) flushed))
          else none
      | _ => none
  | .flush k =>
      match call.stage with
      | .writing data writeSize flushed =>
          let bytes := (data.drop flushed).take (min k (writeSize - flushed))
          some (writeBytes s.shared flushed bytes,
            call.goto (.writing data writeSize (flushed + bytes.length)))
      | .flushing data flushed =>
          let bytes := (data.drop flushed).take k
          some (writeBytes s.shared flushed bytes,
            call.goto (.flushing data (flushed + bytes.length)))
      | _ => none
  | .unlock =>
      match call.stage with
      | .reading fileSize fileBuf _ =>
          if fileBuf.length < fileSize then none
          else some (s.shared, call.goto (.readClosing 0 fileBuf))
      | .readUnlocking ret data => some (s.shared, call.goto (.readClosing ret data))
      | .writing data writeSize flushed =>
          if writeSize < data.length then none
          else some (s.shared, call.goto (.flushing data flushed))
      | _ => none
  | .fclose =>
      match call.stage with
      | .readClosing ret data => some (s.shared, call.goto (.readReturned ret data))
      | .writeRefused data => some (s.shared, call.goto (.writeReturned data (-5)))
      | .flushing data flushed =>
          -- `fclose` writes what `stdio` still holds
          some (writeBytes s.shared flushed (data.drop flushed),
            call.goto (.writeReturned data 0))
      | _ => none

end FileCall

/-- A new call, or a step of one that was made. -/
inductive FileEvent where
  | issue (op : FileOp)
  | act (c : Nat) (action : FileAction)

namespace SharedFile

/-- The file before any call. -/
def initial (content : Option (List UInt8)) : SharedFile := ⟨content, []⟩

/-- One step of one call. -/
def step (s : SharedFile) : FileEvent → SharedFile
  | .issue op => s.spawn op.enter
  | .act c action =>
      match s.locals[c]? with
      | none => s
      | some call =>
          match call.next s action with
          | none => s
          | some (content, call') => s.move c content call'

/-! ## Atomicity -/

/-- The data of a write that gave its lock up, and returns 0 if it returns. -/
def wrote (call : FileCall) : Option (List UInt8) :=
  match call.stage with
  | .flushing data _ => some data
  | .writeReturned data ret => if ret = 0 then some data else none
  | _ => none

/-- A content that is the initial one or the complete data of one write call. -/
def Whole (before : Option (List UInt8)) (s : SharedFile) (content : Option (List UInt8)) : Prop :=
  content = before ∨ ∃ call ∈ s.locals, ∃ data, wrote call = some data ∧ content = some data

/-- **The intended calls.** A read that returns 0 gives a whole content, and the `fopen` of a write
that returns the lock error changed nothing. -/
def Atomic (before : Option (List UInt8)) (s : SharedFile) : Prop :=
  ∀ call ∈ s.locals,
    (∀ data, call.stage = .readReturned 0 data → Whole before s (some data)) ∧
      ∀ data, call.stage = .writeReturned data (-5) → openedForWrite call.found = call.found

end SharedFile

namespace FileCall

/-- A write that has the file open and has yet to write some of its data. -/
def unfinished (call : FileCall) : Bool :=
  match call.stage with
  | .writeOpened _ => true
  | .writing .. => true
  | .flushing data flushed => flushed < data.length
  | _ => false

/-- A write that may have taken a whole content out of the file and has yet to write some of its
data. -/
def spoils (call : FileCall) : Bool :=
  match call.stage with
  | .writeOpened _ => call.found ≠ some []
  | .writing .. => true
  | .flushing data flushed => flushed < data.length
  | _ => false

end FileCall

/-- No write call opens the file while another has it open and has yet to write some of its data,
nor while a call has its lock unless the file is empty. No read call asks for the lock while a write
call that spoilt the file is without it. -/
def Exclusive (s : SharedFile) : FileEvent → Prop
  | .act c .fopen =>
      ∀ call data, s.locals[c]? = some call → call.stage = .writeEntered data →
        data.length ≤ fsMaxFileSize →
          (∀ other ∈ s.locals, other.unfinished = false) ∧
            (s.shared = some [] ∨ ∀ other ∈ s.locals, other.lock = none)
  | .act c .flock =>
      ∀ call, s.locals[c]? = some call → call.stage = .readOpened →
        ∀ other ∈ s.locals, other.spoils = true → other.lock ≠ none
  | _ => True

/-! ## What a step of a call can do -/

namespace FileCall

/-- What a step of a call can do, from the stage that it is in. -/
inductive Next (s : SharedFile) (call : FileCall) :
    FileAction → Option (List UInt8) → FileCall → Prop where
  | missing (hstage : call.stage = .readEntered) (hgone : s.shared = none) :
      Next s call .fopen s.shared (call.goto (.readReturned (-2) []))
  | openRead {d : List UInt8} (hstage : call.stage = .readEntered) (hd : s.shared = some d) :
      Next s call .fopen s.shared ⟨.readOpened, s.shared⟩
  | tooLarge {data : List UInt8} (hstage : call.stage = .writeEntered data)
      (hsize : fsMaxFileSize < data.length) :
      Next s call .fopen s.shared (call.goto (.writeReturned data (-3)))
  | openWrite {data : List UInt8} (hstage : call.stage = .writeEntered data)
      (hsize : data.length ≤ fsMaxFileSize) :
      Next s call .fopen (openedForWrite s.shared) ⟨.writeOpened data, s.shared⟩
  | lockRead (hstage : call.stage = .readOpened) (hfree : s.lockFree .shared = true) :
      Next s call .flock s.shared (call.goto .readLocked)
  | refuseRead (hstage : call.stage = .readOpened) :
      Next s call .flock s.shared (call.goto (.readClosing (-3) []))
  | lockWrite {data : List UInt8} (hstage : call.stage = .writeOpened data)
      (hfree : s.lockFree .exclusive = true) :
      Next s call .flock s.shared (call.goto (.writing data 0 0))
  | refuseWrite {data : List UInt8} (hstage : call.stage = .writeOpened data)
      (hheld : s.lockFree .exclusive = false) :
      Next s call .flock s.shared (call.goto (.writeRefused data))
  | emptyFile (hstage : call.stage = .readLocked) (hsize : (s.shared.getD []).length = 0) :
      Next s call .fstat s.shared (call.goto (.readUnlocking 0 []))
  | readFails (action : FileAction) {ret : Int} (hstage : call.lock = some .shared)
      (hret : ret ≠ 0) :
      Next s call action s.shared (call.goto (.readUnlocking ret []))
  | sized (hstage : call.stage = .readLocked) :
      Next s call .fstat s.shared (call.goto (.reading (s.shared.getD []).length [] []))
  | fill {fileSize k : Nat} {fileBuf stdio : List UInt8}
      (hstage : call.stage = .reading fileSize fileBuf stdio) :
      Next s call (.fill k) s.shared (call.goto (.reading fileSize fileBuf
        (stdio ++ ((s.shared.getD []).drop (fileBuf.length + stdio.length)).take k)))
  | fread {fileSize count : Nat} {fileBuf stdio : List UInt8}
      (hstage : call.stage = .reading fileSize fileBuf stdio) :
      Next s call .fread s.shared
        (call.goto (.reading fileSize (fileBuf ++ stdio.take count) (stdio.drop count)))
  | fwrite {data : List UInt8} {writeSize flushed : Nat}
      (hstage : call.stage = .writing data writeSize flushed) :
      Next s call .fwrite s.shared
        (call.goto (.writing data (writeSize + chunk data.length writeSize) flushed))
  | flushWriting {data bytes : List UInt8} {writeSize flushed k : Nat}
      (hstage : call.stage = .writing data writeSize flushed) (hbytes : bytes <+: data.drop flushed)
      (htaken : bytes.length ≤ writeSize - flushed) :
      Next s call (.flush k) (writeBytes s.shared flushed bytes)
        (call.goto (.writing data writeSize (flushed + bytes.length)))
  | flushClosing {data bytes : List UInt8} {flushed k : Nat}
      (hstage : call.stage = .flushing data flushed) (hbytes : bytes <+: data.drop flushed) :
      Next s call (.flush k) (writeBytes s.shared flushed bytes)
        (call.goto (.flushing data (flushed + bytes.length)))
  | unlockRead {fileSize : Nat} {fileBuf stdio : List UInt8}
      (hstage : call.stage = .reading fileSize fileBuf stdio) (hall : fileSize ≤ fileBuf.length) :
      Next s call .unlock s.shared (call.goto (.readClosing 0 fileBuf))
  | unlockEnded {ret : Int} {data : List UInt8} (hstage : call.stage = .readUnlocking ret data) :
      Next s call .unlock s.shared (call.goto (.readClosing ret data))
  | unlockWrite {data : List UInt8} {writeSize flushed : Nat}
      (hstage : call.stage = .writing data writeSize flushed) (hall : data.length ≤ writeSize) :
      Next s call .unlock s.shared (call.goto (.flushing data flushed))
  | closeRead {ret : Int} {data : List UInt8} (hstage : call.stage = .readClosing ret data) :
      Next s call .fclose s.shared (call.goto (.readReturned ret data))
  | closeRefused {data : List UInt8} (hstage : call.stage = .writeRefused data) :
      Next s call .fclose s.shared (call.goto (.writeReturned data (-5)))
  | closeWrite {data : List UInt8} {flushed : Nat} (hstage : call.stage = .flushing data flushed) :
      Next s call .fclose (writeBytes s.shared flushed (data.drop flushed))
        (call.goto (.writeReturned data 0))

/-- **A step of a call does one of these.** -/
theorem next_cases {s : SharedFile} {call call' : FileCall} {action : FileAction}
    {content : Option (List UInt8)} (h : call.next s action = some (content, call')) :
    Next s call action content call' := by
  -- only the action that the stage waits for goes on; every other is no step
  cases action with
  | fopen =>
      simp only [next] at h
      split at h
      · next hstage =>
          split at h
          · next hgone =>
              cases h
              exact .missing hstage hgone
          · next d hd =>
              cases h
              exact .openRead hstage hd
      · next data hstage =>
          split_ifs at h with hsize
          · cases h
            exact .tooLarge hstage hsize
          · cases h
            exact .openWrite hstage (Nat.le_of_not_lt hsize)
      · cases h
  | flock =>
      simp only [next] at h
      split at h
      · next hstage =>
          split_ifs at h with hfree
          · cases h
            exact .lockRead hstage hfree
          · cases h
            exact .refuseRead hstage
      · next data hstage =>
          split_ifs at h with hfree
          · cases h
            exact .lockWrite hstage hfree
          · cases h
            exact .refuseWrite hstage (Bool.eq_false_iff.2 hfree)
      · cases h
  | fstat =>
      simp only [next] at h
      split at h
      · next hstage =>
          split_ifs at h with hempty hlarge
          · cases h
            exact .emptyFile hstage hempty
          · cases h
            exact .readFails _ (by simp only [lock, hstage]) (by decide)
          · cases h
            exact .sized hstage
      · cases h
  | fill k =>
      simp only [next] at h
      split at h
      · next fileSize fileBuf stdio hstage =>
          split_ifs at h
          · cases h
            exact .readFails _ (by simp only [lock, hstage]) (by decide)
          · cases h
            exact .fill hstage
      · cases h
  | fread =>
      simp only [next] at h
      split at h
      · next fileSize fileBuf stdio hstage =>
          split_ifs at h
          cases h
          exact .fread hstage
      · cases h
  | fwrite =>
      simp only [next] at h
      split at h
      · next data writeSize flushed hstage =>
          split_ifs at h
          cases h
          exact .fwrite hstage
      · cases h
  | flush k =>
      simp only [next] at h
      split at h
      · -- what is flushed is a part of what was written so far
        next data writeSize flushed hstage =>
          cases h
          refine .flushWriting hstage (List.take_prefix _ _) ?_
          exact (List.length_take_le _ _).trans (Nat.min_le_right _ _)
      · next data flushed hstage =>
          cases h
          exact .flushClosing hstage (List.take_prefix _ _)
      · cases h
  | unlock =>
      simp only [next] at h
      split at h
      · next fileSize fileBuf stdio hstage =>
          split_ifs at h with hless
          cases h
          exact .unlockRead hstage (Nat.le_of_not_lt hless)
      · next ret data hstage =>
          cases h
          exact .unlockEnded hstage
      · next data writeSize flushed hstage =>
          split_ifs at h with hless
          cases h
          exact .unlockWrite hstage (Nat.le_of_not_lt hless)
      · cases h
  | fclose =>
      simp only [next] at h
      split at h
      · next ret data hstage =>
          cases h
          exact .closeRead hstage
      · next data hstage =>
          cases h
          exact .closeRefused hstage
      · next data flushed hstage =>
          cases h
          exact .closeWrite hstage
      · cases h

end FileCall

/-! ## What holds while the calls exclude each other -/

/-- What is written behind a front of the data makes it a longer one. -/
theorem overwrite_take {data bytes : List UInt8} {flushed : Nat} (hflushed : flushed ≤ data.length)
    (hbytes : bytes <+: data.drop flushed) :
    overwrite (data.take flushed) flushed bytes = data.take (flushed + bytes.length) := by
  have hlength : (data.take flushed).length = flushed := List.length_take_of_le hflushed
  simp only [overwrite]
  split_ifs with hempty
  · rw [hempty, List.length_nil, Nat.add_zero]
  · rw [hlength, Nat.sub_self, List.replicate_zero, List.append_nil, List.take_take, Nat.min_self,
      List.drop_eq_nil_of_le (by omega), List.append_nil, List.take_add,
      ← List.prefix_iff_eq_take.1 hbytes]

theorem writeBytes_nil (content : Option (List UInt8)) (offset : Nat) :
    writeBytes content offset [] = content := by
  cases content with
  | none => rfl
  | some old => rfl

namespace FileCall

/-- What the content of the file is to a call that is where it is. -/
def Fits (Whole : Option (List UInt8) → Prop) (content : Option (List UInt8)) (call : FileCall) :
    Prop :=
  match call.stage with
  | .readOpened => ∃ d, content = some d
  | .readLocked => ∃ d, content = some d ∧ Whole content
  | .reading fileSize fileBuf stdio =>
      ∃ d, content = some d ∧ Whole content ∧ d.length = fileSize ∧ fileBuf ++ stdio <+: d
  | .readUnlocking ret data => ret = 0 → Whole (some data)
  | .readClosing ret data => ret = 0 → Whole (some data)
  | .readReturned ret data => ret = 0 → Whole (some data)
  | .writeOpened _ => content = some []
  | .writing data writeSize flushed =>
      content = some (data.take flushed) ∧ flushed ≤ writeSize ∧ writeSize ≤ data.length
  | .writeRefused _ => call.found = some []
  | .flushing data flushed =>
      flushed ≤ data.length ∧ (flushed < data.length → content = some (data.take flushed))
  | .writeReturned _ ret => ret = -5 → call.found = some []
  | _ => True

/-- Two calls: at most one is an unfinished write, and none spoils the file while the other reads
it. -/
def Apart (x y : FileCall) : Prop :=
  (x.unfinished = true → y.unfinished = false) ∧ (x.spoils = true → y.lock ≠ some .shared) ∧
    (y.spoils = true → x.lock ≠ some .shared)

theorem Apart.symm {x y : FileCall} (h : Apart x y) : Apart y x := by
  refine ⟨?_, h.2.2, h.2.1⟩
  intro hy
  by_contra hx
  exact absurd (h.1 (Bool.not_eq_false _ ▸ hx)) (by simp [hy])

/-- A write that spoils the file is unfinished. -/
theorem unfinished_of_spoils {call : FileCall} (h : call.spoils = true) :
    call.unfinished = true := by
  rcases call with ⟨stage, found⟩
  cases stage with
  | writeOpened data => rfl
  | writing data writeSize flushed => rfl
  | flushing data flushed => exact h
  | _ => cases h

/-- A write that has the lock is unfinished. -/
theorem unfinished_of_exclusive {call : FileCall} (h : call.lock = some .exclusive) :
    call.unfinished = true := by
  rcases call with ⟨stage, found⟩
  cases stage with
  | writing data writeSize flushed => rfl
  | _ => cases h

/-- A write has no lock for reading. -/
theorem lock_of_spoils {call : FileCall} (h : call.spoils = true) : call.lock ≠ some .shared := by
  rcases call with ⟨stage, found⟩
  cases stage with
  | writeOpened data => exact fun hlock => nomatch hlock
  | writing data writeSize flushed => exact fun hlock => nomatch hlock
  | flushing data flushed => exact fun hlock => nomatch hlock
  | _ => cases h

variable {Whole Whole' : Option (List UInt8) → Prop} {content content' : Option (List UInt8)}

theorem Fits.imp {call : FileCall} (h : Fits Whole content call)
    (hweaker : ∀ content, Whole content → Whole' content) : Fits Whole' content call := by
  rcases call with ⟨stage, found⟩
  cases stage with
  | readLocked =>
      obtain ⟨d, hd, hwhole⟩ := h
      exact ⟨d, hd, hweaker _ hwhole⟩
  | reading fileSize fileBuf stdio =>
      obtain ⟨d, hd, hwhole, hsize, hfront⟩ := h
      exact ⟨d, hd, hweaker _ hwhole, hsize, hfront⟩
  | readUnlocking ret data => exact fun hret => hweaker _ (h hret)
  | readClosing ret data => exact fun hret => hweaker _ (h hret)
  | readReturned ret data => exact fun hret => hweaker _ (h hret)
  | _ => exact h

/-- What another call writes is nothing to one that has no lock for reading and is no unfinished
write. -/
theorem Fits.frame {call : FileCall} (h : Fits Whole content call)
    (hunfinished : call.unfinished = false) (hlock : call.lock ≠ some .shared)
    (hstays : ∀ d, content = some d → ∃ d', content' = some d') :
    Fits Whole content' call := by
  rcases call with ⟨stage, found⟩
  cases stage with
  | readOpened =>
      obtain ⟨d, hd⟩ := h
      exact hstays d hd
  | readLocked => exact absurd rfl hlock
  | reading fileSize fileBuf stdio => exact absurd rfl hlock
  | writeOpened data => cases hunfinished
  | writing data writeSize flushed => cases hunfinished
  | flushing data flushed =>
      exact ⟨h.1, fun hless => absurd hless (of_decide_eq_false hunfinished)⟩
  | _ => exact h

end FileCall

namespace SharedFile

open FileCall

/-- The calls fit the content and each other, and no write spoils a file that is not whole. -/
structure Guarded (before : Option (List UInt8)) (s : SharedFile) : Prop where
  sound : s.Sound (Fits (Whole before s)) Apart
  settled : (∀ call ∈ s.locals, call.spoils = false) → Whole before s s.shared

variable {before : Option (List UInt8)} {s : SharedFile}

theorem guarded_initial (content : Option (List UInt8)) : Guarded content (initial content) where
  sound := ⟨fun _ _ hcall => (nomatch hcall), fun _ _ _ _ _ hcall => (nomatch hcall)⟩
  settled := fun _ => .inl rfl

/-- A call that has the lock for reading writes nothing. -/
theorem wrote_of_shared {call : FileCall} (h : call.lock = some .shared) (data : List UInt8) :
    wrote call ≠ some data := by
  rcases call with ⟨stage, found⟩
  cases stage with
  | readLocked => exact fun hw => nomatch hw
  | reading fileSize fileBuf stdio => exact fun hw => nomatch hw
  | readUnlocking ret bytes => exact fun hw => nomatch hw
  | _ => cases h

/-- Where a lock for reading is free, the others have none or one for reading. -/
theorem lock_of_free_shared (hfree : s.lockFree .shared = true) {call : FileCall}
    (hmem : call ∈ s.locals) : call.lock = none ∨ call.lock = some .shared := by
  have hcall := List.all_eq_true.1 hfree call hmem
  cases hlock : call.lock with
  | none => exact .inl rfl
  | some held =>
      rw [hlock] at hcall
      exact .inr (congrArg some (of_decide_eq_true hcall).1)

/-- Where the lock for writing is free, the others have none. -/
theorem lock_of_free_exclusive (hfree : s.lockFree .exclusive = true) {call : FileCall}
    (hmem : call ∈ s.locals) : call.lock = none := by
  have hcall := List.all_eq_true.1 hfree call hmem
  cases hlock : call.lock with
  | none => rfl
  | some held =>
      rw [hlock] at hcall
      cases (of_decide_eq_true hcall).2

/-- A whole content stays so when a call goes on that keeps what it wrote. -/
theorem Whole.move {content : Option (List UInt8)} (h : Whole before s content) {c : Nat}
    {call call' : FileCall} (hcall : s.locals[c]? = some call)
    (hwrote : ∀ data, wrote call = some data → wrote call' = some data)
    (content' : Option (List UInt8)) :
    Whole before (s.move c content' call') content := by
  rcases h with hbefore | ⟨other, hmem, data, hdata, hcontent⟩
  · exact .inl hbefore
  · obtain ⟨j, hj⟩ := List.getElem?_of_mem hmem
    by_cases hjc : j = c
    · subst hjc
      rw [hcall] at hj
      cases hj
      have hself := Threads.local_move_self hcall content' call'
      exact .inr ⟨call', List.mem_of_getElem? hself, data, hwrote data hdata, hcontent⟩
    · rw [← Threads.local_move_of_ne hjc s content' call'] at hj
      exact .inr ⟨other, List.mem_of_getElem? hj, data, hdata, hcontent⟩

/-- What a call wrote is a whole content. -/
theorem whole_of_wrote {c : Nat} {call call' : FileCall} (hcall : s.locals[c]? = some call)
    {data : List UInt8} (hdata : wrote call' = some data) (content : Option (List UInt8)) :
    Whole before (s.move c content call') (some data) :=
  .inr ⟨call', List.mem_of_getElem? (Threads.local_move_self hcall content call'), data, hdata, rfl⟩

/-- **A step of a call keeps all** when it keeps what the call wrote, fits the content it leaves,
leaves that of the others, and leaves a whole content unless it or another call spoils the file. -/
theorem Guarded.move (h : Guarded before s) {c : Nat} {call call' : FileCall}
    {content : Option (List UInt8)} (hcall : s.locals[c]? = some call)
    (hwrote : ∀ data, wrote call = some data → wrote call' = some data)
    (hfits : Fits (Whole before (s.move c content call')) content call')
    (hothers : ∀ other ∈ s.locals, Apart call other →
      Fits (Whole before s) s.shared other →
        Fits (Whole before s) content other ∧ Apart call' other)
    (hsettled : call'.spoils = false →
      (call.spoils = false → Whole before s s.shared) →
        Whole before (s.move c content call') content) :
    Guarded before (s.move c content call') := by
  have hmono : ∀ content', Whole before s content' →
      Whole before (s.move c content call') content' := fun _ hwhole =>
    hwhole.move hcall hwrote content
  constructor
  · refine (h.sound.imp fun _ _ hfits => hfits.imp hmono).move (fun _ _ => Apart.symm) hcall hfits
      ?_
    intro other hmem _ hapart
    obtain ⟨j, hj⟩ := List.getElem?_of_mem hmem
    have hother := hothers other hmem hapart (h.sound.each j other hj)
    exact ⟨hother.1.imp hmono, hother.2⟩
  · intro hnone
    have hself := Threads.local_move_self hcall content call'
    refine hsettled (hnone call' (List.mem_of_getElem? hself)) ?_
    intro hspoils
    apply h.settled
    intro other hmem
    obtain ⟨j, hj⟩ := List.getElem?_of_mem hmem
    by_cases hjc : j = c
    · subst hjc
      rw [hcall] at hj
      cases hj
      exact hspoils
    · rw [← Threads.local_move_of_ne hjc s content call'] at hj
      exact hnone other (List.mem_of_getElem? hj)

/-- A step that leaves the content, and gives the call nothing that another must be without. -/
theorem Guarded.quiet (h : Guarded before s) {c : Nat} {call call' : FileCall}
    (hcall : s.locals[c]? = some call)
    (hwrote : ∀ data, wrote call = some data → wrote call' = some data)
    (hfits : Fits (Whole before (s.move c s.shared call')) s.shared call')
    (hunfinished : call'.unfinished = true → call.unfinished = true)
    (hspoils : call'.spoils = call.spoils)
    (hlock : call'.lock = some .shared → call.lock = some .shared) :
    Guarded before (s.move c s.shared call') := by
  refine h.move hcall hwrote hfits ?_ ?_
  · intro other hmem hapart hother
    refine ⟨hother, ?_, ?_, ?_⟩
    · exact fun hcall' => hapart.1 (hunfinished hcall')
    · exact fun hcall' => hapart.2.1 (hspoils ▸ hcall')
    · exact fun hspoilt hcall' => hapart.2.2 hspoilt (hlock hcall')
  · intro hnone hwhole
    exact (hwhole (hspoils ▸ hnone)).move hcall hwrote s.shared

/-- `fopen` of a write, where it is admitted. -/
theorem Guarded.openWrite (h : Guarded before s) {c : Nat} {data : List UInt8}
    {found : Option (List UInt8)} (hcall : s.locals[c]? = some ⟨.writeEntered data, found⟩)
    (hfinished : ∀ other ∈ s.locals, other.unfinished = false)
    (hfree : s.shared = some [] ∨ ∀ other ∈ s.locals, other.lock = none) :
    Guarded before (s.move c (openedForWrite s.shared) ⟨.writeOpened data, s.shared⟩) := by
  refine h.move hcall (fun _ hw => nomatch hw) rfl ?_ ?_
  · intro other hmem hapart hother
    have hunfinished := hfinished other hmem
    refine ⟨?_, fun _ => hunfinished, ?_, ?_⟩
    · rcases hfree with hempty | hunlocked
      -- the file was empty, so what a reader has seen of it is still there
      · rw [show openedForWrite s.shared = s.shared from hempty.symm]
        exact hother
      · refine hother.frame hunfinished ?_ fun _ _ => ⟨[], rfl⟩
        rw [hunlocked other hmem]
        exact fun hlock => nomatch hlock
    · intro hspoils
      rcases hfree with hempty | hunlocked
      · exact absurd hempty (of_decide_eq_true hspoils)
      · rw [hunlocked other hmem]
        exact fun hlock => nomatch hlock
    · intro hspoils
      exact absurd (unfinished_of_spoils hspoils) (by simp [hunfinished])
  · intro hspoils hwhole
    have hempty : s.shared = some [] := not_not.1 (of_decide_eq_false hspoils)
    rw [show openedForWrite s.shared = s.shared from hempty.symm]
    exact (hwhole rfl).move hcall (fun _ hw => nomatch hw) _

/-- `flock` of a read, where it is admitted: no call spoils the file. -/
theorem Guarded.lockRead (h : Guarded before s) {c : Nat} {found : Option (List UInt8)}
    (hcall : s.locals[c]? = some ⟨.readOpened, found⟩) (hfree : s.lockFree .shared = true)
    (hread : ∀ other ∈ s.locals, other.spoils = true → other.lock ≠ none) :
    Guarded before (s.move c s.shared ⟨.readLocked, found⟩) := by
  have hclean : ∀ other ∈ s.locals, other.spoils = false := by
    intro other hmem
    refine Bool.eq_false_iff.2 fun hspoils => ?_
    rcases lock_of_free_shared hfree hmem with hnone | hshared
    · exact hread other hmem hspoils hnone
    · exact lock_of_spoils hspoils hshared
  obtain ⟨d, hd⟩ := h.sound.each c _ hcall
  have hwhole : Whole before (s.move c s.shared ⟨.readLocked, found⟩) s.shared :=
    (h.settled hclean).move hcall (fun _ hw => nomatch hw) _
  refine h.move hcall (fun _ hw => nomatch hw) ⟨d, hd, hwhole⟩ ?_ fun _ _ => hwhole
  intro other hmem _ hother
  refine ⟨hother, (fun hu => nomatch hu), (fun hs => nomatch hs), ?_⟩
  intro hspoils
  exact absurd hspoils (by simp [hclean other hmem])

/-- `flock` of a write that gets the lock. -/
theorem Guarded.lockWrite (h : Guarded before s) {c : Nat} {data : List UInt8}
    {found : Option (List UInt8)} (hcall : s.locals[c]? = some ⟨.writeOpened data, found⟩)
    (hfree : s.lockFree .exclusive = true) :
    Guarded before (s.move c s.shared ⟨.writing data 0 0, found⟩) := by
  have hempty : s.shared = some [] := h.sound.each c _ hcall
  refine h.move hcall (fun _ hw => nomatch hw) ⟨hempty, Nat.le_refl _, Nat.zero_le _⟩ ?_
    fun hs => nomatch hs
  intro other hmem hapart hother
  refine ⟨hother, fun _ => hapart.1 rfl, ?_, ?_⟩
  · intro _
    rw [lock_of_free_exclusive hfree hmem]
    exact fun hlock => nomatch hlock
  · intro hspoils
    exact absurd (unfinished_of_spoils hspoils) (by simp [hapart.1 rfl])

/-- A write that is refused the lock found the file empty. -/
theorem Guarded.refused_found (h : Guarded before s) {c : Nat} {data : List UInt8}
    {found : Option (List UInt8)} (hcall : s.locals[c]? = some ⟨.writeOpened data, found⟩)
    (hheld : s.lockFree .exclusive = false) : found = some [] := by
  obtain ⟨other, hmem, hlocked⟩ := List.all_eq_false.1 hheld
  obtain ⟨j, hj⟩ := List.getElem?_of_mem hmem
  have hjc : c ≠ j := by
    rintro rfl
    rw [hcall] at hj
    cases hj
    exact hlocked rfl
  obtain ⟨hunfinished, hspoils, -⟩ := h.sound.apart c j _ _ hjc hcall hj
  -- the holder is no writer, so it reads, and no write that spoilt the file is beside it
  have hlock : other.lock = some .shared := by
    cases hmode : other.lock with
    | none =>
        rw [hmode] at hlocked
        exact absurd rfl hlocked
    | some mode =>
        cases mode with
        | shared => rfl
        | exclusive => exact absurd (unfinished_of_exclusive hmode) (by simp [hunfinished rfl])
  by_contra hfound
  exact hspoils (decide_eq_true hfound) hlock

/-- A `write` of a call that has the lock. -/
theorem Guarded.flushWriting (h : Guarded before s) {c : Nat} {data bytes : List UInt8}
    {writeSize flushed : Nat} {found : Option (List UInt8)}
    (hcall : s.locals[c]? = some ⟨.writing data writeSize flushed, found⟩)
    (hbytes : bytes <+: data.drop flushed) (htaken : bytes.length ≤ writeSize - flushed) :
    Guarded before (s.move c (writeBytes s.shared flushed bytes)
      ⟨.writing data writeSize (flushed + bytes.length), found⟩) := by
  obtain ⟨hcontent, hflushed, hsize⟩ := h.sound.each c _ hcall
  have hwritten :
      writeBytes s.shared flushed bytes = some (data.take (flushed + bytes.length)) := by
    rw [hcontent]
    exact congrArg some (overwrite_take (hflushed.trans hsize) hbytes)
  refine h.move hcall (fun _ hw => nomatch hw) ⟨hwritten, by omega, hsize⟩ ?_ fun hs => nomatch hs
  intro other hmem hapart hother
  exact ⟨hother.frame (hapart.1 rfl) (hapart.2.1 rfl) fun _ _ => ⟨_, hwritten⟩, hapart⟩

/-- A `write` of a call that gave the lock up. -/
theorem Guarded.flushClosing (h : Guarded before s) {c : Nat} {data bytes : List UInt8}
    {flushed : Nat} {found : Option (List UInt8)}
    (hcall : s.locals[c]? = some ⟨.flushing data flushed, found⟩)
    (hbytes : bytes <+: data.drop flushed) {call' : FileCall} (hwrote : wrote call' = some data)
    (hunfinished : call'.unfinished = decide (flushed + bytes.length < data.length))
    (hspoils : call'.spoils = decide (flushed + bytes.length < data.length))
    (hlock : call'.lock = none)
    (hfits : flushed + bytes.length ≤ data.length →
      (flushed + bytes.length < data.length →
        writeBytes s.shared flushed bytes = some (data.take (flushed + bytes.length))) →
      Fits (Whole before (s.move c (writeBytes s.shared flushed bytes) call'))
        (writeBytes s.shared flushed bytes) call') :
    Guarded before (s.move c (writeBytes s.shared flushed bytes) call') := by
  obtain ⟨hflushed, hcontent⟩ := h.sound.each c _ hcall
  have hlength : bytes.length ≤ data.length - flushed := by
    simpa using hbytes.length_le
  have hkept : ∀ data', wrote ⟨.flushing data flushed, found⟩ = some data' →
      wrote call' = some data' := fun _ hw => hwrote.trans hw
  by_cases hless : flushed < data.length
  · have hwritten : writeBytes s.shared flushed bytes =
        some (data.take (flushed + bytes.length)) := by
      rw [hcontent hless]
      exact congrArg some (overwrite_take hflushed hbytes)
    refine h.move hcall hkept (hfits (by omega) fun _ => hwritten) ?_ ?_
    · intro other hmem hapart hother
      have hapart₁ := hapart.1 (decide_eq_true hless)
      have hapart₂ := hapart.2.1 (decide_eq_true hless)
      refine ⟨hother.frame hapart₁ hapart₂ fun _ _ => ⟨_, hwritten⟩, fun _ => hapart₁,
        fun _ => hapart₂, ?_⟩
      intro _
      rw [hlock]
      exact fun hshared => nomatch hshared
    · intro hdone _
      rw [hspoils, decide_eq_false_iff_not] at hdone
      rw [hwritten, List.take_of_length_le (by omega)]
      exact whole_of_wrote hcall hwrote _
  -- everything was written before, so nothing is now
  · have hempty : bytes = [] := List.length_eq_zero_iff.1 (by omega)
    subst hempty
    rw [writeBytes_nil] at hfits ⊢
    refine h.quiet hcall hkept (hfits hflushed fun hless' => absurd hless' hless) ?_ ?_ ?_
    · intro hu
      rw [hunfinished] at hu
      exact hu
    · exact hspoils
    · intro hshared
      rw [hlock] at hshared
      cases hshared

/-- A write gives its lock up: what it has yet to write still spoils the file. -/
theorem Guarded.unlockWrite (h : Guarded before s) {c : Nat} {data : List UInt8}
    {writeSize flushed : Nat} {found : Option (List UInt8)}
    (hcall : s.locals[c]? = some ⟨.writing data writeSize flushed, found⟩) :
    Guarded before (s.move c s.shared ⟨.flushing data flushed, found⟩) := by
  obtain ⟨hcontent, hflushed, hsize⟩ := h.sound.each c _ hcall
  refine h.move hcall (fun _ hw => nomatch hw) ⟨hflushed.trans hsize, fun _ => hcontent⟩ ?_ ?_
  · intro other hmem hapart hother
    exact ⟨hother, fun _ => hapart.1 rfl, fun _ => hapart.2.1 rfl, fun _ hlock => nomatch hlock⟩
  · intro hdone _
    have hall : ¬ flushed < data.length := of_decide_eq_false hdone
    rw [hcontent, List.take_of_length_le (Nat.le_of_not_lt hall)]
    exact whole_of_wrote hcall rfl _

/-- **Every admitted step of a call keeps all.** -/
theorem Guarded.next (h : Guarded before s) {c : Nat} {call call' : FileCall} {action : FileAction}
    {content : Option (List UInt8)} (hcall : s.locals[c]? = some call)
    (hnext : Next s call action content call') (hexclusive : Exclusive s (.act c action)) :
    Guarded before (s.move c content call') := by
  have hfits := h.sound.each c call hcall
  rcases call with ⟨stage, found⟩
  cases hnext with
  | missing hstage hgone =>
      cases hstage
      exact h.quiet hcall (fun _ hw => nomatch hw) (fun hret => absurd hret (by decide))
        (fun hu => nomatch hu) rfl (fun hl => nomatch hl)
  | openRead hstage hd =>
      cases hstage
      exact h.quiet hcall (fun _ hw => nomatch hw) ⟨_, hd⟩ (fun hu => nomatch hu) rfl
        (fun hl => nomatch hl)
  | tooLarge hstage hsize =>
      cases hstage
      exact h.quiet hcall (fun _ hw => nomatch hw) (fun hret => absurd hret (by decide))
        (fun hu => nomatch hu) rfl (fun hl => nomatch hl)
  | openWrite hstage hsize =>
      cases hstage
      obtain ⟨hfinished, hfree⟩ := hexclusive _ _ hcall rfl hsize
      exact h.openWrite hcall hfinished hfree
  | lockRead hstage hfree =>
      cases hstage
      exact h.lockRead hcall hfree (hexclusive _ hcall rfl)
  | refuseRead hstage =>
      cases hstage
      exact h.quiet hcall (fun _ hw => nomatch hw) (fun hret => absurd hret (by decide))
        (fun hu => nomatch hu) rfl (fun hl => nomatch hl)
  | lockWrite hstage hfree =>
      cases hstage
      exact h.lockWrite hcall hfree
  | refuseWrite hstage hheld =>
      cases hstage
      have hfound := h.refused_found hcall hheld
      refine h.quiet hcall (fun _ hw => nomatch hw) hfound (fun hu => nomatch hu) ?_
        (fun hl => nomatch hl)
      exact (decide_eq_false (not_not.2 hfound)).symm
  | emptyFile hstage hsize =>
      cases hstage
      obtain ⟨d, hd, hwhole⟩ := hfits
      refine h.quiet hcall (fun _ hw => nomatch hw) (fun _ => ?_) (fun hu => nomatch hu) rfl
        (fun _ => rfl)
      rw [hd, Option.getD_some, List.length_eq_zero_iff] at hsize
      rw [hd, hsize] at hwhole
      exact hwhole.move hcall (fun _ hw => nomatch hw) _
  | readFails action hstage hret =>
      refine h.quiet hcall (fun data hw => absurd hw (wrote_of_shared hstage data))
        (fun hzero => absurd hzero hret) (fun hu => nomatch hu) ?_ (fun _ => hstage)
      exact (Bool.eq_false_iff.2 fun hspoils => lock_of_spoils hspoils hstage).symm
  | sized hstage =>
      cases hstage
      obtain ⟨d, hd, hwhole⟩ := hfits
      refine h.quiet hcall (fun _ hw => nomatch hw) ?_ (fun hu => nomatch hu) rfl (fun _ => rfl)
      exact ⟨d, hd, hwhole.move hcall (fun _ hw => nomatch hw) _, by rw [hd]; rfl, List.nil_prefix⟩
  | fill hstage =>
      cases hstage
      obtain ⟨d, hd, hwhole, hsize, rest, hrest⟩ := hfits
      refine h.quiet hcall (fun _ hw => nomatch hw) ?_ (fun hu => nomatch hu) rfl (fun _ => rfl)
      refine ⟨d, hd, hwhole.move hcall (fun _ hw => nomatch hw) _, hsize, ?_⟩
      -- what is read next stands right behind what was read before
      rw [hd, Option.getD_some, ← hrest, ← List.length_append, List.drop_left, ← List.append_assoc]
      exact (List.prefix_append_right_inj _).2 (List.take_prefix _ _)
  | fread hstage =>
      cases hstage
      obtain ⟨d, hd, hwhole, hsize, hfront⟩ := hfits
      refine h.quiet hcall (fun _ hw => nomatch hw) ?_ (fun hu => nomatch hu) rfl (fun _ => rfl)
      refine ⟨d, hd, hwhole.move hcall (fun _ hw => nomatch hw) _, hsize, ?_⟩
      rw [List.append_assoc, List.take_append_drop]
      exact hfront
  | fwrite hstage =>
      cases hstage
      obtain ⟨hcontent, hflushed, hsize⟩ := hfits
      refine h.quiet hcall (fun _ hw => nomatch hw) ⟨hcontent, ?_, ?_⟩ (fun _ => rfl) rfl
        (fun hl => nomatch hl)
      · exact hflushed.trans (Nat.le_add_right _ _)
      · simp only [chunk]
        omega
  | flushWriting hstage hbytes htaken =>
      cases hstage
      exact h.flushWriting hcall hbytes htaken
  | flushClosing hstage hbytes =>
      cases hstage
      exact h.flushClosing hcall hbytes rfl rfl rfl rfl fun hle hwritten => ⟨hle, hwritten⟩
  | unlockRead hstage hall =>
      cases hstage
      obtain ⟨d, hd, hwhole, hsize, hfront⟩ := hfits
      have hbuf : _ = d :=
        ((List.prefix_append _ _).trans hfront).eq_of_length_le (hsize.trans_le hall)
      refine h.quiet hcall (fun _ hw => nomatch hw) (fun _ => ?_) (fun hu => nomatch hu) rfl
        (fun hl => nomatch hl)
      rw [hbuf, ← hd]
      exact hwhole.move hcall (fun _ hw => nomatch hw) _
  | unlockEnded hstage =>
      cases hstage
      exact h.quiet hcall (fun _ hw => nomatch hw)
        (fun hret => (hfits hret).move hcall (fun _ hw => nomatch hw) _) (fun hu => nomatch hu) rfl
        (fun hl => nomatch hl)
  | unlockWrite hstage hall =>
      cases hstage
      exact h.unlockWrite hcall
  | closeRead hstage =>
      cases hstage
      exact h.quiet hcall (fun _ hw => nomatch hw)
        (fun hret => (hfits hret).move hcall (fun _ hw => nomatch hw) _) (fun hu => nomatch hu) rfl
        (fun hl => nomatch hl)
  | closeRefused hstage =>
      cases hstage
      exact h.quiet hcall (fun _ hw => nomatch hw) (fun _ => hfits) (fun hu => nomatch hu) rfl
        (fun hl => nomatch hl)
  | @closeWrite data flushed hstage =>
      cases hstage
      obtain ⟨hflushed, -⟩ := hfits
      have hrest : flushed + (data.drop flushed).length = data.length := by
        rw [List.length_drop]
        omega
      refine h.flushClosing hcall (List.prefix_refl _) rfl ?_ ?_ rfl
        fun _ _ hret => absurd hret (by decide)
      · exact (decide_eq_false (by omega)).symm
      · exact (decide_eq_false (by omega)).symm

/-- A call that enters has nothing of the file yet. -/
theorem Guarded.issue (h : Guarded before s) (op : FileOp) : Guarded before (s.spawn op.enter) := by
  have hmono : ∀ content, Whole before s content → Whole before (s.spawn op.enter) content := by
    rintro content (hbefore | ⟨call, hmem, hwrote⟩)
    · exact .inl hbefore
    · exact .inr ⟨call, List.mem_append_left _ hmem, hwrote⟩
  have hnew : op.enter.unfinished = false ∧ op.enter.spoils = false ∧ op.enter.lock = none := by
    cases op with
    | readFile => exact ⟨rfl, rfl, rfl⟩
    | writeFile data => exact ⟨rfl, rfl, rfl⟩
  constructor
  · refine (h.sound.imp fun _ _ hfits => hfits.imp hmono).spawn (fun _ _ => Apart.symm) ?_ ?_
    · cases op with
      | readFile => trivial
      | writeFile data => trivial
    · intro other _
      refine ⟨?_, ?_, ?_⟩
      · simp [hnew.1]
      · simp [hnew.2.1]
      · simp [hnew.2.2]
  · intro hnone
    exact hmono _ (h.settled fun call hmem => hnone call (List.mem_append_left _ hmem))

theorem guarded_step (h : Guarded before s) {e : FileEvent} (hexclusive : Exclusive s e) :
    Guarded before (s.step e) := by
  cases e with
  | issue op => exact h.issue op
  | act c action =>
      simp only [step]
      cases hcall : s.locals[c]? with
      | none => exact h
      | some call =>
          dsimp only
          cases hnext : call.next s action with
          | none => exact h
          | some result => exact h.next hcall (next_cases hnext) hexclusive

/-- Guarded calls are atomic. -/
theorem Guarded.atomic (h : Guarded before s) : Atomic before s := by
  intro call hmem
  obtain ⟨c, hcall⟩ := List.getElem?_of_mem hmem
  have hfits := h.sound.each c call hcall
  constructor
  · intro data hstage
    simp only [Fits] at hfits
    rw [hstage] at hfits
    exact hfits rfl
  · intro data hstage
    simp only [Fits] at hfits
    rw [hstage] at hfits
    exact (hfits rfl).symm

/-- **When reads and writes are atomic.** In every run in which each write call finds the file free
when it opens it, and no read gets the lock in the gaps of a write, every state reached has only
whole reads and refused writes that changed nothing. -/
theorem atomic_along (before : Option (List UInt8)) (events : List FileEvent)
    (h : Along step Exclusive (initial before) events) :
    Atomic before (initial before) ∧
      Along step (fun s e => Atomic before (s.step e)) (initial before) events :=
  ⟨(guarded_initial before).atomic,
    h.of_invariant (fun _ _ he hs => guarded_step hs he)
      (fun _ _ he hs => (guarded_step hs he).atomic) (guarded_initial before)⟩

/-- A write and a read that are in progress at once: the read opens the file that the write has
emptied, and gets the lock when the data is written and the write is not yet closed. -/
def interleavedRun : List FileEvent :=
  [.issue (.writeFile [1, 2]), .issue .readFile, .act 0 .fopen, .act 1 .fopen, .act 0 .flock,
    .act 0 .fwrite, .act 0 (.flush 2), .act 0 .unlock, .act 1 .flock, .act 1 .fstat,
    .act 1 (.fill 2), .act 1 .fread, .act 0 .fclose, .act 1 .unlock, .act 1 .fclose]

theorem atomic_along_write_read :
    (Atomic (some [7]) (initial (some [7])) ∧
        Along step (fun s e => Atomic (some [7]) (s.step e)) (initial (some [7]))
          interleavedRun) ∧
      (runFrom step (initial (some [7])) interleavedRun).locals =
        [⟨.writeReturned [1, 2] 0, some [7]⟩, ⟨.readReturned 0 [1, 2], some []⟩] := by
  refine ⟨atomic_along (some [7]) interleavedRun ⟨trivial, trivial, ?_, ?_, ?_, trivial, trivial,
    trivial, ?_, trivial, trivial, trivial, trivial, trivial, trivial, trivial⟩, by decide⟩
  -- the write finds the file free
  · exact fun _ _ _ _ _ => ⟨by decide, .inr (by decide)⟩
  · rintro call data hcall hstage
    cases hcall
    cases hstage
  · rintro call hcall hstage
    cases hcall
    cases hstage
  -- the read asks for the lock when nothing is left to write
  · exact fun _ _ _ => by decide

/-- A read between the unlocking and the flush of a write gives neither the old content nor the
data, and a write that a reader keeps from the lock has emptied the file. -/
theorem calls_not_atomic :
    ¬ Along step (fun s e => Atomic none (s.step e)) (initial none)
        [.issue (.writeFile [1]), .act 0 .fopen, .act 0 .flock, .act 0 .fwrite, .act 0 .unlock,
          .issue .readFile, .act 1 .fopen, .act 1 .flock, .act 1 .fstat, .act 1 .unlock,
          .act 1 .fclose] ∧
      ¬ Along step (fun s e => Atomic (some [7]) (s.step e)) (initial (some [7]))
        [.issue .readFile, .act 0 .fopen, .act 0 .flock, .issue (.writeFile [1]), .act 1 .fopen,
          .act 1 .flock, .act 1 .fclose] := by
  constructor
  · rintro ⟨-, -, -, -, -, -, -, -, -, -, hatomic, -⟩
    have hread := (hatomic ⟨.readReturned 0 [], some []⟩ (by decide)).1 [] rfl
    rcases hread with hbefore | ⟨call, hmem, data, hwrote, hdata⟩
    · cases hbefore
    · cases hdata
      exact absurd hwrote ((by decide : ∀ call ∈ _, wrote call ≠ some []) call hmem)
  · rintro ⟨-, -, -, -, -, -, hatomic, -⟩
    have hrefused := (hatomic ⟨.writeReturned [1] (-5), some [7]⟩ (by decide)).2 [1] rfl
    cases hrefused

end SharedFile

end Ssgx.Filesystem
