import Ssgx.Filesystem.HostTree
import Ssgx.Support.Run

/-!
# Calls that make and remove directories

The functions of the enclave that ask for files and directories of any type, and those that make and
remove them, over a host whose functions are parameters (`HostFs`). The documentation of these
functions is a hypothesis (`HostFs.Documented`): on a host without symbolic links, and while its
working directory is there, they do with the directories what `HostTree` says, or they fail. A
crossing of the border that fails may have come to the function of the host all the same.

`status_eq_statusOf` says that `Status` is the same code as over the files of `World`.
`createDirectory_cases` and `remove_cases` say what the two functions can do, and `create_remove` is
the result of the calls together. Between a `CreateDirectory` that returns true and a `Remove` the
path is an empty directory to all functions that ask for it, and behind both of them the directories
are as they were.
-/

set_option autoImplicit false

namespace Ssgx.Filesystem

open Ssgx.Support

universe u

/-! ## The functions of the host -/

/-- The functions of the host that the ocalls call, over states of the host in `σ`. `readdir` gives
the names that `opendir` and `readdir` show, or nothing where `opendir` fails. -/
structure HostFs (σ : Type u) where
  stat : Str → σ → Except Errno Inode
  readdir : Str → σ → Option (List Str)
  mkdir : Str → UInt32 → σ → Except Errno Unit × σ
  remove : Str → σ → Except Errno Unit × σ

/-- `Perms::All`. -/
def permsAll : UInt32 := 0o777

/-- What is documented of a path in a state, with the directories that a state shows: `stat` finds
what is there, and what it tells as missing is missing; `readdir` shows the names of a directory;
`mkdir` makes a directory and `remove` takes one away or a file, and they change nothing else. They
may all fail with another `errno`. -/
structure HostFs.AsDocumented {σ : Type u} (fs : HostFs σ) (view : σ → HostTree) (cwd : Place)
    (s : σ) (p : Path) : Prop where
  stat_ok : ∀ i, fs.stat p.cStr s = .ok i → ∃ i', (view s).find cwd p = some i' ∧ i.Agrees i'
  stat_missing : ∀ e, fs.stat p.cStr s = .error e → e ≠ .other → (view s).find cwd p = none
  readdir : ∀ names, fs.readdir p.cStr s = some names → ∃ k,
    p.locate (view s).walks cwd = .ok k ∧ names.Perm ((view s).readdir k)
  mkdir_ok : ∀ mode, (fs.mkdir p.cStr mode s).1 = .ok () → ∃ k i,
    (view s).newPlace cwd p = some k ∧ i.format = .directory ∧
      view (fs.mkdir p.cStr mode s).2 = (view s).insert k i
  mkdir_error : ∀ mode e, (fs.mkdir p.cStr mode s).1 = .error e →
    view (fs.mkdir p.cStr mode s).2 = view s
  remove_ok : (fs.remove p.cStr s).1 = .ok () → ∃ k,
    (view s).oldPlace cwd p = some k ∧ view (fs.remove p.cStr s).2 = (view s).erase k
  remove_error : ∀ e, (fs.remove p.cStr s).1 = .error e → view (fs.remove p.cStr s).2 = view s ∧
    (e ≠ .other → (view s).oldPlace cwd p = none)

/-- The host has no symbolic links and does what is documented, while its working directory is
there. -/
def HostFs.Documented {σ : Type u} (fs : HostFs σ) (view : σ → HostTree) (cwd : Place) : Prop :=
  ∀ s p, p.cStr ≠ [] → (view s).IsDir cwd → fs.AsDocumented view cwd s p

/-- How an ocall crosses the border. Where the status is an error, the function of the host may have
been reached or not. -/
structure Crossing where
  sgxStatus : Nat
  reached : Bool

/-- The answer of the host comes back. -/
def Crossing.Works (c : Crossing) : Prop := c.sgxStatus = sgxSuccess

instance (c : Crossing) : Decidable c.Works := inferInstanceAs (Decidable (_ = _))

/-- The function of the host is called. -/
def Crossing.Arrives (c : Crossing) : Prop := c.Works ∨ c.reached = true

instance (c : Crossing) : Decidable c.Arrives := inferInstanceAs (Decidable (_ ∨ _))

/-- The `switch` over `st_mode & S_IFMT`. -/
def FileFormat.type : FileFormat → FileType
  | .regular => .regular
  | .directory => .directory
  | .block => .block
  | .character => .character
  | .fifo => .fifo
  | .socket => .socket
  | .symlink => .symlink
  | .other => .unknown

/-- `is_directory_empty`: what it writes to `is_empty`. -/
def isDirectoryEmpty (dNames : List Str) : Nat :=
  if dNames.any fun n => decide (n ≠ ['.']) && decide (n ≠ ['.', '.']) then 0 else 1

/-- An ocall that changes the directories, behind the answer of the function of the host: return
value and the host left. -/
def ocallChanging {σ : Type u} (p : Path) (answer : Except Errno Unit × σ) (s : σ) : Int × σ :=
  if p.cStr = [] then (-1, s)
  else
    match answer.1 with
    | .ok _ => (0, answer.2)
    | .error _ => (-2, answer.2)

namespace HostFs

section

variable {σ : Type u} (fs : HostFs σ) (s : σ) (p : Path)

/-- `ssgx_ocall_get_file_status`: return value, file type and permissions. -/
def ssgxOcallGetFileStatus : Int × FileType × UInt32 :=
  if p.cStr = [] then (-1, .none, 0)
  else
    match fs.stat p.cStr s with
    | .ok i => (0, i.format.type, i.bits &&& permsMask)
    | .error e =>
        if e = .noEntry ∨ e = .notDirectory then (0, .notFound, 0) else (-2, .none, 0)

/-- `ssgx_ocall_is_directory_or_regular_file_empty`: return value and `is_empty`. -/
def ssgxOcallIsEmpty : Int × Nat :=
  if p.cStr = [] then (-1, 0)
  else
    match fs.stat p.cStr s with
    | .error _ => (-2, 0)
    | .ok i =>
        match i.format with
        | .directory =>
            match fs.readdir p.cStr s with
            | some dNames => (0, isDirectoryEmpty dNames)
            | none => (-3, 0)
        | .regular => (0, if i.size = 0 then 1 else 0)
        | _ => (-4, 0)

/-- `ssgx_ocall_get_file_size`: return value and size. -/
def ssgxOcallGetFileSize : Int × Nat :=
  if p.cStr = [] then (-1, 0)
  else
    match fs.stat p.cStr s with
    | .error _ => (-2, 0)
    | .ok i => if i.format = .regular then (0, i.size) else (-3, 0)

/-- `ssgx_ocall_create_directory`. -/
def ssgxOcallCreateDirectory : Int × σ := ocallChanging p (fs.mkdir p.cStr permsAll s) s

/-- `ssgx_ocall_remove_file`. -/
def ssgxOcallRemoveFile : Int × σ := ocallChanging p (fs.remove p.cStr s) s

end

end HostFs

/-! ## The functions of the enclave -/

/-- What a function makes of its ocall: it looks at the status of the crossing and at the return
value. -/
def ocallResult {α : Type} (call : String) (sgxStatus : Nat) (ret : Int) (value : α) :
    Except FileSystemException α :=
  if sgxStatus ≠ sgxSuccess then .error ⟨ocallStatusMsg call sgxStatus⟩
  else if ret < 0 then .error ⟨ocallReturnMsg call ret⟩
  else .ok value

/-- `Status` of the answer of its ocall. -/
def statusOf (sgxStatus : Nat) (p : Path) (answer : Int × FileType × UInt32) :
    Except FileSystemException FileStatus :=
  if p = [] then .error ⟨"The input file path is empty"⟩
  else if sgxStatus ≠ sgxSuccess then
    .error ⟨ocallStatusMsg "ssgx_ocall_get_file_status" sgxStatus⟩
  else if answer.1 < 0 then .error ⟨ocallReturnMsg "ssgx_ocall_get_file_status" answer.1⟩
  else if answer.2.1.code ≤ FileType.none.code ∨ FileType.unknown.code ≤ answer.2.1.code then
    .error ⟨"The file type is invalid, file type: " ++ toString answer.2.1.code⟩
  else if answer.2.2 &&& ~~~permsMask ≠ 0 then
    .error ⟨"The file permissions are invalid, file permissions: 0" ++
      String.ofList (Nat.toDigits 8 answer.2.2.toNat)⟩
  else .ok ⟨answer.2.1, answer.2.2⟩

/-- `IsDirectory(const FileStatus&)`. -/
def FileStatus.isDirectory (s : FileStatus) : Bool := decide (s.type = .directory)

/-- `IsRegularFile(const FileStatus&)`. -/
def FileStatus.isRegularFile (s : FileStatus) : Bool := decide (s.type = .regular)

/-- `CreateDirectory` behind its `Status`: what it ends in, unless it goes on to the ocall. -/
def createChecks (s : FileStatus) : Option (Except FileSystemException Bool) :=
  if s.exists then
    if s.isDirectory then some (.ok false)
    else some (.error ⟨"This path already exists and is not a directory type"⟩)
  else none

/-- A function from its ocall on, where it returns true behind an ocall that worked. -/
def callChanging {σ : Type u} (c : Crossing) (call : String) (answer : Int × σ) (s : σ) :
    Except FileSystemException Bool × σ :=
  (ocallResult call c.sgxStatus answer.1 true, if c.Arrives then answer.2 else s)

/-- `Status` is this code over the files of `World`. -/
theorem status_eq_statusOf (io : StatIo) (p : Path) (w : World) :
    Filesystem.status io p w =
      (statusOf io.sgxStatus p (ssgxOcallGetFileStatus io w.files p), w) := by
  have hcheck : ∀ (c : Prop) [Decidable c] (e : FileSystemException)
      (f : PUnit → FsCall FileStatus),
      (Call.raiseIf c e >>= f) w = if c then (.error e, w) else f ⟨⟩ w := by
    intro c _ e f
    rw [Call.bind_apply, Call.raiseIf]
    by_cases hc : c
    · rw [if_pos hc, if_pos hc]
    · rw [if_neg hc, if_neg hc]
  simp only [status, statusOf, hcheck, Call.read_bind_apply, Call.pure_apply]
  split_ifs
  all_goals rfl

namespace Directories

section

variable {σ : Type u} (fs : HostFs σ) (c : Crossing) (s : σ) (p : Path)

/-- `Status`. -/
def status : Except FileSystemException FileStatus :=
  statusOf c.sgxStatus p (fs.ssgxOcallGetFileStatus s p)

/-- `Exists`. -/
def existsPath : Except FileSystemException Bool := (status fs c s p).map FileStatus.exists

/-- `IsDirectory`. -/
def isDirectory : Except FileSystemException Bool := (status fs c s p).map FileStatus.isDirectory

/-- `IsRegularFile`. -/
def isRegularFile : Except FileSystemException Bool :=
  (status fs c s p).map FileStatus.isRegularFile

/-- `FileSize`. -/
def fileSize : Except FileSystemException Nat :=
  if p = [] then .error ⟨"The input file path is empty"⟩
  else
    let answer := fs.ssgxOcallGetFileSize s p
    ocallResult "ssgx_ocall_get_file_size" c.sgxStatus answer.1 answer.2

/-- `IsEmpty`. -/
def isEmpty : Except FileSystemException Bool :=
  if p = [] then .error ⟨"The input file path is empty"⟩
  else
    let answer := fs.ssgxOcallIsEmpty s p
    ocallResult "ssgx_ocall_is_directory_or_regular_file_empty" c.sgxStatus answer.1
      (decide (answer.2 = 1))

/-- `CreateDirectory` from its ocall on. -/
def createCall : Except FileSystemException Bool × σ :=
  callChanging c "ssgx_ocall_create_directory" (fs.ssgxOcallCreateDirectory s p) s

/-- `CreateDirectory`, with the crossings of its two ocalls. -/
def createDirectory (statC c : Crossing) (s : σ) (p : Path) :
    Except FileSystemException Bool × σ :=
  if p = [] then (.error ⟨"The input file path is empty"⟩, s)
  else
    match status fs statC s p with
    | .error e => (.error e, s)
    | .ok st =>
        match createChecks st with
        | some result => (result, s)
        | none => createCall fs c s p

/-- `Remove` from its ocall on. -/
def removeCall : Except FileSystemException Bool × σ :=
  callChanging c "ssgx_ocall_remove_file" (fs.ssgxOcallRemoveFile s p) s

/-- `Remove`, with the crossings of its two ocalls. -/
def remove (statC c : Crossing) (s : σ) (p : Path) : Except FileSystemException Bool × σ :=
  if p = [] then (.error ⟨"The input file path is empty"⟩, s)
  else
    match existsPath fs statC s p with
    | .error e => (.error e, s)
    | .ok false => (.ok false, s)
    | .ok true => removeCall fs c s p

end

/-! ## What the functions return -/

/-- The status of what `stat` finds. -/
def foundStatus : Option Inode → FileStatus
  | some i => ⟨i.format.type, i.bits &&& permsMask⟩
  | none => ⟨.notFound, 0⟩

theorem foundStatus_exists (found : Option Inode) : (foundStatus found).exists = found.isSome := by
  cases found with
  | none => rfl
  | some i =>
      obtain ⟨format, bits, size⟩ := i
      cases format
      all_goals rfl

theorem foundStatus_isDirectory (found : Option Inode) :
    (foundStatus found).isDirectory = true ↔ ∃ i, found = some i ∧ i.format = .directory := by
  cases found with
  | none => simp [foundStatus, FileStatus.isDirectory]
  | some i =>
      obtain ⟨format, bits, size⟩ := i
      cases format
      all_goals simp [foundStatus, FileStatus.isDirectory, FileFormat.type]

theorem cStr_nil : Path.cStr [] = [] := rfl

theorem ne_nil_of_cStr {p : Path} (h : p.cStr ≠ []) : p ≠ [] := by
  rintro rfl
  exact h cStr_nil

section

variable {σ : Type u} {fs : HostFs σ} {view : σ → HostTree} {cwd : Place} {c : Crossing} {s : σ}
  {p : Path}

/-- **`Status` tells what is there**, where it returns. -/
theorem status_ok {st : FileStatus} (hdocumented : fs.Documented view cwd)
    (hcwd : (view s).IsDir cwd) (h : status fs c s p = .ok st) :
    p.cStr ≠ [] ∧ st = foundStatus ((view s).find cwd p) := by
  rw [status, statusOf] at h
  split_ifs at h with hp hstatus hret htype hperm
  cases h
  by_cases hc : p.cStr = []
  · exact absurd (by rw [HostFs.ssgxOcallGetFileStatus, if_pos hc]; decide) hret
  refine ⟨hc, ?_⟩
  have hdoc := hdocumented s p hc hcwd
  rw [HostFs.ssgxOcallGetFileStatus, if_neg hc] at hret ⊢
  cases hstat : fs.stat p.cStr s with
  | ok i =>
      obtain ⟨i', hfind, hformat, hbits, -⟩ := hdoc.stat_ok i hstat
      simp only [hfind, foundStatus, hformat, hbits]
  | error e =>
      rw [hstat] at hret
      by_cases he : e = .noEntry ∨ e = .notDirectory
      · have hfind := hdoc.stat_missing e hstat (by rcases he with rfl | rfl <;> decide)
        simp only [hfind, if_pos he, foundStatus]
      · simp only [if_neg he] at hret
        exact absurd (by decide) hret

/-- `stat` tells what is there, unless it fails for a reason of its own. -/
theorem stat_of_find {i : Inode} (hdoc : fs.AsDocumented view cwd s p)
    (hanswers : fs.stat p.cStr s ≠ .error .other) (hfind : (view s).find cwd p = some i) :
    ∃ i', fs.stat p.cStr s = .ok i' ∧ i'.Agrees i := by
  cases hstat : fs.stat p.cStr s with
  | error e =>
      have hmissing := hdoc.stat_missing e hstat fun he => hanswers (he ▸ hstat)
      cases hmissing.symm.trans hfind
  | ok i' =>
      obtain ⟨i'', hfind', hagrees⟩ := hdoc.stat_ok i' hstat
      obtain rfl : i = i'' := Option.some.inj (hfind.symm.trans hfind')
      exact ⟨i', rfl, hagrees⟩

/-- `Status` returns where the host works and finds something of a known format. -/
theorem status_of_find {i : Inode} (hdocumented : fs.Documented view cwd)
    (hcwd : (view s).IsDir cwd) (hc : p.cStr ≠ []) (hworks : c.Works)
    (hanswers : fs.stat p.cStr s ≠ .error .other) (hfind : (view s).find cwd p = some i)
    (hformat : i.format ≠ .other) : status fs c s p = .ok (foundStatus (some i)) := by
  obtain ⟨i', hstat, hagrees, hbits, -⟩ :=
    stat_of_find (hdocumented s p hc hcwd) hanswers hfind
  rw [status, statusOf, HostFs.ssgxOcallGetFileStatus, if_neg hc, hstat,
    show c.sgxStatus = sgxSuccess from hworks]
  simp only [hagrees, hbits, foundStatus, permsMask_and_not, ne_nil_of_cStr hc]
  obtain ⟨format, bits, size⟩ := i
  cases format
  all_goals first | exact absurd rfl hformat | simp [FileFormat.type, FileType.code]

/-- How a function ends from its ocall on: with the answer of the host, or with a change whose
answer is lost, or without a change. -/
inductive ChangingEnds (c : Crossing) (p : Path) (answer : Except Errno Unit × σ) (s : σ) :
    Except FileSystemException Bool × σ → Prop
  | done (hc : p.cStr ≠ []) (hworks : c.Works) (hanswer : answer.1 = .ok ()) :
      ChangingEnds c p answer s (.ok true, answer.2)
  | lost (e : FileSystemException) (hc : p.cStr ≠ []) (hfails : ¬ c.Works) (harrives : c.Arrives)
      (hanswer : answer.1 = .ok ()) : ChangingEnds c p answer s (.error e, answer.2)
  | failed (e : FileSystemException) (errno : Errno) (hc : p.cStr ≠ [])
      (hanswer : answer.1 = .error errno) : ChangingEnds c p answer s (.error e, answer.2)
  | unasked (e : FileSystemException) (hkept : p.cStr = [] ∨ ¬ c.Arrives) :
      ChangingEnds c p answer s (.error e, s)

theorem ocallResult_of_neg {α : Type} (call : String) (sgxStatus : Nat) {ret : Int} (h : ret < 0)
    (value : α) : ∃ e, ocallResult call sgxStatus ret value = .error e := by
  rw [ocallResult, if_pos h]
  split_ifs
  · exact ⟨_, rfl⟩
  · exact ⟨_, rfl⟩

theorem ocallResult_of_fails {α : Type} (call : String) (hfails : ¬ c.Works) (ret : Int)
    (value : α) :
    ocallResult call c.sgxStatus ret value = .error ⟨ocallStatusMsg call c.sgxStatus⟩ :=
  if_pos hfails

theorem ocallResult_of_works {α : Type} (call : String) (hworks : c.Works) {ret : Int}
    (h : 0 ≤ ret) (value : α) : ocallResult call c.sgxStatus ret value = .ok value := by
  have hstatus : c.sgxStatus = sgxSuccess := hworks
  rw [ocallResult, if_neg (not_not.2 hstatus), if_neg (not_lt.2 h)]

/-- **What a function can do from its ocall on.** -/
theorem callChanging_ends (c : Crossing) (call : String) (p : Path)
    (answer : Except Errno Unit × σ) (s : σ) :
    ChangingEnds c p answer s (callChanging c call (ocallChanging p answer s) s) := by
  rw [callChanging]
  by_cases hc : p.cStr = []
  · have hocall : ocallChanging p answer s = (-1, s) := if_pos hc
    obtain ⟨e, he⟩ := ocallResult_of_neg call c.sgxStatus (show (-1 : Int) < 0 by decide) true
    rw [hocall, he, ite_self]
    exact .unasked e (.inl hc)
  have hocall : ocallChanging p answer s =
      match answer.1 with
      | .ok _ => (0, answer.2)
      | .error _ => (-2, answer.2) := if_neg hc
  by_cases harrives : c.Arrives
  swap
  · have hfails : ¬ c.Works := fun h => harrives (.inl h)
    rw [ocallResult_of_fails call hfails, if_neg harrives]
    exact .unasked _ (.inr harrives)
  rw [if_pos harrives, hocall]
  cases hanswer : answer.1 with
  | error errno =>
      obtain ⟨e, he⟩ := ocallResult_of_neg call c.sgxStatus (show (-2 : Int) < 0 by decide) true
      simp only [he]
      exact .failed e errno hc hanswer
  | ok x =>
      by_cases hworks : c.Works
      · simp only [ocallResult_of_works call hworks le_rfl true]
        exact .done hc hworks hanswer
      · rw [ocallResult_of_fails call hworks]
        exact .lost _ hc hworks harrives hanswer

/-- What a function does to the directories from its ocall on is what the function of the host does,
or nothing. -/
theorem ChangingEnds.effect {answer : Except Errno Unit × σ}
    {out : Except FileSystemException Bool × σ} (hends : ChangingEnds c p answer s out)
    (hok : p.cStr ≠ [] → answer.1 = .ok () → HostTree.Effect cwd p (view s) (view answer.2))
    (herror : p.cStr ≠ [] → ∀ errno, answer.1 = .error errno → view answer.2 = view s) :
    HostTree.Effect cwd p (view s) (view out.2) := by
  cases hends with
  | done hc _ hanswer => exact hok hc hanswer
  | lost e hc _ _ hanswer => exact hok hc hanswer
  | failed e errno hc hanswer =>
      have hview : view answer.2 = view s := herror hc errno hanswer
      exact hview ▸ .leaves
  | unasked e _ => exact .leaves

/-- `CreateDirectory` from its ocall on makes a directory where nothing is, or it leaves all. -/
theorem createCall_effect (hdocumented : fs.Documented view cwd) (hcwd : (view s).IsDir cwd) :
    HostTree.Effect cwd p (view s) (view (createCall fs c s p).2) := by
  refine (callChanging_ends c _ p (fs.mkdir p.cStr permsAll s) s).effect ?_ ?_
  · intro hc hanswer
    obtain ⟨k, i, hk, -, hview⟩ := (hdocumented s p hc hcwd).mkdir_ok permsAll hanswer
    exact hview ▸ .makes k i hc hk
  · exact fun hc errno hanswer => (hdocumented s p hc hcwd).mkdir_error permsAll errno hanswer

/-- `Remove` from its ocall on takes away what is at one place, or it leaves all. -/
theorem removeCall_effect (hdocumented : fs.Documented view cwd) (hcwd : (view s).IsDir cwd) :
    HostTree.Effect cwd p (view s) (view (removeCall fs c s p).2) := by
  refine (callChanging_ends c _ p (fs.remove p.cStr s) s).effect ?_ ?_
  · intro hc hanswer
    obtain ⟨k, hk, hview⟩ := (hdocumented s p hc hcwd).remove_ok hanswer
    exact hview ▸ .removes k hk
  · exact fun hc errno hanswer => ((hdocumented s p hc hcwd).remove_error errno hanswer).1

/-- **What `CreateDirectory` can do.** -/
theorem createDirectory_cases (hdocumented : fs.Documented view cwd) (hcwd : (view s).IsDir cwd)
    (statC c : Crossing) (p : Path) :
    (∃ e, createDirectory fs statC c s p = (.error e, s)) ∨
    (p.cStr ≠ [] ∧ (∃ i, (view s).find cwd p = some i ∧ i.format = .directory) ∧
      createDirectory fs statC c s p = (.ok false, s)) ∨
    (p.cStr ≠ [] ∧ (view s).find cwd p = none ∧
      createDirectory fs statC c s p = createCall fs c s p) := by
  rw [createDirectory]
  by_cases hp : p = []
  · exact .inl ⟨_, if_pos hp⟩
  rw [if_neg hp]
  cases hs : status fs statC s p with
  | error e => exact .inl ⟨e, rfl⟩
  | ok st =>
      obtain ⟨hc, rfl⟩ := status_ok hdocumented hcwd hs
      simp only [createChecks, foundStatus_exists]
      split_ifs with hexists hdir
      · exact .inr (.inl ⟨hc, (foundStatus_isDirectory _).1 hdir, rfl⟩)
      · exact .inl ⟨_, rfl⟩
      · refine .inr (.inr ⟨hc, ?_, rfl⟩)
        simpa using hexists

/-- **What `Remove` can do.** -/
theorem remove_cases (hdocumented : fs.Documented view cwd) (hcwd : (view s).IsDir cwd)
    (statC c : Crossing) (p : Path) :
    (∃ e, remove fs statC c s p = (.error e, s)) ∨
    (p.cStr ≠ [] ∧ (view s).find cwd p = none ∧ remove fs statC c s p = (.ok false, s)) ∨
    (p.cStr ≠ [] ∧ ((view s).find cwd p).isSome = true ∧
      remove fs statC c s p = removeCall fs c s p) := by
  rw [remove]
  by_cases hp : p = []
  · exact .inl ⟨_, if_pos hp⟩
  rw [if_neg hp, existsPath]
  cases hs : status fs statC s p with
  | error e => exact .inl ⟨e, rfl⟩
  | ok st =>
      obtain ⟨hc, rfl⟩ := status_ok hdocumented hcwd hs
      simp only [Except.map, foundStatus_exists]
      cases hfind : (view s).find cwd p with
      | none => exact .inr (.inl ⟨hc, rfl, rfl⟩)
      | some i => exact .inr (.inr ⟨hc, rfl, rfl⟩)

/-- A `CreateDirectory` that returns true has made a directory where nothing was. -/
theorem createDirectory_true {statC : Crossing} {s' : σ} (hdocumented : fs.Documented view cwd)
    (hcwd : (view s).IsDir cwd) (h : createDirectory fs statC c s p = (.ok true, s')) :
    p.cStr ≠ [] ∧ ∃ k i, (view s).newPlace cwd p = some k ∧ i.format = .directory ∧
      view s' = (view s).insert k i := by
  rcases createDirectory_cases hdocumented hcwd statC c p with ⟨e, hcall⟩ | ⟨-, -, hcall⟩ |
    ⟨hc, -, hcall⟩
  · cases hcall.symm.trans h
  · cases hcall.symm.trans h
  · have hends := callChanging_ends c "ssgx_ocall_create_directory" p
      (fs.mkdir p.cStr permsAll s) s
    have hout : callChanging c "ssgx_ocall_create_directory"
        (ocallChanging p (fs.mkdir p.cStr permsAll s) s) s = (.ok true, s') := hcall.symm.trans h
    rw [hout] at hends
    cases hends with
    | done hc hworks hanswer =>
        exact ⟨hc, (hdocumented s p hc hcwd).mkdir_ok permsAll hanswer⟩

/-- Where a directory is found, `CreateDirectory` returns false. -/
theorem createDirectory_false {statC : Crossing} {i : Inode} (hc : p.cStr ≠ [])
    (hstatus : status fs statC s p = .ok (foundStatus (some i))) (hdir : i.format = .directory)
    (c : Crossing) : createDirectory fs statC c s p = (.ok false, s) := by
  have hchecks : createChecks (foundStatus (some i)) = some (.ok false) := by
    rw [createChecks, foundStatus_exists, (foundStatus_isDirectory _).2 ⟨i, rfl, hdir⟩]
    rfl
  rw [createDirectory, if_neg (ne_nil_of_cStr hc), hstatus]
  simp only [hchecks]

/-- Where something is found that can be removed, `Remove` removes it, unless the host fails. -/
theorem remove_true {statC : Crossing} {i : Inode} {k : Place}
    (hdocumented : fs.Documented view cwd) (hcwd : (view s).IsDir cwd) (hc : p.cStr ≠ [])
    (hstatus : status fs statC s p = .ok (foundStatus (some i))) (hworks : c.Works)
    (hanswers : (fs.remove p.cStr s).1 ≠ .error .other)
    (hk : (view s).oldPlace cwd p = some k) :
    ∃ s', remove fs statC c s p = (.ok true, s') ∧ view s' = (view s).erase k := by
  have hdoc := hdocumented s p hc hcwd
  cases hanswer : (fs.remove p.cStr s).1 with
  | error e =>
      have hother : e ≠ .other := fun he => hanswers (he ▸ hanswer)
      cases ((hdoc.remove_error e hanswer).2 hother).symm.trans hk
  | ok x =>
      obtain ⟨k', hk', hview⟩ := hdoc.remove_ok hanswer
      obtain rfl : k' = k := Option.some.inj (hk'.symm.trans hk)
      refine ⟨(fs.remove p.cStr s).2, ?_, hview⟩
      have hocall : ocallChanging p (fs.remove p.cStr s) s = (0, (fs.remove p.cStr s).2) := by
        rw [ocallChanging.eq_def, if_neg hc, hanswer]
      rw [remove, if_neg (ne_nil_of_cStr hc), existsPath, hstatus]
      simp only [Except.map, foundStatus_exists, Option.isSome_some]
      rw [removeCall, HostFs.ssgxOcallRemoveFile, hocall, callChanging,
        ocallResult_of_works _ hworks le_rfl, if_pos (.inl hworks)]

/-! ## Sizes -/

/-- A directory is empty for `is_directory_empty` where `readdir` shows `.` and `..` alone. -/
theorem isDirectoryEmpty_of_perm {t : HostTree} {k : Place} {dNames : List Str}
    (hperm : dNames.Perm (t.readdir k)) (h : (t.readdir k).length = 2) :
    isDirectoryEmpty dNames = 1 := by
  obtain ⟨rest, hrest⟩ : ∃ rest, t.readdir k = ['.'] :: ['.', '.'] :: rest := ⟨_, rfl⟩
  rw [hrest, List.length_cons, List.length_cons] at h
  obtain rfl : rest = [] := List.length_eq_zero_iff.1 (by omega)
  rw [hrest] at hperm
  rw [isDirectoryEmpty, if_neg]
  rw [List.any_eq_true]
  rintro ⟨n, hn, hname⟩
  have hmem := hperm.mem_iff.1 hn
  simp only [List.mem_cons, List.not_mem_nil, or_false] at hmem
  rcases hmem with rfl | rfl
  · simp at hname
  · simp at hname

/-- A regular file is empty exactly where its size is 0. -/
theorem isEmpty_of_fileSize {n : Nat} (h : fileSize fs c s p = .ok n) :
    isEmpty fs c s p = .ok (decide (n = 0)) := by
  rw [fileSize] at h
  rw [isEmpty]
  by_cases hp : p = []
  · rw [if_pos hp] at h
    cases h
  rw [if_neg hp] at h ⊢
  have hworks : c.Works := by
    by_contra hfails
    rw [ocallResult_of_fails _ hfails] at h
    cases h
  have hpos : 0 ≤ (fs.ssgxOcallGetFileSize s p).1 := by
    by_contra hneg
    obtain ⟨e, he⟩ := ocallResult_of_neg "ssgx_ocall_get_file_size" c.sgxStatus (not_le.1 hneg)
      (fs.ssgxOcallGetFileSize s p).2
    cases he.symm.trans h
  rw [ocallResult_of_works _ hworks hpos] at h
  cases h
  rw [HostFs.ssgxOcallGetFileSize] at hpos
  rw [HostFs.ssgxOcallGetFileSize, HostFs.ssgxOcallIsEmpty]
  by_cases hc : p.cStr = []
  · rw [if_pos hc] at hpos
    exact absurd hpos (by decide)
  rw [if_neg hc] at hpos
  rw [if_neg hc, if_neg hc]
  cases hstat : fs.stat p.cStr s with
  | error e =>
      rw [hstat] at hpos
      exact absurd hpos (show ¬ (0 : Int) ≤ -2 by decide)
  | ok i =>
      rw [hstat] at hpos
      by_cases hformat : i.format = .regular
      · simp only [hformat, if_true]
        rw [ocallResult_of_works _ hworks le_rfl]
        by_cases hsize : i.size = 0
        · rw [if_pos hsize, hsize]
          rfl
        · simp [hsize]
      · simp only [if_neg hformat] at hpos
        exact absurd hpos (show ¬ (0 : Int) ≤ -3 by decide)

/-! ## Runs -/

/-- A call that changes the directories. -/
inductive DirectoryCall where
  | createDirectory (statC c : Crossing) (p : Path)
  | remove (statC c : Crossing) (p : Path)

/-- The path of a call. -/
def DirectoryCall.path : DirectoryCall → Path
  | .createDirectory _ _ p => p
  | .remove _ _ p => p

/-- The host behind a call. -/
def call (fs : HostFs σ) (s : σ) : DirectoryCall → σ
  | .createDirectory statC c p => (createDirectory fs statC c s p).2
  | .remove statC c p => (remove fs statC c s p).2

/-- **What a call can do** to the directories, whether it returns or throws. -/
theorem call_effect (hdocumented : fs.Documented view cwd) (hcwd : (view s).IsDir cwd)
    (a : DirectoryCall) : HostTree.Effect cwd a.path (view s) (view (call fs s a)) := by
  cases a with
  | createDirectory statC c p =>
      rw [call]
      rcases createDirectory_cases hdocumented hcwd statC c p with ⟨e, hcall⟩ | ⟨-, -, hcall⟩ |
        ⟨-, -, hcall⟩
      · rw [hcall]
        exact .leaves
      · rw [hcall]
        exact .leaves
      · rw [hcall]
        exact createCall_effect hdocumented hcwd
  | remove statC c p =>
      rw [call]
      rcases remove_cases hdocumented hcwd statC c p with ⟨e, hcall⟩ | ⟨-, -, hcall⟩ |
        ⟨-, -, hcall⟩
      · rw [hcall]
        exact .leaves
      · rw [hcall]
        exact .leaves
      · rw [hcall]
        exact removeCall_effect hdocumented hcwd

/-- Closed directories stay closed along every run. -/
theorem closed_run (hdocumented : fs.Documented view cwd) {s₀ : σ} (hclosed : (view s₀).Closed)
    {calls : List DirectoryCall}
    (hcwd : Along (call fs) (fun s _ => (view s).IsDir cwd) s₀ calls) :
    (view (runFrom (call fs) s₀ calls)).Closed :=
  have hkeep : ∀ s a, (view s).IsDir cwd → (fun s => (view s).Closed) s →
      (fun s => (view s).Closed) (call fs s a) :=
    fun _ a hdir h => h.effect (call_effect hdocumented hdir a)
  invariant_runFrom hkeep hcwd hclosed

/-- What the functions say of a new directory, and that `Remove` takes it back. -/
theorem created (hdocumented : fs.Documented view cwd) (hclosed : (view s).Closed)
    (hcwd : (view s).IsDir cwd) {statC : Crossing} {s' : σ}
    (hcreate : createDirectory fs statC c s p = (.ok true, s')) {askC removeC : Crossing}
    (hask : askC.Works) (hremove : removeC.Works) (hstat : fs.stat p.cStr s' ≠ .error .other)
    (hreaddir : fs.readdir p.cStr s' ≠ none)
    (hanswers : (fs.remove p.cStr s').1 ≠ .error .other) :
    isDirectory fs askC s' p = .ok true ∧ isEmpty fs askC s' p = .ok true ∧
      fileSize fs askC s' p = .error ⟨ocallReturnMsg "ssgx_ocall_get_file_size" (-3)⟩ ∧
      (∀ c', createDirectory fs askC c' s' p = (.ok false, s')) ∧
      ∃ s'', remove fs askC removeC s' p = (.ok true, s'') ∧ view s'' = view s := by
  obtain ⟨hc, k, i, hk, hdir, hview⟩ := createDirectory_true hdocumented hcwd hcreate
  have hp : p ≠ [] := ne_nil_of_cStr hc
  have hnone := (HostTree.newPlace_eq_some_iff.1 hk).2
  have hcwd' : (view s').IsDir cwd := hview ▸ hcwd.insert hnone i
  have hfind : (view s').find cwd p = some i := hview ▸ HostTree.find_insert hk hdir
  have hformat : i.format ≠ .other := hdir ▸ by decide
  have hstatus : status fs askC s' p = .ok (foundStatus (some i)) :=
    status_of_find hdocumented hcwd' hc hask hstat hfind hformat
  have hdoc := hdocumented s' p hc hcwd'
  obtain ⟨i', hstat', hagrees, -⟩ := stat_of_find hdoc hstat hfind
  have hdir' : i'.format = .directory := hagrees.trans hdir
  refine ⟨?_, ?_, ?_, createDirectory_false hc hstatus hdir, ?_⟩
  · rw [isDirectory, hstatus, Except.map, (foundStatus_isDirectory _).2 ⟨_, rfl, hdir⟩]
  · -- what `readdir` shows is the directory that the path leads to
    obtain ⟨dNames, hnames⟩ := Option.ne_none_iff_exists'.1 hreaddir
    obtain ⟨k', hk', hperm⟩ := hdoc.readdir dNames hnames
    rw [hview] at hk' hperm
    obtain rfl : k' = k := Except.ok.inj (hk'.symm.trans (HostTree.locate_insert hk hdir))
    have hempty := isDirectoryEmpty_of_perm hperm (hclosed.readdir_insert hnone i)
    have hanswer : fs.ssgxOcallIsEmpty s' p = (0, 1) := by
      rw [HostFs.ssgxOcallIsEmpty, if_neg hc, hstat']
      simp only [hdir', hnames, hempty]
    rw [isEmpty, if_neg hp]
    simp only [hanswer, ocallResult_of_works _ hask le_rfl]
    decide
  · have hanswer : fs.ssgxOcallGetFileSize s' p = (-3, 0) := by
      have hregular : i'.format ≠ .regular := hdir' ▸ by decide
      rw [HostFs.ssgxOcallGetFileSize, if_neg hc, hstat']
      simp only [if_neg hregular]
    have hstatus' : askC.sgxStatus = sgxSuccess := hask
    have hneg : (-3 : Int) < 0 := by decide
    rw [fileSize, if_neg hp]
    simp only [hanswer, ocallResult, hstatus', ne_eq, not_true_eq_false, if_false, if_pos hneg]
  · have hold : (view s').oldPlace cwd p = some k :=
      hview ▸ hclosed.oldPlace_insert hc hk hdir
    obtain ⟨s'', hcall, hview'⟩ := remove_true hdocumented hcwd' hc hstatus hremove hanswers hold
    refine ⟨s'', hcall, ?_⟩
    rw [hview', hview, HostTree.erase_insert hnone]

end

/-- **A directory of its own.** In all directories that calls of `CreateDirectory` and `Remove`
leave of closed ones, a `CreateDirectory` that returns true makes an empty directory: all functions
that the host answers say so, another `CreateDirectory` returns false, and `Remove` gives back the
directories from before. -/
theorem create_remove {σ : Type u} {fs : HostFs σ} {view : σ → HostTree} {cwd : Place}
    (hdocumented : fs.Documented view cwd) {s₀ : σ} (hclosed : (view s₀).Closed)
    {calls : List DirectoryCall}
    (hcwd : Along (call fs) (fun s _ => (view s).IsDir cwd) s₀ calls)
    (hhere : (view (runFrom (call fs) s₀ calls)).IsDir cwd) {statC c : Crossing} {p : Path}
    {s' : σ} (hcreate : createDirectory fs statC c (runFrom (call fs) s₀ calls) p = (.ok true, s'))
    {askC removeC : Crossing} (hask : askC.Works) (hremove : removeC.Works)
    (hstat : fs.stat p.cStr s' ≠ .error .other) (hreaddir : fs.readdir p.cStr s' ≠ none)
    (hanswers : (fs.remove p.cStr s').1 ≠ .error .other) :
    (view s').Closed ∧ isDirectory fs askC s' p = .ok true ∧ isEmpty fs askC s' p = .ok true ∧
      fileSize fs askC s' p = .error ⟨ocallReturnMsg "ssgx_ocall_get_file_size" (-3)⟩ ∧
      (∀ c', createDirectory fs askC c' s' p = (.ok false, s')) ∧
      ∃ s'', remove fs askC removeC s' p = (.ok true, s'') ∧
        view s'' = view (runFrom (call fs) s₀ calls) := by
  have hrun := closed_run hdocumented hclosed hcwd
  have hbehind : call fs (runFrom (call fs) s₀ calls) (.createDirectory statC c p) = s' := by
    rw [call, hcreate]
  have heffect := call_effect hdocumented hhere (.createDirectory statC c p)
  rw [hbehind] at heffect
  exact ⟨hrun.effect heffect,
    created hdocumented hrun hhere hcreate hask hremove hstat hreaddir hanswers⟩

/-- A host that is its directories and fails for no other reason. -/
def plainFs (cwd : Place) : HostFs HostTree where
  stat path t :=
    match t.find cwd path with
    | some i => .ok i
    | none => .error .noEntry
  readdir path t := (Path.locate t.walks cwd path).toOption.map t.readdir
  mkdir path mode t :=
    match t.newPlace cwd path with
    | some k => (.ok (), t.insert k ⟨.directory, mode, 4096⟩)
    | none => (.error .noEntry, t)
  remove path t :=
    match t.oldPlace cwd path with
    | some k => (.ok (), t.erase k)
    | none => (.error .notEmpty, t)

theorem plainFs_documented (cwd : Place) : (plainFs cwd).Documented id cwd := by
  intro t p _ _
  have hcut : Path.cStr p.cStr = p.cStr := Path.cStr_of_not_mem (not_mem_upTo '\x00' p)
  have hlocate : Path.locate t.walks cwd p.cStr = p.locate t.walks cwd := by
    rw [Path.locate, Path.locate, hcut]
  have hfind : t.find cwd p.cStr = t.find cwd p := by rw [HostTree.find, HostTree.find, hlocate]
  have hnew : t.newPlace cwd p.cStr = t.newPlace cwd p := by
    rw [HostTree.newPlace, HostTree.newPlace, HostTree.walkNames, HostTree.walkNames, hcut]
  have hold : t.oldPlace cwd p.cStr = t.oldPlace cwd p := by
    rw [HostTree.oldPlace, HostTree.oldPlace, hlocate, hcut]
  constructor
  · intro i h
    simp only [plainFs, hfind] at h
    cases hsome : t.find cwd p with
    | none =>
        rw [hsome] at h
        cases h
    | some i' =>
        rw [hsome] at h
        cases h
        exact ⟨_, hsome, rfl, rfl, fun _ => rfl⟩
  · intro e h _
    simp only [plainFs, hfind] at h
    cases hsome : t.find cwd p with
    | none => exact hsome
    | some i' =>
        rw [hsome] at h
        cases h
  · intro names h
    simp only [plainFs, hlocate] at h
    cases hplace : p.locate t.walks cwd with
    | error e =>
        rw [hplace] at h
        cases h
    | ok k =>
        rw [hplace] at h
        cases h
        exact ⟨k, hplace, List.Perm.refl _⟩
  · intro mode h
    simp only [plainFs, hnew] at h ⊢
    cases hplace : t.newPlace cwd p with
    | none =>
        rw [hplace] at h
        cases h
    | some k => exact ⟨k, _, hplace, rfl, rfl⟩
  · intro mode e h
    simp only [plainFs, hnew] at h ⊢
    cases hplace : t.newPlace cwd p with
    | none => rfl
    | some k =>
        rw [hplace] at h
        cases h
  · intro h
    simp only [plainFs, hold] at h ⊢
    cases hplace : t.oldPlace cwd p with
    | none =>
        rw [hplace] at h
        cases h
    | some k => exact ⟨k, hplace, rfl⟩
  · intro e h
    simp only [plainFs, hold] at h ⊢
    cases hplace : t.oldPlace cwd p with
    | none => exact ⟨rfl, fun _ => hplace⟩
    | some k =>
        rw [hplace] at h
        cases h

/-- The root alone. -/
def rootTree : HostTree := ⟨[([], ⟨.directory, 0o755, 4096⟩)]⟩

theorem rootTree_closed : rootTree.Closed := by
  refine ⟨⟨_, rfl, rfl⟩, fun k n hsome => absurd ?_ hsome⟩
  rw [HostTree.look_eq_none_iff]
  rintro e he
  rw [List.mem_singleton.1 he]
  simp

/-- A crossing that works. -/
def workingCrossing : Crossing := ⟨sgxSuccess, true⟩

/-- The directories behind `CreateDirectory` of `/a`, from the root alone. -/
def sampleTree : HostTree := rootTree.insert [['a']] ⟨.directory, permsAll, 4096⟩

/-- Behind a `CreateDirectory` of `/a` that is made and whose answer is lost, `a/b/` is made. -/
theorem create_remove_nested :
    isEmpty (plainFs []) workingCrossing
        (sampleTree.insert [['a'], ['b']] ⟨.directory, permsAll, 4096⟩)
        ['a', '/', 'b', '/'] = .ok true ∧
      ∃ t, remove (plainFs []) workingCrossing workingCrossing
        (sampleTree.insert [['a'], ['b']] ⟨.directory, permsAll, 4096⟩)
        ['a', '/', 'b', '/'] = (.ok true, t) ∧ t = sampleTree := by
  have hrun : runFrom (call (plainFs [])) rootTree
      [.createDirectory workingCrossing ⟨1, true⟩ ['/', 'a']] = sampleTree := rfl
  have hcreate : createDirectory (plainFs []) workingCrossing workingCrossing sampleTree
      ['a', '/', 'b', '/'] =
      (.ok true, sampleTree.insert [['a'], ['b']] ⟨.directory, permsAll, 4096⟩) := rfl
  have hroot : rootTree.IsDir [] := ⟨_, rfl, rfl⟩
  have hhere : sampleTree.IsDir [] := ⟨_, rfl, rfl⟩
  rw [← hrun] at hcreate hhere
  have hcwd : Along (call (plainFs [])) (fun t _ => t.IsDir []) rootTree
      [.createDirectory workingCrossing ⟨1, true⟩ ['/', 'a']] := ⟨hroot, trivial⟩
  have hworks : workingCrossing.Works := rfl
  obtain ⟨-, -, hempty, -, -, hremove⟩ :=
    create_remove (plainFs_documented []) rootTree_closed hcwd hhere hcreate hworks hworks
      (by rintro ⟨⟩) (by rintro ⟨⟩) (by rintro ⟨⟩)
  exact ⟨hempty, hremove⟩

end Directories

end Ssgx.Filesystem
