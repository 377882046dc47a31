import Ssgx.Filesystem.Paths

/-!
# Directories

The directories that the functions of a host without symbolic links are documented to work on. A
place is known by its names from the root. A path is followed name by name, from the root or from
the working directory, and every name but the last one has to lead to a directory.

These are no functions of the host: they say what `stat` is to find at a path, which place `mkdir`
is to make and which one `remove` is to take away. Trees are closed where the root is a directory
and everything else is in one (`Closed`), and they stay so (`Closed.effect`).
-/

set_option autoImplicit false

namespace Ssgx.Filesystem

open Ssgx.Support

/-! ## What is at a place -/

/-- `st_mode & S_IFMT`. -/
inductive FileFormat where
  | regular
  | directory
  | block
  | character
  | fifo
  | socket
  | symlink
  | other
deriving DecidableEq

/-- What `stat` tells: the format and the other bits of `st_mode`, and `st_size`. -/
structure Inode where
  format : FileFormat
  bits : UInt32
  size : Nat
deriving DecidableEq

/-- They agree, but for the size of what is no regular file: that is up to the host. -/
def Inode.Agrees (i i' : Inode) : Prop :=
  i.format = i'.format ∧ i.bits = i'.bits ∧ (i.format = .regular → i.size = i'.size)

/-- The names that lead to a place from the root. -/
abbrev Place := List Str

/-- What is at the places of the host. -/
structure HostTree where
  entries : List (Place × Inode)

/-- The `errno` of a function of the host: `ENOENT`, `ENOTDIR`, `ENOTEMPTY`, `EINVAL` for a last
name `.` that is to be removed, or another one. -/
inductive Errno where
  | noEntry
  | notDirectory
  | notEmpty
  | invalid
  | other
deriving DecidableEq

namespace HostTree

/-- What is at a place. -/
def look (t : HostTree) (k : Place) : Option Inode :=
  (t.entries.find? fun e => decide (e.1 = k)).map Prod.snd

/-- The directories with one place more. -/
def insert (t : HostTree) (k : Place) (i : Inode) : HostTree := ⟨(k, i) :: t.entries⟩

/-- The directories without a place. -/
def erase (t : HostTree) (k : Place) : HostTree :=
  ⟨t.entries.filter fun e => !decide (e.1 = k)⟩

/-- The names in a directory, in some order. -/
def readdir (t : HostTree) (k : Place) : List Str :=
  ['.'] :: ['.', '.'] :: t.entries.filterMap fun e =>
    if e.1.dropLast = k then e.1.getLast? else none

/-- Where a name leads. Whether something is there is seen at the next name, or at the end. -/
def follow (t : HostTree) (k : Place) (n : Str) : Except Errno Place :=
  match t.look k with
  | none => .error .noEntry
  | some i =>
      if i.format = .directory then
        .ok (if n = ['.'] then k else if n = ['.', '.'] then k.dropLast else k ++ [n])
      else .error .notDirectory

/-- The places of the host. -/
def walks (t : HostTree) : Walks Str Place Errno := ⟨[], t.follow⟩

/-- What `stat` is to find at a path, from a working directory. -/
def find (t : HostTree) (cwd : Place) (p : Path) : Option Inode :=
  match p.locate t.walks cwd with
  | .ok k => t.look k
  | .error _ => none

/-- Where the names of a path lead: `mkdir` does not look at a separator at its end. -/
def walkNames (t : HostTree) (cwd : Place) (p : Path) : Except Errno Place :=
  t.walks.walk (if isRooted preferredSeparator p.cStr then [] else cwd)
    (pieces preferredSeparator p.cStr)

/-- The place that `mkdir` is to make for a path: nothing may be there. -/
def newPlace (t : HostTree) (cwd : Place) (p : Path) : Option Place :=
  match t.walkNames cwd p with
  | .ok k => if t.look k = none then some k else none
  | .error _ => none

/-- The place that `remove` is to take away: a file, or a directory without entries that is not
named by a `.` and is not the root. -/
def oldPlace (t : HostTree) (cwd : Place) (p : Path) : Option Place :=
  match p.locate t.walks cwd with
  | .ok k =>
      match t.look k with
      | none => none
      | some i =>
          if i.format = .directory ∧ (k = [] ∨ (t.readdir k).length ≠ 2 ∨
            (pieces preferredSeparator p.cStr).getLast? = some ['.']) then none
          else some k
  | .error _ => none

/-! ## One place more and one place less -/

section

variable {cwd : Place} {t : HostTree} {p : Path}

theorem look_insert_self (t : HostTree) (k : Place) (i : Inode) :
    (t.insert k i).look k = some i := by
  simp [look, insert]

theorem look_insert_of_ne {k k' : Place} (h : k' ≠ k) (t : HostTree) (i : Inode) :
    (t.insert k i).look k' = t.look k' := by
  simp [look, insert, h.symm]

theorem look_eq_none_iff {k : Place} : t.look k = none ↔ ∀ e ∈ t.entries, e.1 ≠ k := by
  simp [look]

theorem look_erase_self (t : HostTree) (k : Place) : (t.erase k).look k = none := by
  rw [look_eq_none_iff]
  intro e he
  simpa using (List.mem_filter.1 he).2

theorem look_erase_of_ne {k k' : Place} (h : k' ≠ k) (t : HostTree) :
    (t.erase k).look k' = t.look k' := by
  have hsame : (fun e : Place × Inode =>
      decide ((!decide (e.1 = k)) = true ∧ decide (e.1 = k') = true)) =
      fun e => decide (e.1 = k') := by
    funext e
    by_cases he : e.1 = k'
    · simp [he, h]
    · simp [he]
  rw [look, look, erase, List.find?_filter, hsame]

/-- A place that was not there goes as it came. -/
theorem erase_insert {k : Place} (h : t.look k = none) (i : Inode) :
    (t.insert k i).erase k = t := by
  rw [erase, insert, List.filter_cons_of_neg (by simp)]
  have hkeep : t.entries.filter (fun e => !decide (e.1 = k)) = t.entries := by
    refine List.filter_eq_self.2 fun e he => ?_
    simpa using look_eq_none_iff.1 h e he
  rw [hkeep]

/-! ## Where paths lead -/

/-- There is a directory at a place. -/
def IsDir (t : HostTree) (k : Place) : Prop := ∃ i, t.look k = some i ∧ i.format = .directory

theorem IsDir.ne_none {k : Place} (h : t.IsDir k) : t.look k ≠ none := by
  obtain ⟨i, hi, -⟩ := h
  rw [hi]
  exact Option.some_ne_none i

theorem IsDir.insert {k k' : Place} (h : t.IsDir k) (hnone : t.look k' = none) (i : Inode) :
    (t.insert k' i).IsDir k := by
  have hne : k ≠ k' := by
    rintro rfl
    exact h.ne_none hnone
  rwa [IsDir, look_insert_of_ne hne]

theorem follow_ok_iff {k k' : Place} {n : Str} :
    t.follow k n = .ok k' ↔ t.IsDir k ∧
      k' = if n = ['.'] then k else if n = ['.', '.'] then k.dropLast else k ++ [n] := by
  rw [follow, IsDir]
  cases hlook : t.look k with
  | none => simp
  | some i =>
      by_cases hdir : i.format = .directory
      · simp [hdir, eq_comm]
      · simp [hdir]

/-- The name `.` leads nowhere else. -/
theorem walks_stays (t : HostTree) : t.walks.Stays ['.'] := by
  intro k n
  simp only [walks, follow]
  cases hlook : t.look k with
  | none => rfl
  | some i =>
      by_cases hdir : i.format = .directory
      · simp [hdir, hlook, bind, Except.bind]
      · simp [hdir, bind, Except.bind]

/-- Names lead to the same place when there is one place more. -/
theorem walk_insert {k : Place} (hnone : t.look k = none) (i : Inode) {ns : List Str}
    {start stop : Place} (h : t.walks.walk start ns = .ok stop) :
    (t.insert k i).walks.walk start ns = .ok stop := by
  induction ns generalizing start with
  | nil => exact h
  | cons n rest ih =>
      simp only [Walks.walk, List.foldlM_cons] at h ih ⊢
      cases hstep : t.walks.follow start n with
      | error e =>
          rw [hstep] at h
          cases h
      | ok next =>
          rw [hstep] at h
          obtain ⟨hdir, hnext⟩ := follow_ok_iff.1 hstep
          have hstep' : (t.insert k i).walks.follow start n = .ok next :=
            follow_ok_iff.2 ⟨hdir.insert hnone i, hnext⟩
          rw [hstep']
          exact ih h

/-- A path leads to where its names lead, and a separator at its end asks for a directory there. -/
theorem locate_eq (t : HostTree) (cwd : Place) (p : Path) :
    p.locate t.walks cwd = t.walkNames cwd p >>= fun k =>
      if endsOpen preferredSeparator p.cStr then t.follow k ['.'] else .ok k := by
  rw [Path.locate, Walks.locate, names, Walks.walk_append, walkNames]
  refine bind_congr fun k => ?_
  split_ifs
  · exact bind_pure _
  · rfl

/-- What `stat` finds at a joined path it finds at the right side, from where the left one leads. -/
theorem find_slash {q : Path} (hp : '\x00' ∉ p) (hq : q.cStr ≠ []) (hrel : q.isAbsolute = false)
    {k : Place} (hk : p.locate t.walks cwd = .ok k) : t.find cwd (p.slash q) = t.find k q := by
  rw [find, find, Path.locate_slash (walks_stays t) hp hq hrel, hk]
  rfl

theorem newPlace_eq_some_iff {k : Place} :
    t.newPlace cwd p = some k ↔ t.walkNames cwd p = .ok k ∧ t.look k = none := by
  rw [newPlace]
  cases hwalk : t.walkNames cwd p with
  | error e => simp
  | ok k' =>
      by_cases hlook : t.look k' = none
      · simp only [hlook, if_true, Option.some.injEq, Except.ok.injEq]
        constructor
        · rintro rfl
          exact ⟨rfl, hlook⟩
        · exact fun h => h.1
      · simp only [hlook, if_false, Except.ok.injEq]
        constructor
        · exact fun h => by cases h
        · rintro ⟨rfl, hnone⟩
          exact absurd hnone hlook

/-- Behind `mkdir` the path leads to the new place. -/
theorem locate_insert {k : Place} (h : t.newPlace cwd p = some k) {i : Inode}
    (hdir : i.format = .directory) : p.locate (t.insert k i).walks cwd = .ok k := by
  obtain ⟨hwalk, hlook⟩ := newPlace_eq_some_iff.1 h
  have hwalk' : (t.insert k i).walkNames cwd p = .ok k := walk_insert hlook i hwalk
  have hstay : (t.insert k i).follow k ['.'] = .ok k :=
    follow_ok_iff.2 ⟨⟨i, look_insert_self t k i, hdir⟩, rfl⟩
  rw [locate_eq, hwalk']
  by_cases hopen : endsOpen preferredSeparator p.cStr = true
  · simp only [bind, Except.bind, hopen, if_true, hstay]
  · simp only [bind, Except.bind, hopen, Bool.false_eq_true, if_false]

/-! ## Closed directories -/

/-- The root is a directory, and everything else is in a directory, under a name of its own. -/
structure Closed (t : HostTree) : Prop where
  root : t.IsDir []
  inside : ∀ (k : Place) (n : Str), t.look (k ++ [n]) ≠ none →
    t.IsDir k ∧ n ≠ ['.'] ∧ n ≠ ['.', '.']

/-- What is above a directory is a directory. -/
theorem Closed.isDir_dropLast (h : t.Closed) {k : Place} (hdir : t.IsDir k) :
    t.IsDir k.dropLast := by
  rcases List.eq_nil_or_concat' k with rfl | ⟨front, n, rfl⟩
  · exact h.root
  · rw [List.dropLast_concat]
    exact (h.inside front n hdir.ne_none).1

/-- Under what is not there nothing is. -/
theorem Closed.below_none (h : t.Closed) {k : Place} (hnone : t.look k = none) (n : Str) :
    t.look (k ++ [n]) = none := by
  by_contra hsome
  exact (h.inside k n hsome).1.ne_none hnone

/-- **A new place** is in a directory that is there, under a name of its own, and the path ends in
that name. -/
theorem Closed.newPlace_spec (h : t.Closed) {k : Place} (hc : p.cStr ≠ [])
    (hk : t.newPlace cwd p = some k) :
    ∃ front n, k = front ++ [n] ∧ t.IsDir front ∧ n ≠ ['.'] ∧ n ≠ ['.', '.'] ∧
      (pieces preferredSeparator p.cStr).getLast? = some n := by
  obtain ⟨hwalk, hlook⟩ := newPlace_eq_some_iff.1 hk
  rw [walkNames] at hwalk
  rcases List.eq_nil_or_concat' (pieces preferredSeparator p.cStr) with hnil | ⟨ns, n, hns⟩
  · -- only the path of the root has no names
    exfalso
    rw [hnil] at hwalk
    cases hrooted : isRooted preferredSeparator p.cStr with
    | true =>
        rw [hrooted] at hwalk
        cases hwalk
        exact h.root.ne_none hlook
    | false => exact pieces_ne_nil hc hrooted hnil
  · rw [hns, Walks.walk_append] at hwalk
    obtain ⟨front, -, hlast⟩ : ∃ front, t.walks.walk _ ns = .ok front ∧
        t.walks.walk front [n] = .ok k := by
      cases hfront : t.walks.walk (if isRooted preferredSeparator p.cStr then [] else cwd) ns with
      | error e =>
          rw [hfront] at hwalk
          cases hwalk
      | ok front =>
          rw [hfront] at hwalk
          exact ⟨front, hfront, hwalk⟩
    have hfollow : t.follow front n = .ok k := by
      rw [Walks.walk, List.foldlM_cons] at hlast
      cases hstep : t.walks.follow front n with
      | error e =>
          rw [hstep] at hlast
          cases hlast
      | ok k' =>
          rw [hstep] at hlast
          cases hlast
          exact hstep
    obtain ⟨hdir, heq⟩ := follow_ok_iff.1 hfollow
    split_ifs at heq with hdot hdots
    · exact absurd (heq ▸ hlook) hdir.ne_none
    · exact absurd (heq ▸ hlook) (h.isDir_dropLast hdir).ne_none
    · refine ⟨front, n, heq, hdir, hdot, hdots, ?_⟩
      rw [hns, List.getLast?_append_of_ne_nil _ (List.cons_ne_nil _ _)]
      rfl

theorem Closed.insert (h : t.Closed) {front : Place} {n : Str} (hfront : t.IsDir front)
    (hdot : n ≠ ['.']) (hdots : n ≠ ['.', '.']) (hnone : t.look (front ++ [n]) = none)
    {i : Inode} : (t.insert (front ++ [n]) i).Closed := by
  refine ⟨h.root.insert hnone i, fun k m hsome => ?_⟩
  by_cases hplace : k ++ [m] = front ++ [n]
  · obtain ⟨rfl, hm⟩ := List.append_inj' hplace rfl
    cases hm
    exact ⟨hfront.insert hnone i, hdot, hdots⟩
  · rw [look_insert_of_ne hplace] at hsome
    obtain ⟨hdir, hrest⟩ := h.inside k m hsome
    exact ⟨hdir.insert hnone i, hrest⟩

/-- `readdir` gives a name besides `.` and `..` exactly where something is in the directory. -/
theorem readdir_length_eq_two_iff {k : Place} :
    (t.readdir k).length = 2 ↔ ∀ n, t.look (k ++ [n]) = none := by
  have hnames : (t.readdir k).length = 2 ↔ ∀ e ∈ t.entries,
      (if e.1.dropLast = k then e.1.getLast? else none) = none := by
    simp only [readdir, List.length_cons]
    rw [← List.filterMap_eq_nil_iff]
    constructor
    · intro h
      exact List.length_eq_zero_iff.1 (by omega)
    · intro h
      rw [h]
      rfl
  rw [hnames]
  constructor
  · intro h n
    rw [look_eq_none_iff]
    intro e he hplace
    have hnone := h e he
    rw [hplace, List.dropLast_concat, if_pos rfl, List.getLast?_concat] at hnone
    cases hnone
  · intro h e he
    split_ifs with hdrop
    · rcases List.eq_nil_or_concat' e.1 with hnil | ⟨front, n, hplace⟩
      · rw [hnil]
        rfl
      · rw [hplace, List.dropLast_concat] at hdrop
        exact absurd (hdrop ▸ hplace) (look_eq_none_iff.1 (h n) e he)
    · rfl

/-- **What is removed** is no directory with something in it, and not the root. -/
theorem oldPlace_spec {k : Place} (hk : t.oldPlace cwd p = some k) :
    p.locate t.walks cwd = .ok k ∧ (∃ i, t.look k = some i ∧
      (i.format = .directory → k ≠ [] ∧ ∀ n, t.look (k ++ [n]) = none)) := by
  rw [oldPlace] at hk
  cases hlocate : p.locate t.walks cwd with
  | error e =>
      rw [hlocate] at hk
      cases hk
  | ok k' =>
      rw [hlocate] at hk
      cases hlook : t.look k' with
      | none =>
          simp only [hlook] at hk
          cases hk
      | some i =>
          simp only [hlook] at hk
          split_ifs at hk with hkeeps
          cases hk
          refine ⟨rfl, i, hlook, fun hdir => ?_⟩
          simp only [hdir, true_and, not_or, not_not] at hkeeps
          exact ⟨hkeeps.1, readdir_length_eq_two_iff.1 hkeeps.2.1⟩

theorem Closed.erase (h : t.Closed) {k : Place} {i : Inode} (hi : t.look k = some i)
    (hempty : i.format = .directory → k ≠ [] ∧ ∀ n, t.look (k ++ [n]) = none) :
    (t.erase k).Closed := by
  -- a directory with something in it, and the root, are not at this place
  have hdir : ∀ k', t.IsDir k' → (k' = [] ∨ ∃ n, t.look (k' ++ [n]) ≠ none) →
      (t.erase k).IsDir k' := by
    intro k' hk' huse
    have hne : k' ≠ k := by
      rintro rfl
      obtain ⟨i', hi', hformat⟩ := hk'
      obtain rfl : i = i' := Option.some.inj (hi.symm.trans hi')
      obtain ⟨hroot, hnone⟩ := hempty hformat
      rcases huse with hnil | ⟨n, hn⟩
      · exact hroot hnil
      · exact hn (hnone n)
    rwa [IsDir, look_erase_of_ne hne]
  refine ⟨hdir [] h.root (.inl rfl), fun k' n hsome => ?_⟩
  have hne : k' ++ [n] ≠ k := by
    intro heq
    rw [heq, look_erase_self] at hsome
    exact hsome rfl
  rw [look_erase_of_ne hne] at hsome
  obtain ⟨hparent, hrest⟩ := h.inside k' n hsome
  exact ⟨hdir k' hparent (.inr ⟨n, hsome⟩), hrest⟩

/-! ## Behind a new directory -/

/-- Behind `mkdir` the path finds the new directory. -/
theorem find_insert {k : Place} (hk : t.newPlace cwd p = some k) {i : Inode}
    (hdir : i.format = .directory) : (t.insert k i).find cwd p = some i := by
  rw [find, locate_insert hk hdir]
  exact look_insert_self t k i

/-- A new directory has nothing in it. -/
theorem Closed.readdir_insert (h : t.Closed) {k : Place} (hnone : t.look k = none) (i : Inode) :
    ((t.insert k i).readdir k).length = 2 := by
  refine readdir_length_eq_two_iff.2 fun n => ?_
  have hne : k ++ [n] ≠ k := by simp
  rw [look_insert_of_ne hne]
  exact h.below_none hnone n

/-- A new directory can be removed under the path that it was made for. -/
theorem Closed.oldPlace_insert (h : t.Closed) {k : Place} (hc : p.cStr ≠ [])
    (hk : t.newPlace cwd p = some k) {i : Inode} (hdir : i.format = .directory) :
    (t.insert k i).oldPlace cwd p = some k := by
  obtain ⟨front, n, hplace, -, hdot, -, hlast⟩ := h.newPlace_spec hc hk
  have hkeeps : ¬ (i.format = .directory ∧ (k = [] ∨ ((t.insert k i).readdir k).length ≠ 2 ∨
      (pieces preferredSeparator p.cStr).getLast? = some ['.'])) := by
    rintro ⟨-, hroot | hentries | hname⟩
    · rw [hplace] at hroot
      simp at hroot
    · exact hentries (h.readdir_insert (newPlace_eq_some_iff.1 hk).2 i)
    · exact hdot (Option.some.inj (hlast.symm.trans hname))
  rw [oldPlace, locate_insert hk hdir]
  simp only [look_insert_self, if_neg hkeeps]

/-! ## What a call can do -/

/-- What a call with a path can do to the directories. -/
inductive Effect (cwd : Place) (p : Path) (t : HostTree) : HostTree → Prop
  | leaves : Effect cwd p t t
  | makes (k : Place) (i : Inode) (hc : p.cStr ≠ []) (hk : t.newPlace cwd p = some k) :
      Effect cwd p t (t.insert k i)
  | removes (k : Place) (hk : t.oldPlace cwd p = some k) : Effect cwd p t (t.erase k)

/-- **Whatever a call does**, closed directories stay closed. -/
theorem Closed.effect (h : t.Closed) {t' : HostTree} (heffect : Effect cwd p t t') :
    t'.Closed := by
  cases heffect with
  | leaves => exact h
  | makes k i hc hk =>
      have hnone := (newPlace_eq_some_iff.1 hk).2
      obtain ⟨front, n, rfl, hfront, hdot, hdots, -⟩ := h.newPlace_spec hc hk
      exact h.insert hfront hdot hdots hnone
  | removes k hk =>
      obtain ⟨-, i, hi, hempty⟩ := oldPlace_spec hk
      exact h.erase hi hempty

end

end HostTree

end Ssgx.Filesystem
