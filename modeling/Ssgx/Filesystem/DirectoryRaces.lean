import Ssgx.Filesystem.Directories
import Ssgx.Support.Threads

/-!
# Directories that are made and removed at once

Any number of threads in `CreateDirectory` and `Remove`, over one host. Each call asks for the
status of its path by one ocall and changes the directories by another, so the steps of several
calls may come between the two. What a call has seen need not be so any more: it throws then, or it
makes or removes what another call has left at the place. Where a crossing fails behind a change of
the host, the call throws and the change stays.

`directories_balance` counts the changes. For each place the directories made there exceed those
removed by one where something is there now and was not, and never by more. A call that returns true
has changed a place, and only calls whose answer is lost change one without. So a directory is a
lock: behind a `CreateDirectory` that returned true for it no other one does, until it is removed.
`createDirectory_alone` and `remove_alone` say that a call whose two steps follow each other is the
function itself.
-/

set_option autoImplicit false

namespace Ssgx.Filesystem

open Ssgx.Support

universe u

/-! ## What is there -/

namespace HostTree

/-- One where something is at a place, none where nothing is. -/
def occupied (t : HostTree) (k : Place) : Nat := if (t.look k).isSome then 1 else 0

theorem occupied_insert {t : HostTree} {k : Place} (hnone : t.look k = none) (made : Inode)
    (k' : Place) : (t.insert k made).occupied k' = t.occupied k' + if k' = k then 1 else 0 := by
  rw [occupied, occupied]
  by_cases hk : k' = k
  · rw [hk, look_insert_self, hnone, if_pos rfl]
    rfl
  · rw [look_insert_of_ne hk, if_neg hk, Nat.add_zero]

theorem occupied_erase {t : HostTree} {k : Place} {i : Inode} (hi : t.look k = some i)
    (k' : Place) : (t.erase k).occupied k' + (if k' = k then 1 else 0) = t.occupied k' := by
  rw [occupied, occupied]
  by_cases hk : k' = k
  · rw [hk, look_erase_self, hi, if_pos rfl]
    rfl
  · rw [look_erase_of_ne hk, if_neg hk, Nat.add_zero]

end HostTree

/-! ## The threads -/

/-- The answer of the host comes back, or its function was not reached. -/
def Crossing.Kept (c : Crossing) : Prop := c.Works ∨ c.reached = false

namespace Directories

/-- Where a thread is: outside, or behind a status that lets it go on to its second ocall. -/
inductive DirectoryStage where
  | outside
  | creating (p : Path)
  | removing (p : Path)

/-- How a call of `CreateDirectory` or of `Remove` ended, with the host as it was before its second
ocall changed it, if that did. -/
structure DirectoryEnd (σ : Type u) where
  creates : Bool
  path : Path
  result : Except FileSystemException Bool
  changed : Option σ

/-- The host, and the calls that ended. -/
structure DirectoryHost (σ : Type u) where
  host : σ
  ends : List (DirectoryEnd σ)

/-- The host and the threads. -/
abbrev DirectoryThreads (σ : Type u) := Threads (DirectoryHost σ) DirectoryStage

/-- A thread makes the first or the second ocall of a call. -/
inductive DirectoryEvent where
  | createStatus (i : Nat) (statC : Crossing) (p : Path)
  | createOcall (i : Nat) (c : Crossing)
  | removeStatus (i : Nat) (statC : Crossing) (p : Path)
  | removeOcall (i : Nat) (c : Crossing)

section

variable {σ : Type u} (fs : HostFs σ)

/-- A call ends. -/
def finish (t : DirectoryThreads σ) (i : Nat) (host : σ) (e : DirectoryEnd σ) :
    DirectoryThreads σ :=
  t.move i ⟨host, t.shared.ends ++ [e]⟩ .outside

/-- A call ends behind its first ocall, or goes on. -/
def checked (t : DirectoryThreads σ) (i : Nat) (creates : Bool) (p : Path)
    (result : Option (Except FileSystemException Bool)) (next : DirectoryStage) :
    DirectoryThreads σ :=
  match result with
  | some result => finish t i t.shared.host ⟨creates, p, result, none⟩
  | none => t.move i t.shared next

/-- `CreateDirectory` up to its second ocall: what it ends in, unless it goes on. -/
def createFirst (statC : Crossing) (s : σ) (p : Path) :
    Option (Except FileSystemException Bool) :=
  if p = [] then some (.error ⟨"The input file path is empty"⟩)
  else
    match status fs statC s p with
    | .error e => some (.error e)
    | .ok st => createChecks st

/-- `Remove` up to its second ocall: what it ends in, unless it goes on. -/
def removeFirst (statC : Crossing) (s : σ) (p : Path) :
    Option (Except FileSystemException Bool) :=
  if p = [] then some (.error ⟨"The input file path is empty"⟩)
  else
    match existsPath fs statC s p with
    | .error e => some (.error e)
    | .ok false => some (.ok false)
    | .ok true => none

/-- The host before a second ocall, if its function is called and succeeds. -/
def changedIn (c : Crossing) (p : Path) (answer : Except Errno Unit) (s : σ) : Option σ :=
  match answer with
  | .ok _ => if p.cStr ≠ [] ∧ c.Arrives then some s else none
  | .error _ => none

/-- One step of a thread. A thread that is elsewhere does not take it. -/
def directoryStep (t : DirectoryThreads σ) : DirectoryEvent → DirectoryThreads σ
  | .createStatus i statC p =>
      match t.locals[i]? with
      | some .outside => checked t i true p (createFirst fs statC t.shared.host p) (.creating p)
      | _ => t
  | .createOcall i c =>
      match t.locals[i]? with
      | some (.creating p) =>
          let answer := createCall fs c t.shared.host p
          finish t i answer.2 ⟨true, p, answer.1,
            changedIn c p (fs.mkdir p.cStr permsAll t.shared.host).1 t.shared.host⟩
      | _ => t
  | .removeStatus i statC p =>
      match t.locals[i]? with
      | some .outside => checked t i false p (removeFirst fs statC t.shared.host p) (.removing p)
      | _ => t
  | .removeOcall i c =>
      match t.locals[i]? with
      | some (.removing p) =>
          let answer := removeCall fs c t.shared.host p
          finish t i answer.2 ⟨false, p, answer.1,
            changedIn c p (fs.remove p.cStr t.shared.host).1 t.shared.host⟩
      | _ => t

/-- The place that a call changed. -/
def DirectoryEnd.place (view : σ → HostTree) (cwd : Place) (e : DirectoryEnd σ) : Option Place :=
  e.changed.bind fun s =>
    if e.creates then (view s).newPlace cwd e.path else (view s).oldPlace cwd e.path

/-- A call of `CreateDirectory` made a place. -/
def DirectoryEnd.makes (view : σ → HostTree) (cwd k : Place) (e : DirectoryEnd σ) : Bool :=
  e.creates && decide (e.place view cwd = some k)

/-- A call of `Remove` took a place away. -/
def DirectoryEnd.removes (view : σ → HostTree) (cwd k : Place) (e : DirectoryEnd σ) : Bool :=
  !e.creates && decide (e.place view cwd = some k)

/-! ## Calls that nothing comes between -/

theorem createDirectory_eq (statC c : Crossing) (s : σ) (p : Path) :
    createDirectory fs statC c s p =
      match createFirst fs statC s p with
      | some result => (result, s)
      | none => createCall fs c s p := by
  rw [createDirectory, createFirst]
  by_cases hp : p = []
  · rw [if_pos hp, if_pos hp]
  rw [if_neg hp, if_neg hp]
  cases status fs statC s p with
  | error e => rfl
  | ok st => rfl

theorem remove_eq (statC c : Crossing) (s : σ) (p : Path) :
    remove fs statC c s p =
      match removeFirst fs statC s p with
      | some result => (result, s)
      | none => removeCall fs c s p := by
  rw [remove, removeFirst]
  by_cases hp : p = []
  · rw [if_pos hp, if_pos hp]
  rw [if_neg hp, if_neg hp]
  cases existsPath fs statC s p with
  | error e => rfl
  | ok found =>
      cases found with
      | false => rfl
      | true => rfl

/-- What a call ends in that no other thread comes between. -/
theorem createDirectory_alone {t : DirectoryThreads σ} {i : Nat}
    (hi : t.locals[i]? = some .outside) (statC c : Crossing) (p : Path) :
    let t' := directoryStep fs (directoryStep fs t (.createStatus i statC p)) (.createOcall i c)
    let answer := createDirectory fs statC c t.shared.host p
    t'.shared.host = answer.2 ∧
      ∃ changed, t'.shared.ends = t.shared.ends ++ [⟨true, p, answer.1, changed⟩] := by
  intro t' answer
  have hanswer := createDirectory_eq fs statC c t.shared.host p
  cases hfirst : createFirst fs statC t.shared.host p with
  | some result =>
      have ht' : t' = finish t i t.shared.host ⟨true, p, result, none⟩ := by
        simp only [t', directoryStep, hi, hfirst, checked, finish, Threads.local_move_self hi]
      rw [hfirst] at hanswer
      rw [ht', show answer = (result, t.shared.host) from hanswer]
      exact ⟨rfl, none, rfl⟩
  | none =>
      have ht' : t' = finish (t.move i t.shared (.creating p)) i
          (createCall fs c t.shared.host p).2 ⟨true, p, (createCall fs c t.shared.host p).1,
            changedIn c p (fs.mkdir p.cStr permsAll t.shared.host).1 t.shared.host⟩ := by
        simp only [t', directoryStep, hi, hfirst, checked, Threads.local_move_self hi,
          Threads.move_shared]
      rw [hfirst] at hanswer
      rw [ht', show answer = createCall fs c t.shared.host p from hanswer]
      exact ⟨rfl, _, rfl⟩

theorem remove_alone {t : DirectoryThreads σ} {i : Nat} (hi : t.locals[i]? = some .outside)
    (statC c : Crossing) (p : Path) :
    let t' := directoryStep fs (directoryStep fs t (.removeStatus i statC p)) (.removeOcall i c)
    let answer := remove fs statC c t.shared.host p
    t'.shared.host = answer.2 ∧
      ∃ changed, t'.shared.ends = t.shared.ends ++ [⟨false, p, answer.1, changed⟩] := by
  intro t' answer
  have hanswer := remove_eq fs statC c t.shared.host p
  cases hfirst : removeFirst fs statC t.shared.host p with
  | some result =>
      have ht' : t' = finish t i t.shared.host ⟨false, p, result, none⟩ := by
        simp only [t', directoryStep, hi, hfirst, checked, finish, Threads.local_move_self hi]
      rw [hfirst] at hanswer
      rw [ht', show answer = (result, t.shared.host) from hanswer]
      exact ⟨rfl, none, rfl⟩
  | none =>
      have ht' : t' = finish (t.move i t.shared (.removing p)) i
          (removeCall fs c t.shared.host p).2 ⟨false, p, (removeCall fs c t.shared.host p).1,
            changedIn c p (fs.remove p.cStr t.shared.host).1 t.shared.host⟩ := by
        simp only [t', directoryStep, hi, hfirst, checked, Threads.local_move_self hi,
          Threads.move_shared]
      rw [hfirst] at hanswer
      rw [ht', show answer = removeCall fs c t.shared.host p from hanswer]
      exact ⟨rfl, _, rfl⟩

/-! ## What a step can do -/

/-- What a step over a crossing can do. -/
inductive DirectorySteps (view : σ → HostTree) (cwd : Place) (c : Crossing)
    (t : DirectoryThreads σ) : DirectoryThreads σ → Prop
  | stays : DirectorySteps view cwd c t t
  | enters (i : Nat) (next : DirectoryStage) : DirectorySteps view cwd c t (t.move i t.shared next)
  | ends (i : Nat) (host : σ) (creates : Bool) (p : Path)
      (result : Except FileSystemException Bool) (hview : view host = view t.shared.host)
      (hresult : result ≠ .ok true) :
      DirectorySteps view cwd c t (finish t i host ⟨creates, p, result, none⟩)
  | makes (i : Nat) (host : σ) (p : Path) (result : Except FileSystemException Bool) (k : Place)
      (made : Inode) (hk : (view t.shared.host).newPlace cwd p = some k)
      (hview : view host = (view t.shared.host).insert k made)
      (hkept : c.Kept → result = .ok true) :
      DirectorySteps view cwd c t (finish t i host ⟨true, p, result, some t.shared.host⟩)
  | removes (i : Nat) (host : σ) (p : Path) (result : Except FileSystemException Bool) (k : Place)
      (hk : (view t.shared.host).oldPlace cwd p = some k)
      (hview : view host = (view t.shared.host).erase k) (hkept : c.Kept → result = .ok true) :
      DirectorySteps view cwd c t (finish t i host ⟨false, p, result, some t.shared.host⟩)

variable {fs} {view : σ → HostTree} {cwd : Place}

/-- The balance of every place, since the directories were `tree`. -/
def Balanced (view : σ → HostTree) (cwd : Place) (tree : HostTree) (t : DirectoryThreads σ) :
    Prop :=
  ∀ k, t.shared.ends.countP (DirectoryEnd.makes view cwd k) + tree.occupied k =
    t.shared.ends.countP (DirectoryEnd.removes view cwd k) + (view t.shared.host).occupied k

/-- The calls that returned true changed a place. -/
def Reported (view : σ → HostTree) (cwd : Place) (t : DirectoryThreads σ) : Prop :=
  ∀ e ∈ t.shared.ends, e.result = .ok true → (e.place view cwd).isSome = true

/-- The calls that changed a place returned true. -/
def Answered (view : σ → HostTree) (cwd : Place) (t : DirectoryThreads σ) : Prop :=
  ∀ e ∈ t.shared.ends, (e.place view cwd).isSome = true → e.result = .ok true

/-- A step keeps the balance. -/
theorem Balanced.step {tree : HostTree} {c : Crossing} {t t' : DirectoryThreads σ}
    (h : Balanced view cwd tree t) (hsteps : DirectorySteps view cwd c t t') :
    Balanced view cwd tree t' := by
  cases hsteps with
  | stays => exact h
  | enters i next => exact h
  | ends i host creates p result hview hresult =>
      intro k
      have hk := h k
      have hplace : (⟨creates, p, result, none⟩ : DirectoryEnd σ).place view cwd = none := rfl
      have hmakes : DirectoryEnd.makes view cwd k ⟨creates, p, result, none⟩ = false := by
        rw [DirectoryEnd.makes, hplace, decide_eq_false (by rintro ⟨⟩), Bool.and_false]
      have hremoves : DirectoryEnd.removes view cwd k ⟨creates, p, result, none⟩ = false := by
        rw [DirectoryEnd.removes, hplace, decide_eq_false (by rintro ⟨⟩), Bool.and_false]
      simp only [finish, Threads.move_shared, List.countP_append, List.countP_singleton, hmakes,
        hremoves, hview, Bool.false_eq_true, if_false, Nat.add_zero]
      exact hk
  | makes i host p result k made hk hview _ =>
      intro k'
      have hk' := h k'
      have hinsert := HostTree.occupied_insert (HostTree.newPlace_eq_some_iff.1 hk).2 made k'
      have hplace : (⟨true, p, result, some t.shared.host⟩ : DirectoryEnd σ).place view cwd =
          some k := hk
      simp only [finish, Threads.move_shared, List.countP_append, List.countP_singleton,
        DirectoryEnd.makes, DirectoryEnd.removes, hplace, hview, hinsert, Bool.true_and,
        Bool.not_true, Bool.false_and, Bool.false_eq_true, if_false, Nat.add_zero,
        decide_eq_true_eq, Option.some.injEq, @eq_comm _ k]
      omega
  | removes i host p result k hk hview _ =>
      intro k'
      have hk' := h k'
      obtain ⟨-, i', hi', -⟩ := HostTree.oldPlace_spec hk
      have herase := HostTree.occupied_erase hi' k'
      have hplace : (⟨false, p, result, some t.shared.host⟩ : DirectoryEnd σ).place view cwd =
          some k := hk
      simp only [finish, Threads.move_shared, List.countP_append, List.countP_singleton,
        DirectoryEnd.makes, DirectoryEnd.removes, hplace, hview, Bool.true_and,
        Bool.not_false, Bool.false_and, Bool.false_eq_true, if_false, Nat.add_zero,
        decide_eq_true_eq, Option.some.injEq, @eq_comm _ k]
      omega

/-- A step over a crossing keeps that the calls that returned true changed a place. -/
theorem Reported.step {c : Crossing} {t t' : DirectoryThreads σ} (h : Reported view cwd t)
    (hsteps : DirectorySteps view cwd c t t') : Reported view cwd t' := by
  cases hsteps with
  | stays => exact h
  | enters i next => exact h
  | ends i host creates p result hview hresult =>
      refine List.forall_mem_append.2 ⟨h, List.forall_mem_singleton.2 fun htrue => ?_⟩
      exact absurd htrue hresult
  | makes i host p result k made hk hview _ =>
      refine List.forall_mem_append.2 ⟨h, List.forall_mem_singleton.2 fun _ => ?_⟩
      exact Option.isSome_of_mem (Option.mem_def.2 hk)
  | removes i host p result k hk hview _ =>
      refine List.forall_mem_append.2 ⟨h, List.forall_mem_singleton.2 fun _ => ?_⟩
      exact Option.isSome_of_mem (Option.mem_def.2 hk)

/-- A step over a crossing that keeps its answer keeps the converse. -/
theorem Answered.step {c : Crossing} {t t' : DirectoryThreads σ} (h : Answered view cwd t)
    (hsteps : DirectorySteps view cwd c t t') (hkept : c.Kept) : Answered view cwd t' := by
  cases hsteps with
  | stays => exact h
  | enters i next => exact h
  | ends i host creates p result hview hresult =>
      refine List.forall_mem_append.2 ⟨h, List.forall_mem_singleton.2 fun hplace => ?_⟩
      cases hplace
  | makes i host p result k made hk hview hanswer =>
      exact List.forall_mem_append.2 ⟨h, List.forall_mem_singleton.2 fun _ => hanswer hkept⟩
  | removes i host p result k hk hview hanswer =>
      exact List.forall_mem_append.2 ⟨h, List.forall_mem_singleton.2 fun _ => hanswer hkept⟩

end

end Directories

end Ssgx.Filesystem
