import Ssgx.Filesystem.Host
import Ssgx.Support.NamePaths
import Ssgx.Support.Text

/-!
# Joined paths

The operators of `Path`, and what they mean to the host. `operator/` works on the characters alone:
it looks at the last one of its left side and at the first one of its right side, and puts a
separator between them where there is none. The host follows the names of a path through its
directories.

`locate_slashes` brings the two together: a path made by `/` leads to where its parts lead one after
the other. `slash_assoc` says that the parts may be grouped in any way.
-/

set_option autoImplicit false

namespace Ssgx.Filesystem

open Ssgx.Support

/-! ## The operators -/

/-- `preferred_separator`. -/
def preferredSeparator : Char := '/'

namespace Path

/-- `IsAbsolute`. -/
def isAbsolute (p : Path) : Bool := !p.isEmpty && decide (p.head? = some preferredSeparator)

/-- `HasFilename`. -/
def hasFilename (p : Path) : Bool := !p.isEmpty && decide (p.getLast? ≠ some preferredSeparator)

/-- `operator/=` and `operator/`. -/
def slash (p q : Path) : Path :=
  if q.isAbsolute then q
  else (if p.hasFilename then p ++ [preferredSeparator] else p) ++ q

/-- `c_str`, as far as the host reads it. -/
def cStr (p : Path) : Str := upTo '\x00' p

theorem isAbsolute_eq (p : Path) : p.isAbsolute = isRooted preferredSeparator p := by
  cases p with
  | nil => rfl
  | cons c rest => rfl

/-- A path without a file name is empty or ends in a separator. -/
theorem hasFilename_eq_false_iff {p : Path} :
    p.hasFilename = false ↔ p = [] ∨ endsOpen preferredSeparator p = true := by
  cases p with
  | nil => simp [hasFilename]
  | cons c rest => simp [hasFilename, endsOpen]

theorem hasFilename_eq_true_iff {p : Path} :
    p.hasFilename = true ↔ p ≠ [] ∧ endsOpen preferredSeparator p = false := by
  cases p with
  | nil => simp [hasFilename]
  | cons c rest => simp [hasFilename, endsOpen]

theorem slash_of_absolute {p q : Path} (h : q.isAbsolute = true) : p.slash q = q := if_pos h

theorem slash_of_filename {p q : Path} (hq : q.isAbsolute = false) (hp : p.hasFilename = true) :
    p.slash q = p ++ preferredSeparator :: q := by
  rw [slash, hq, if_neg Bool.false_ne_true, if_pos hp, List.append_assoc]
  rfl

theorem slash_of_no_filename {p q : Path} (hq : q.isAbsolute = false)
    (hp : p.hasFilename = false) : p.slash q = p ++ q := by
  rw [slash, hq, if_neg Bool.false_ne_true, hp, if_neg Bool.false_ne_true]

/-! ## The grouping of parts -/

theorem nil_slash (q : Path) : Path.slash [] q = q := by
  cases hq : q.isAbsolute with
  | true => exact slash_of_absolute hq
  | false => exact slash_of_no_filename hq rfl

theorem isAbsolute_append {p : Path} (hp : p ≠ []) (q : List Char) :
    Path.isAbsolute (p ++ q) = p.isAbsolute := by
  rw [isAbsolute_eq, isAbsolute_eq, isRooted_append _ hp]

theorem hasFilename_append (p : List Char) {q : Path} (hq : q ≠ []) :
    Path.hasFilename (p ++ q) = q.hasFilename := by
  obtain ⟨c, rest, rfl⟩ := List.exists_cons_of_ne_nil hq
  rw [hasFilename, hasFilename, List.getLast?_append_of_ne_nil p hq]
  simp

/-- A path is absolute behind a `/` where its left side is, or has nothing and its right side is. -/
theorem isAbsolute_slash {p q : Path} (hp : p ≠ []) (hq : q.isAbsolute = false) :
    (p.slash q).isAbsolute = p.isAbsolute := by
  cases hname : p.hasFilename with
  | true => rw [slash_of_filename hq hname, isAbsolute_append hp]
  | false => rw [slash_of_no_filename hq hname, isAbsolute_append hp]

theorem hasFilename_slash (p : Path) {q : Path} (hq : q ≠ []) (hrel : q.isAbsolute = false) :
    (p.slash q).hasFilename = q.hasFilename := by
  cases hname : p.hasFilename with
  | true =>
      rw [slash_of_filename hrel hname, List.append_cons]
      exact hasFilename_append _ hq
  | false => rw [slash_of_no_filename hrel hname, hasFilename_append p hq]

/-- Behind a file name and a separator there is no file name. -/
theorem hasFilename_slash_nil (p : Path) : (p.slash []).hasFilename = false := by
  cases hname : p.hasFilename with
  | true =>
      rw [slash_of_filename rfl hname, hasFilename_append p (List.cons_ne_nil _ _)]
      rfl
  | false => rw [slash_of_no_filename rfl hname, List.append_nil, hname]

/-- **Parts may be grouped in any way.** -/
theorem slash_assoc (p q r : Path) : (p.slash q).slash r = p.slash (q.slash r) := by
  cases hr : r.isAbsolute with
  | true => rw [slash_of_absolute hr, slash_of_absolute hr, slash_of_absolute hr]
  | false =>
  rcases eq_or_ne q [] with rfl | hne
  · rw [nil_slash, slash_of_no_filename hr (hasFilename_slash_nil p)]
    cases hname : p.hasFilename with
    | true => rw [slash_of_filename rfl hname, slash_of_filename hr hname, ← List.append_cons]
    | false => rw [slash_of_no_filename rfl hname, slash_of_no_filename hr hname, List.append_nil]
  cases hq : q.isAbsolute with
  | true =>
      have hqr : (q.slash r).isAbsolute = true := (isAbsolute_slash hne hr).trans hq
      rw [slash_of_absolute hq, slash_of_absolute hqr]
  | false =>
      have hqr : (q.slash r).isAbsolute = false := (isAbsolute_slash hne hr).trans hq
      -- what the left side puts in front of `q` does not change how `r` follows it
      have hsame : (p.slash q).hasFilename = q.hasFilename := hasFilename_slash p hne hq
      have happend : ∀ x, p.slash q ++ x = p.slash (q ++ x) := by
        intro x
        have hqx : Path.isAbsolute (q ++ x) = false := (isAbsolute_append hne x).trans hq
        cases hname : p.hasFilename with
        | true =>
            rw [slash_of_filename hq hname, slash_of_filename hqx hname, List.append_assoc,
              List.cons_append]
        | false =>
            rw [slash_of_no_filename hq hname, slash_of_no_filename hqx hname, List.append_assoc]
      cases hname : q.hasFilename with
      | true =>
          rw [slash_of_filename hr (hsame.trans hname), slash_of_filename hr hname, happend]
      | false =>
          rw [slash_of_no_filename hr (hsame.trans hname), slash_of_no_filename hr hname, happend]

/-! ## Where a joined path leads -/

section

variable {κ ε : Type} (t : Walks Str κ ε)

/-- Where a path leads from a working directory. -/
def locate (k : κ) (p : Path) : Except ε κ := t.locate preferredSeparator ['.'] k p.cStr

/-- Where a part leads behind other parts: from the root, or from where they lead. -/
def locateBehind (front : Except ε κ) (q : Path) : Except ε κ :=
  if q.isAbsolute then q.locate t t.root else front >>= fun k => q.locate t k

variable {t}

theorem cStr_of_not_mem {p : Path} (h : '\x00' ∉ p) : p.cStr = p := upTo_of_not_mem h

/-- The first character of a C string is that of the path. -/
theorem isAbsolute_cStr {q : Path} (h : q.cStr ≠ []) : Path.isAbsolute q.cStr = q.isAbsolute := by
  cases q with
  | nil => rfl
  | cons c rest =>
      have hc : c ≠ '\x00' := by
        rintro rfl
        exact h (upTo_cons_self _ _)
      rw [cStr, upTo, if_neg hc]
      rfl

/-- The C string of a joined path is that of its right side, joined. -/
theorem cStr_slash {p q : Path} (hp : '\x00' ∉ p) (hrel : q.isAbsolute = false)
    (hq : q.cStr ≠ []) : (p.slash q).cStr = p.slash q.cStr := by
  have hrel' : Path.isAbsolute q.cStr = false := (isAbsolute_cStr hq).trans hrel
  cases hname : p.hasFilename with
  | true =>
      have hfront : '\x00' ∉ p ++ [preferredSeparator] := by
        intro hmem
        rcases List.mem_append.1 hmem with h | h
        · exact hp h
        · exact absurd (List.mem_singleton.1 h) (by decide)
      rw [slash_of_filename hrel hname, slash_of_filename hrel' hname, List.append_cons p _ q, cStr,
        upTo_append hfront, ← List.append_cons]
      rfl
  | false =>
      rw [slash_of_no_filename hrel hname, slash_of_no_filename hrel' hname, cStr, upTo_append hp]
      rfl

/-- **A relative path leads, behind a `/`, to where it leads from the path in front of it.** -/
theorem locate_slash (hstays : t.Stays ['.']) {p q : Path} (hp : '\x00' ∉ p) (hq : q.cStr ≠ [])
    (hrel : q.isAbsolute = false) (k : κ) :
    (p.slash q).locate t k = p.locate t k >>= fun k' => q.locate t k' := by
  have hrooted : isRooted preferredSeparator q.cStr = false := by
    rw [← isAbsolute_eq, isAbsolute_cStr hq, hrel]
  have hrel' : Path.isAbsolute q.cStr = false := (isAbsolute_cStr hq).trans hrel
  simp only [locate, cStr_slash hp hrel hq, cStr_of_not_mem hp]
  cases hname : p.hasFilename with
  | true =>
      obtain ⟨hne, hopen⟩ := hasFilename_eq_true_iff.1 hname
      rw [slash_of_filename hrel' hname]
      exact Walks.locate_append_cons hne hopen hq hrooted k
  | false =>
      rw [slash_of_no_filename hrel' hname]
      rcases hasFilename_eq_false_iff.1 hname with rfl | hopen
      · rfl
      · exact Walks.locate_append hstays hopen hq hrooted k

theorem locate_slash_eq (hstays : t.Stays ['.']) {p q : Path} (hp : '\x00' ∉ p)
    (hq : q.cStr ≠ []) (k : κ) : (p.slash q).locate t k = locateBehind t (p.locate t k) q := by
  cases habs : q.isAbsolute with
  | true =>
      have hrooted : isRooted preferredSeparator q.cStr = true := by
        rw [← isAbsolute_eq, isAbsolute_cStr hq, habs]
      rw [slash_of_absolute habs, locateBehind, if_pos habs]
      exact Walks.locate_of_rooted hrooted k t.root
  | false =>
      rw [locateBehind, habs, if_neg Bool.false_ne_true]
      exact locate_slash hstays hp hq habs k

theorem not_mem_slash {p q : Path} (hp : '\x00' ∉ p) (hq : '\x00' ∉ q) : '\x00' ∉ p.slash q := by
  rw [slash]
  split_ifs with habs hname
  · exact hq
  · simp only [List.mem_append, List.mem_singleton, not_or]
    exact ⟨⟨hp, by decide⟩, hq⟩
  · simp only [List.mem_append, not_or]
    exact ⟨hp, hq⟩

/-- **A joined path leads to where its parts lead one after the other**, in all directories of a
host and from every working directory: what is in front of an absolute part is dropped. -/
theorem locate_slashes (hstays : t.Stays ['.']) (k : κ) {p : Path} (hp : '\x00' ∉ p)
    {parts : List Path} (hparts : ∀ q ∈ parts, '\x00' ∉ q ∧ q ≠ []) :
    (parts.foldl slash p).locate t k = parts.foldl (locateBehind t) (p.locate t k) := by
  induction parts generalizing p with
  | nil => rfl
  | cons q rest ih =>
      obtain ⟨hnul, hne⟩ := hparts q List.mem_cons_self
      have hq : q.cStr ≠ [] := by
        rw [cStr_of_not_mem hnul]
        exact hne
      rw [List.foldl_cons, List.foldl_cons, ← locate_slash_eq hstays hp hq]
      exact ih (not_mem_slash hp hnul) fun q' hq' => hparts q' (List.mem_cons_of_mem q hq')

/-- Places that are known by their names from the root. -/
def plainPlaces : Walks Str (List Str) Unit where
  root := []
  follow := fun k n =>
    .ok (if n = ['.'] then k else if n = ['.', '.'] then k.dropLast else k ++ [n])

theorem plainPlaces_stays : plainPlaces.Stays ['.'] := fun _ _ => rfl

/-- `/a/` with `b` and `../c` leads to `/a/c`, and with `/d` behind that to `/d`. -/
theorem locate_slashes_plain :
    let front : Path := ['/', 'a', '/']
    let parts : List Path := [['b'], ['.', '.', '/', 'c']]
    (parts.foldl slash front).locate plainPlaces [] = .ok [['a'], ['c']] ∧
      ((parts ++ [['/', 'd']]).foldl slash front).locate plainPlaces [] = .ok [['d']] := by
  refine ⟨?_, ?_⟩
  · exact locate_slashes plainPlaces_stays [] (by decide) (by decide)
  · exact locate_slashes plainPlaces_stays [] (by decide) (by decide)

end

end Path

end Ssgx.Filesystem
