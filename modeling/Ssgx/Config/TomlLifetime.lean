import Ssgx.Config.TomlHost
import Ssgx.Support.Allocator

/-!
# The TOML objects of a program

A `TomlConfig` holds the address of a TOML object on the host: `LoadFile` of `ssgx_config_t.cpp`
takes it from `ssgx_ocall_toml_create_from_file`, the getters pass it back, and the destructor has
the object freed. The class declares a destructor and no copy or move operation, so it is copied and
assigned member by member, and a move is a copy.

Any number of configurations live here at once, each under a number. `Owned` says that every address
that a configuration holds is that of an object that is alive, and that every such object is held;
`owned_tomlStep_iff` says which steps keep it, and `objects_freed_once` what follows for a run. What
`LoadFile` does to an address that it overwrites, and what a copy shares, is in
`reload_leaks_copy_dangles`.
-/

set_option autoImplicit false

namespace Ssgx.Config

open Ssgx.Support
open Ssgx.Attestation (sgxSuccess)

/-! ## The ocalls -/

/-- What `ssgx_ocall_toml_create_from_file` finds on the host. `block` is what `new` gives, 0 where
it fails. -/
structure TomlFile where
  found : Bool
  regular : Bool
  size : Nat
  block : Nat
  parses : Bool
deriving DecidableEq

/-- `LIMITED_TOML_FILE_SIZE`. -/
def limitedTomlFileSize : Nat := 128 * 1024

/-- `ssgx_ocall_toml_create_from_file`: its return value, and the reference, 0 where none is
written. -/
def ssgxOcallTomlCreateFromFile (tomlFilePath : List UInt8) (file : TomlFile) (host : Allocator) :
    (Int × Nat) × Allocator :=
  if tomlFilePath.isEmpty then ((-1, 0), host)
  else if file.found = false then ((-3, 0), host)
  else if file.regular = false then ((-4, 0), host)
  else if limitedTomlFileSize < file.size then ((-5, 0), host)
  else if file.block = 0 then ((-6, 0), host)
  else
    let context := host.allocate file.block
    -- the `catch` behind the parser deletes the object that was made for it
    if file.parses = false then ((-7, 0), context.free file.block)
    else ((0, file.block), context)

/-- `ssgx_ocall_toml_find_int`, `_str` and `_array`, as far as they use the object. -/
def ssgxOcallTomlFind (refTomlFile : Nat) (path : List UInt8) (host : Allocator) : Allocator :=
  if refTomlFile = 0 ∨ path.isEmpty then host else host.use refTomlFile

/-- `ssgx_ocall_toml_free`. -/
def ssgxOcallTomlFree (refTomlFile : Nat) (host : Allocator) : Allocator :=
  if refTomlFile = 0 then host else host.free refTomlFile

/-! ## The configurations -/

/-- `TomlConfig::LoadFile`: the new `ref_untrusted_toml_obj_`, or `err_msg_`. A null pointer is
`none`; an ocall whose crossing fails is not made. -/
def loadFile (tomlFilePath : Option (List UInt8)) (status : UInt32) (file : TomlFile)
    (host : Allocator) : Except Str Nat × Allocator :=
  match tomlFilePath with
  | none | some [] => (.error (str "The input toml file path is empty"), host)
  | some (c :: path) =>
      if status ≠ sgxSuccess then
        (.error (str "Enclave ssgx_ocall_toml_create_from_file function call failed, " ++
          str "sgx status: 0x" ++ hexText status.toNat), host)
      else
        let made := ssgxOcallTomlCreateFromFile (c :: path) file host
        if made.1.1 < 0 then
          (.error (str "Enclave ssgx_ocall_toml_create_from_file function call failed, " ++
            str "error code: " ++ toText made.1.1), made.2)
        else (.ok made.1.2, made.2)

/-- What is done with the configurations. A getter asks with the path that its keys are, as text. -/
inductive TomlOp where
  | construct (i : Nat)
  | loadFile (i : Nat) (tomlFilePath : Option (List UInt8)) (status : UInt32) (file : TomlFile)
  | copy (i j : Nat)
  | assign (i j : Nat)
  | get (i : Nat) (pathsStr : List UInt8) (status : UInt32)
  | destroy (i : Nat) (status : UInt32)

/-- `ref_untrusted_toml_obj_` of every configuration that lives, and the heap of the host. -/
structure TomlWorld where
  configs : Nat → Option Nat
  host : Allocator

/-- Nothing was constructed yet. -/
def TomlWorld.start : TomlWorld := ⟨fun _ => none, Allocator.empty⟩

/-- The configuration holds the address, and the host has the heap. -/
def TomlWorld.put (s : TomlWorld) (i ref : Nat) (host : Allocator) : TomlWorld :=
  ⟨Function.update s.configs i (some ref), host⟩

/-- The configuration goes, and the host has the heap. -/
def TomlWorld.drop (s : TomlWorld) (i : Nat) (host : Allocator) : TomlWorld :=
  ⟨Function.update s.configs i none, host⟩

@[simp] theorem TomlWorld.put_configs_self (s : TomlWorld) (i ref : Nat) (host : Allocator) :
    (s.put i ref host).configs i = some ref := Function.update_self ..

theorem TomlWorld.put_configs_of_ne (s : TomlWorld) {i k : Nat} (h : k ≠ i) (ref : Nat)
    (host : Allocator) : (s.put i ref host).configs k = s.configs k := Function.update_of_ne h ..

theorem TomlWorld.drop_configs_iff (s : TomlWorld) (i : Nat) (host : Allocator) (k ref : Nat) :
    (s.drop i host).configs k = some ref ↔ k ≠ i ∧ s.configs k = some ref := by
  by_cases hki : k = i
  · subst hki
    simp [drop]
  · rw [drop, and_iff_right hki]
    dsimp only
    rw [Function.update_of_ne hki]

/-- One operation. What does not exist cannot be asked, and what exists is not constructed again. -/
def tomlStep (s : TomlWorld) : TomlOp → TomlWorld
  | .construct i =>
      match s.configs i with
      | none => s.put i 0 s.host
      | some _ => s
  | .loadFile i tomlFilePath status file =>
      match s.configs i with
      | none => s
      | some _ =>
          match loadFile tomlFilePath status file s.host with
          | (.error _, host) => { s with host := host }
          -- the old address is overwritten
          | (.ok tomlCtx, host) => s.put i tomlCtx host
  -- the members are copied, the address among them
  | .copy i j =>
      match s.configs i, s.configs j with
      | none, some ref => s.put i ref s.host
      | _, _ => s
  | .assign i j =>
      match s.configs i, s.configs j with
      | some _, some ref => s.put i ref s.host
      | _, _ => s
  | .get i pathsStr status =>
      match s.configs i with
      | none => s
      | some ref =>
          if ref = 0 ∨ pathsStr.isEmpty ∨ status ≠ sgxSuccess then s
          else { s with host := ssgxOcallTomlFind ref pathsStr s.host }
  | .destroy i status =>
      match s.configs i with
      | none => s
      | some ref =>
          -- the status of the ocall is not looked at
          s.drop i (if status ≠ sgxSuccess then s.host else ssgxOcallTomlFree ref s.host)

/-! ## What is said of a step -/

/-- What `new` promises: it fails, or gives the address of no object that is alive. -/
def NewGivesFresh (s : TomlWorld) : TomlOp → Prop
  | .loadFile _ _ _ file => ¬ s.host.Alive file.block
  | _ => True

/-- The file can be loaded. -/
def TomlFile.Loads (file : TomlFile) : Prop :=
  file.found = true ∧ file.regular = true ∧ file.size ≤ limitedTomlFileSize ∧ file.block ≠ 0 ∧
    file.parses = true

/-- The path is not a null pointer and not empty. -/
def PathGiven (tomlFilePath : Option (List UInt8)) : Prop :=
  ∃ c path, tomlFilePath = some (c :: path)

/-- Another configuration holds the address as well. -/
def TomlWorld.Shared (s : TomlWorld) (i ref : Nat) : Prop := ∃ k, k ≠ i ∧ s.configs k = some ref

/-- An address is overwritten by a `LoadFile` or an assignment only where another configuration
holds it as well, and a destructor's ocall arrives exactly where none does. -/
def LastHolderFrees (s : TomlWorld) : TomlOp → Prop
  | .loadFile i tomlFilePath status file =>
      PathGiven tomlFilePath → status = sgxSuccess → file.Loads →
        ∀ ref, s.configs i = some ref → ref ≠ 0 → s.Shared i ref
  | .assign i j =>
      i ≠ j → s.configs j ≠ none → ∀ ref, s.configs i = some ref → ref ≠ 0 → s.Shared i ref
  | .destroy i status =>
      ∀ ref, s.configs i = some ref → ref ≠ 0 → (status = sgxSuccess ↔ ¬ s.Shared i ref)
  | _ => True

/-- Every address held is that of an object that is alive, and every such object is held. -/
structure Owned (s : TomlWorld) : Prop where
  sound : s.host.Sound
  null : ¬ s.host.Alive 0
  held : ∀ i ref, s.configs i = some ref → ref ≠ 0 → s.host.Alive ref
  covered : ∀ a, s.host.Alive a → ∃ i, s.configs i = some a

theorem owned_start : Owned TomlWorld.start where
  sound := Allocator.sound_empty
  null := by
    rintro ⟨r, hr⟩
    cases hr
  held := fun _ _ h => by cases h
  covered := by
    rintro a ⟨r, hr⟩
    cases hr

/-! ## Loading a file -/

/-- The ocall makes an object and returns its address exactly where the file can be loaded; else it
returns an error, and no object is left that was not there. -/
theorem createFromFile_cases (c : UInt8) (path : List UInt8) (file : TomlFile) (host : Allocator) :
    (file.Loads ∧ ssgxOcallTomlCreateFromFile (c :: path) file host =
      ((0, file.block), host.allocate file.block)) ∨
    (¬ file.Loads ∧ ∃ ret < 0,
      ssgxOcallTomlCreateFromFile (c :: path) file host = ((ret, 0), host) ∨
        ssgxOcallTomlCreateFromFile (c :: path) file host =
          ((ret, 0), (host.allocate file.block).free file.block)) := by
  simp only [ssgxOcallTomlCreateFromFile, List.isEmpty_cons, Bool.false_eq_true, if_false]
  by_cases hfound : file.found = false
  · exact .inr ⟨fun h => by simp [h.1] at hfound, -3, by decide, .inl (if_pos hfound)⟩
  rw [if_neg hfound]
  by_cases hregular : file.regular = false
  · exact .inr ⟨fun h => by simp [h.2.1] at hregular, -4, by decide, .inl (if_pos hregular)⟩
  rw [if_neg hregular]
  by_cases hsize : limitedTomlFileSize < file.size
  · exact .inr ⟨fun h => Nat.not_lt.2 h.2.2.1 hsize, -5, by decide, .inl (if_pos hsize)⟩
  rw [if_neg hsize]
  by_cases hblock : file.block = 0
  · exact .inr ⟨fun h => h.2.2.2.1 hblock, -6, by decide, .inl (if_pos hblock)⟩
  rw [if_neg hblock]
  by_cases hparses : file.parses = false
  · exact .inr ⟨fun h => by simp [h.2.2.2.2] at hparses, -7, by decide, .inr (if_pos hparses)⟩
  rw [if_neg hparses]
  exact .inl ⟨⟨Bool.eq_true_of_not_eq_false hfound, Bool.eq_true_of_not_eq_false hregular,
    Nat.not_lt.1 hsize, hblock, Bool.eq_true_of_not_eq_false hparses⟩, rfl⟩

/-- **What `LoadFile` does.** It takes the address of a new object exactly where the path is given,
the crossing works and the file can be loaded; else no object is left that was not there. -/
theorem loadFile_cases (tomlFilePath : Option (List UInt8)) (status : UInt32) (file : TomlFile)
    (host : Allocator) :
    ((PathGiven tomlFilePath ∧ status = sgxSuccess ∧ file.Loads) ∧
      loadFile tomlFilePath status file host = (.ok file.block, host.allocate file.block)) ∨
    (¬ (PathGiven tomlFilePath ∧ status = sgxSuccess ∧ file.Loads) ∧
      ∃ errMsg, loadFile tomlFilePath status file host = (.error errMsg, host) ∨
        loadFile tomlFilePath status file host =
          (.error errMsg, (host.allocate file.block).free file.block)) := by
  match tomlFilePath with
  | none => exact .inr ⟨fun h => by simp [PathGiven] at h, _, .inl rfl⟩
  | some [] => exact .inr ⟨fun h => by simp [PathGiven] at h, _, .inl rfl⟩
  | some (c :: path) =>
      simp only [loadFile]
      by_cases hstatus : status = sgxSuccess
      · rw [if_neg (not_not_intro hstatus)]
        rcases createFromFile_cases c path file host
          with ⟨hloads, hmade⟩ | ⟨hloads, ret, hret, hmade⟩
        · rw [hmade]
          exact .inl ⟨⟨⟨c, path, rfl⟩, hstatus, hloads⟩, rfl⟩
        · refine .inr ⟨fun h => hloads h.2.2, ?_⟩
          rcases hmade with hmade | hmade
          · rw [hmade]
            exact ⟨_, .inl (if_pos hret)⟩
          · rw [hmade]
            exact ⟨_, .inr (if_pos hret)⟩
      · exact .inr ⟨fun h => hstatus h.2.1, _, .inl (if_pos hstatus)⟩

/-! ## What keeps the objects owned -/

section Owned

variable {s : TomlWorld} {i : Nat}

/-- A heap in which the same objects are alive. -/
theorem Owned.with_host (h : Owned s) {host : Allocator} (hsound : host.Sound)
    (halive : ∀ a, host.Alive a ↔ s.host.Alive a) : Owned { s with host := host } where
  sound := hsound
  null := fun hnull => h.null ((halive 0).1 hnull)
  held := fun i ref hi hne => (halive ref).2 (h.held i ref hi hne)
  covered := fun a ha => h.covered a ((halive a).1 ha)

/-- **A configuration takes an address**, which is 0, that of an object that is alive, or that of
the only new one. The objects stay owned exactly if the address it had is held elsewhere too. -/
theorem owned_put_iff (h : Owned s) (new : Nat) {host : Allocator} (hsound : host.Sound)
    (halive : ∀ a, host.Alive a ↔ s.host.Alive a ∨ (a = new ∧ new ≠ 0)) :
    Owned (s.put i new host) ↔
      ∀ ref, s.configs i = some ref → ref ≠ 0 → ref ≠ new → s.Shared i ref := by
  constructor
  · intro hput ref hi hne hnew
    -- the object of the old address is alive, so it must be held by another configuration
    obtain ⟨k, hk⟩ := hput.covered ref ((halive ref).2 (.inl (h.held i ref hi hne)))
    have hki : k ≠ i := by
      rintro rfl
      rw [TomlWorld.put_configs_self, Option.some.injEq] at hk
      exact hnew hk.symm
    rw [TomlWorld.put_configs_of_ne _ hki] at hk
    exact ⟨k, hki, hk⟩
  · intro hshared
    refine ⟨hsound, ?_, ?_, ?_⟩
    · intro hnull
      rcases (halive 0).1 hnull with hold | ⟨rfl, hne⟩
      · exact h.null hold
      · exact hne rfl
    · intro k ref hk hne
      by_cases hki : k = i
      · subst hki
        rw [TomlWorld.put_configs_self, Option.some.injEq] at hk
        subst hk
        exact (halive new).2 (.inr ⟨rfl, hne⟩)
      · rw [TomlWorld.put_configs_of_ne _ hki] at hk
        exact (halive ref).2 (.inl (h.held k ref hk hne))
    · intro a ha
      by_cases hnew : a = new
      · subst hnew
        exact ⟨i, TomlWorld.put_configs_self ..⟩
      have hold : s.host.Alive a := ((halive a).1 ha).resolve_right fun h => hnew h.1
      have hne : a ≠ 0 := by
        rintro rfl
        exact h.null hold
      -- who held the address still does, or it is held elsewhere too
      have hother : ∃ k, k ≠ i ∧ s.configs k = some a := by
        obtain ⟨k, hk⟩ := h.covered a hold
        by_cases hki : k = i
        · subst hki
          exact hshared a hk hne hnew
        · exact ⟨k, hki, hk⟩
      obtain ⟨k, hki, hk⟩ := hother
      exact ⟨k, (TomlWorld.put_configs_of_ne _ hki ..).trans hk⟩

/-- An address that is held already, or 0, is taken. -/
theorem owned_put_held_iff (h : Owned s) {new : Nat}
    (hnew : new = 0 ∨ ∃ j, s.configs j = some new) :
    Owned (s.put i new s.host) ↔
      ∀ ref, s.configs i = some ref → ref ≠ 0 → ref ≠ new → s.Shared i ref := by
  refine owned_put_iff h new h.sound fun a => (or_iff_left_of_imp ?_).symm
  rintro ⟨rfl, hne⟩
  rcases hnew with hzero | ⟨j, hj⟩
  · exact absurd hzero hne
  · exact h.held j a hj hne

/-- **A configuration goes**, and its object is freed or not. The objects stay owned exactly if it
is freed where no other configuration holds it, and is not where one does. -/
theorem owned_drop_iff (h : Owned s) {ref : Nat} (hi : s.configs i = some ref) {host : Allocator}
    (freed : Prop) (hsound : host.Sound)
    (halive : ∀ a, host.Alive a ↔ s.host.Alive a ∧ (freed → a ≠ ref)) :
    Owned (s.drop i host) ↔ (ref ≠ 0 → (freed ↔ ¬ s.Shared i ref)) := by
  constructor
  · intro hdrop hne
    constructor
    · rintro hfreed ⟨k, hki, hk⟩
      -- another holder would be left with a freed object
      have hk' : host.Alive ref := hdrop.held k ref ((s.drop_configs_iff ..).2 ⟨hki, hk⟩) hne
      exact ((halive ref).1 hk').2 hfreed rfl
    · intro halone
      by_contra hkept
      -- an object that nobody holds would be left over
      obtain ⟨k, hk⟩ := hdrop.covered ref
        ((halive ref).2 ⟨h.held i ref hi hne, fun hfreed => absurd hfreed hkept⟩)
      exact halone ⟨k, (s.drop_configs_iff ..).1 hk⟩
  · intro hfreed
    refine ⟨hsound, fun hnull => h.null ((halive 0).1 hnull).1, ?_, ?_⟩
    · intro k a hk hne
      obtain ⟨hki, hk⟩ := (s.drop_configs_iff ..).1 hk
      refine (halive a).2 ⟨h.held k a hk hne, ?_⟩
      rintro hf rfl
      exact (hfreed hne).1 hf ⟨k, hki, hk⟩
    · intro a ha
      obtain ⟨hold, hkept⟩ := (halive a).1 ha
      obtain ⟨k, hk⟩ := h.covered a hold
      by_cases hki : k = i
      · -- it was held by the configuration that goes, and was not freed
        subst hki
        obtain rfl : ref = a := Option.some.inj (hi.symm.trans hk)
        have hne : ref ≠ 0 := by
          rintro rfl
          exact h.null hold
        by_contra halone
        refine hkept ((hfreed hne).2 ?_) rfl
        rintro ⟨k', hki', hk'⟩
        exact halone ⟨k', (s.drop_configs_iff ..).2 ⟨hki', hk'⟩⟩
      · exact ⟨k, (s.drop_configs_iff ..).2 ⟨hki, hk⟩⟩

end Owned

/-! ## One operation -/

section Step

variable {s : TomlWorld} {i : Nat}

theorem owned_construct (h : Owned s) (i : Nat) : Owned (tomlStep s (.construct i)) := by
  simp only [tomlStep]
  cases hi : s.configs i with
  | some ref => exact h
  | none =>
      refine (owned_put_held_iff h (.inl rfl)).2 ?_
      intro ref href
      rw [hi] at href
      cases href

theorem owned_copy (h : Owned s) (i j : Nat) : Owned (tomlStep s (.copy i j)) := by
  simp only [tomlStep]
  cases hi : s.configs i with
  | some ref => exact h
  | none =>
      cases hj : s.configs j with
      | none => exact h
      | some ref =>
          refine (owned_put_held_iff h (.inr ⟨j, hj⟩)).2 ?_
          intro ref href
          rw [hi] at href
          cases href

theorem owned_assign_iff (h : Owned s) (i j : Nat) :
    Owned (tomlStep s (.assign i j)) ↔ LastHolderFrees s (.assign i j) := by
  simp only [tomlStep, LastHolderFrees]
  cases hi : s.configs i with
  | none => exact iff_of_true h fun _ _ ref href => by cases href
  | some old =>
      cases hj : s.configs j with
      | none => exact iff_of_true h fun _ hne => absurd rfl hne
      | some new =>
          dsimp only
          rw [owned_put_held_iff h (.inr ⟨j, hj⟩), hi]
          constructor
          · intro hshared hij _ ref href hne
            by_cases hnew : ref = new
            -- both hold the same address already
            · exact ⟨j, fun hji => hij hji.symm, hnew ▸ hj⟩
            · exact hshared ref href hne hnew
          · intro hshared ref href hne hnew
            refine hshared ?_ (Option.some_ne_none _) ref href hne
            rintro rfl
            rw [hi] at hj
            exact hnew (Option.some.inj (href.symm.trans hj))

theorem owned_get (h : Owned s) (i : Nat) (pathsStr : List UInt8) (status : UInt32) :
    Owned (tomlStep s (.get i pathsStr status)) := by
  simp only [tomlStep]
  cases hi : s.configs i with
  | none => exact h
  | some ref =>
      dsimp only
      split_ifs with hasks
      · exact h
      · obtain ⟨href, hpath, -⟩ := not_or.1 hasks |>.imp_right not_or.1
        rw [ssgxOcallTomlFind, if_neg (not_or.2 ⟨href, hpath⟩)]
        exact h.with_host (h.sound.use (h.held i ref hi href)) (s.host.alive_use_iff ref)

theorem owned_destroy_iff (h : Owned s) (i : Nat) (status : UInt32) :
    Owned (tomlStep s (.destroy i status)) ↔ LastHolderFrees s (.destroy i status) := by
  simp only [tomlStep, LastHolderFrees]
  cases hi : s.configs i with
  | none => exact iff_of_true h fun ref href => by cases href
  | some ref =>
      dsimp only
      have hcond : (∀ ref', some ref = some ref' → ref' ≠ 0 →
          (status = sgxSuccess ↔ ¬ s.Shared i ref')) ↔
            (ref ≠ 0 → (status = sgxSuccess ↔ ¬ s.Shared i ref)) := by
        simp only [Option.some.injEq, forall_eq']
      rw [hcond]
      by_cases hstatus : status = sgxSuccess
      · rw [if_neg (not_not_intro hstatus), ssgxOcallTomlFree]
        by_cases hzero : ref = 0
        · -- the host frees nothing for a null reference
          subst hzero
          rw [if_pos rfl]
          apply owned_drop_iff h hi (status = sgxSuccess) h.sound
          intro a
          refine (and_iff_left_of_imp ?_).symm
          rintro ha - rfl
          exact h.null ha
        · rw [if_neg hzero]
          apply owned_drop_iff h hi _ (h.sound.free (h.held i ref hi hzero))
          intro a
          rw [s.host.alive_free_iff, and_comm, forall_prop_of_true hstatus]
      · rw [if_pos hstatus]
        apply owned_drop_iff h hi _ h.sound
        intro a
        exact (and_iff_left fun hsuccess => absurd hsuccess hstatus).symm

theorem owned_loadFile_iff (h : Owned s) {i : Nat} {tomlFilePath : Option (List UInt8)}
    {status : UInt32} {file : TomlFile}
    (hfresh : NewGivesFresh s (.loadFile i tomlFilePath status file)) :
    Owned (tomlStep s (.loadFile i tomlFilePath status file)) ↔
      LastHolderFrees s (.loadFile i tomlFilePath status file) := by
  simp only [tomlStep, LastHolderFrees]
  cases hi : s.configs i with
  | none => exact iff_of_true h fun _ _ _ ref href => by cases href
  | some old =>
      dsimp only
      rcases loadFile_cases tomlFilePath status file s.host with
        ⟨⟨hpath, hstatus, hloads⟩, hloaded⟩ | ⟨hnot, errMsg, hfailed⟩
      · rw [hloaded]
        dsimp only
        have halive (a : Nat) : (s.host.allocate file.block).Alive a ↔
            s.host.Alive a ∨ (a = file.block ∧ file.block ≠ 0) := by
          rw [s.host.alive_allocate_iff, and_iff_left hloads.2.2.2.1, or_comm]
        rw [owned_put_iff h file.block (h.sound.allocate hfresh) halive, hi]
        constructor
        · intro hshared _ _ _ ref href hne
          apply hshared ref href hne
          -- the new address is not that of an object that is alive
          rintro rfl
          exact hfresh (h.held i _ (hi.trans href) hne)
        · intro hshared ref href hne _
          exact hshared hpath hstatus hloads ref href hne
      · refine iff_of_true ?_ fun hpath hstatus hloads => absurd ⟨hpath, hstatus, hloads⟩ hnot
        rcases hfailed with hfailed | hfailed
        · rw [hfailed]
          exact h
        · -- made and freed again: the objects that are alive are those of before
          rw [hfailed]
          have hmade : (s.host.allocate file.block).Alive file.block :=
            (s.host.alive_allocate_iff file.block file.block).2 (.inl rfl)
          refine h.with_host ((h.sound.allocate hfresh).free hmade) fun a => ?_
          rw [Allocator.alive_free_iff, s.host.alive_allocate_iff]
          constructor
          · rintro ⟨hne, rfl | hold⟩
            · exact absurd rfl hne
            · exact hold
          · intro hold
            refine ⟨?_, .inr hold⟩
            rintro rfl
            exact hfresh hold

/-- **Which operations keep the objects owned.** -/
theorem owned_tomlStep_iff (h : Owned s) {op : TomlOp} (hfresh : NewGivesFresh s op) :
    Owned (tomlStep s op) ↔ LastHolderFrees s op := by
  cases op with
  | construct i => exact iff_of_true (owned_construct h i) trivial
  | loadFile i tomlFilePath status file => exact owned_loadFile_iff h hfresh
  | copy i j => exact iff_of_true (owned_copy h i j) trivial
  | assign i j => exact owned_assign_iff h i j
  | get i pathsStr status => exact iff_of_true (owned_get h i pathsStr status) trivial
  | destroy i status => exact owned_destroy_iff h i status

end Step

/-! ## Any run -/

/-- No object is used after it was freed, and where no configuration is left, every object was freed
once. -/
def FreedOnce (s : TomlWorld) : Prop :=
  NeverUsedAfter s.host.trace ∧ ((∀ i, s.configs i = none) → ReleasedOnce s.host.trace)

theorem Owned.freedOnce {s : TomlWorld} (h : Owned s) : FreedOnce s := by
  refine ⟨h.sound.neverUsedAfter, fun hnone => h.sound.releasedOnce fun a ha => ?_⟩
  obtain ⟨i, hi⟩ := h.covered a ha
  rw [hnone i] at hi
  cases hi

/-- **Who frees a TOML object.** In every run of operations on any number of configurations, if an
address is overwritten only where another configuration holds it as well, and the destructor's ocall
arrives exactly where none does, then no object is used after it was freed, and every object was
freed once when the last configuration is gone. -/
theorem objects_freed_once {ops : List TomlOp}
    (hnew : Along tomlStep NewGivesFresh TomlWorld.start ops)
    (hlast : Along tomlStep LastHolderFrees TomlWorld.start ops) :
    FreedOnce (runFrom tomlStep TomlWorld.start ops) := by
  have hkeep : ∀ s op, NewGivesFresh s op ∧ LastHolderFrees s op → Owned s →
      Owned (tomlStep s op) := by
    intro s op hstep howned
    exact (owned_tomlStep_iff howned hstep.1).2 hstep.2
  have howned : Owned (runFrom tomlStep TomlWorld.start ops) :=
    invariant_runFrom hkeep (hnew.and hlast) owned_start
  exact howned.freedOnce

/-- A file that is loaded at an address. -/
def loadedAt (block : Nat) : TomlFile := ⟨true, true, 100, block, true⟩

/-- Two files are loaded, the second over a copy, and both configurations go. -/
def sampleOps : List TomlOp :=
  [.construct 0, .loadFile 0 (some [116]) sgxSuccess (loadedAt 4096), .copy 1 0,
    .loadFile 1 (some [116]) sgxSuccess (loadedAt 8192), .get 0 [91, 93] sgxSuccess,
    .destroy 0 sgxSuccess, .destroy 1 sgxSuccess]

theorem sample_objects_freed_once : FreedOnce (runFrom tomlStep TomlWorld.start sampleOps) := by
  apply objects_freed_once
  · refine ⟨trivial, ?_, trivial, ?_, trivial, trivial, trivial, trivial⟩
    · rintro ⟨r, hr⟩
      cases hr
    · rintro ⟨r, hr⟩
      cases hr
  · refine ⟨trivial, ?_, trivial, ?_, trivial, ?_, ?_, trivial⟩
    · rintro - - - ref href hne
      cases href
      exact absurd rfl hne
    · rintro - - - ref href -
      cases href
      exact ⟨0, by decide, rfl⟩
    · rintro ref href -
      cases href
      apply iff_of_true rfl
      rintro ⟨k, hk, hshared⟩
      match k with
      | 0 => exact hk rfl
      | 1 => cases hshared
      | k + 2 => cases hshared
    · rintro ref href -
      cases href
      apply iff_of_true rfl
      rintro ⟨k, hk, hshared⟩
      match k with
      | 0 => cases hshared
      | 1 => exact hk rfl
      | k + 2 => cases hshared

/-- A configuration loads twice and goes. -/
def reloadOps : List TomlOp :=
  [.construct 0, .loadFile 0 (some [116]) sgxSuccess (loadedAt 4096),
    .loadFile 0 (some [116]) sgxSuccess (loadedAt 8192), .destroy 0 sgxSuccess]

/-- A configuration is copied and goes, and the copy is asked. -/
def copyOps : List TomlOp :=
  [.construct 0, .loadFile 0 (some [116]) sgxSuccess (loadedAt 4096), .copy 1 0,
    .destroy 0 sgxSuccess, .get 1 [91, 93] sgxSuccess]

/-- A configuration that loads twice forgets its first object, and a copy asks for an object that
the destructor of the other has freed. -/
theorem reload_leaks_copy_dangles :
    (Along tomlStep NewGivesFresh TomlWorld.start reloadOps ∧
      (∀ i, (runFrom tomlStep TomlWorld.start reloadOps).configs i = none) ∧
      ¬ ReleasedOnce (runFrom tomlStep TomlWorld.start reloadOps).host.trace) ∧
    Along tomlStep NewGivesFresh TomlWorld.start copyOps ∧
      ¬ NeverUsedAfter (runFrom tomlStep TomlWorld.start copyOps).host.trace := by
  refine ⟨⟨⟨trivial, ?_, ?_, trivial, trivial⟩, ?_, ?_⟩, ⟨trivial, ?_, trivial, trivial, trivial,
    trivial⟩, ?_⟩
  · rintro ⟨r, hr⟩
    cases hr
  · rintro ⟨r, hr⟩
    cases hr
  · intro i
    match i with
    | 0 => rfl
    | i + 1 => rfl
  · have htrace : (runFrom tomlStep TomlWorld.start reloadOps).host.trace =
        [.acquire 0, .acquire 1, .release 1] := rfl
    rw [htrace]
    -- the first object is made and never freed
    exact @not_releasedOnce_of_kept _ _ 0 _ (by decide) (by decide)
  · rintro ⟨r, hr⟩
    cases hr
  · intro hnever
    exact hnever [.acquire 0] [.use 0] 0 rfl List.mem_cons_self

end Ssgx.Config
