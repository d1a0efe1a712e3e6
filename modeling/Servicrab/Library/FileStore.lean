import Mathlib.Data.Set.Basic
import Mathlib.Logic.Function.Basic

/-!
# Files and their names

A directory whose names stand for files, which can be open under a name that they have lost since. A
file that was found in the directory is told by the name that it had there, and one that was created
later by a number; so two names never stand for one file at the start.

What some operations do that use certain names only, and certain files only, is said by a frame: all
other names stand for the same files as before, and all other files have the same content.

## Main definitions

* `FileId`, `FileStore`, and the operations on a directory.
* `FileStore.Frame`, `FileStore.Within`, `FileStore.Sound`.

## Main results

* `FileStore.Frame.trans`, and the frame of each operation.
* `FileStore.sound_ofFiles`, and `Sound` for each operation.
-/

variable {κ β : Type*}

/-- A file, whatever its names: one that was found under a name, or one that was created since. -/
inductive FileId (κ : Type*)
  | found (name : κ)
  | created (n : ℕ)
  deriving DecidableEq

/-- A directory and its files. -/
structure FileStore (κ β : Type*) where
  entries : κ → Option (FileId κ)
  content : FileId κ → List β
  /-- How many files were created. -/
  created : ℕ

namespace FileStore

/-- A directory that is found with some files. -/
def ofFiles (files : κ → Option (List β)) : FileStore κ β where
  entries name := (files name).map fun _ => .found name
  content
    | .found name => (files name).getD []
    | .created _ => []
  created := 0

variable (d : FileStore κ β)

/-- Append to an open file. -/
def append [DecidableEq κ] (file : FileId κ) (data : List β) : FileStore κ β :=
  { d with content := Function.update d.content file (d.content file ++ data) }

/-- Truncate an open file. -/
def truncate [DecidableEq κ] (file : FileId κ) : FileStore κ β :=
  { d with content := Function.update d.content file [] }

/-- The file that a name is opened with, which is created if there is none. -/
def openedFile (name : κ) : FileId κ := (d.entries name).getD (.created d.created)

section

variable [DecidableEq κ]

/-- Open the file of a name, and create it if there is none. -/
def openName (name : κ) : FileStore κ β :=
  match d.entries name with
  | some _ => d
  | none =>
    { entries := Function.update d.entries name (some (.created d.created))
      content := Function.update d.content (.created d.created) []
      created := d.created + 1 }

/-- Remove a name. -/
def remove (name : κ) : FileStore κ β :=
  { d with entries := Function.update d.entries name none }

/-- Give the file of a name another name, which stands for no other file from then on. -/
def rename (source target : κ) : FileStore κ β :=
  { d with entries :=
      Function.update (Function.update d.entries target (d.entries source)) source none }

end

/-! ### Frames -/

/-- Names that are not in `names` stand for the same files, and files that are not in `files` have
the same content. -/
structure Frame (names : Set κ) (files : Set (FileId κ)) (d d' : FileStore κ β) : Prop where
  entries : ∀ name ∉ names, d'.entries name = d.entries name
  content : ∀ file ∉ files, d'.content file = d.content file
  created : d.created ≤ d'.created

/-- The names stand for some of the files, among which are all that can be created. -/
structure Within (names : Set κ) (files : Set (FileId κ)) (d : FileStore κ β) : Prop where
  linked : ∀ name ∈ names, ∀ file, d.entries name = some file → file ∈ files
  fresh : ∀ n, d.created ≤ n → .created n ∈ files

/-- A file that exists already: it was found, or has been created. -/
def Known (d : FileStore κ β) (file : FileId κ) : Prop := ∀ n, file = .created n → n < d.created

/-- All names stand for files that exist. -/
def Sound (d : FileStore κ β) : Prop := ∀ name file, d.entries name = some file → d.Known file

variable {d} {d' d'' : FileStore κ β} {names : Set κ} {files : Set (FileId κ)} {file : FileId κ}
  {name source target : κ} {data : List β}

theorem Frame.refl (d : FileStore κ β) : Frame names files d d :=
  ⟨fun _ _ => rfl, fun _ _ => rfl, le_rfl⟩

theorem Frame.trans (h : Frame names files d d') (h' : Frame names files d' d'') :
    Frame names files d d'' where
  entries name hname := (h'.entries name hname).trans (h.entries name hname)
  content file hfile := (h'.content file hfile).trans (h.content file hfile)
  created := h.created.trans h'.created

theorem Known.mono (h : d.Known file) (hle : d.created ≤ d'.created) : d'.Known file :=
  fun n hn => (h n hn).trans_le hle

theorem sound_ofFiles (files : κ → Option (List β)) : (ofFiles files).Sound := by
  rintro name file hfile n rfl
  simp [ofFiles] at hfile

section

variable [DecidableEq κ]

theorem frame_append (hfile : file ∈ files) : Frame names files d (d.append file data) where
  entries _ _ := rfl
  content _ hother := Function.update_of_ne (ne_of_mem_of_not_mem hfile hother).symm _ _
  created := le_rfl

theorem frame_truncate (hfile : file ∈ files) : Frame names files d (d.truncate file) where
  entries _ _ := rfl
  content _ hother := Function.update_of_ne (ne_of_mem_of_not_mem hfile hother).symm _ _
  created := le_rfl

omit [DecidableEq κ] in
theorem Within.congr (h : Within names files d) (hentries : d'.entries = d.entries)
    (hcreated : d'.created = d.created) : Within names files d' where
  linked name hname file hfile := h.linked name hname file (hentries ▸ hfile)
  fresh n hn := h.fresh n (hcreated ▸ hn)

theorem frame_openName (h : Within names files d) (hname : name ∈ names) :
    Frame names files d (d.openName name) ∧ Within names files (d.openName name) ∧
      d.openedFile name ∈ files := by
  rw [openName, openedFile]
  cases hentry : d.entries name with
  | some file => exact ⟨.refl d, h, h.linked name hname file hentry⟩
  | none =>
    have hnew : .created d.created ∈ files := h.fresh d.created le_rfl
    refine ⟨⟨fun other hother => ?_, fun other hother => ?_, Nat.le_succ _⟩, ⟨?_, ?_⟩, hnew⟩
    · exact Function.update_of_ne (ne_of_mem_of_not_mem hname hother).symm _ _
    · exact Function.update_of_ne (ne_of_mem_of_not_mem hnew hother).symm _ _
    · intro other hother file hfile
      simp only [Function.update_apply] at hfile
      split_ifs at hfile
      · exact Option.some.inj hfile ▸ hnew
      · exact h.linked other hother file hfile
    · exact fun n hn => h.fresh n ((Nat.le_succ _).trans hn)

theorem frame_remove (h : Within names files d) (hname : name ∈ names) :
    Frame names files d (d.remove name) ∧ Within names files (d.remove name) := by
  refine ⟨⟨fun other hother => ?_, fun _ _ => rfl, le_rfl⟩, ⟨?_, h.fresh⟩⟩
  · exact Function.update_of_ne (ne_of_mem_of_not_mem hname hother).symm _ _
  · intro other hother file hfile
    simp only [remove, Function.update_apply] at hfile
    split_ifs at hfile
    exact h.linked other hother file hfile

theorem frame_rename (h : Within names files d) (hsource : source ∈ names) (htarget : target ∈ names) :
    Frame names files d (d.rename source target) ∧ Within names files (d.rename source target) := by
  refine ⟨⟨fun other hother => ?_, fun _ _ => rfl, le_rfl⟩, ⟨?_, h.fresh⟩⟩
  · simp only [rename]
    rw [Function.update_of_ne (ne_of_mem_of_not_mem hsource hother).symm,
      Function.update_of_ne (ne_of_mem_of_not_mem htarget hother).symm]
  · intro other hother file hfile
    simp only [rename, Function.update_apply] at hfile
    split_ifs at hfile
    · exact h.linked source hsource file hfile
    · exact h.linked other hother file hfile

theorem Sound.openName (h : d.Sound) (name : κ) : (d.openName name).Sound := by
  rw [FileStore.openName]
  cases hentry : d.entries name with
  | some file => exact h
  | none =>
    intro other file hfile n hn
    simp only [Function.update_apply] at hfile
    split_ifs at hfile
    · obtain rfl := Option.some.inj hfile
      cases hn
      exact Nat.lt_succ_self d.created
    · exact (h other file hfile n hn).trans (Nat.lt_succ_self d.created)

theorem known_openedFile (h : d.Sound) (name : κ) : (d.openName name).Known (d.openedFile name) := by
  rw [FileStore.openName, openedFile]
  cases hentry : d.entries name with
  | some file => exact h name file hentry
  | none =>
    rintro n ⟨⟩
    exact Nat.lt_succ_self d.created

theorem Sound.remove (h : d.Sound) (name : κ) : (d.remove name).Sound := by
  intro other file hfile
  simp only [FileStore.remove, Function.update_apply] at hfile
  split_ifs at hfile
  exact h other file hfile

theorem Sound.rename (h : d.Sound) (source target : κ) : (d.rename source target).Sound := by
  intro other file hfile
  simp only [FileStore.rename, Function.update_apply] at hfile
  split_ifs at hfile
  · exact h source file hfile
  · exact h other file hfile

end

end FileStore
