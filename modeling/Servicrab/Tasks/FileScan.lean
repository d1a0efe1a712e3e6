import Servicrab.Config.Text
import Servicrab.Tasks.FileWatch

/-!
# Scanning the watched files

`scan` walks the watched paths and records a stamp for every file (`filewatch.rs`). It follows no
symbolic links, leaves out what is ignored, and skips what cannot be read. It stops at a number of
files, and does not go deeper than a number of directories.

A path is the list of its components. File names are text.

## Main definitions

* `FileTree`: a file system, as far as a scan looks at it.
* `WatchSettings.isIgnored`, `walk`, `scan`.
* `FileTree.IsWatched`: the files a scan is for.
* `FileTree.Differ`: where two file systems differ in them.

## Main results

* `walk_eq_foldl`: a walk is a sequence of visits.
* `scan_spec`: what a scan records.
* `mem_changes_scan`: what the changes between two scans are.
* `asks_iff_differ`: when a watcher asks for a restart.
-/

open Std (ExtTreeMap)

namespace Servicrab

/-- Stop descending after this many directory levels. -/
def maxDepth : ℕ := 64

/-! ### What is ignored -/

/-- The components of a path: no separators, and no `.` but at the start. -/
def pathComponents (path : String) : List String :=
  let isName (part : String) : Bool := part ≠ "" ∧ part ≠ "."
  let parts := (path.toList.splitOn '/').map String.ofList
  if path.toList.head? = some '/' then "/" :: parts.filter isName
  else if parts.head? = some "." then "." :: parts.filter isName
  else parts.filter isName

/-- What follows the last dot of a file name, unless it is at the start. -/
def extension (name : String) : Option (List Char) :=
  if name = ".." then none
  else (Text.rsplitOnce '.' name.toList).bind fun (stem, ext) => if stem = [] then none else some ext

namespace WatchSettings

/-- Whether a path relative to one of the watched roots matches any ignore entry. An entry matches
when it equals a path component, when it is a prefix of the path, or when it is a `*.ext` pattern
matching the file extension. -/
def isIgnored (settings : WatchSettings) (relative : List String) : Bool :=
  settings.ignore.any fun entry =>
    match Text.stripPrefix ['*', '.'] entry.toList with
    | some ext => (relative.getLast?.bind extension).any (· == ext)
    | none =>
      if '/' ∈ entry.toList then (pathComponents entry).isPrefixOf relative
      else entry ∈ relative

example : isIgnored ⟨[], ["target", "src/gen/", "*.rs"], 0, 0⟩ ["src", "gen", "lexer.c"] = true := by
  decide

end WatchSettings

/-! ### Walking -/

/-- What `symlink_metadata` says of a path. -/
inductive Metadata
  | dir
  | file (stamp : FileStamp)

/-- A file system, as far as a scan looks at it. -/
structure FileTree where
  metadata : List String → Option Metadata
  /-- The names in a directory, in any order. -/
  readDir : List String → Option (List String)

variable (tree : FileTree) (settings : WatchSettings) (root : List String)

/-- Whether a path below a root is left out. -/
def WatchSettings.leavesOut (relative : List String) : Bool :=
  relative ≠ [] && settings.isIgnored relative

/-- Walk from a path below a root, with so many levels left. -/
def walk (left : ℕ) (relative : List String) (out : Scan (List String)) : Scan (List String) :=
  if maxEntries ≤ out.files.size then { out with truncated := true }
  else if settings.leavesOut relative then out
  else
    match tree.metadata (root ++ relative) with
    | none => out
    | some (.file stamp) => { out with files := out.files.insert (root ++ relative) stamp }
    | some .dir =>
      match left with
      | 0 => { out with tooDeep := true }
      | left + 1 =>
        match tree.readDir (root ++ relative) with
        | none => out
        | some children => (children.mergeSort (· ≤ ·)).foldl
          (fun out child => if out.truncated then out else walk left (relative ++ [child]) out) out

/-- Walk the configured paths and record a stamp for every file. -/
def scan : Scan (List String) :=
  (settings.paths.map pathComponents).foldl
    (fun out root => if out.truncated then out else walk tree settings root maxDepth [] out)
    ⟨∅, false, false⟩

/-! ### A walk is a sequence of visits -/

/-- What is found at a path. -/
inductive Visit
  | nothing
  /-- There is a directory, and no level left. -/
  | deep
  | file (path : List String) (stamp : FileStamp)

/-- The paths that are visited, if there is no limit on the number of files. -/
def visits (left : ℕ) (relative : List String) : List Visit :=
  if settings.leavesOut relative then [.nothing]
  else
    match tree.metadata (root ++ relative) with
    | none => [.nothing]
    | some (.file stamp) => [.file (root ++ relative) stamp]
    | some .dir =>
      match left with
      | 0 => [.deep]
      | left + 1 =>
        let children := ((tree.readDir (root ++ relative)).getD []).mergeSort (· ≤ ·)
        .nothing :: children.flatMap fun child => visits left (relative ++ [child])

/-- One visit, as long as there are not too many files. -/
def Scan.visit (out : Scan (List String)) (visit : Visit) : Scan (List String) :=
  if out.truncated then out
  else if maxEntries ≤ out.files.size then { out with truncated := true }
  else
    match visit with
    | .nothing => out
    | .deep => { out with tooDeep := true }
    | .file path stamp => { out with files := out.files.insert path stamp }

variable {tree settings root} {out : Scan (List String)} {left : ℕ} {relative : List String}

theorem visit_of_truncated (h : out.truncated) (visit : Visit) : out.visit visit = out := if_pos h

theorem foldl_visit_of_truncated (h : out.truncated) (found : List Visit) :
    found.foldl Scan.visit out = out := by
  induction found with
  | nil => rfl
  | cons visit found ih => rw [List.foldl_cons, visit_of_truncated h, ih]

theorem foldl_visit_of_full (h : out.truncated = false) (hfull : maxEntries ≤ out.files.size)
    {found : List Visit} (hfound : found ≠ []) :
    found.foldl Scan.visit out = { out with truncated := true } := by
  cases found with
  | nil => exact absurd rfl hfound
  | cons visit found =>
    have hvisit : out.visit visit = { out with truncated := true } := by
      rw [Scan.visit.eq_def, if_neg (by simp [h]), if_pos hfull]
    rw [List.foldl_cons, hvisit, foldl_visit_of_truncated rfl]

/-- A loop that stops early does not go on with the visits. -/
theorem foldl_flatMap_visit {α : Type*} (next : α → Scan (List String) → Scan (List String))
    (found : α → List Visit) (hnext : ∀ a out, out.truncated = false →
      next a out = (found a).foldl Scan.visit out) (as : List α) (out : Scan (List String)) :
    as.foldl (fun out a => if out.truncated then out else next a out) out =
      (as.flatMap found).foldl Scan.visit out := by
  induction as generalizing out with
  | nil => rfl
  | cons a as ih =>
    rw [List.foldl_cons, List.flatMap_cons, List.foldl_append, ih]
    cases htruncated : out.truncated with
    | false => rw [if_neg Bool.false_ne_true, hnext a out htruncated]
    | true => rw [if_pos rfl, foldl_visit_of_truncated htruncated (found a)]

theorem visits_ne_nil : visits tree settings root left relative ≠ [] := by
  rw [visits.eq_def]
  split
  · exact List.cons_ne_nil _ _
  · cases tree.metadata (root ++ relative) with
    | none => exact List.cons_ne_nil _ _
    | some metadata => cases metadata <;> cases left <;> exact List.cons_ne_nil _ _

theorem visit_eq (h : out.truncated = false) (hfull : ¬maxEntries ≤ out.files.size) (visit : Visit) :
    out.visit visit = match visit with
      | .nothing => out
      | .deep => { out with tooDeep := true }
      | .file path stamp => { out with files := out.files.insert path stamp } := by
  rw [Scan.visit.eq_def, if_neg (by simp [h]), if_neg hfull]

/-- **A walk is a sequence of visits**, which stops when there are too many files. -/
theorem walk_eq_foldl (h : out.truncated = false) : walk tree settings root left relative out =
    (visits tree settings root left relative).foldl Scan.visit out := by
  induction left using Nat.strong_induction_on generalizing relative out with
  | _ left ih =>
  by_cases hfull : maxEntries ≤ out.files.size
  · rw [foldl_visit_of_full h hfull visits_ne_nil, walk.eq_def, if_pos hfull]
  · rw [walk.eq_def, visits.eq_def, if_neg hfull]
    split
    · exact (visit_eq h hfull .nothing).symm
    · cases tree.metadata (root ++ relative) with
      | none => exact (visit_eq h hfull .nothing).symm
      | some metadata =>
        cases metadata with
        | file stamp => exact (visit_eq h hfull (.file (root ++ relative) stamp)).symm
        | dir =>
          cases left with
          | zero => exact (visit_eq h hfull .deep).symm
          | succ left =>
            dsimp only
            rw [List.foldl_cons, visit_eq h hfull]
            cases tree.readDir (root ++ relative) with
            | none => simp
            | some children =>
              exact foldl_flatMap_visit
                (fun child => walk tree settings root left (relative ++ [child]))
                (fun child => visits tree settings root left (relative ++ [child]))
                (fun _ _ => ih left left.lt_succ_self) _ out

/-- What a scan does is what the visits from all the roots do. -/
theorem scan_eq_foldl (tree : FileTree) (settings : WatchSettings) : scan tree settings =
    ((settings.paths.map pathComponents).flatMap fun root =>
      visits tree settings root maxDepth []).foldl Scan.visit ⟨∅, false, false⟩ :=
  foldl_flatMap_visit (fun root => walk tree settings root maxDepth [])
    (fun root => visits tree settings root maxDepth []) (fun _ _ => walk_eq_foldl) _ _

/-! ### What is visited -/

/-- A path below a root is in the directory at another one, which is not left out. -/
def FileTree.Lists (tree : FileTree) (settings : WatchSettings) (root relative child : List String) :
    Prop :=
  settings.leavesOut relative = false ∧ tree.metadata (root ++ relative) = some .dir ∧
    ∃ name ∈ (tree.readDir (root ++ relative)).getD [], child = relative ++ [name]

/-- A path below a root is at or below another one, neither it nor a directory on the way to it is
left out, and it has at most so many components. -/
def FileTree.Reaches (tree : FileTree) (settings : WatchSettings) (root : List String) (limit : ℕ)
    (relative last : List String) : Prop :=
  Relation.ReflTransGen (tree.Lists settings root) relative last ∧
    last.length ≤ limit ∧ settings.leavesOut last = false

/-- A visit is what is found at a path below a root. -/
def FileTree.Finds (tree : FileTree) (root : List String) (limit : ℕ) (last : List String) :
    Visit → Prop
  | .nothing => False
  | .deep => last.length = limit ∧ tree.metadata (root ++ last) = some .dir
  | .file path stamp => path = root ++ last ∧ tree.metadata path = some (.file stamp)

variable {limit : ℕ} {last : List String} {visit : Visit}

theorem length_le_of_lists (h : Relation.ReflTransGen (tree.Lists settings root) relative last) :
    relative.length ≤ last.length := by
  induction h with
  | refl => exact le_rfl
  | tail _ hlists ih =>
    obtain ⟨-, -, name, -, rfl⟩ := hlists
    rw [List.length_append]
    exact ih.trans (Nat.le_add_right _ _)

/-- What can be found from a path. -/
def FileTree.FindsFrom (tree : FileTree) (settings : WatchSettings) (root : List String) (limit : ℕ)
    (relative : List String) (visit : Visit) : Prop :=
  ∃ last, tree.Reaches settings root limit relative last ∧ tree.Finds root limit last visit

theorem not_finds_of_none (h : tree.metadata (root ++ last) = none) :
    ¬tree.Finds root limit last visit := by
  cases visit with
  | nothing => exact id
  | deep => simp [FileTree.Finds, h]
  | file path stamp =>
    rintro ⟨rfl, hfile⟩
    simp [h] at hfile

theorem finds_iff_of_file {stamp : FileStamp}
    (h : tree.metadata (root ++ last) = some (.file stamp)) :
    tree.Finds root limit last visit ↔ visit = .file (root ++ last) stamp := by
  cases visit with
  | nothing => simp [FileTree.Finds]
  | deep => simp [FileTree.Finds, h]
  | file path stamp' =>
    rw [FileTree.Finds, Visit.file.injEq]
    exact and_congr_right fun hpath => by rw [hpath, h]; simp [eq_comm]

theorem finds_iff_of_dir (h : tree.metadata (root ++ last) = some .dir) :
    tree.Finds root limit last visit ↔ visit = .deep ∧ last.length = limit := by
  cases visit with
  | nothing => simp [FileTree.Finds]
  | deep => simp [FileTree.Finds, h]
  | file path stamp =>
    simp only [FileTree.Finds, reduceCtorEq, false_and, iff_false, not_and]
    rintro rfl
    simp [h]

/-- What is found from a path is found there, or from a path that it lists. -/
theorem findsFrom_iff (hlength : relative.length ≤ limit)
    (hleft : settings.leavesOut relative = false) :
    tree.FindsFrom settings root limit relative visit ↔
      tree.Finds root limit relative visit ∨ ∃ child, tree.Lists settings root relative child ∧
        tree.FindsFrom settings root limit child visit := by
  constructor
  · rintro ⟨last, ⟨hlists, hlast⟩, hfinds⟩
    rcases hlists.cases_head with rfl | ⟨child, hchild, hlists⟩
    · exact .inl hfinds
    · exact .inr ⟨child, hchild, last, ⟨hlists, hlast⟩, hfinds⟩
  · rintro (hfinds | ⟨child, hchild, last, ⟨hlists, hlast⟩, hfinds⟩)
    · exact ⟨relative, ⟨.refl, hlength, hleft⟩, hfinds⟩
    · exact ⟨last, ⟨.head hchild hlists, hlast⟩, hfinds⟩

/-- Where there is no directory, nothing is listed. -/
theorem findsFrom_iff_of_ne_dir (hlength : relative.length ≤ limit)
    (hleft : settings.leavesOut relative = false)
    (h : tree.metadata (root ++ relative) ≠ some .dir) :
    tree.FindsFrom settings root limit relative visit ↔ tree.Finds root limit relative visit := by
  rw [findsFrom_iff hlength hleft]
  exact or_iff_left fun ⟨_, hchild, _⟩ => h hchild.2.1

theorem findsFrom_iff_of_dir (hlength : relative.length ≤ limit)
    (hleft : settings.leavesOut relative = false)
    (h : tree.metadata (root ++ relative) = some .dir) :
    tree.FindsFrom settings root limit relative visit ↔
      (visit = .deep ∧ relative.length = limit) ∨
        ∃ name ∈ (tree.readDir (root ++ relative)).getD [],
          tree.FindsFrom settings root limit (relative ++ [name]) visit := by
  rw [findsFrom_iff hlength hleft, finds_iff_of_dir h]
  refine or_congr_right ⟨?_, ?_⟩
  · rintro ⟨_, ⟨-, -, name, hname, rfl⟩, hfinds⟩
    exact ⟨name, hname, hfinds⟩
  · rintro ⟨name, hname, hfinds⟩
    exact ⟨_, ⟨hleft, h, name, hname, rfl⟩, hfinds⟩

theorem not_findsFrom_of_leavesOut (h : settings.leavesOut relative) :
    ¬tree.FindsFrom settings root limit relative visit := by
  rintro ⟨last, ⟨hlists, -, hlast⟩, -⟩
  rcases hlists.cases_head with rfl | ⟨child, hchild, -⟩
  · exact absurd (h.symm.trans hlast) Bool.noConfusion
  · exact absurd (h.symm.trans hchild.1) Bool.noConfusion

theorem not_findsFrom_of_length (h : limit < relative.length) :
    ¬tree.FindsFrom settings root limit relative visit := by
  rintro ⟨last, ⟨hlists, hlast, -⟩, -⟩
  exact absurd (h.trans_le (length_le_of_lists hlists)) (not_lt_of_ge hlast)

/-- What the visits from a path find. -/
theorem mem_visits (hvisit : visit ≠ .nothing) (hlimit : relative.length + left = limit) :
    visit ∈ visits tree settings root left relative ↔
      tree.FindsFrom settings root limit relative visit := by
  induction left using Nat.strong_induction_on generalizing relative with
  | _ left ih =>
  rw [visits.eq_def]
  split
  case isTrue hleft =>
    exact iff_of_false (by simpa using hvisit) (not_findsFrom_of_leavesOut hleft)
  case isFalse hleft =>
  have hlength : relative.length ≤ limit := hlimit ▸ Nat.le_add_right _ _
  replace hleft : settings.leavesOut relative = false := by simpa using hleft
  cases hmetadata : tree.metadata (root ++ relative) with
  | none =>
    rw [findsFrom_iff_of_ne_dir hlength hleft (by simp [hmetadata])]
    exact iff_of_false (by simpa using hvisit) (not_finds_of_none hmetadata)
  | some metadata =>
    cases metadata with
    | file stamp =>
      rw [findsFrom_iff_of_ne_dir hlength hleft (by simp [hmetadata]), finds_iff_of_file hmetadata]
      exact List.mem_singleton
    | dir =>
      rw [findsFrom_iff_of_dir hlength hleft hmetadata]
      cases left with
      | zero =>
        -- What is in the directory is too deep.
        have hdeep : ∀ name, ¬tree.FindsFrom settings root limit (relative ++ [name]) visit :=
          fun name => not_findsFrom_of_length (by simp; omega)
        simp only [hdeep, and_false, exists_false, or_false]
        simpa using fun _ => hlimit
      | succ left =>
        have hne : relative.length ≠ limit := by omega
        rw [List.mem_cons, or_iff_right hvisit, List.mem_flatMap,
          or_iff_right fun hdeep => hne hdeep.2]
        simp only [List.mem_mergeSort]
        exact exists_congr fun name => and_congr_right fun _ =>
          ih left left.lt_succ_self (by simp; omega)

/-! ### What is recorded -/

/-- A file is watched when it is reached from one of the watched paths, and this is its stamp. -/
def FileTree.IsWatched (tree : FileTree) (settings : WatchSettings) (path : List String)
    (stamp : FileStamp) : Prop :=
  ∃ root ∈ settings.paths.map pathComponents, ∃ last,
    tree.Reaches settings root maxDepth [] last ∧ path = root ++ last ∧
      tree.metadata path = some (.file stamp)

/-- There is a directory so many levels down that nothing in it is watched. -/
def FileTree.HasDeep (tree : FileTree) (settings : WatchSettings) : Prop :=
  ∃ root ∈ settings.paths.map pathComponents, ∃ last,
    tree.Reaches settings root maxDepth [] last ∧ last.length = maxDepth ∧
      tree.metadata (root ++ last) = some .dir

/-- What so many visits record. -/
structure Scan.Records (out : Scan (List String)) (found : List Visit) : Prop where
  sound : ∀ path stamp, out.files[path]? = some stamp → .file path stamp ∈ found
  deep_of_tooDeep : out.tooDeep → .deep ∈ found
  size_le : out.files.size ≤ maxEntries
  full : out.truncated → out.files.size = maxEntries
  complete : out.truncated = false → ∀ path, (∃ stamp, .file path stamp ∈ found) → path ∈ out.files
  tooDeep_of_deep : out.truncated = false → .deep ∈ found → out.tooDeep

theorem records_nil : Scan.Records ⟨∅, false, false⟩ [] where
  sound _ _ hfile := by simp at hfile
  deep_of_tooDeep h := by simp at h
  size_le := by simp
  full h := by simp at h
  complete _ _ hfile := by simp at hfile
  tooDeep_of_deep _ h := by simp at h

theorem records_visit {found : List Visit} (h : out.Records found) (visit : Visit) :
    (out.visit visit).Records (found ++ [visit]) := by
  have hsound : ∀ path stamp, out.files[path]? = some stamp →
      .file path stamp ∈ found ++ [visit] := fun path stamp hfile =>
    List.mem_append_left _ (h.sound path stamp hfile)
  have hdeep : out.tooDeep → .deep ∈ found ++ [visit] := fun hdeep =>
    List.mem_append_left _ (h.deep_of_tooDeep hdeep)
  by_cases htruncated : out.truncated
  · rw [visit_of_truncated htruncated]
    exact ⟨hsound, hdeep, h.size_le, h.full, by simp [htruncated], by simp [htruncated]⟩
  replace htruncated : out.truncated = false := by simpa using htruncated
  by_cases hfull : maxEntries ≤ out.files.size
  · have hvisit : out.visit visit = { out with truncated := true } :=
      foldl_visit_of_full htruncated hfull (List.cons_ne_nil visit [])
    rw [hvisit]
    exact ⟨hsound, hdeep, h.size_le, fun _ => h.size_le.antisymm hfull, by simp, by simp⟩
  rw [visit_eq htruncated hfull]
  cases visit with
  | nothing =>
    refine ⟨hsound, hdeep, h.size_le, h.full, ?_, ?_⟩
    · simpa using h.complete
    · simpa using h.tooDeep_of_deep
  | deep =>
    refine ⟨hsound, by simp, h.size_le, h.full, ?_, by simp⟩
    simpa using h.complete
  | file path stamp =>
    refine ⟨?_, hdeep, ?_, by simp [htruncated], ?_, ?_⟩
    · intro path' stamp' hfile
      rw [TreeMap.getElem?_insert] at hfile
      split_ifs at hfile with hpath
      · obtain rfl := Option.some.inj hfile
        rw [hpath]
        exact List.mem_append_right _ (List.mem_singleton_self _)
      · exact hsound path' stamp' hfile
    · rw [ExtTreeMap.size_insert]
      split_ifs <;> omega
    · rintro - path' ⟨stamp', hfile⟩
      rw [ExtTreeMap.mem_insert]
      rcases List.mem_append.mp hfile with hfile | hfile
      · exact .inr (h.complete htruncated path' ⟨stamp', hfile⟩)
      · cases List.mem_singleton.mp hfile
        exact .inl (compare_eq_iff_eq.mpr rfl)
    · simpa using h.tooDeep_of_deep

theorem records_foldl {found : List Visit} (h : out.Records found) (more : List Visit) :
    (more.foldl Scan.visit out).Records (found ++ more) := by
  induction more generalizing out found with
  | nil => rwa [List.append_nil]
  | cons visit more ih =>
    have := ih (records_visit h visit)
    rwa [List.append_assoc] at this

theorem records_scan (tree : FileTree) (settings : WatchSettings) :
    (scan tree settings).Records ((settings.paths.map pathComponents).flatMap fun root =>
      visits tree settings root maxDepth []) := by
  rw [scan_eq_foldl]
  exact records_foldl records_nil _

theorem file_mem_visits_iff {path : List String} {stamp : FileStamp} :
    .file path stamp ∈ ((settings.paths.map pathComponents).flatMap fun root =>
      visits tree settings root maxDepth []) ↔ tree.IsWatched settings path stamp := by
  rw [List.mem_flatMap]
  exact exists_congr fun root => and_congr_right fun _ =>
    mem_visits Visit.noConfusion (Nat.zero_add _)

theorem deep_mem_visits_iff : .deep ∈ ((settings.paths.map pathComponents).flatMap fun root =>
    visits tree settings root maxDepth []) ↔ tree.HasDeep settings := by
  rw [List.mem_flatMap]
  exact exists_congr fun root => and_congr_right fun _ =>
    mem_visits Visit.noConfusion (Nat.zero_add _)

/-- A scan that was not stopped early has recorded the watched files. -/
theorem getElem?_scan_iff (h : (scan tree settings).truncated = false) {path : List String}
    {stamp : FileStamp} :
    (scan tree settings).files[path]? = some stamp ↔ tree.IsWatched settings path stamp := by
  have hsound : ∀ stamp, (scan tree settings).files[path]? = some stamp →
      tree.IsWatched settings path stamp := fun stamp hfile =>
    file_mem_visits_iff.mp ((records_scan tree settings).sound path stamp hfile)
  refine ⟨hsound stamp, fun hwatched => ?_⟩
  have hmem := (records_scan tree settings).complete h path ⟨stamp, file_mem_visits_iff.mpr hwatched⟩
  obtain ⟨stamp', hfile⟩ := Option.isSome_iff_exists.mp
    (ExtTreeMap.mem_iff_isSome_getElem?.mp hmem)
  -- What is recorded is what the file system says of the path.
  obtain ⟨-, -, -, -, -, hmetadata⟩ := hsound stamp' hfile
  obtain ⟨-, -, -, -, -, hmetadata'⟩ := hwatched
  rw [hmetadata, Option.some.injEq, Metadata.file.injEq] at hmetadata'
  rw [hfile, hmetadata']

/-- **What a scan records**: only watched files, no more of them than the limit, and all of them
unless it is said that the limit was met. And it is said when a directory was too deep. -/
theorem scan_spec (tree : FileTree) (settings : WatchSettings) :
    (∀ path stamp, (scan tree settings).files[path]? = some stamp →
      tree.IsWatched settings path stamp) ∧
    (scan tree settings).files.size ≤ maxEntries ∧
    ((scan tree settings).truncated → (scan tree settings).files.size = maxEntries) ∧
    ((scan tree settings).tooDeep → tree.HasDeep settings) ∧
    ((scan tree settings).truncated = false →
      (∀ path stamp, tree.IsWatched settings path stamp →
        (scan tree settings).files[path]? = some stamp) ∧
      (tree.HasDeep settings → (scan tree settings).tooDeep)) := by
  have hrecords := records_scan tree settings
  refine ⟨fun path stamp hfile => file_mem_visits_iff.mp (hrecords.sound path stamp hfile),
    hrecords.size_le, hrecords.full, fun hdeep => deep_mem_visits_iff.mp
      (hrecords.deep_of_tooDeep hdeep), fun htruncated => ⟨fun _ _ hwatched => ?_, fun hdeep => ?_⟩⟩
  · exact (getElem?_scan_iff htruncated).mpr hwatched
  · exact hrecords.tooDeep_of_deep htruncated (deep_mem_visits_iff.mpr hdeep)

/-! ### What a watcher asks for -/

/-- A watched file is there in one file system and not in the other, or has another stamp. -/
def FileTree.Differ (settings : WatchSettings) (a b : FileTree) (path : List String) : Prop :=
  ∃ stamp, ¬(a.IsWatched settings path stamp ↔ b.IsWatched settings path stamp)

/-- The changes between two scans are those of the watched files. -/
theorem mem_changes_scan {a b : FileTree} (ha : (scan a settings).truncated = false)
    (hb : (scan b settings).truncated = false) {path : List String} :
    path ∈ (scan a settings).changes (scan b settings) ↔ FileTree.Differ settings a b path := by
  rw [Scan.mem_changes_iff, Ne, Option.ext_iff, not_forall]
  exact exists_congr fun stamp => by rw [getElem?_scan_iff ha, getElem?_scan_iff hb]

section Watch

variable {π : Type} [LinearOrder π] {env : Surroundings π} {scans : ℕ → Scan π}

/-- The event that tells of changes. -/
def triggered (service : ServiceName) (text : π → String) (reported : List π) : ServiceEvent :=
  ⟨service, .watchTriggered ((reported.head?.map text).getD "") reported.length⟩

/-- What is put together while the files settle. -/
theorem exists_settle_eq (hscans : ∀ n, env.scans n = some (scans n)) (rounds : ℕ) :
    ∀ (made : ℕ) (changed : List π), ∃ taken ≤ rounds, ∃ extra,
      Watcher.settle env rounds (scans made) changed (made + 1) =
        some (changed ++ extra, made + taken + 1) ∧
      (∀ path, path ∈ extra ↔
        ∃ i < taken, path ∈ (scans (made + i)).changes (scans (made + i + 1))) ∧
      (taken = rounds ∨ ∃ last < taken,
        (scans (made + last)).changes (scans (made + last + 1)) = []) := by
  induction rounds with
  | zero =>
    intro made changed
    exact ⟨0, le_rfl, [], by simp [Watcher.settle], by simp, .inl rfl⟩
  | succ rounds ih =>
    intro made changed
    rw [Watcher.settle, hscans]
    dsimp only
    split_ifs with hquiet
    · refine ⟨1, by omega, [], by simp, fun path => ?_, .inr ⟨0, one_pos, hquiet⟩⟩
      simp [hquiet]
    · obtain ⟨taken, htaken, extra, hsettle, hextra, hlast⟩ :=
        ih (made + 1) (changed ++ (scans made).changes (scans (made + 1)))
      refine ⟨taken + 1, by omega, (scans made).changes (scans (made + 1)) ++ extra, ?_, ?_, ?_⟩
      · rw [hsettle, List.append_assoc, Nat.add_right_comm made 1 taken, Nat.add_assoc made taken 1]
      · intro path
        rw [List.mem_append, hextra, Nat.exists_lt_succ_left]
        simp only [Nat.add_assoc, Nat.add_comm 1, Nat.add_zero]
      · refine hlast.imp (congrArg (· + 1)) fun ⟨last, hlt, hsame⟩ => ⟨last + 1, by omega, ?_⟩
        simpa only [Nat.add_assoc, Nat.add_comm 1] using hsame

variable {service : ServiceName} {text : π → String} {n : ℕ} {w : Watcher π}

/-- What is asked for in an iteration that finds changes. -/
theorem exists_iterate_eq (hscans : ∀ n, env.scans n = some (scans n))
    (hchanges : w.previous.changes (scans w.scanned) ≠ []) :
    ∃ taken ≤ maxDebounceRounds, ∃ extra : List π,
      (∀ path, path ∈ extra ↔
        ∃ i < taken, path ∈ (scans (w.scanned + i)).changes (scans (w.scanned + i + 1))) ∧
      (taken = maxDebounceRounds ∨ ∃ last < taken,
        (scans (w.scanned + last)).changes (scans (w.scanned + last + 1)) = []) ∧
      (w.iterate env service text).reply = some (env.replies w.asked) ∧
      (∃ more, (w.iterate env service text).events = triggered service text
        (sortDedup (w.previous.changes (scans w.scanned) ++ extra)) :: more) ∧
      ∀ w', (w.iterate env service text).next = some w' →
        w'.previous = scans (w.scanned + taken + 1) ∧ w'.scanned = w.scanned + taken + 2 := by
  obtain ⟨taken, htaken, extra, hsettle, hextra, hlast⟩ := exists_settle_eq hscans
    maxDebounceRounds w.scanned (w.previous.changes (scans w.scanned))
  refine ⟨taken, htaken, extra, hextra, hlast, ?_⟩
  rw [Watcher.iterate, hscans]
  dsimp only
  rw [if_neg hchanges, hsettle]
  dsimp only
  cases env.replies w.asked with
  | closed => exact ⟨rfl, ⟨[], rfl⟩, fun _ hnext => by cases hnext⟩
  | dropped => exact ⟨rfl, ⟨[], rfl⟩, fun _ hnext => by cases hnext⟩
  | answered verdict =>
    refine ⟨rfl, ⟨_, rfl⟩, fun w' hnext => ?_⟩
    rw [hscans] at hnext
    obtain rfl := Option.some.inj hnext
    exact ⟨rfl, rfl⟩

/-- The baseline is an earlier scan. -/
theorem exists_baseline (hscans : ∀ n, env.scans n = some (scans n))
    (h : env.watcherAt service text n = some w) : ∃ made < w.scanned, w.previous = scans made := by
  induction n generalizing w with
  | zero =>
    rw [Surroundings.watcherAt, Watcher.start, hscans] at h
    obtain rfl := Option.some.inj h
    exact ⟨0, one_pos, rfl⟩
  | succ n ih =>
    obtain ⟨u, hu, hnext⟩ := Option.bind_eq_some_iff.mp h
    obtain ⟨made, hmade, hprevious⟩ := ih hu
    by_cases hchanges : u.previous.changes (scans u.scanned) = []
    · rw [Surroundings.iterate_of_changes_eq_nil (hscans _) hchanges] at hnext
      obtain rfl := Option.some.inj hnext
      exact ⟨made, hmade.trans u.scanned.lt_succ_self, hprevious⟩
    · obtain ⟨taken, -, -, -, -, -, -, hafter⟩ :=
        exists_iterate_eq hscans hchanges
      obtain ⟨hprevious', hscanned⟩ := hafter w hnext
      exact ⟨u.scanned + taken + 1, by omega, hprevious'⟩

end Watch

/-- **When a watcher asks for a restart.** It asks in an iteration exactly if a watched file is not
as it was at the last scan before. It tells the least and the number of the watched files that have
changed then or while it waited, and it waits until the files are quiet or so many times. -/
theorem asks_iff_differ {trees : ℕ → FileTree} {env : Surroundings (List String)}
    (hscans : ∀ n, env.scans n = some (scan (trees n) settings))
    (hcomplete : ∀ n, (scan (trees n) settings).truncated = false) {service : ServiceName}
    {text : List String → String} {n : ℕ} {w : Watcher (List String)}
    (h : env.watcherAt service text n = some w) :
    ∃ made < w.scanned, w.previous = scan (trees made) settings ∧
      ((∀ path, ¬FileTree.Differ settings (trees made) (trees w.scanned) path) →
        env.replyAt service text n = none) ∧
      ((∃ path, FileTree.Differ settings (trees made) (trees w.scanned) path) →
        env.replyAt service text n = some (env.replies w.asked) ∧
        ∃ taken ≤ maxDebounceRounds, ∃ reported : List (List String),
          (∀ path, path ∈ reported ↔
            FileTree.Differ settings (trees made) (trees w.scanned) path ∨
            ∃ i < taken, FileTree.Differ settings (trees (w.scanned + i))
              (trees (w.scanned + i + 1)) path) ∧
          reported.Pairwise (· < ·) ∧
          (taken = maxDebounceRounds ∨ ∃ last < taken, ∀ path,
            ¬FileTree.Differ settings (trees (w.scanned + last)) (trees (w.scanned + last + 1)) path) ∧
          ∃ more, (w.iterate env service text).events =
            triggered service text reported :: more) := by
  have hdiffer : ∀ i j path, path ∈ (scan (trees i) settings).changes (scan (trees j) settings) ↔
      FileTree.Differ settings (trees i) (trees j) path := fun i j _ =>
    mem_changes_scan (hcomplete i) (hcomplete j)
  obtain ⟨made, hmade, hprevious⟩ := exists_baseline hscans h
  have hreply : env.replyAt service text n = (w.iterate env service text).reply := by
    rw [Surroundings.replyAt, h, Option.bind_some]
  refine ⟨made, hmade, hprevious, fun hsame => ?_, fun hexists => ?_⟩
  · have hchanges : w.previous.changes (scan (trees w.scanned) settings) = [] := by
      rw [hprevious, List.eq_nil_iff_forall_not_mem]
      exact fun path hpath => hsame path ((hdiffer _ _ path).mp hpath)
    rw [hreply, Surroundings.iterate_of_changes_eq_nil (hscans _) hchanges]
  · obtain ⟨path, hpath⟩ := hexists
    have hchanges : w.previous.changes (scan (trees w.scanned) settings) ≠ [] := by
      rw [hprevious]
      exact List.ne_nil_of_mem ((hdiffer _ _ path).mpr hpath)
    obtain ⟨taken, htaken, extra, hextra, hlast, hasked, hevents, -⟩ :=
      exists_iterate_eq hscans hchanges
    refine ⟨hreply.trans hasked, taken, htaken, _, fun path => ?_, pairwise_sortDedup _, ?_, hevents⟩
    · simp only [mem_sortDedup, List.mem_append, hextra, hprevious, hdiffer]
    · rcases hlast with hlast | ⟨last, hlt, hquiet⟩
      · exact .inl hlast
      refine .inr ⟨last, hlt, fun path hpath => ?_⟩
      exact absurd hquiet (List.ne_nil_of_mem ((hdiffer _ _ path).mpr hpath))

/-- One file is watched. -/
def oneFile : WatchSettings where
  paths := ["/srv/main.rs"]
  ignore := []
  interval := 1000000000
  debounce := 300000000

/-- The file is not there at first. -/
def oneFileTree (n : ℕ) : FileTree where
  metadata path :=
    if n ≠ 0 ∧ path = ["/", "srv", "main.rs"] then some (.file ⟨some n, 12⟩) else none
  readDir _ := none

theorem truncated_scan_oneFile (n : ℕ) : (scan (oneFileTree n) oneFile).truncated = false := by
  have hwalk : ∀ (root : List String) (left : ℕ),
      (walk (oneFileTree n) oneFile root left [] ⟨∅, false, false⟩).truncated = false := by
    intro root left
    rw [walk.eq_def, if_neg (by simp [maxEntries]), if_neg (by simp [WatchSettings.leavesOut])]
    by_cases hfile : n ≠ 0 ∧ root ++ [] = ["/", "srv", "main.rs"]
    · simp only [oneFileTree, if_pos hfile]
    · simp only [oneFileTree, if_neg hfile]
  exact hwalk _ _

/-- What is seen of it while the supervisor shuts down. -/
def oneFileWatch : Surroundings (List String) where
  scans n := some (scan (oneFileTree n) oneFile)
  replies _ := .dropped

/-- Once it is there the restart is asked for. -/
theorem asks_iff_differ_oneFile :
    oneFileWatch.replyAt ⟨"web"⟩ String.join 0 = some .dropped := by
  obtain ⟨made, hmade, -, -, hasks⟩ := @asks_iff_differ oneFile oneFileTree oneFileWatch
    (fun _ => rfl) truncated_scan_oneFile ⟨"web"⟩ String.join 0
    ⟨scan (oneFileTree 0) oneFile, 1, 0⟩ rfl
  obtain rfl : made = 0 := Nat.lt_one_iff.mp hmade
  refine (hasks ⟨["/", "srv", "main.rs"], ⟨some 1, 12⟩, ?_⟩).1
  have hthere : (oneFileTree 1).IsWatched oneFile ["/", "srv", "main.rs"] ⟨some 1, 12⟩ :=
    ⟨["/", "srv", "main.rs"], by decide, [], ⟨.refl, Nat.zero_le _, by decide⟩, rfl, rfl⟩
  rintro ⟨-, hback⟩
  obtain ⟨-, -, -, -, -, hmetadata⟩ := hback hthere
  cases hmetadata

end Servicrab
