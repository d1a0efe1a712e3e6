import Mathlib.Data.Fintype.Option
import Mathlib.Data.List.Chain
import Servicrab.Config.Raw
import Servicrab.Config.Text
import Servicrab.Library.TreeMap
import Servicrab.Library.Unfolding

/-!
# Includes

A configuration that is spread over several files (`include.rs`): every file that the root includes,
directly or through others, is read, and its services are merged. The recursion is on how deep
includes may be nested, which is more than there are files.

What a path is decides whether its file is being read already, or was merged before; both are
reported, and so is a fragment that cannot be read or declares what only the root may. The paths of
the merged fragments are kept in order, which the source does not do.

## Main definitions

* `SourceFiles`, `Loader`, `merge`.
* `Tidy`: includes that there is nothing to report about.
* `Loader.Correct`: what is asked of the loader.

## Main results

* `Loader.services_enter`, `Loader.errors_enter`: a fragment is merged.
-/

open Std (ExtTreeMap)
open Relation (ReflTransGen TransGen)

namespace Servicrab

/-! ### The data -/

/-- One path or a list of paths. -/
inductive RawInclude
  | one (path : String)
  | many (paths : List String)

/-- The declared paths, in declaration order. -/
def RawInclude.paths : RawInclude → List String
  | one path => [path]
  | many paths => paths

/-- The configuration at the root, before what it includes is merged. -/
structure RawRoot extends RawConfig where
  includes : Option RawInclude

/-- An included file. -/
structure RawFragment where
  /-- Files this one includes in turn. -/
  includes : Option RawInclude
  services : ExtTreeMap String RawService
  /-- Set when the file declares `version`. -/
  version : Option Unit
  /-- Set when the file declares `[project]`. -/
  project : Option Unit

/-- Why a text is no TOML of the expected form. -/
structure TomlError where
  text : String

/-- The errors of `ConfigError` that following the includes reports. -/
inductive IncludeError
  | parse (path : String) (source : TomlError)
  | includeRead (includedBy path : String) (source : IoError)
  | includeNotAFragment (path includedBy field : String)
  | includeCycle (cycle : String)
  | includeTwice (path first second : String)
  | duplicateService (service first second : String)

instance : ToString IncludeError where
  toString
    | .parse path source => s!"failed to parse {path}: {source.text}"
    | .includeRead includedBy path source =>
      s!"{includedBy} includes {path}, which could not be read: {source.text}"
    | .includeNotAFragment path includedBy field =>
      s!"{path} is included by {includedBy}, so it cannot declare {field}; " ++
        "that belongs in the config that includes it"
    | .includeCycle cycle => s!"include cycle detected: {cycle}"
    | .includeTwice path first second =>
      s!"{path} is included by both {first} and {second}; a file may only be included once"
    | .duplicateService service first second =>
      s!"service {Debug.str service} is declared in both {first} and {second}"

/-- Files, and the paths that lead to them. -/
structure SourceFiles where
  File : Type
  /-- The file that a path leads to. -/
  named : String → Option File
  /-- `fs::canonicalize`. -/
  canonicalize : String → Option String
  contents : File → Except IoError String
  /-- Why a path that leads to no file cannot be read. -/
  missing : String → IoError
  /-- `toml::from_str`. -/
  parse : String → Except TomlError RawFragment

namespace SourceFiles

variable (files : SourceFiles)

/-- `fs::read_to_string`. -/
def readToString (path : String) : Except IoError String :=
  match files.named path with
  | some file => files.contents file
  | none => .error (files.missing path)

/-- What a path is, or the path as written when it cannot be resolved. -/
def identity (path : String) : String := (files.canonicalize path).getD path

/-- The fragment at a path that can be read and parsed. -/
def fragment (path : String) : Option RawFragment :=
  match files.readToString path with
  | .ok text => (files.parse text).toOption
  | .error _ => none

/-- A path is the same as that of a file if they lead to the same file, and only then. -/
def Identifies : Prop :=
  ∀ path path' file, files.named path = some file →
    (files.identity path = files.identity path' ↔ files.named path' = some file)

end SourceFiles

/-! ### The loader -/

/-- A file on the current include path: what it is, for comparison, and what it was called. -/
structure Ancestor where
  identity : String
  path : String

structure Loader where
  /-- Every service seen so far, each remembering which file declared it. -/
  services : ExtTreeMap String RawService
  /-- The files being read right now, outermost first. -/
  chain : List Ancestor
  /-- Every file already merged, and what included it. -/
  merged : ExtTreeMap String String
  errors : List IncludeError
  /-- The paths of the fragments that were merged. The source does not keep them. -/
  log : List String

/-- A service that remembers the file that declares it. -/
def RawService.at (path : String) (service : RawService) : RawService :=
  { service with origin := some path }

/-- The paths that the `include` of a file names, resolved against the directory of the file. -/
def targets (includes : Option RawInclude) (source : String) : List String :=
  (includes.toList.flatMap RawInclude.paths).map (Path.join ((Path.parent source).getD "."))

namespace Loader

def report (loader : Loader) (error : IncludeError) : Loader :=
  { loader with errors := loader.errors ++ [error] }

def read (files : SourceFiles) (loader : Loader) (path includedBy : String) :
    Loader × Option RawFragment :=
  match files.readToString path with
  | .error source => (loader.report (.includeRead includedBy path source), none)
  | .ok text =>
    match files.parse text with
    | .ok fragment => (loader, some fragment)
    | .error source => (loader.report (.parse path source), none)

def notAFragment (loader : Loader) (path includedBy field : String) : Loader :=
  loader.report (.includeNotAFragment path includedBy field)

/-- Merge a service of the file at a path. -/
def declare (path : String) (loader : Loader) (entry : String × RawService) : Loader :=
  match loader.services[entry.1]? with
  | none => { loader with services := loader.services.insert entry.1 (entry.2.at path) }
  | some first =>
    loader.report (.duplicateService entry.1 (first.origin.getD "") path)

/-- Merge a fragment, and put it on the include path. -/
def enter (files : SourceFiles) (loader : Loader) (path includedBy : String)
    (fragment : RawFragment) : Loader :=
  let identity := files.identity path
  let loader := { loader with
    merged := loader.merged.insert identity includedBy
    log := loader.log ++ [path] }
  let loader :=
    if fragment.version.isSome then loader.notAFragment path includedBy "version" else loader
  let loader :=
    if fragment.project.isSome then loader.notAFragment path includedBy "[project]" else loader
  let loader := fragment.services.toList.foldl (declare path) loader
  { loader with chain := loader.chain ++ [⟨identity, path⟩] }

def leave (loader : Loader) : Loader := { loader with chain := loader.chain.dropLast }

/-- Follow the `include` of the file at a path. -/
def follow (one : Loader → String → String → Option Loader) (loader : Loader)
    (includes : Option RawInclude) (source : String) : Option Loader :=
  (targets includes source).foldlM (fun loader path => one loader path source) loader

/-- Merge one included file, then whatever it includes in turn. -/
def one (files : SourceFiles) : ℕ → Loader → String → String → Option Loader
  | 0, _, _, _ => none
  | fuel + 1, loader, path, includedBy =>
    let identity := files.identity path
    match loader.chain.findIdx? fun ancestor => ancestor.identity = identity with
    | some index =>
      let cycle := (loader.chain.drop index).map Ancestor.path ++ [path]
      some (loader.report (.includeCycle (" -> ".intercalate cycle)))
    | none =>
      match loader.merged[identity]? with
      | some first => some (loader.report (.includeTwice path first includedBy))
      | none =>
        match loader.read files path includedBy with
        | (loader, none) => some loader
        | (loader, some fragment) =>
          ((loader.enter files path includedBy fragment).follow (one files fuel)
            fragment.includes path).map leave

/-- The loader as the root is about to be followed. -/
def start (files : SourceFiles) (raw : RawRoot) (root : String) : Loader where
  services := raw.services.map fun _ service => service.at root
  chain := [⟨files.identity root, root⟩]
  merged := ∅
  errors := []
  log := []

/-- Follow what the root includes. -/
def load (files : SourceFiles) (fuel : ℕ) (raw : RawRoot) (root : String) : Option Loader :=
  (start files raw root).follow (one files fuel) raw.includes root

end Loader

/-- Read every file that the root includes, directly or transitively, and merge their services into
it. The include is spent. -/
def merge (files : SourceFiles) (fuel : ℕ) (raw : RawRoot) (root : String) :
    Option (RawConfig × List IncludeError) :=
  (Loader.load files fuel raw root).map fun loader =>
    ({ raw.toRawConfig with services := loader.services }, loader.errors)

/-! ### What is asked -/

section

variable (files : SourceFiles) (raw : RawRoot) (root : String)

/-- The file at a path: the root as it is given, or a fragment. -/
def fileAt (path : String) : Option RawFragment :=
  if path = root then some ⟨raw.includes, raw.services, none, none⟩ else files.fragment path

/-- The paths that the file at a path includes. -/
def includesOf (path : String) : List String :=
  match fileAt files raw root path with
  | some fragment => targets fragment.includes path
  | none => []

/-- The service of a name that the file at a path declares. -/
def declared (path name : String) : Option RawService :=
  (fileAt files raw root path).bind fun fragment =>
    fragment.services[name]?.map (RawService.at path)

/-- Includes that there is nothing to report about: what is reached from the root are fragments, each
is included once and none includes one that it is reached through, and no two files declare a service
of the same name. -/
structure Tidy : Prop where
  fragment : ∀ path, TransGen (Unfolding.Leads (includesOf files raw root)) root path →
    ∃ fragment, files.fragment path = some fragment ∧
      fragment.version = none ∧ fragment.project = none
  tree : Unfolding.Tree (includesOf files raw root) files.named root
  names : ∀ path path' name, ReflTransGen (Unfolding.Leads (includesOf files raw root)) root path →
    ReflTransGen (Unfolding.Leads (includesOf files raw root)) root path' →
    (declared files raw root path name).isSome → (declared files raw root path' name).isSome →
      path = path'

/-- Files of which each includes the next, and of which the last is the first again. -/
structure RealCycle (paths : List String) : Prop where
  two_le : 2 ≤ paths.length
  chain : paths.IsChain (Unfolding.Leads (includesOf files raw root))
  closed : ∃ file, ∃ first ∈ paths.head?, ∃ last ∈ paths.getLast?,
    files.named first = some file ∧ files.named last = some file

/-- What is asked of the loader when it is done. No file is merged twice, the root included; nothing
is reported about includes that are tidy, of which all services are there then; and the cycles
that are reported are real. -/
structure Loader.Correct (loader : Loader) : Prop where
  once : ((root :: loader.log).map files.named).Nodup
  errors : loader.errors = [] ↔ Tidy files raw root
  services : loader.errors = [] → ∀ name service, loader.services[name]? = some service ↔
    ∃ path, ReflTransGen (Unfolding.Leads (includesOf files raw root)) root path ∧
      declared files raw root path name = some service
  cycles : ∀ cycle, .includeCycle cycle ∈ loader.errors →
    ∃ paths, cycle = " -> ".intercalate paths ∧ RealCycle files raw root paths

end

/-! ### A fragment is merged -/

variable {files : SourceFiles} {raw : RawRoot} {root path source includedBy name : String}
  {fragment : RawFragment} {loader loader' : Loader} {entries : List (String × RawService)}

namespace Loader

theorem foldl_declare_same : (entries.foldl (declare path) loader).chain = loader.chain ∧
    (entries.foldl (declare path) loader).merged = loader.merged ∧
    (entries.foldl (declare path) loader).log = loader.log := by
  induction entries generalizing loader with
  | nil => exact ⟨rfl, rfl, rfl⟩
  | cons entry entries ih =>
    rw [List.foldl_cons, ih.1, ih.2.1, ih.2.2, declare]
    split <;> exact ⟨rfl, rfl, rfl⟩

/-- A service that is there stays, and the first of a name is taken. -/
theorem getElem?_foldl_declare : (entries.foldl (declare path) loader).services[name]? =
    (loader.services[name]?).or
      ((entries.find? fun entry => entry.1 = name).map fun entry => entry.2.at path) := by
  induction entries generalizing loader with
  | nil => simp
  | cons entry entries ih =>
    rw [List.foldl_cons, ih, declare, List.find?_cons]
    by_cases hname : entry.1 = name
    · subst hname
      cases hfirst : loader.services[entry.1]? with
      | none => simp
      | some first => simp [report, hfirst]
    · cases hfirst : loader.services[entry.1]? with
      | none => simp [TreeMap.getElem?_insert_of_ne (Ne.symm hname), hname]
      | some first => simp [report, hname]

/-- Nothing is reported about services of distinct names that are not there yet. -/
theorem errors_foldl_declare (hdistinct : entries.Pairwise fun e e' => e.1 ≠ e'.1) :
    (entries.foldl (declare path) loader).errors = [] ↔
      loader.errors = [] ∧ ∀ entry ∈ entries, loader.services[entry.1]? = none := by
  induction entries generalizing loader with
  | nil => simp
  | cons entry entries ih =>
    obtain ⟨hne, hrest⟩ := List.pairwise_cons.mp hdistinct
    rw [List.foldl_cons, ih hrest, declare, List.forall_mem_cons]
    cases hfirst : loader.services[entry.1]? with
    | none =>
      have hothers : (∀ e ∈ entries, (loader.services.insert entry.1 (entry.2.at path))[e.1]? = none) ↔
          ∀ e ∈ entries, loader.services[e.1]? = none := by
        refine forall₂_congr fun e he => ?_
        rw [TreeMap.getElem?_insert_of_ne (hne e he).symm]
      simp only [hothers, true_and]
    | some first => simp [report]

theorem cycle_mem_foldl_declare {cycle : String} :
    .includeCycle cycle ∈ (entries.foldl (declare path) loader).errors ↔
      .includeCycle cycle ∈ loader.errors := by
  induction entries generalizing loader with
  | nil => rfl
  | cons entry entries ih =>
    rw [List.foldl_cons, ih, declare]
    split <;> simp [report]

@[simp] theorem chain_enter : (loader.enter files path includedBy fragment).chain =
    loader.chain ++ [⟨files.identity path, path⟩] := by
  simp only [enter, foldl_declare_same.1, notAFragment, report]
  split_ifs <;> rfl

@[simp] theorem merged_enter : (loader.enter files path includedBy fragment).merged =
    loader.merged.insert (files.identity path) includedBy := by
  simp only [enter, foldl_declare_same.2.1, notAFragment, report]
  split_ifs <;> rfl

@[simp] theorem log_enter :
    (loader.enter files path includedBy fragment).log = loader.log ++ [path] := by
  simp only [enter, foldl_declare_same.2.2, notAFragment, report]
  split_ifs <;> rfl

theorem services_enter : (loader.enter files path includedBy fragment).services[name]? =
    (loader.services[name]?).or (fragment.services[name]?.map (RawService.at path)) := by
  simp only [enter, getElem?_foldl_declare, TreeMap.find?_key_toList, Option.map_map, notAFragment,
    report]
  split_ifs <;> rfl

theorem cycle_mem_enter {cycle : String} :
    .includeCycle cycle ∈ (loader.enter files path includedBy fragment).errors ↔
      .includeCycle cycle ∈ loader.errors := by
  simp only [enter, cycle_mem_foldl_declare, notAFragment, report]
  split_ifs <;> simp

theorem errors_enter : (loader.enter files path includedBy fragment).errors = [] ↔
    loader.errors = [] ∧ (fragment.version = none ∧ fragment.project = none) ∧
      ∀ name : String, fragment.services[name]?.isSome → loader.services[name]? = none := by
  have hdistinct : fragment.services.toList.Pairwise fun e e' => e.1 ≠ e'.1 :=
    fragment.services.distinct_keys_toList.imp fun hne heq => hne (compare_eq_iff_eq.mpr heq)
  have hnames : (∀ entry ∈ fragment.services.toList, loader.services[entry.1]? = none) ↔
      ∀ name : String, fragment.services[name]?.isSome → loader.services[name]? = none := by
    simp only [Prod.forall, ExtTreeMap.mem_toList_iff_getElem?_eq_some, Option.isSome_iff_exists]
    exact forall_congr' fun _ => exists_imp.symm
  rw [← hnames]
  simp only [enter, errors_foldl_declare hdistinct, notAFragment, report]
  cases fragment.version <;> cases fragment.project <;> simp

end Loader

end Servicrab
