import Servicrab.Config.Valid
import Servicrab.Library.Layers

/-!
# The environment of a service

A service runs with the variables of the process, over which come those of the environment files of
its project, those that the project declares, those of its own environment files and those that it
declares. Environment files are looked for beside the file that declares them, which for a service is
the file it was included from.

## Main definitions

* `Settable`, `AllSettable`: a variable that a process can be given.
* `envPaths`: where environment files are looked for.
* `LoadedFrom`: what environment files hold.
* `Service.Layered`: how the environment of a service comes about.

## Main results

* `loadEnvFiles_spec`: a file is over those before it, and a file that cannot be used is an error.
* `environment_of_validateRaw`: in a configuration that was accepted, the last layer that knows a
  variable decides, and every variable that is not one of the process can be given to one.
-/

open Std (ExtTreeMap)

namespace Servicrab

/-- A variable that a process can be given. -/
def Settable (key value : String) : Prop := isValidEnvKey key ∧ '\x00' ∉ value.toList

/-- Variables all of which a process can be given. -/
def AllSettable (vars : ExtTreeMap String String) : Prop :=
  ∀ key value, vars[key]? = some value → Settable key value

/-- Where the declared environment files are looked for. -/
def envPaths (declared : Option RawEnvFile) (dir : String) : List String :=
  ((declared.map RawEnvFile.paths).getD []).map (Path.join dir)

/-- What the environment files at some paths hold, all of which can be given to a process. -/
structure LoadedFrom (host : Host) (paths : List String) (files : List (ExtTreeMap String String)) :
    Prop where
  load_eq : paths.map (EnvFile.load host) = files.map .ok
  settable : ∀ vars ∈ files, AllSettable vars

/-- The directory that the relative paths of a service are resolved against. -/
def RawService.dir (host : Host) (sourceDir : String) (raw : RawService) : String :=
  (raw.origin.map (resolveSourceDir host)).getD sourceDir

/-! ### One layer -/

section Layer

variable {host : Host} {env merged vars : ExtTreeMap String String} {scope path dir : String}
  {paths : List String} {files : List (ExtTreeMap String String)}

theorem LoadedFrom.nil (host : Host) : LoadedFrom host [] [] :=
  ⟨rfl, fun _ h => absurd h List.not_mem_nil⟩

theorem LoadedFrom.concat (h : LoadedFrom host paths files)
    (hload : EnvFile.load host path = .ok vars) (hvars : AllSettable vars) :
    LoadedFrom host (paths ++ [path]) (files ++ [vars]) where
  load_eq := by simp [h.load_eq, hload]
  settable := by
    intro vars' hmem
    rcases List.mem_append.mp hmem with hmem | hmem
    · exact h.settable vars' hmem
    · rw [List.mem_singleton.mp hmem]
      exact hvars

theorem getElem?_extend (env layer : ExtTreeMap String String) (key : String) :
    (extend env layer)[key]? = layer[key]?.or env[key]? :=
  Layers.getElem?_foldl_insert layer env key

theorem allSettable_of_forall_mem (h : ∀ entry ∈ vars.toList, Settable entry.1 entry.2) :
    AllSettable vars :=
  fun key value hvalue => h (key, value) (ExtTreeMap.mem_toList_iff_getElem?_eq_some.mpr hvalue)

/-- A declared environment is kept as it is, or there is an error. -/
theorem validateEnv_spec {invalidKey nulValue : String → ConfigError}
    (h : (validateEnv invalidKey nulValue env).Clean) :
    AllSettable env ∧ ∀ key : String, (validateEnv invalidKey nulValue env).value[key]? = env[key]? := by
  refine (Checked.foldlM_eq_foldl (fun out entry => out.insert entry.1 entry.2)
    (fun entry => Settable entry.1 entry.2) (fun out entry hclean => ?_) h).imp
      allSettable_of_forall_mem fun hvalue key => ?_
  · split_ifs at hclean ⊢ with hkey hnul
    · exact absurd hclean Checked.not_clean_report_bind
    · exact absurd hclean Checked.not_clean_report_bind
    · exact ⟨⟨by simpa using hkey, hnul⟩, rfl⟩
  · rw [validateEnv, hvalue, Layers.getElem?_foldl_insert]
    simp

/-- A file is over those before it, or there is an error. -/
theorem loadEnvFile_spec (h : (loadEnvFile host scope path merged).Clean) :
    ∃ vars, EnvFile.load host path = .ok vars ∧ AllSettable vars ∧
      ∀ key : String, (loadEnvFile host scope path merged).value[key]? = vars[key]?.or merged[key]? := by
  unfold loadEnvFile at h ⊢
  cases hload : EnvFile.load host path with
  | error e =>
    rw [hload] at h
    exact absurd h Checked.not_clean_report_bind
  | ok vars =>
    rw [hload] at h
    refine ⟨vars, rfl, ?_⟩
    refine (Checked.foldlM_eq_foldl (fun merged entry => merged.insert entry.1 entry.2)
      (fun entry => Settable entry.1 entry.2) (fun merged entry hclean => ?_) h).imp
        allSettable_of_forall_mem fun hvalue key => ?_
    · split_ifs at hclean ⊢ with hbad
      · exact absurd hclean Checked.not_clean_report_bind
      · rw [not_or] at hbad
        exact ⟨⟨by simpa using hbad.1, hbad.2⟩, rfl⟩
    · exact (congrArg (·[key]?) hvalue).trans (Layers.getElem?_foldl_insert vars merged key)

/-- Every file that is declared is over those before it, or there is an error. -/
theorem loadEnvFiles_spec {declared : Option RawEnvFile}
    (h : (loadEnvFiles host declared dir scope).Clean) :
    (loadEnvFiles host declared dir scope).value.1 = envPaths declared dir ∧
      ∃ files, LoadedFrom host (envPaths declared dir) files ∧
        ∀ key : String, (loadEnvFiles host declared dir scope).value.2[key]? = Layers.lookup files key := by
  cases declared with
  | none => exact ⟨rfl, [], LoadedFrom.nil host, fun key => by simp [loadEnvFiles]⟩
  | some declared =>
    refine Checked.foldlM_induction
      (fun done loaded => loaded.1 = done.map (Path.join dir) ∧ ∃ files,
        LoadedFrom host (done.map (Path.join dir)) files ∧
          ∀ key : String, loaded.2[key]? = Layers.lookup files key) ?_ ?_ h
    · exact ⟨rfl, [], LoadedFrom.nil host, fun key => by simp⟩
    · rintro done candidate ⟨paths, merged⟩ - ⟨hpaths, files, hfiles, hmerged⟩ hclean
      obtain ⟨vars, hload, hsettable, hvalue⟩ := loadEnvFile_spec (Checked.clean_bind.mp hclean).1
      rw [List.map_append]
      refine ⟨congrArg (· ++ [Path.join dir candidate]) hpaths, files ++ [vars], ?_, fun key => ?_⟩
      · exact hfiles.concat hload hsettable
      · rw [Layers.lookup_append, Layers.lookup_singleton, ← hmerged]
        exact hvalue key

end Layer

/-! ### All layers -/

/-- How the environment of a service comes about: the process is below all, and of the two others
that declare anything each is over its environment files. -/
structure Service.Layered (host : Host) (projectFiles : List (ExtTreeMap String String))
    (projectEnv : ExtTreeMap String String) (dir : String) (service : Service) (raw : RawService) :
    Prop where
  envFiles_eq : service.envFiles = envPaths raw.envFile dir
  /-- Every variable that is declared can be given to a process. -/
  settable : AllSettable raw.env
  layers : ∃ files, LoadedFrom host service.envFiles files ∧ ∀ key : String, service.env[key]? =
    Layers.lookup ([host.vars] ++ projectFiles ++ [projectEnv] ++ files ++ [raw.env]) key

section Layers

variable {host : Host} {project : ProjectScope} {projectFiles : List (ExtTreeMap String String)}
  {projectEnv : ExtTreeMap String String} {rawName : String} {raw : RawService}

theorem layered_buildService {name : ServiceName} {executable : String} {args : List String}
    (hfileEnv : ∀ key : String, project.fileEnv[key]? = Layers.lookup projectFiles key)
    (henv : ∀ key : String, project.env[key]? = projectEnv[key]?)
    (h : (buildService host project raw name executable args).Clean) :
    (buildService host project raw name executable args).value.Layered host projectFiles projectEnv
      (raw.dir host project.sourceDir) raw := by
  simp only [buildService, Checked.clean_bind] at h
  obtain ⟨-, hservice, hfiles, -⟩ := h
  obtain ⟨hsettable, hvalue⟩ := validateEnv_spec hservice
  obtain ⟨hpaths, files, hload, hmerged⟩ := loadEnvFiles_spec hfiles
  rw [← hpaths] at hload
  refine ⟨hpaths, hsettable, files, hload, fun key => ?_⟩
  show (extend (extend (extend (extend host.vars project.fileEnv) project.env) _) _)[key]? = _
  simp only [getElem?_extend, Layers.lookup_append, Layers.lookup_singleton, hfileEnv, henv]
  rw [hmerged]
  exact congrArg (Option.or · _) (hvalue key)

theorem layered_validateService {service : Service}
    (hfileEnv : ∀ key : String, project.fileEnv[key]? = Layers.lookup projectFiles key)
    (henv : ∀ key : String, project.env[key]? = projectEnv[key]?)
    (h : (validateService host project rawName raw).Clean)
    (hservice : (validateService host project rawName raw).value = some service) :
    service.Layered host projectFiles projectEnv (raw.dir host project.sourceDir) raw := by
  unfold validateService at h hservice
  cases hname : validateServiceName rawName with
  | error e =>
    rw [hname] at h
    exact absurd h (Checked.not_clean_skip _)
  | ok name =>
    rw [hname] at h hservice
    cases hcommand : raw.command with
    | nil =>
      rw [hcommand] at h
      exact absurd h (Checked.not_clean_skip _)
    | cons executable args =>
      rw [hcommand] at h hservice
      dsimp only at h hservice
      split_ifs at h hservice
      · exact absurd h (Checked.not_clean_skip _)
      · exact absurd h (Checked.not_clean_skip _)
      · cases hservice
        exact layered_buildService hfileEnv henv ((Checked.clean_map _).mp h)

/-- A service is what the check of its declaration makes of it. -/
theorem exists_of_validateServices {declared : ExtTreeMap String RawService} {name : ServiceName}
    {service : Service} (h : (validateServices host project declared).Clean)
    (hservice : (validateServices host project declared).value[name]? = some service) :
    ∃ raw, declared[name.raw]? = some raw ∧ (validateService host project name.raw raw).Clean ∧
      (validateService host project name.raw raw).value = some service := by
  have hall := Checked.foldlM_induction
    (fun done services => ∀ (name : ServiceName) (service : Service), services[name]? = some service →
      ∃ raw, (name.raw, raw) ∈ done ∧ (validateService host project name.raw raw).Clean ∧
        (validateService host project name.raw raw).value = some service)
    (fun name service hs => by simp at hs) ?_ h
  · obtain ⟨raw, hraw, hclean, hvalue⟩ := hall name service hservice
    exact ⟨raw, ExtTreeMap.mem_toList_iff_getElem?_eq_some.mp hraw, hclean, hvalue⟩
  · rintro done ⟨rawName, raw⟩ services - hdone hclean name service hs
    have hnew := (Checked.clean_bind.mp hclean).1
    obtain ⟨new, hvalue, hdeclares⟩ := exists_of_clean_validateService hnew
    rw [Checked.value_bind, hvalue] at hs
    replace hs : (services.insert new.name new)[name]? = some service := hs
    rw [TreeMap.getElem?_insert, hdeclares.name_eq] at hs
    split_ifs at hs with hname
    · obtain rfl := Option.some.inj hs
      subst hname
      exact ⟨raw, by simp, hnew, hvalue⟩
    · obtain ⟨raw', hmem, hservice⟩ := hdone name service hs
      exact ⟨raw', List.mem_append_left _ hmem, hservice⟩

/-- Only the variables of the process can be such that a process cannot be given them. -/
theorem Service.Layered.settable_of_getElem? {service : Service} {dir key value : String}
    (h : service.Layered host projectFiles projectEnv dir raw)
    (hfiles : ∀ vars ∈ projectFiles, AllSettable vars)
    (hproject : AllSettable projectEnv)
    (hvalue : service.env[key]? = some value) : host.vars[key]? = some value ∨ Settable key value := by
  obtain ⟨files, hload, hlayers⟩ := h.layers
  rw [hlayers] at hvalue
  refine Layers.of_lookup (P := fun key value => host.vars[key]? = some value ∨ Settable key value)
    (fun layer hlayer hv => ?_) hvalue
  simp only [List.mem_append, List.mem_singleton] at hlayer
  rcases hlayer with (((rfl | hlayer) | rfl) | hlayer) | rfl
  · exact .inl hv
  · exact .inr (hfiles layer hlayer key value hv)
  · exact .inr (hproject key value hv)
  · exact .inr (hload.settable layer hlayer key value hv)
  · exact .inr (h.settable key value hv)

end Layers

/-! ### A configuration -/

section Config

variable {host : Host} {raw : RawConfig} {sourcePath : String} {config : LoadedConfig}
  {warnings : List ConfigWarning}

/-- A configuration that is accepted is what the checks of the expanded declaration make of it. -/
theorem clean_of_validateRaw (h : validateRaw host raw sourcePath = .ok (config, warnings)) :
    (checkConfig host (expandRaw host.vars raw).value sourcePath).Clean ∧
      config.services = (checkConfig host (expandRaw host.vars raw).value sourcePath).value.services ∧
      config.sourceDir = resolveSourceDir host sourcePath ∧
      config.project.envFiles =
        (checkConfig host (expandRaw host.vars raw).value sourcePath).value.envFiles := by
  simp only [validateRaw] at h
  split_ifs at h with hexpanded hclean
  split at h
  · cases h
  · cases h
    exact ⟨hclean, rfl, rfl, rfl⟩

/-- **The environment of a service.** In a configuration that is accepted, every environment file
that is declared was read, and the environment of each service says of a variable what the last of
its layers says that knows it: the process, the files of the project one by one, the project, the
files of the service one by one, and the service. A variable of it that is not one of the process can
be given to a process. -/
theorem environment_of_validateRaw (host : Host) (raw : RawConfig) (sourcePath : String)
    (config : LoadedConfig) (warnings : List ConfigWarning)
    (h : validateRaw host raw sourcePath = .ok (config, warnings)) :
    ∃ projectFiles,
      config.project.envFiles =
        envPaths (expandRaw host.vars raw).value.project.envFile config.sourceDir ∧
      LoadedFrom host config.project.envFiles projectFiles ∧
      ∀ (name : ServiceName) service, config.services[name]? = some service →
        ∃ declared, (expandRaw host.vars raw).value.services[name.raw]? = some declared ∧
          service.Layered host projectFiles (expandRaw host.vars raw).value.project.env
            (declared.dir host config.sourceDir) declared ∧
          ∀ key value, service.env[key]? = some value →
            host.vars[key]? = some value ∨ Settable key value := by
  obtain ⟨hclean, hservices, hdir, henvFiles⟩ := clean_of_validateRaw h
  simp only [checkConfig, Checked.clean_bind] at hclean
  obtain ⟨-, -, henv, hfiles, -, -, hchecked, -⟩ := hclean
  obtain ⟨hproject, hvalue⟩ := validateEnv_spec henv
  obtain ⟨hpaths, files, hload, hmerged⟩ := loadEnvFiles_spec hfiles
  have hpaths : config.project.envFiles =
      envPaths (expandRaw host.vars raw).value.project.envFile config.sourceDir := by
    rw [henvFiles, hdir]
    exact hpaths
  refine ⟨files, hpaths, ?_, fun name service hservice => ?_⟩
  · rw [hpaths, hdir]
    exact hload
  · rw [hservices] at hservice
    obtain ⟨declared, hdeclared, hone, hsome⟩ := exists_of_validateServices hchecked hservice
    have hlayered := layered_validateService hmerged hvalue hone hsome
    rw [hdir]
    exact ⟨declared, hdeclared, hlayered, fun key value =>
      hlayered.settable_of_getElem? hload.settable hproject⟩

/-- A host with environment files of a project and of a database. -/
def layeredHost : Host where
  vars := .ofList [("HOME", "/root"), ("MODE", "process"), ("PATH", "/bin")]
  parseDuration s := if s = "500ms" then .ok (.ofMillis 500) else .error "invalid number"
  canonicalize := .ok
  pathExists path := path = "/srv"
  isDir path := path = "/srv"
  isFile path := path = "/bin/run"
  readToString path :=
    if path = "/srv/common.env" then .ok "MODE=shared\nPORT=1\nUSER=shop\n"
    else if path = "/srv/db.env" then .ok "PORT=3\nDATA=/tmp\n"
    else .error "No such file or directory (os error 2)"

/-- A database whose variables are declared in four places. -/
def layeredStack : RawConfig where
  version := 1
  project := {
    name := "shop", env := .ofList [("PORT", "2"), ("LEVEL", "info")]
    envFile := some (.one "common.env"), logs := none }
  services := .ofList <|
    let services : List (String × RawService) :=
      [("db", { exampleService with
        env := .ofList [("DATA", "/data")], envFile := some (.many ["db.env"]) })]
    services

theorem environment_of_validateRaw_layered : ∃ config warnings,
    validateRaw layeredHost layeredStack "/srv/servicrab.toml" = .ok (config, warnings) ∧
      (config.services[(⟨"db"⟩ : ServiceName)]?.map fun service => service.env.toList) = some
        [("DATA", "/data"), ("HOME", "/root"), ("LEVEL", "info"), ("MODE", "shared"),
          ("PATH", "/bin"), ("PORT", "3"), ("USER", "shop")] ∧
      config.project.envFiles = ["/srv/common.env"] ∧
      ∃ files, LoadedFrom layeredHost ["/srv/common.env"] files := by
  have hread : (validateRaw layeredHost layeredStack "/srv/servicrab.toml").toOption.map
      (fun loaded => ((loaded.1.services[(⟨"db"⟩ : ServiceName)]?.map fun service =>
        service.env.toList), loaded.1.project.envFiles)) = some (some
          [("DATA", "/data"), ("HOME", "/root"), ("LEVEL", "info"), ("MODE", "shared"),
            ("PATH", "/bin"), ("PORT", "3"), ("USER", "shop")], ["/srv/common.env"]) := by
    decide +kernel
  obtain ⟨config, warnings, hvalidate, hconfig⟩ := exists_accepted
    (fun config => ((config.services[(⟨"db"⟩ : ServiceName)]?.map fun service =>
      service.env.toList), config.project.envFiles)) hread
  obtain ⟨henv, hfiles⟩ := Prod.mk.inj hconfig
  obtain ⟨files, -, hload, -⟩ := environment_of_validateRaw layeredHost layeredStack _ config warnings
    hvalidate
  rw [hfiles] at hload
  exact ⟨config, warnings, hvalidate, henv, hfiles, files, hload⟩

end Config

end Servicrab
