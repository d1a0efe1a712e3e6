import Servicrab.Config.Validation
import Servicrab.Core.StartOrder

/-!
# What the validation establishes

Everything that runs later relies on a configuration that was accepted: that a service is filed under
its name, that its dependencies are there and can be waited for, that its durations are in range, and
that the start order serves dependencies first. A field that fails its check is made up or left out
by the validation, but never without an error.

## Main definitions

* `Service.InRange`, `DependencyCondition.CanHold`.
* `LoadedConfig.Invariant`: what holds of every configuration that was accepted.
* `Service.Declares`: what a service keeps of its declaration.

## Main results

* `exists_of_clean_validateService`: a service is not left out without an error.
* `validateServices_spec`: the services are those that are declared.
* `checkEntries_spec`: the dependencies of a service are distinct services, and can hold.
* `validateRaw_invariant`: a configuration that is accepted has the invariant.
* `LoadedConfig.Invariant.valid`, `Config.Loaded.sorted`: what the supervisor relies on.
-/

open Std (ExtTreeMap)

namespace Servicrab

/-! ### The invariant -/

/-- The durations of a service, and of its health check and its watch, are in the ranges that are
accepted. -/
structure Service.InRange (service : Service) : Prop where
  restartDelay : service.restartDelay ∈ Set.Icc dur100ms dur1h
  restartMaxDelay : service.restartMaxDelay ∈ Set.Icc dur100ms dur24h
  delay_le : service.restartDelay ≤ service.restartMaxDelay
  stableAfter : service.stableAfter ∈ Set.Icc dur1s dur24h
  shutdownTimeout : service.shutdownTimeout ∈ Set.Icc dur100ms dur1h
  health : ∀ check, service.health = some check → check.InRange
  watch : ∀ watch, service.watch = some watch → watch.InRange

/-- A service can come to satisfy a condition on it. -/
def DependencyCondition.CanHold (service : Service) : DependencyCondition → Prop
  | serviceStarted => True
  | serviceHealthy => service.health.isSome
  | serviceCompletedSuccessfully => service.restart ≠ .always ∧ service.restart ≠ .unlessStopped

/-- What holds of every configuration that was accepted. -/
structure LoadedConfig.Invariant (config : LoadedConfig) : Prop where
  /-- A service is filed under its name, which follows the rules. -/
  named : ∀ (name : ServiceName) service, config.services[name]? = some service →
    service.name = name ∧ NameRules 48 name.raw
  /-- No service lists a dependency twice. -/
  nodup : ∀ (name : ServiceName) service, config.services[name]? = some service →
    (service.dependsOn.map Dependency.service).Nodup
  /-- A dependency is another service, which can come to satisfy the condition on it. -/
  dependency : ∀ (name : ServiceName) service, config.services[name]? = some service →
    ∀ entry ∈ service.dependsOn, entry.service ≠ name ∧
      ∃ target, config.services[entry.service]? = some target ∧
        (entry.conditionFor target).CanHold target
  /-- All durations are in range. -/
  inRange : ∀ (name : ServiceName) service, config.services[name]? = some service →
    service.InRange
  /-- The log settings are in range. -/
  logs : ∀ logs, config.project.logs = some logs → logs.InRange
  /-- The start order is one of all services. -/
  perm : config.startOrder.Perm config.services.keys
  /-- A service comes after all that it depends on. -/
  order : DependencyOrder config.DependsOn config.startOrder

/-! ### Services -/

/-- What a service keeps of its declaration. -/
structure Service.Declares (service : Service) (name : String) (raw : RawService) : Prop where
  name_eq : service.name = ⟨name⟩
  rules : NameRules 48 name
  dependsOn : service.dependsOn = (dependencyEntries raw).map toDependency
  restart : service.restart = raw.restart.toPolicy
  health : service.health.isSome = raw.health.isSome
  inRange : service.InRange

section Services

variable {host : Host} {project : ProjectScope} {rawName : String} {raw : RawService}
  {name : ServiceName} {executable : String} {args : List String}

theorem isSome_validateTable {α β : Type} {raw : Option α} {validate : α → Validation (Option β)}
    (hvalidate : ∀ table, (validate table).Clean → (validate table).value.isSome)
    (h : (validateTable raw validate).Clean) :
    (validateTable raw validate).value.isSome = raw.isSome := by
  cases raw with
  | none => rfl
  | some table => exact hvalidate table h

theorem of_validateTable {α β : Type} {P : β → Prop} {raw : Option α}
    {validate : α → Validation (Option β)}
    (hvalidate : ∀ table b, (validate table).value = some b → P b) :
    ∀ b, (validateTable raw validate).value = some b → P b := by
  intro b hb
  cases raw with
  | none => cases hb
  | some table => exact hvalidate table b hb

/-- The durations of a service are in range when no error was found. -/
theorem inRange_buildService (h : (buildService host project raw name executable args).Clean) :
    (buildService host project raw name executable args).value.InRange := by
  have hdelay : Duration.ofSecs 1 ∈ Set.Icc dur100ms dur1h := ⟨by decide, by decide⟩
  have hmax : Duration.ofSecs 30 ∈ Set.Icc dur100ms dur24h := ⟨by decide, by decide⟩
  have hstable : Duration.ofSecs 60 ∈ Set.Icc dur1s dur24h := ⟨by decide, by decide⟩
  have htimeout : Duration.ofSecs 10 ∈ Set.Icc dur100ms dur1h := ⟨by decide, by decide⟩
  simp only [buildService, Checked.clean_bind, Checked.clean_reject, not_lt] at h
  obtain ⟨-, -, -, -, -, -, -, -, -, -, hle, -⟩ := h
  exact {
    restartDelay := parseDurationField_mem hdelay
    restartMaxDelay := parseDurationField_mem hmax
    delay_le := hle
    stableAfter := parseDurationField_mem hstable
    shutdownTimeout := parseDurationField_mem htimeout
    health := of_validateTable fun _ _ => inRange_of_validateHealth
    watch := of_validateTable fun _ _ => inRange_of_validateWatch }

theorem declares_buildService (hrules : NameRules 48 name.raw)
    (h : (buildService host project raw name executable args).Clean) :
    (buildService host project raw name executable args).value.Declares name.raw raw where
  name_eq := rfl
  rules := hrules
  dependsOn := rfl
  restart := rfl
  health := by
    refine isSome_validateTable (fun _ => isSome_validateHealth) ?_
    simp only [buildService, Checked.clean_bind] at h
    obtain ⟨-, -, -, -, -, -, -, -, hhealth, -⟩ := h
    exact hhealth
  inRange := inRange_buildService h

/-- A service is not left out without an error. -/
theorem exists_of_clean_validateService (h : (validateService host project rawName raw).Clean) :
    ∃ service, (validateService host project rawName raw).value = some service ∧
      service.Declares rawName raw := by
  unfold validateService at h ⊢
  rcases hname : validateServiceName rawName with e | name
  · rw [hname] at h
    exact absurd h (Checked.not_clean_skip _)
  · obtain ⟨rfl, hrules⟩ : name = ⟨rawName⟩ ∧ NameRules 48 rawName := by
      unfold validateServiceName at hname
      split at hname
      · rename_i hvalid
        cases hname
        exact ⟨rfl, validateName_eq_ok_iff.mp hvalid⟩
      · cases hname
    rw [hname] at h
    simp only at h ⊢
    split at h
    · exact absurd h (Checked.not_clean_skip _)
    · split_ifs at h ⊢
      · exact absurd h (Checked.not_clean_skip _)
      · exact absurd h (Checked.not_clean_skip _)
      · exact ⟨_, rfl, declares_buildService hrules ((Checked.clean_map _).mp h)⟩

end Services

/-- Services are filed under the names they are declared with. -/
structure Filed (declared : List (String × RawService))
    (services : ExtTreeMap ServiceName Service) : Prop where
  back : ∀ (name : ServiceName) (service : Service), services[name]? = some service →
    ∃ raw, (name.raw, raw) ∈ declared ∧ service.Declares name.raw raw
  forth : ∀ rawName raw, (rawName, raw) ∈ declared →
    ∃ service : Service, services[(⟨rawName⟩ : ServiceName)]? = some service ∧
      service.Declares rawName raw

theorem Filed.insert {declared : List (String × RawService)}
    {services : ExtTreeMap ServiceName Service} {rawName : String} {raw : RawService}
    {service : Service} (h : Filed declared services) (hnew : rawName ∉ declared.map Prod.fst)
    (hservice : service.Declares rawName raw) :
    Filed (declared ++ [(rawName, raw)]) (services.insert service.name service) where
  back := by
    intro name service' hs
    rw [TreeMap.getElem?_insert, hservice.name_eq] at hs
    split_ifs at hs with hname
    · obtain rfl := Option.some.inj hs
      subst hname
      exact ⟨raw, by simp, hservice⟩
    · obtain ⟨raw', hmem, hservice'⟩ := h.back name service' hs
      exact ⟨raw', List.mem_append_left _ hmem, hservice'⟩
  forth := by
    intro rawName' raw' hmem
    rw [TreeMap.getElem?_insert, hservice.name_eq]
    rcases List.mem_append.mp hmem with hmem | hmem
    · have hne : rawName' ≠ rawName := fun he =>
        hnew (he ▸ List.mem_map_of_mem (f := Prod.fst) hmem)
      rw [if_neg fun he => hne (congrArg ServiceName.raw he)]
      exact h.forth rawName' raw' hmem
    · obtain ⟨rfl, rfl⟩ := Prod.mk.inj (List.mem_singleton.mp hmem)
      exact ⟨service, if_pos rfl, hservice⟩

/-- The services are those that are declared, each under its name. -/
theorem filed_validateServices {host : Host} {project : ProjectScope}
    {raw : ExtTreeMap String RawService} (h : (validateServices host project raw).Clean) :
    Filed raw.toList (validateServices host project raw).value := by
  have hnone : Filed [] ∅ :=
    ⟨fun name service hs => by simp at hs, fun _ _ hmem => absurd hmem List.not_mem_nil⟩
  rw [validateServices] at h ⊢
  refine Checked.foldlM_induction Filed hnone ?_ h
  rintro done ⟨rawName, declared⟩ services hfront hfiled hclean
  obtain ⟨service, hvalue, hservice⟩ :=
    exists_of_clean_validateService (Checked.clean_bind.mp hclean).1
  have hnodup : ((done ++ [(rawName, declared)]).map Prod.fst).Nodup := by
    refine List.Nodup.sublist (hfront.sublist.map Prod.fst) ?_
    rw [ExtTreeMap.map_fst_toList_eq_keys]
    exact ExtTreeMap.nodup_keys
  have hnew : rawName ∉ done.map Prod.fst := by
    rw [List.map_append, List.nodup_append] at hnodup
    exact fun hmem => hnodup.2.2 rawName hmem rawName (by simp) rfl
  rw [Checked.value_bind, hvalue]
  exact hfiled.insert hnew hservice

/-! ### Dependencies -/

section Dependencies

variable {services : ExtTreeMap String RawService} {name dep : String} {target : RawService}

/-- A condition that passed its check can hold. -/
theorem canHold_of_clean_checkCondition {condition : Option String} {service : Service}
    (hservice : service.Declares dep target) (h : (checkCondition name dep target condition).Clean) :
    ((toDependency (dep, condition)).conditionFor service).CanHold service := by
  have hunspecified : (if service.health.isSome then DependencyCondition.serviceHealthy
      else .serviceStarted).CanHold service := by
    split_ifs with hhealth
    · exact hhealth
    · trivial
  unfold checkCondition at h
  rw [Dependency.conditionFor, toDependency]
  cases condition with
  | none => exact hunspecified
  | some condition =>
    simp only [Option.bind_some] at h ⊢
    rcases hparsed : parseDependencyCondition condition with _ | parsed
    · exact hunspecified
    · rw [hparsed] at h
      cases parsed with
      | serviceStarted => trivial
      | serviceHealthy =>
        rw [Checked.clean_reject] at h
        show service.health.isSome
        rw [hservice.health]
        exact Option.isSome_iff_ne_none.mpr h
      | serviceCompletedSuccessfully =>
        rw [Checked.clean_reject, not_or] at h
        show service.restart ≠ .always ∧ service.restart ≠ .unlessStopped
        rw [hservice.restart]
        cases hrestart : target.restart <;> simp_all [RawRestartPolicy.toPolicy]

/-- The dependencies of a service are distinct declared services, other than itself and those that
were seen before. -/
theorem checkEntries_spec {entries : List (String × Option String)} : ∀ {seen : List String},
    (checkEntries services name seen entries).Clean →
      (entries.map Prod.fst).Nodup ∧ ∀ entry ∈ entries, entry.1 ∉ seen ∧ entry.1 ≠ name ∧
        ∃ target, services[entry.1]? = some target ∧
          (checkCondition name entry.1 target entry.2).Clean := by
  induction entries with
  | nil => exact fun _ => ⟨List.nodup_nil, nofun⟩
  | cons entry entries ih =>
    obtain ⟨dep, condition⟩ := entry
    intro seen h
    rw [checkEntries] at h
    by_cases hself : dep = name
    · rw [if_pos hself] at h
      exact absurd h Checked.not_clean_report_bind
    · rw [if_neg hself] at h
      rcases htarget : services[dep]? with _ | target
      · rw [htarget] at h
        exact absurd h Checked.not_clean_report_bind
      · rw [htarget] at h
        simp only at h
        by_cases hseen : dep ∈ seen
        · rw [if_pos hseen] at h
          exact absurd h Checked.not_clean_report_bind
        · rw [if_neg hseen] at h
          obtain ⟨hcondition, hrest⟩ := Checked.clean_bind.mp h
          obtain ⟨hnodup, hentries⟩ := ih hrest
          constructor
          · refine List.nodup_cons.mpr ⟨fun hmem => ?_, hnodup⟩
            obtain ⟨entry, hentry, rfl⟩ := List.mem_map.mp hmem
            exact (hentries entry hentry).1 List.mem_cons_self
          · refine List.forall_mem_cons.mpr ⟨⟨hseen, hself, target, htarget, hcondition⟩, ?_⟩
            intro entry hentry
            obtain ⟨hnew, hother⟩ := hentries entry hentry
            exact ⟨fun hmem => hnew (List.mem_cons_of_mem _ hmem), hother⟩

/-- The dependencies of a service that is filed are other services that are filed. -/
theorem Filed.dependency {filed : ExtTreeMap ServiceName Service} {name : ServiceName}
    {service : Service} (h : Filed services.toList filed) (hclean : (checkDependencies services).Clean)
    (hs : filed[name]? = some service) :
    (service.dependsOn.map Dependency.service).Nodup ∧
      ∀ entry ∈ service.dependsOn, entry.service ≠ name ∧
        ∃ target, filed[entry.service]? = some target ∧
          (entry.conditionFor target).CanHold target := by
  obtain ⟨raw, hraw, hservice⟩ := h.back name service hs
  obtain ⟨hnodup, hentries⟩ := checkEntries_spec (Checked.clean_forM.mp hclean _ hraw)
  rw [hservice.dependsOn]
  constructor
  · have hnames : ((dependencyEntries raw).map toDependency).map Dependency.service =
        ((dependencyEntries raw).map Prod.fst).map ServiceName.mk := by
      simp [toDependency, Function.comp_def]
    rw [hnames]
    exact hnodup.map fun a b hab => congrArg ServiceName.raw hab
  · intro entry hentry
    obtain ⟨⟨dep, condition⟩, hmem, rfl⟩ := List.mem_map.mp hentry
    obtain ⟨-, hself, target, htarget, hcondition⟩ := hentries (dep, condition) hmem
    obtain ⟨service', hs', hservice'⟩ := h.forth dep target
      (ExtTreeMap.mem_toList_iff_getElem?_eq_some.mpr htarget)
    exact ⟨fun he => hself (congrArg ServiceName.raw he), service', hs',
      canHold_of_clean_checkCondition hservice' hcondition⟩

end Dependencies

/-! ### The configuration -/

section Config

variable {host : Host} {raw : RawConfig} {sourcePath : String} {config : LoadedConfig}
  {warnings : List ConfigWarning}

/-- The services of a configuration without an error are filed, and their dependencies were
checked. -/
theorem filed_checkConfig (h : (checkConfig host raw sourcePath).Clean) :
    Filed raw.services.toList (checkConfig host raw sourcePath).value.services ∧
      (checkDependencies raw.services).Clean := by
  simp only [checkConfig, Checked.clean_bind] at h
  obtain ⟨-, -, -, -, -, -, hservices, hdependencies, -⟩ := h
  exact ⟨filed_validateServices hservices, hdependencies⟩

/-- How a configuration comes to be accepted. -/
theorem exists_of_validateRaw (h : validateRaw host raw sourcePath = .ok (config, warnings)) :
    ∃ expanded, (checkConfig host expanded sourcePath).Clean ∧
      config.services = (checkConfig host expanded sourcePath).value.services ∧
      config.project.logs = (checkConfig host expanded sourcePath).value.logs ∧ config.Sorted := by
  simp only [validateRaw] at h
  split_ifs at h with hexpanded hclean
  split at h
  · cases h
  · rename_i startOrder hsort
    cases h
    exact ⟨_, hclean, rfl, rfl, hsort⟩

/-- The start order of a configuration that was accepted is the one of the sort. -/
theorem sorted_of_validateRaw (h : validateRaw host raw sourcePath = .ok (config, warnings)) :
    config.Sorted := by
  obtain ⟨expanded, -, -, -, hsorted⟩ := exists_of_validateRaw h
  exact hsorted

/-- Loading has accepted the configuration. -/
def Config.Loaded (config : Config) : Prop :=
  ∃ host raw sourcePath loaded warnings,
    validateRaw host raw sourcePath = .ok (loaded, warnings) ∧ loaded.toConfig = config

theorem Config.Loaded.sorted {config : Config} (h : config.Loaded) : config.Sorted := by
  obtain ⟨host, raw, sourcePath, loaded, warnings, haccepted, rfl⟩ := h
  exact sorted_of_validateRaw haccepted

theorem invariant_of_validateRaw (h : validateRaw host raw sourcePath = .ok (config, warnings)) :
    config.Invariant := by
  obtain ⟨expanded, hclean, hservices, hlogs, hsorted⟩ := exists_of_validateRaw h
  obtain ⟨hfiled, hdependencies⟩ := filed_checkConfig hclean
  rw [← hservices] at hfiled
  have hdependency : ∀ (name : ServiceName) service, config.services[name]? = some service →
      (service.dependsOn.map Dependency.service).Nodup ∧
        ∀ entry ∈ service.dependsOn, entry.service ≠ name ∧
          ∃ target, config.services[entry.service]? = some target ∧
            (entry.conditionFor target).CanHold target :=
    fun name service hs => hfiled.dependency hdependencies hs
  obtain ⟨hperm, horder⟩ := order_of_topologicalSort hsorted
  exact {
    named := by
      intro name service hs
      obtain ⟨raw, -, hservice⟩ := hfiled.back name service hs
      exact ⟨hservice.name_eq, hservice.rules⟩
    nodup := fun name service hs => (hdependency name service hs).1
    dependency := fun name service hs => (hdependency name service hs).2
    inRange := by
      intro name service hs
      obtain ⟨raw, -, hservice⟩ := hfiled.back name service hs
      exact hservice.inRange
    logs := by
      rw [hlogs]
      exact of_validateTable fun _ _ => inRange_of_validateLogs
    perm := by
      rw [Config.dependencyGraph, ExtTreeMap.keys_map] at hperm
      exact hperm
    order := horder.mono fun name dep hdep => DependencyGraph.mem_edges_iff.mp hdep.mem_edges }

/-- **What the validation establishes.** Every configuration that is accepted has the invariant. -/
theorem validateRaw_invariant (host : Host) (raw : RawConfig) (sourcePath : String)
    (config : LoadedConfig) (warnings : List ConfigWarning)
    (h : validateRaw host raw sourcePath = .ok (config, warnings)) : config.Invariant :=
  invariant_of_validateRaw h

/-- What is found in a configuration once it is known to be accepted. -/
theorem exists_accepted {α : Type} (read : LoadedConfig → α) {a : α}
    (h : (validateRaw host raw sourcePath).toOption.map (fun loaded => read loaded.1) = some a) :
    ∃ config warnings, validateRaw host raw sourcePath = .ok (config, warnings) ∧
      read config = a := by
  rcases hvalidate : validateRaw host raw sourcePath with errors | ⟨config, warnings⟩
  · rw [hvalidate] at h
    cases h
  · rw [hvalidate] at h
    exact ⟨config, warnings, rfl, Option.some.inj h⟩

/-- A stack in which one service waits for the health of another, and for a task to complete. -/
theorem validateRaw_invariant_stack : ∃ host raw sourcePath config warnings,
    validateRaw host raw sourcePath = .ok (config, warnings) ∧
      config.startOrder = [⟨"db"⟩, ⟨"migrate"⟩, ⟨"api"⟩] ∧ config.Invariant := by
  let host : Host := {
    vars := .ofList [("PATH", "/bin")]
    parseDuration := fun s => if s = "500ms" then .ok (.ofMillis 500) else .error "invalid number"
    canonicalize := .ok
    pathExists := fun path => path = "/srv"
    isDir := fun path => path = "/srv"
    isFile := fun path => path = "/bin/run"
    readToString := fun _ => .error "No such file or directory (os error 2)" }
  let service : RawService := {
    origin := none, command := ["run", "$\x7bPATH\x7d"], cwd := none, env := ∅, envFile := none
    dependsOn := none, profiles := [], autostart := true, restart := .onFailure
    restartDelay := some "500ms", restartMaxDelay := none, maxRestarts := none, stableAfter := none
    shutdownSignal := some "int", shutdownTimeout := none, health := none, logs := none
    watch := none }
  let health : RawHealthCheck := {
    command := none, http := none, tcp := some "localhost:5432", interval := some "500ms"
    timeout := none, retries := some 5, startPeriod := none, onUnhealthy := none }
  let conditions : List (String × RawDependency) :=
    [("db", ⟨some "service_healthy"⟩), ("migrate", ⟨some "service_completed_successfully"⟩)]
  let services : List (String × RawService) :=
    [("api", { service with dependsOn := some (.detailed (.ofList conditions)), restart := .always }),
      ("db", { service with health := some health }),
      ("migrate", { service with dependsOn := some (.names ["db"]) })]
  let raw : RawConfig := {
    version := 1
    project := {
      name := "shop", env := ∅, envFile := none
      logs := some { dir := none, maxSize := some "64KiB", maxFiles := none } }
    services := .ofList services }
  have horder : (validateRaw host raw "/srv/servicrab.toml").toOption.map
      (fun loaded => loaded.1.startOrder) = some [⟨"db"⟩, ⟨"migrate"⟩, ⟨"api"⟩] := by decide +kernel
  obtain ⟨config, warnings, hvalidate, hconfig⟩ :=
    exists_accepted (fun config => config.startOrder) horder
  exact ⟨host, raw, _, config, warnings, hvalidate, hconfig,
    validateRaw_invariant host raw _ config warnings hvalidate⟩

/-- What the supervisor relies on holds of every configuration that was accepted. -/
theorem LoadedConfig.Invariant.valid (h : config.Invariant) : config.Valid where
  keyed := fun entry hentry =>
    (h.named entry.1 entry.2 (ExtTreeMap.mem_toList_iff_getElem?_eq_some.mp hentry)).1
  nodup_startOrder := h.perm.nodup_iff.mpr ExtTreeMap.nodup_keys
  declared := fun _ hname => ExtTreeMap.mem_keys.mp (h.perm.mem_iff.mp hname)

/-! ### A stack -/

/-- A host on which `/bin/run` can be run in `/srv`. -/
def exampleHost : Host where
  vars := .ofList [("PATH", "/bin")]
  parseDuration s := if s = "500ms" then .ok (.ofMillis 500) else .error "invalid number"
  canonicalize := .ok
  pathExists path := path = "/srv"
  isDir path := path = "/srv"
  isFile path := path = "/bin/run"
  readToString _ := .error "No such file or directory (os error 2)"

/-- A service that runs `/bin/run`. -/
def exampleService : RawService where
  origin := none
  command := ["run"]
  cwd := none
  env := ∅
  envFile := none
  dependsOn := none
  profiles := []
  autostart := true
  restart := .onFailure
  restartDelay := some "500ms"
  restartMaxDelay := none
  maxRestarts := none
  stableAfter := none
  shutdownSignal := none
  shutdownTimeout := none
  health := none
  logs := none
  watch := none

/-- A database, an api in front of it and a web server in front of that; a cache that nothing needs,
and a debugger that is only started with the profile `dev`. -/
def exampleStack : RawConfig where
  version := 1
  project := { name := "shop", env := ∅, envFile := none, logs := none }
  services := .ofList <|
    let services : List (String × RawService) :=
      [("api", { exampleService with dependsOn := some (.names ["db"]) }),
        ("cache", { exampleService with restart := .unlessStopped }),
        ("db", { exampleService with restart := .unlessStopped }),
        ("debug", { exampleService with
          profiles := ["dev"], dependsOn := some (.names ["cache"]) }),
        ("web", { exampleService with dependsOn := some (.names ["api"]) })]
    services

end Config

end Servicrab
