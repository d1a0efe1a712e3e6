import Servicrab.Core.Error
import Mathlib.Data.Finset.Insert

/-!
# The start plan

Which services a stack command starts, and in which order (`plan.rs`). The plan is the start order
of the configuration, restricted to the selected services and their transitive dependencies; so it
inherits from the start order that it names no service twice and declared services only.

## Main definitions

* `Selection`, `planStack`.
* `StartPlan`: a plan made by `planStack`.

## Main results

* `StartPlan.nodup`, `StartPlan.exists_service`.
-/

namespace Servicrab

/-- `[String]::join(", ")`. -/
def commaSeparated (items : List String) : String := ", ".intercalate items

/-- Comma-separated list of configured service names, for error messages. -/
def knownServices (config : Config) : String :=
  if config.services.isEmpty then "(none)"
  else commaSeparated (config.services.keys.map ServiceName.raw)

/-- The profiles the configuration declares, in order and without repetition. -/
def declaredProfiles (config : Config) : List String :=
  ((config.services.toList.flatMap fun entry => entry.2.profiles).foldl
    (fun (set : Std.ExtTreeSet String) profile => set.insert profile) ∅).toList

/-- Comma-separated list of the profiles the configuration declares. -/
def knownProfiles (config : Config) : String :=
  if (declaredProfiles config).isEmpty then "(none)"
  else commaSeparated (declaredProfiles config)

/-- What a stack command was asked to start. -/
structure Selection where
  /-- Service names given on the command line; empty means "the stack". -/
  services : List String
  /-- Profiles enabled on the command line. -/
  profiles : List String

/-- Whether `service` may be started without being named. -/
def Selection.enabled (selection : Selection) (service : Service) : Bool :=
  service.profiles.isEmpty || service.profiles.any fun profile => profile ∈ selection.profiles

/-- Resolve a single service name against the configuration. -/
def lookupService (config : Config) (requested : String) : Except RuntimeError Service :=
  match config.services.toList.find? fun entry => entry.1.raw == requested with
  | some entry => .ok entry.2
  | none => .error (.unknownService requested (knownServices config))

/-- Add a service and everything it transitively depends on. The recursion goes down into fresh
declared names only, so a depth of the number of services plus one covers it. -/
def collectWithDependencies (config : Config) :
    ℕ → ServiceName → Finset ServiceName → Finset ServiceName
  | 0, _, selected => selected
  | depth + 1, name, selected =>
    if name ∈ selected then selected
    else
      match config.services[name]? with
      | none => insert name selected
      | some service =>
        service.dependsOn.foldl
          (fun selected dep => collectWithDependencies config depth dep.service selected)
          (insert name selected)

/-- `profile "dev"` or `profiles dev, test`, for a message that reads. -/
def profileList : List String → String
  | [one] => s!"profile {Debug.str one}"
  | many => s!"profiles {commaSeparated many}"

/-- Explain an empty plan, which is always a failed command. -/
def nothingToStart (config : Config) (selection : Selection) : RuntimeError :=
  .nothingToStart <|
    if !selection.profiles.isEmpty then
      s!"no service with autostart = true is in {profileList selection.profiles}"
    else if config.services.toList.any fun entry => !entry.2.profiles.isEmpty then
      "every service with autostart = true is behind a profile; " ++
        s!"enable one with --profile (declared: {knownProfiles config})"
    else "none of the configured services have autostart = true"

/-- The services a selection pulls in, dependencies included. -/
def selectServices (config : Config) (selection : Selection) :
    Except RuntimeError (Finset ServiceName) :=
  let collect := collectWithDependencies config (config.services.size + 1)
  if selection.services.isEmpty then
    .ok <| config.services.toList.foldl
      (fun selected entry =>
        if entry.2.autostart && selection.enabled entry.2 then collect entry.1 selected
        else selected) ∅
  else
    selection.services.foldlM
      (fun selected requested => do
        let service ← lookupService config requested
        return collect service.name selected) ∅

/-- Build the start plan for a stack command. -/
def planStack (config : Config) (selection : Selection) : Except RuntimeError (List ServiceName) :=
  match selection.profiles.find? fun profile =>
      !config.services.toList.any fun entry => profile ∈ entry.2.profiles with
  | some profile => .error (.unknownProfile profile (knownProfiles config))
  | none => do
    let selected ← selectServices config selection
    if selected = ∅ then throw (nothingToStart config selection)
    return config.startOrder.filter fun name => name ∈ selected

/-- A plan made by `planStack` from a configuration. -/
abbrev StartPlan (config : Config) :=
  { plan : List ServiceName // ∃ selection, planStack config selection = .ok plan }

/-- A plan is what the selected services leave of the start order. -/
theorem planStack_eq_filter {config : Config} {selection : Selection} {plan : List ServiceName}
    (h : planStack config selection = .ok plan) :
    ∃ selected : Finset ServiceName, plan = config.startOrder.filter fun name => name ∈ selected := by
  unfold planStack at h
  split at h
  · cases h
  · cases hs : selectServices config selection with
    | error e => simp [hs, bind, Except.bind] at h
    | ok selected =>
      simp only [hs, bind, Except.bind] at h
      split at h
      · cases h
      · cases h
        exact ⟨selected, rfl⟩

/-- A plan is part of the start order. -/
theorem planStack_sublist {config : Config} {selection : Selection} {plan : List ServiceName}
    (h : planStack config selection = .ok plan) : plan.Sublist config.startOrder := by
  obtain ⟨selected, rfl⟩ := planStack_eq_filter h
  exact List.filter_sublist

namespace StartPlan

variable {config : ValidConfig} (plan : StartPlan config.1)

/-- A plan names no service twice. -/
theorem nodup : plan.1.Nodup := by
  obtain ⟨_, h⟩ := plan.2
  exact config.2.nodup_startOrder.sublist (planStack_sublist h)

/-- Every planned service is declared, under its own name. -/
theorem exists_service {name : ServiceName} (h : name ∈ plan.1) :
    ∃ service, config.1.services[name]? = some service ∧ service.name = name := by
  obtain ⟨_, hp⟩ := plan.2
  have hmem := config.2.declared name ((planStack_sublist hp).subset h)
  obtain ⟨service, hs⟩ :=
    Option.isSome_iff_exists.mp (Std.ExtTreeMap.isSome_getElem?_iff_mem.mpr hmem)
  exact ⟨service, hs, config.2.name_eq hs⟩

end StartPlan

end Servicrab
