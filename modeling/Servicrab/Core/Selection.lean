import Mathlib.Data.Finset.Card
import Servicrab.Config.Valid
import Servicrab.Core.Plan
import Servicrab.Library.Closure
import Servicrab.Library.Fallible

/-!
# What a plan holds

A stack command starts some services, the roots, and everything that these depend on (`plan.rs`).
The plan is the start order without the other services. So with a configuration that was accepted,
it is an order of the least set that holds the roots and is closed under dependencies.

## Main definitions

* `Selection.IsRoot`: the services that are asked for.
* `Selection.Valid`: a selection that there is a plan for.
* `IsPlanOf`: the services of a plan are the least closed set, each after its dependencies.
* `withDependents`: some services with all that depend on them.

## Main results

* `collectWithDependencies_spec`: what is added from one service, on top of what was added before.
* `selectServices_eq_ok_iff`: the selected services are collected from the roots.
* `planStack_spec`: when there is a plan, and what it is.
* `mem_withDependents`: one pass over a plan finds all dependents.
-/

open Std (ExtTreeMap)

namespace Servicrab

open Closure (Collected closedSets)

/-- A service that is asked for: by its name or, when no service is named, because it starts with
the stack and is in no profile or in one that is enabled. -/
def Selection.IsRoot (selection : Selection) (config : Config) (name : ServiceName) : Prop :=
  if selection.services = [] then
    ∃ service, config.services[name]? = some service ∧ service.autostart ∧
      (service.profiles = [] ∨ ∃ profile ∈ service.profiles, profile ∈ selection.profiles)
  else name.raw ∈ selection.services

/-- Every profile that is named is declared by some service, every service that is named exists, and
there is a root. -/
structure Selection.Valid (selection : Selection) (config : Config) : Prop where
  profile : ∀ profile ∈ selection.profiles, ∃ name service,
    config.services[(name : ServiceName)]? = some service ∧ profile ∈ service.profiles
  service : ∀ requested ∈ selection.services, (⟨requested⟩ : ServiceName) ∈ config.services
  root : ∃ name, selection.IsRoot config name

/-- The services of a plan are the least set that holds the roots and is closed under dependencies;
none is there twice, and each comes after its dependencies. -/
structure IsPlanOf (selection : Selection) (config : Config) (plan : List ServiceName) : Prop where
  least : IsLeast (closedSets config.DependsOn {name | selection.IsRoot config name})
    {name | name ∈ plan}
  filtered : plan = config.startOrder.filter fun name => name ∈ plan
  nodup : plan.Nodup
  order : DependencyOrder config.DependsOn plan

/-! ### Collecting from one service -/

section Collect

variable {config : Config} {selected : Finset ServiceName} {name : ServiceName}

/-- How many declared services are not selected. -/
def unselected (config : Config) (selected : Finset ServiceName) : ℕ :=
  (config.services.keys.toFinset \ selected).card

theorem unselected_mono {s : Finset ServiceName} (h : selected ⊆ s) :
    unselected config s ≤ unselected config selected :=
  Finset.card_le_card (Finset.sdiff_subset_sdiff (Finset.Subset.refl _) h)

theorem unselected_insert_lt (hname : name ∈ config.services.keys) (hnot : name ∉ selected) :
    unselected config (insert name selected) < unselected config selected := by
  rw [unselected, Finset.sdiff_insert]
  exact Finset.card_erase_lt_of_mem
    (Finset.mem_sdiff.mpr ⟨List.mem_toFinset.mpr hname, hnot⟩)

/-- **What is added from one service**, when the depth covers the declared services that are not
selected yet. -/
theorem collectWithDependencies_spec (depth : ℕ) :
    ∀ {name : ServiceName} {selected : Finset ServiceName}, unselected config selected < depth →
      Collected config.DependsOn selected [name]
        (collectWithDependencies config depth name selected) := by
  induction depth with
  | zero => exact fun h => absurd h (Nat.not_lt_zero _)
  | succ depth ih =>
    intro name selected hdepth
    rw [collectWithDependencies]
    split_ifs with hmem
    · exact .skip config.DependsOn hmem
    · cases hservice : config.services[name]? with
      | none =>
        refine .enter (fun dep => ?_) (.nil config.DependsOn (insert name selected))
        simp [Config.DependsOn, hservice]
      | some service =>
        have hkeys : name ∈ config.services.keys := TreeMap.mem_keys_iff_exists.mpr ⟨_, hservice⟩
        have hless := unselected_insert_lt hkeys hmem
        have hdeps : ∀ dep, dep ∈ service.dependsOn.map Dependency.service ↔
            config.DependsOn name dep := by
          simp [Config.DependsOn, hservice]
        have hloop : Collected config.DependsOn selected [name]
            ((service.dependsOn.map Dependency.service).foldl
              (fun selected dep => collectWithDependencies config depth dep selected)
              (insert name selected)) := by
          refine .enter hdeps (.foldl fun dep _ s hs => ih ?_)
          have hmono : unselected config s ≤ unselected config (insert name selected) :=
            unselected_mono hs
          omega
        rwa [List.foldl_map] at hloop

end Collect

/-! ### The roots -/

section Roots

variable {config : Config} {selection : Selection} {selected : Finset ServiceName}

/-- The roots in the order in which the loop goes through them. -/
def Selection.roots (selection : Selection) (config : Config) : List ServiceName :=
  if selection.services.isEmpty then
    (config.services.toList.filter fun entry =>
      entry.2.autostart && selection.enabled entry.2).map Prod.fst
  else selection.services.map ServiceName.mk

theorem Selection.mem_roots {name : ServiceName} :
    name ∈ selection.roots config ↔ selection.IsRoot config name := by
  rw [roots, IsRoot]
  by_cases hnone : selection.services = []
  · rw [if_pos hnone, if_pos (List.isEmpty_iff.mpr hnone)]
    simp only [List.mem_map, List.mem_filter, Bool.and_eq_true, Selection.enabled, Bool.or_eq_true,
      List.isEmpty_iff, List.any_eq_true, decide_eq_true_eq]
    constructor
    · rintro ⟨⟨other, service⟩, ⟨hmem, hauto, henabled⟩, rfl⟩
      exact ⟨service, ExtTreeMap.mem_toList_iff_getElem?_eq_some.mp hmem, hauto, henabled⟩
    · rintro ⟨service, hservice, hauto, henabled⟩
      exact ⟨(name, service), ⟨ExtTreeMap.mem_toList_iff_getElem?_eq_some.mpr hservice, hauto,
        henabled⟩, rfl⟩
  · rw [if_neg hnone, if_neg (mt List.isEmpty_iff.mp hnone), List.mem_map]
    constructor
    · rintro ⟨requested, hmem, rfl⟩
      exact hmem
    · exact fun hmem => ⟨name.raw, hmem, rfl⟩

/-- A service is found under its name. -/
theorem lookupService_eq_ok_iff {requested : String} {service : Service} :
    lookupService config requested = .ok service ↔
      config.services[(⟨requested⟩ : ServiceName)]? = some service := by
  rw [lookupService]
  cases hfind : config.services.toList.find? fun entry => entry.1.raw == requested with
  | none =>
    have hnone : config.services[(⟨requested⟩ : ServiceName)]? ≠ some service := by
      intro hservice
      have hmem := ExtTreeMap.mem_toList_iff_getElem?_eq_some.mpr hservice
      simpa using List.find?_eq_none.mp hfind _ hmem
    simp [hnone]
  | some entry =>
    obtain ⟨⟨name⟩, other⟩ := entry
    have hmem := ExtTreeMap.mem_toList_iff_getElem?_eq_some.mp (List.mem_of_find?_eq_some hfind)
    obtain rfl : name = requested := by simpa using List.find?_some hfind
    simp [hmem]

/-- A loop over names that looks each of them up. -/
theorem foldlM_lookupService (hvalid : config.Valid)
    (collect : ServiceName → Finset ServiceName → Finset ServiceName) (names : List String) :
    ∀ start : Finset ServiceName,
      names.foldlM (fun selected requested => do
          let service ← lookupService config requested
          return collect service.name selected) start = .ok selected ↔
        (∀ requested ∈ names, (⟨requested⟩ : ServiceName) ∈ config.services) ∧
          selected = (names.map ServiceName.mk).foldl (fun s name => collect name s) start := by
  induction names with
  | nil =>
    intro start
    simp only [List.foldlM_nil, List.map_nil, List.foldl_nil, List.not_mem_nil, false_implies,
      implies_true, true_and]
    exact ⟨fun h => (Except.ok.inj h).symm, fun h => congrArg Except.ok h.symm⟩
  | cons requested names ih =>
    intro start
    rw [List.foldlM_cons, List.forall_mem_cons, List.map_cons, List.foldl_cons]
    cases hlookup : lookupService config requested with
    | error problem =>
      have hnot : (⟨requested⟩ : ServiceName) ∉ config.services := by
        intro hmem
        obtain ⟨service, hservice⟩ :=
          TreeMap.mem_keys_iff_exists.mp (ExtTreeMap.mem_keys.mpr hmem)
        rw [lookupService_eq_ok_iff.mpr hservice] at hlookup
        cases hlookup
      simp [hnot, bind, Except.bind]
    | ok service =>
      have hservice := lookupService_eq_ok_iff.mp hlookup
      have hmem : (⟨requested⟩ : ServiceName) ∈ config.services :=
        ExtTreeMap.mem_keys.mp (TreeMap.mem_keys_iff_exists.mpr ⟨service, hservice⟩)
      rw [← hvalid.name_eq hservice]
      exact (ih (collect service.name start)).trans (by simp [hvalid.name_eq hservice, hmem])

/-- **The selected services** are collected from the roots, if those that are named exist. -/
theorem selectServices_eq_ok_iff (hvalid : config.Valid) :
    selectServices config selection = .ok selected ↔
      (∀ requested ∈ selection.services, (⟨requested⟩ : ServiceName) ∈ config.services) ∧
        selected = (selection.roots config).foldl (fun selected name =>
          collectWithDependencies config (config.services.size + 1) name selected) ∅ := by
  rw [selectServices, Selection.roots]
  by_cases hnone : selection.services = []
  · rw [if_pos (List.isEmpty_iff.mpr hnone), if_pos (List.isEmpty_iff.mpr hnone), List.foldl_map,
      List.foldl_filter, hnone]
    simp only [List.not_mem_nil, false_implies, implies_true, true_and]
    exact ⟨fun h => (Except.ok.inj h).symm, fun h => congrArg Except.ok h.symm⟩
  · rw [if_neg (mt List.isEmpty_iff.mp hnone), if_neg (mt List.isEmpty_iff.mp hnone)]
    exact foldlM_lookupService hvalid
      (collectWithDependencies config (config.services.size + 1)) selection.services ∅

/-- When there is a plan, and what the selected services leave of the start order. -/
theorem planStack_eq_ok_iff {plan : List ServiceName} :
    planStack config selection = .ok plan ↔
      (∀ profile ∈ selection.profiles, ∃ name service,
        config.services[(name : ServiceName)]? = some service ∧ profile ∈ service.profiles) ∧
      ∃ selected, selectServices config selection = .ok selected ∧ selected ≠ ∅ ∧
        plan = config.startOrder.filter fun name => name ∈ selected := by
  have hdeclared : ∀ profile : String,
      (config.services.toList.any fun entry => decide (profile ∈ entry.2.profiles)) = true ↔
        ∃ name service, config.services[(name : ServiceName)]? = some service ∧
          profile ∈ service.profiles := by
    intro profile
    simp only [List.any_eq_true, decide_eq_true_eq, Prod.exists,
      ExtTreeMap.mem_toList_iff_getElem?_eq_some]
  rw [planStack]
  cases hfind : selection.profiles.find? fun profile =>
      !config.services.toList.any fun entry => decide (profile ∈ entry.2.profiles) with
  | some profile =>
    have hunknown := List.find?_some hfind
    have hnot : ¬ ∃ name service, config.services[(name : ServiceName)]? = some service ∧
        profile ∈ service.profiles := by
      rw [← hdeclared profile]
      simpa using hunknown
    constructor
    · exact fun h => nomatch h
    · exact fun h => absurd (h.1 profile (List.mem_of_find?_eq_some hfind)) hnot
  | none =>
    have hprofiles : ∀ profile ∈ selection.profiles, ∃ name service,
        config.services[(name : ServiceName)]? = some service ∧ profile ∈ service.profiles := by
      intro profile hprofile
      rw [← hdeclared profile]
      simpa using List.find?_eq_none.mp hfind profile hprofile
    rw [and_iff_right hprofiles]
    cases hselect : selectServices config selection with
    | error problem => simp [bind, Except.bind]
    | ok selected =>
      by_cases hempty : selected = ∅
      · simp [bind, Except.bind, hempty, throw, throwThe, MonadExceptOf.throw]
      · simp [bind, Except.bind, hempty, pure, Except.pure, eq_comm]

end Roots

/-! ### The plan -/

section Accepted

variable {config : LoadedConfig} {selection : Selection} {plan : List ServiceName}

/-- A dependency of a service is declared. -/
theorem LoadedConfig.Invariant.mem_of_dependsOn (h : config.Invariant) {name dep : ServiceName}
    (hdep : config.DependsOn name dep) : dep ∈ config.services := by
  obtain ⟨service, hservice, hmem⟩ := hdep
  obtain ⟨entry, hentry, rfl⟩ := List.mem_map.mp hmem
  obtain ⟨-, target, htarget, -⟩ := h.dependency name service hservice entry hentry
  exact ExtTreeMap.mem_keys.mp (TreeMap.mem_keys_iff_exists.mpr ⟨target, htarget⟩)

/-- The roots are declared, if those that are named exist. -/
theorem Selection.IsRoot.mem {config : Config} {name : ServiceName}
    (hservice : ∀ requested ∈ selection.services, (⟨requested⟩ : ServiceName) ∈ config.services)
    (h : selection.IsRoot config name) : name ∈ config.services := by
  rw [IsRoot] at h
  split_ifs at h with hnone
  · obtain ⟨service, hget, -⟩ := h
    exact ExtTreeMap.mem_keys.mp (TreeMap.mem_keys_iff_exists.mpr ⟨service, hget⟩)
  · exact hservice name.raw h

/-- What is collected from the roots is the least closed set. -/
theorem isLeast_of_selectServices {config : Config} {selected : Finset ServiceName}
    (hvalid : config.Valid) (h : selectServices config selection = .ok selected) :
    IsLeast (closedSets config.DependsOn {name | selection.IsRoot config name})
      (selected : Set ServiceName) := by
  obtain ⟨-, rfl⟩ := (selectServices_eq_ok_iff hvalid).mp h
  have hcover : ∀ s : Finset ServiceName, unselected config s < config.services.size + 1 := by
    intro s
    have hcard : unselected config s ≤ config.services.keys.toFinset.card :=
      Finset.card_le_card Finset.sdiff_subset
    have hlength := List.toFinset_card_le config.services.keys
    rw [ExtTreeMap.length_keys] at hlength
    omega
  have hcollected : Collected config.DependsOn ∅ (selection.roots config)
      ((selection.roots config).foldl (fun selected name =>
        collectWithDependencies config (config.services.size + 1) name selected) ∅) :=
    .foldl fun name _ s _ => collectWithDependencies_spec _ (hcover s)
  have hleast := hcollected.isLeast
  simp only [Selection.mem_roots] at hleast
  exact hleast

/-- What a plan holds, in a configuration with the invariant. -/
theorem LoadedConfig.Invariant.isPlanOf (h : config.Invariant)
    (hplan : planStack config.toConfig selection = .ok plan) :
    IsPlanOf selection config.toConfig plan := by
  obtain ⟨-, selected, hselect, -, hfilter⟩ := planStack_eq_ok_iff.mp hplan
  have hleast := isLeast_of_selectServices h.valid hselect
  have hservice := ((selectServices_eq_ok_iff h.valid).mp hselect).1
  -- The declared services are closed, so that the least set is among them.
  have hdeclared : (selected : Set ServiceName) ⊆ {name | name ∈ config.services} :=
    hleast.2 ⟨fun name hroot => Selection.IsRoot.mem hservice hroot,
      fun _ _ _ hdep => h.mem_of_dependsOn hdep⟩
  have hmem : ∀ name, name ∈ plan ↔ name ∈ selected := by
    intro name
    rw [hfilter, List.mem_filter, decide_eq_true_eq]
    refine and_iff_right_of_imp fun hname => ?_
    exact h.perm.mem_iff.mpr (ExtTreeMap.mem_keys.mpr (hdeclared hname))
  have hset : {name | name ∈ plan} = (selected : Set ServiceName) := Set.ext hmem
  have horder : DependencyOrder config.DependsOn plan := by
    intro pre name post hsplit dep hdep
    have hname : name ∈ selected := (hmem name).mp (by simp [hsplit])
    have hdep' : dep ∈ selected := hleast.1.2 name hname dep hdep
    have hfiltered := h.order.filter fun name => decide (name ∈ selected)
    rw [← hfilter] at hfiltered
    exact hfiltered pre name post hsplit dep ⟨hdep, decide_eq_true hdep'⟩
  constructor
  case least => rwa [hset]
  case filtered =>
    simp only [hmem]
    exact hfilter
  case nodup =>
    rw [hfilter]
    exact h.valid.nodup_startOrder.filter _
  case order => exact horder

/-- There is a plan for every selection that is valid, and for no other. -/
theorem LoadedConfig.Invariant.exists_plan_iff (h : config.Invariant) :
    (∃ plan, planStack config.toConfig selection = .ok plan) ↔
      selection.Valid config.toConfig := by
  constructor
  · rintro ⟨plan, hplan⟩
    obtain ⟨hprofile, selected, hselect, hne, -⟩ := planStack_eq_ok_iff.mp hplan
    obtain ⟨hservice, hcollect⟩ := (selectServices_eq_ok_iff h.valid).mp hselect
    refine ⟨hprofile, hservice, ?_⟩
    by_contra hnone
    have hroots : selection.roots config.toConfig = [] :=
      List.eq_nil_iff_forall_not_mem.mpr fun name hname =>
        hnone ⟨name, Selection.mem_roots.mp hname⟩
    rw [hroots] at hcollect
    exact hne hcollect
  · rintro ⟨hprofile, hservice, root, hroot⟩
    have hselect : selectServices config.toConfig selection = .ok _ :=
      (selectServices_eq_ok_iff h.valid).mpr ⟨hservice, rfl⟩
    have hmem := (isLeast_of_selectServices h.valid hselect).1.1 hroot
    exact ⟨_, planStack_eq_ok_iff.mpr ⟨hprofile, _, hselect, Finset.ne_empty_of_mem hmem, rfl⟩⟩

/-- **The plan.** With a configuration that was accepted, there is a plan if and only if every
profile that is named is declared, every service that is named exists, and there is a root; and it is
the start order of the least set that holds the roots and is closed under dependencies. -/
theorem planStack_spec (host : Host) (raw : RawConfig) (sourcePath : String)
    (config : LoadedConfig) (warnings : List ConfigWarning)
    (haccepted : validateRaw host raw sourcePath = .ok (config, warnings)) (selection : Selection) :
    ((∃ plan, planStack config.toConfig selection = .ok plan) ↔
        selection.Valid config.toConfig) ∧
      ∀ plan, planStack config.toConfig selection = .ok plan →
        IsPlanOf selection config.toConfig plan := by
  have hinvariant := invariant_of_validateRaw haccepted
  exact ⟨hinvariant.exists_plan_iff, fun _ hplan => hinvariant.isPlanOf hplan⟩

/-- The debugger is started with its profile, and with the cache that it needs. -/
theorem planStack_spec_dev : ∃ config warnings,
    validateRaw exampleHost exampleStack "/srv/servicrab.toml" = .ok (config, warnings) ∧
      planStack config.toConfig { services := ["debug"], profiles := ["dev"] } =
        .ok [⟨"cache"⟩, ⟨"debug"⟩] ∧
      Selection.Valid { services := ["debug"], profiles := ["dev"] } config.toConfig ∧
        IsPlanOf { services := ["debug"], profiles := ["dev"] } config.toConfig
          [⟨"cache"⟩, ⟨"debug"⟩] := by
  let selection : Selection := { services := ["debug"], profiles := ["dev"] }
  let plan : List ServiceName := [⟨"cache"⟩, ⟨"debug"⟩]
  let read (config : LoadedConfig) : Bool :=
    (planStack config.toConfig selection).toOption = some plan
  have hread : (validateRaw exampleHost exampleStack "/srv/servicrab.toml").toOption.map
      (fun loaded => read loaded.1) = some true := by decide +kernel
  obtain ⟨config, warnings, haccepted, hconfig⟩ := exists_accepted read hread
  have hplan := Fallible.eq_ok_of_toOption (of_decide_eq_true hconfig)
  obtain ⟨hvalid, hspec⟩ := planStack_spec _ _ _ config warnings haccepted selection
  exact ⟨config, warnings, haccepted, hplan, hvalid.mp ⟨plan, hplan⟩, hspec plan hplan⟩

end Accepted

/-! ### Dependents -/

/-- The planned ones of some services, and every planned service that depends on one of them, found
in one pass over the plan. -/
def withDependents (config : Config) (plan : List ServiceName) (seeds : Finset ServiceName) :
    Finset ServiceName :=
  plan.foldl (fun held name =>
    match config.services[name]? with
    | none => held
    | some service =>
      if service.dependsOn.any fun dep => dep.service ∈ held then insert name held else held)
    (seeds.filter fun name => name ∈ plan)

/-- **One pass is enough**, since a service comes after all that it depends on in a plan. -/
theorem mem_withDependents {config : Config} {plan : List ServiceName} {seeds : Finset ServiceName}
    (horder : DependencyOrder config.DependsOn plan) (name : ServiceName) :
    name ∈ withDependents config plan seeds ↔
      name ∈ Closure.reached (fun dep name => name ∈ plan ∧ config.DependsOn name dep)
        {name | name ∈ seeds ∧ name ∈ plan} := by
  rw [withDependents, Closure.mem_foldl_dependents horder]
  · simp only [Finset.coe_filter]
  · intro held name _ other
    have hdepends : (∃ dep ∈ held, config.DependsOn name dep) ↔ ∃ service,
        config.services[name]? = some service ∧
          (service.dependsOn.any fun dep => decide (dep.service ∈ held)) = true := by
      simp only [Config.DependsOn, List.any_eq_true, List.mem_map, decide_eq_true_eq]
      constructor
      · rintro ⟨dep, hdep, service, hservice, entry, hentry, rfl⟩
        exact ⟨service, hservice, entry, hentry, hdep⟩
      · rintro ⟨service, hservice, entry, hentry, hdep⟩
        exact ⟨entry.service, hdep, service, hservice, entry, hentry, rfl⟩
    rw [hdepends]
    cases config.services[name]? with
    | none => simp
    | some service =>
      by_cases hany : (service.dependsOn.any fun dep => decide (dep.service ∈ held)) = true
      · simp only [hany, if_true, Finset.mem_insert, Option.some.injEq, exists_eq_left', and_true]
        exact or_comm
      · simp only [hany, if_false, Option.some.injEq, exists_eq_left', and_false, or_false,
          Bool.false_eq_true]

end Servicrab
