import Servicrab.Core.Selection
import Servicrab.Daemon.Stopped
import Servicrab.Supervisor.Steps

/-!
# The services that are held back

As the daemon starts, it leaves those services stopped that were stopped by hand and ask for it, and
with them whatever depends on them (`stopped.rs`). They are found in one pass over the plan, in which
a service comes after all that it depends on. Since a plan holds the dependencies of its services
too, what is started depends on nothing that is held back.

## Main definitions

* `Stopped.heldBack`.
* `Stopped.HoldsBack`: the sets of planned services that may be held back together.

## Main results

* `boot_initial`: what is spawned as the supervisor starts.
* `Stopped.heldBack_spec`: the least such set is held back.
-/

open Std (ExtTreeSet ExtTreeMap)

namespace Servicrab

namespace Stopped

/-- The planned services to leave stopped: those that are remembered and ask for it, and their
dependents. -/
def heldBack (config : Config) (plan : List ServiceName) (remembered : ExtTreeSet String) :
    Finset ServiceName :=
  let seeds := ((plan.filter fun name => name.raw ∈ remembered).filter fun name =>
    config.services[name]?.any fun service => service.restart == .unlessStopped).toFinset
  if seeds = ∅ then ∅ else withDependents config plan seeds

/-- A set of planned services that holds those that are remembered and have
`restart = "unless-stopped"`, and every planned service that depends on one of it. -/
structure HoldsBack (config : Config) (plan : List ServiceName) (remembered : ExtTreeSet String)
    (s : Set ServiceName) : Prop where
  planned : ∀ name ∈ s, name ∈ plan
  seed : ∀ name ∈ plan, name.raw ∈ remembered →
    ∀ service, config.services[name]? = some service → service.restart = .unlessStopped → name ∈ s
  dependent : ∀ name ∈ plan, ∀ dep ∈ s, config.DependsOn name dep → name ∈ s

section

variable {config : Config} {plan : List ServiceName} {remembered : ExtTreeSet String}

/-- The set that is held back is the least one. -/
theorem isLeast_heldBack (horder : DependencyOrder config.DependsOn plan) :
    IsLeast {s | HoldsBack config plan remembered s}
      (heldBack config plan remembered : Set ServiceName) := by
  let seeds : Set ServiceName := {name | name ∈ plan ∧ name.raw ∈ remembered ∧ ∃ service,
    config.services[name]? = some service ∧ service.restart = .unlessStopped}
  let R (dep name : ServiceName) : Prop := name ∈ plan ∧ config.DependsOn name dep
  have hseeds : ∀ name, name ∈ ((plan.filter fun name => name.raw ∈ remembered).filter fun name =>
      config.services[name]?.any fun service => service.restart == .unlessStopped).toFinset ↔
        name ∈ seeds := by
    intro name
    simp only [List.mem_toFinset, List.mem_filter, decide_eq_true_eq, Option.any_eq_true,
      beq_iff_eq, and_assoc, seeds, Set.mem_ofPred_eq]
  have hmem : (heldBack config plan remembered : Set ServiceName) = Closure.reached R seeds := by
    ext name
    rw [Finset.mem_coe, heldBack]
    split_ifs with hempty
    · refine ⟨fun hname => absurd hname (Finset.notMem_empty name), ?_⟩
      rintro ⟨seed, hseed, -⟩
      rw [← hseeds, hempty] at hseed
      exact absurd hseed (Finset.notMem_empty seed)
    · rw [mem_withDependents horder]
      simp only [hseeds]
      have hplanned : {name | name ∈ seeds ∧ name ∈ plan} = seeds :=
        Set.ext fun name => and_iff_left_of_imp And.left
      rw [hplanned]
  have hleast := Closure.isLeast_reached R seeds
  rw [hmem]
  constructor
  · constructor
    case planned =>
      intro name hname
      rcases Closure.mem_reached_iff.mp hname with hseed | ⟨dep, -, hplan, -⟩
      · exact hseed.1
      · exact hplan
    case seed =>
      exact fun name hplan hremembered service hservice hrestart =>
        hleast.1.1 ⟨hplan, hremembered, service, hservice, hrestart⟩
    case dependent =>
      exact fun name hplan dep hdep hdepends => hleast.1.2 dep hdep name ⟨hplan, hdepends⟩
  · intro s hs
    refine hleast.2 ⟨?_, fun dep hdep name hname => hs.dependent name hname.1 dep hdep hname.2⟩
    rintro name ⟨hplan, hremembered, service, hservice, hrestart⟩
    exact hs.seed name hplan hremembered service hservice hrestart

/-- What is planned and not held back depends on nothing that is, directly or not. -/
theorem HoldsBack.notMem_of_transGen {s : Set ServiceName} (hs : HoldsBack config plan remembered s)
    (hclosed : ∀ name ∈ plan, ∀ dep, config.DependsOn name dep → dep ∈ plan) {name dep : ServiceName}
    (hdep : Relation.TransGen config.DependsOn name dep) (hplan : name ∈ plan) (hname : name ∉ s) :
    dep ∉ s := by
  induction hdep using Relation.TransGen.head_induction_on with
  | single hdirect => exact fun hmem => hname (hs.dependent _ hplan _ hmem hdirect)
  | head hdirect _ ih =>
    exact ih (hclosed _ hplan _ hdirect) fun hmem => hname (hs.dependent _ hplan _ hmem hdirect)

end

end Stopped

/-! ### What is started -/

section Initial

variable {options : StackOptions} {config : ValidConfig} {plan : List ServiceName}
  {stopped : Finset ServiceName}

/-- Each slot is for the service it is filed under, and each task for a planned service that is not
held back. -/
structure Boot (plan : List ServiceName) (stopped : Finset ServiceName) (w : Stack) : Prop where
  named : ∀ (name : ServiceName) (slot : Slot), w.slots[name]? = some slot → slot.service.name = name
  task : ∀ task ∈ w.tasks, task.service.name ∈ plan ∧ task.service.name ∉ stopped

variable {w : Stack} {name : ServiceName}

theorem Boot.insertPlanned (h : Boot plan stopped w) : Boot plan stopped (w.insertPlanned name) := by
  rw [Stack.insertPlanned]
  cases hservice : w.config.1.services[name]? with
  | none => exact h
  | some service =>
    constructor
    · intro other slot hslot
      simp only [Stack.insertSlot, TreeMap.getElem?_insert, Stack.slots_debugAssert] at hslot
      split_ifs at hslot with hother
      · cases hslot
        exact (w.config.2.name_eq hservice).trans hother.symm
      · exact h.named other slot hslot
    · intro task htask
      simp only [Stack.insertSlot, Stack.tasks_debugAssert] at htask
      exact h.task task htask

theorem Boot.rewireDependencies (h : Boot plan stopped w) :
    Boot plan stopped w.rewireDependencies := by
  refine ⟨fun name slot hslot => ?_, h.task⟩
  rw [Stack.rewireDependencies, ExtTreeMap.getElem?_map] at hslot
  obtain ⟨before, hbefore, rfl⟩ := Option.map_eq_some_iff.mp hslot
  rw [← h.named name before hbefore]
  split <;> rfl

theorem Boot.startService (h : Boot plan stopped w) (hplan : name ∈ plan) :
    Boot plan stopped (w.startService stopped name) := by
  rw [Stack.startService]
  split_ifs with hstopped
  · refine ⟨fun other slot hslot => ?_, ?_⟩
    · rw [Stack.getElem?_publishStopped] at hslot
      exact h.named other slot hslot
    · rw [Stack.publishStopped]
      split <;> exact h.task
  · cases hslot : w.slots[name]? with
    | none => exact h
    | some slot =>
      have hname : slot.service.name = name := h.named name slot hslot
      constructor
      · intro other found hfound
        simp only [Stack.spawn, TreeMap.getElem?_insert] at hfound
        split_ifs at hfound with hother
        · cases hfound
          exact hname.trans hother.symm
        · exact h.named other found hfound
      · intro task htask
        rcases List.mem_append.mp htask with htask | htask
        · exact h.task task htask
        · rw [List.mem_singleton.mp htask]
          exact ⟨hname.symm ▸ hplan, hname.symm ▸ hstopped⟩

/-- **What is spawned** as the supervisor starts is planned, and not held back. -/
theorem boot_initial : Boot plan stopped (Stack.initial options config plan stopped) := by
  have hempty : Boot plan stopped (.empty options config plan) :=
    ⟨fun name slot hslot => by simp [Stack.empty] at hslot, fun task htask => nomatch htask⟩
  have hslots : Boot plan stopped (plan.foldl Stack.insertPlanned (.empty options config plan)) :=
    List.foldlRecOn (motive := Boot plan stopped) plan Stack.insertPlanned hempty
      fun _ hw _ _ => hw.insertPlanned
  exact List.foldlRecOn (motive := Boot plan stopped) plan (Stack.startService · stopped)
    hslots.rewireDependencies fun _ hw _ hname => hw.startService hname

end Initial

/-- **What is held back.** With a configuration that was accepted and a plan for it, the least set of
planned services is held back that holds those that were stopped by hand and ask for it, and with
each service the planned ones that depend on it; so that what is started, and what each task is
spawned for as the supervisor starts, depends on nothing that is held back. -/
theorem Stopped.heldBack_spec (host : Host) (raw : RawConfig) (sourcePath : String)
    (config : LoadedConfig) (warnings : List ConfigWarning)
    (haccepted : validateRaw host raw sourcePath = .ok (config, warnings)) (selection : Selection)
    (plan : List ServiceName) (hplan : planStack config.toConfig selection = .ok plan)
    (remembered : ExtTreeSet String) :
    let held := heldBack config.toConfig plan remembered
    IsLeast {s | HoldsBack config.toConfig plan remembered s} (held : Set ServiceName) ∧
      (∀ name ∈ plan, name ∉ held → ∀ dep, Relation.TransGen config.DependsOn name dep →
        dep ∉ held) ∧
      ∀ options (hvalid : config.toConfig.Valid),
        ∀ task ∈ (Stack.initial options ⟨config.toConfig, hvalid⟩ plan held).tasks,
          ∀ dep, Relation.TransGen config.DependsOn task.service.name dep → dep ∉ held := by
  have hspec := (invariant_of_validateRaw haccepted).isPlanOf hplan
  have hleast : IsLeast {s | HoldsBack config.toConfig plan remembered s}
      (heldBack config.toConfig plan remembered : Set ServiceName) := isLeast_heldBack hspec.order
  have hstarted : ∀ name ∈ plan, name ∉ heldBack config.toConfig plan remembered → ∀ dep,
      Relation.TransGen config.DependsOn name dep →
        dep ∉ heldBack config.toConfig plan remembered :=
    fun name hname hnot dep hdep =>
      hleast.1.notMem_of_transGen (fun name hname dep => hspec.least.1.2 name hname dep) hdep hname
        hnot
  refine ⟨hleast, hstarted, fun options hvalid task htask => ?_⟩
  obtain ⟨hname, hnot⟩ := boot_initial.task task htask
  exact hstarted task.service.name hname hnot

/-- The database was stopped by hand, so that the api and the web server are not started either. The
service that is remembered and not planned makes no difference. -/
theorem Stopped.heldBack_spec_db : ∃ config warnings,
    validateRaw exampleHost exampleStack "/srv/servicrab.toml" = .ok (config, warnings) ∧
      ∃ plan, planStack config.toConfig { services := [], profiles := [] } = .ok plan ∧
        heldBack config.toConfig plan (.ofList ["db", "debug"]) = {⟨"db"⟩, ⟨"api"⟩, ⟨"web"⟩} ∧
          ∀ dep, Relation.TransGen config.DependsOn ⟨"cache"⟩ dep →
            dep ∉ heldBack config.toConfig plan (.ofList ["db", "debug"]) := by
  let plan : List ServiceName := [⟨"cache"⟩, ⟨"db"⟩, ⟨"api"⟩, ⟨"web"⟩]
  let remembered : ExtTreeSet String := .ofList ["db", "debug"]
  let read (config : LoadedConfig) : Bool :=
    (planStack config.toConfig { services := [], profiles := [] }).toOption = some plan ∧
      heldBack config.toConfig plan remembered = {⟨"db"⟩, ⟨"api"⟩, ⟨"web"⟩}
  have hread : (validateRaw exampleHost exampleStack "/srv/servicrab.toml").toOption.map
      (fun loaded => read loaded.1) = some true := by decide +kernel
  obtain ⟨config, warnings, haccepted, hconfig⟩ := exists_accepted read hread
  obtain ⟨hfound, hheld⟩ := of_decide_eq_true hconfig
  have hplan := Fallible.eq_ok_of_toOption hfound
  obtain ⟨-, hstarted, -⟩ := heldBack_spec _ _ _ config warnings haccepted _ plan hplan remembered
  refine ⟨config, warnings, haccepted, plan, hplan, hheld, hstarted ⟨"cache"⟩ (by decide) ?_⟩
  rw [hheld]
  decide

end Servicrab
