import Servicrab.Core.Outlook
import Servicrab.Daemon.Session

/-!
# Health checks and the entries that survive a reload

An entry whose health is `none` reads as "declares no health check" to a client. The registry
decides that once, when the entry is made; `sync` keeps the entries it knows as they are. So the
entries agree with the configuration in force exactly as long as no service that is kept gains or
loses its health check, and no verdict on an earlier process of a service comes late, when a service
of that name declares no health check any more.

## Main definitions

* `TrackedRegistry`, `registrySystem`: a registry with the configuration it was last synced to.
* `TrackedRegistry.Declared`: every entry says what the configuration declares.

## Main results

* `TrackedRegistry.declared_iff`.
-/

open Std (ExtTreeMap)
open TransitionSystem (AnyStep)

namespace Servicrab

/-- A registry and the configuration and plan in force. -/
structure TrackedRegistry where
  registry : StatusRegistry
  config : ValidConfig
  plan : List ServiceName

/-- What happens to a registry: an accepted reload, or an event of the stack. -/
inductive RegistryAction
  | sync (config : ValidConfig) (plan : StartPlan config.1)
  | apply (now : Instant) (event : ServiceEvent)

namespace TrackedRegistry

variable {r r' : TrackedRegistry}

def step (r : TrackedRegistry) : RegistryAction → Option TrackedRegistry
  | .sync config plan => some
      { registry := syncRegistry r.registry config.1 plan.1, config := config, plan := plan.1 }
  | .apply now event => some { r with registry := r.registry.apply now event }

def initial (config : ValidConfig) (plan : List ServiceName) : TrackedRegistry where
  registry := initialRegistry config.1 plan
  config := config
  plan := plan

end TrackedRegistry

/-- The runs of a registry: an initial plan, any number of reloads, any events in between. -/
def registrySystem : TransitionSystem TrackedRegistry RegistryAction where
  init r := ∃ (config : ValidConfig) (plan : StartPlan config.1),
    r = TrackedRegistry.initial config plan.1
  step := TrackedRegistry.step

namespace TrackedRegistry

variable {r r' : TrackedRegistry}

/-- Every planned service has an entry, whose health is `none` exactly when the configuration in
force declares no health check for it. -/
def Declared (r : TrackedRegistry) : Prop :=
  ∀ name ∈ r.plan, ∃ entry, r.registry.services[name]? = some entry ∧
    (entry.health = .none ↔ r.config.1.hasHealth name = false)

/-- No service that a new plan keeps gains or loses its health check. -/
def KeepsDeclarations (r : TrackedRegistry) (config : Config) (plan : List ServiceName) : Prop :=
  ∀ name ∈ plan, name ∈ r.plan → config.hasHealth name = r.config.1.hasHealth name

/-- The condition on a step: no reload changes what a kept service declares, and a health verdict on
a planned service is on one that declares a health check. -/
def KeepsDeclared (r : TrackedRegistry) (action : RegistryAction) (_ : TrackedRegistry) : Prop :=
  match action with
  | .sync config plan => r.KeepsDeclarations config.1 plan.1
  | .apply _ event =>
    event.kind.isHealthVerdict → event.service ∈ r.plan → r.config.1.hasHealth event.service

/-! ### Steps -/

/-- What the registry of a run knows are the planned services. -/
theorem follows_of_reachable {C : TrackedRegistry → RegistryAction → TrackedRegistry → Prop}
    (h : registrySystem.Reachable C r) : r.registry.Follows r.plan := by
  refine h.invariant (I := fun r => r.registry.Follows r.plan) ?_ ?_
  · rintro r₀ ⟨config, plan, rfl⟩
    exact StatusRegistry.follows_initialRegistry config.1 plan.1
  · rintro u action v - hI - hstep
    cases action with
    | sync config plan =>
      cases hstep
      exact StatusRegistry.follows_syncRegistry _ _ _
    | apply now event =>
      cases hstep
      exact hI.apply now event

/-- An event leaves every entry with what the configuration declares exactly when it is no verdict on
a planned service that declares no health check. -/
theorem Declared.apply_iff (h : r.Declared) {now : Instant} {event : ServiceEvent}
    (hstep : r.step (.apply now event) = some r') :
    r'.Declared ↔ KeepsDeclared r (.apply now event) r' := by
  cases hstep
  have hentry : ∀ name, (r.registry.apply now event).services[name]? =
      if name = event.service then
        r.registry.services[name]?.map fun entry => entry.apply now event.kind
      else r.registry.services[name]? := StatusRegistry.getElem?_apply r.registry now event
  constructor
  · intro h' hverdict hplanned
    obtain ⟨entry, hs, hhealth⟩ := h event.service hplanned
    obtain ⟨entry', hs', hhealth'⟩ := h' event.service hplanned
    rw [hentry, if_pos rfl, hs, Option.map_some, Option.some.injEq] at hs'
    subst hs'
    -- A verdict leaves no entry without a health.
    have hne : (entry.apply now event.kind).health ≠ .none := by
      cases hkind : event.kind <;> simp [hkind, EventKind.isHealthVerdict, StatusEntry.apply] at *
    simpa using mt hhealth'.mpr hne
  · intro hevent name hname
    obtain ⟨entry, hs, hhealth⟩ := h name hname
    by_cases he : name = event.service
    · refine ⟨entry.apply now event.kind, by rw [hentry, if_pos he, hs, Option.map_some], ?_⟩
      by_cases hverdict : event.kind.isHealthVerdict
      · have hdeclared : r.config.1.hasHealth name = true := he ▸ hevent hverdict (he ▸ hname)
        have hne : entry.outlook.health ≠ .none := by simp [StatusEntry.outlook, hhealth, hdeclared]
        simp [StatusEntry.health_apply, hdeclared, Outlook.health_observe_ne_none hne]
      · rw [StatusEntry.health_apply, Outlook.health_observe_eq_none (by simpa using hverdict)]
        exact hhealth
    · exact ⟨entry, by rw [hentry, if_neg he, hs], hhealth⟩

/-- A sync leaves every entry with what the new configuration declares exactly when no kept
service gains or loses its health check. -/
theorem Declared.sync_iff (h : r.Declared) (hfollows : r.registry.Follows r.plan)
    {config : ValidConfig} {plan : StartPlan config.1}
    (hstep : r.step (.sync config plan) = some r') :
    r'.Declared ↔ r.KeepsDeclarations config.1 plan.1 := by
  cases hstep
  have hentry : ∀ name ∈ plan.1, (syncRegistry r.registry config.1 plan.1).services[name]? =
      some (r.registry.services[name]?.getD (.new (config.1.hasHealth name))) := fun name hname => by
    rw [syncRegistry, StatusRegistry.getElem?_sync, if_pos hname]
  constructor
  · intro h' name hname hkept
    obtain ⟨entry, hs, hhealth⟩ := h name hkept
    obtain ⟨entry', hs', hhealth'⟩ := h' name hname
    rw [hentry name hname, hs, Option.some.injEq] at hs'
    rw [← hs', Option.getD_some, hhealth] at hhealth'
    rw [Bool.eq_iff_iff, ← not_iff_not, Bool.not_eq_true, Bool.not_eq_true]
    exact hhealth'.symm
  · intro hkeeps name hname
    refine ⟨_, hentry name hname, ?_⟩
    by_cases hkept : name ∈ r.plan
    · obtain ⟨entry, hs, hhealth⟩ := h name hkept
      rw [hs, Option.getD_some, hhealth, hkeeps name hname hkept]
    · have hnone : r.registry.services[name]? = none :=
        Option.not_isSome_iff_eq_none.mp fun h => hkept ((hfollows.isSome_iff name).mp h)
      rw [hnone, Option.getD_none]
      exact StatusEntry.health_new_eq_none _

/-- The entries of the initial registry say what is declared. -/
theorem declared_initial (h : registrySystem.init r) : r.Declared := by
  obtain ⟨config, plan, rfl⟩ := h
  intro name hname
  refine ⟨.new (config.1.hasHealth name), ?_, StatusEntry.health_new_eq_none _⟩
  simp only [initial, initialRegistry, StatusRegistry.getElem?_new]
  exact if_pos hname

/-- **Entries say what is declared**: initially, and after every step of a run if and only if none of
its reloads gives a health check to a service it keeps or takes one from it, and none of its events
is a verdict on a planned service that declares no health check. -/
theorem declared_iff (h : registrySystem.init r) (actions : List RegistryAction) :
    r.Declared ∧ (registrySystem.Throughout (fun _ _ r' => r'.Declared) r actions ↔
      registrySystem.Throughout KeepsDeclared r actions) := by
  refine ⟨declared_initial h, TransitionSystem.throughout_state_iff ?_ (.initial h)
    (declared_initial h)⟩
  intro u action v hu hI hstep
  cases action with
  | sync config plan => exact hI.sync_iff (follows_of_reachable hu) hstep
  | apply now event => exact hI.apply_iff hstep

/-! ### Two runs -/

/-- The registry of the two sample services. -/
def sample : TrackedRegistry := initial sampleConfig samplePlan.1

theorem init_sample : registrySystem.init sample := ⟨sampleConfig, samplePlan, rfl⟩

/-- The first sample service with a health check. -/
def checkedService (args : List String) : Service :=
  { sampleService "db" [] args with health := some ⟨.tcp "localhost" 5432, 1, 1, 1, 0, .restart⟩ }

/-- The sample configuration with a health check for the first service. -/
def checkedConfig : ValidConfig :=
  ⟨configOf [checkedService [], sampleService "web" ["db"] []],
    ⟨by decide +kernel, by decide +kernel, by decide +kernel⟩⟩

def checkedPlan : StartPlan checkedConfig.1 := ⟨[⟨"db"⟩, ⟨"web"⟩], ⟨⟨[], []⟩, rfl⟩⟩

/-- The second service is gone, and the first one has another command line. -/
def reducedConfig : ValidConfig :=
  ⟨configOf [checkedService ["--new"]], ⟨by decide +kernel, by decide +kernel, by decide +kernel⟩⟩

def reducedPlan : StartPlan reducedConfig.1 := ⟨[⟨"db"⟩], ⟨⟨[], []⟩, rfl⟩⟩

/-- The first service passes its health check, a reload drops the second one, and then come a late
verdict on that one and a new one on the first. -/
def verdictsAround : List RegistryAction :=
  [.apply 1 ⟨⟨"db"⟩, .healthy⟩, .sync reducedConfig reducedPlan, .apply 2 ⟨⟨"web"⟩, .healthy⟩,
    .apply 3 ⟨⟨"db"⟩, .unhealthy "refused"⟩]

/-- Evaluates the condition. -/
def keepsDeclared (r : TrackedRegistry) : RegistryAction → Bool
  | .sync config plan => plan.1.all fun name =>
    name ∉ r.plan || config.1.hasHealth name == r.config.1.hasHealth name
  | .apply _ event => !event.kind.isHealthVerdict || event.service ∉ r.plan ||
    r.config.1.hasHealth event.service

theorem keepsDeclared_of_check (r : TrackedRegistry) (action : RegistryAction) (r' : TrackedRegistry)
    (h : keepsDeclared r action) (_ : registrySystem.step r action = some r') :
    KeepsDeclared r action r' := by
  cases action with
  | sync config plan =>
    intro name hname hkept
    simpa [hkept] using List.all_eq_true.mp h name hname
  | apply now event =>
    intro hverdict hplanned
    simpa [keepsDeclared, hverdict, hplanned] using h

/-- In this run the entries say what is declared, with a health check in force all along. -/
theorem declared_iff_verdictsAround :
    registrySystem.Throughout (fun _ _ r' => r'.Declared) (initial checkedConfig checkedPlan.1)
        verdictsAround ∧
      (registrySystem.run (initial checkedConfig checkedPlan.1) verdictsAround).map (fun r =>
        (r.plan, r.registry.services[(⟨"db"⟩ : ServiceName)]?.map StatusEntry.health)) =
          some ([⟨"db"⟩], some .unhealthy) := by
  refine ⟨(declared_iff ⟨checkedConfig, checkedPlan, rfl⟩ _).2.mpr ?_, by decide +kernel⟩
  have hrun : (registrySystem.checkedRun keepsDeclared (initial checkedConfig checkedPlan.1)
      verdictsAround).isSome := by decide +kernel
  obtain ⟨r, hr⟩ := Option.isSome_iff_exists.mp hrun
  exact TransitionSystem.throughout_of_checkedRun keepsDeclared_of_check hr

/-- A reload that gives a health check to a service it keeps: the entry of the service still says
that it declares none. -/
theorem sync_keeps_undeclared : ∃ r : TrackedRegistry,
    registrySystem.Reachable AnyStep r ∧ ⟨"db"⟩ ∈ r.plan ∧ r.config.1.hasHealth ⟨"db"⟩ = true ∧
      (r.registry.services[(⟨"db"⟩ : ServiceName)]?.map StatusEntry.health) = some .none := by
  have hrun : (sample.step (.sync checkedConfig checkedPlan)).map (fun r =>
      decide (⟨"db"⟩ ∈ r.plan ∧ r.config.1.hasHealth ⟨"db"⟩ = true ∧
        (r.registry.services[(⟨"db"⟩ : ServiceName)]?.map StatusEntry.health) = some .none)) =
      some true := by
    decide +kernel
  obtain ⟨r, hr, hfacts⟩ := Option.map_eq_some_iff.mp hrun
  exact ⟨r, (TransitionSystem.Reachable.initial init_sample).step
    (a := .sync checkedConfig checkedPlan) trivial hr, of_decide_eq_true hfacts⟩

end TrackedRegistry

end Servicrab
