import Servicrab.Core.Plan
import Servicrab.Core.Status
import Servicrab.Library.TransitionSystem
import Servicrab.Supervisor.Safety

/-!
# Reload requests of the daemon

The part of the daemon's session that a reload request works on (`server.rs`): the status registry
and the list of known names. `reload` takes several steps, between which the collector folds events
into the registry; requests exclude one another. How the supervisor answers is left open: it may
accept the reload, refuse it, drop the acknowledgement channel, or not take the command at all.

A request that fails synchronises the registry a second time, with the names it had read before
the first time, but with the new configuration. A service that the new plan drops has lost its
entry by then, and gets a new one.

## Main definitions

* `syncRegistry`, `Session`, `Session.step`, `sessionSystem`.

## Main results

* `Session.failed_reload_iff`: when a failed reload leaves no trace.
-/

open Std (ExtTreeMap)
open TransitionSystem (AnyStep)

namespace Servicrab

/-- The registry half of `sync_registry`: point the registry at a plan. -/
def syncRegistry (registry : StatusRegistry) (config : Config) (plan : List ServiceName) :
    StatusRegistry :=
  registry.sync (plan.map fun name => (name, config.hasHealth name))

/-- The registry a daemon starts with. -/
def initialRegistry (config : Config) (plan : List ServiceName) : StatusRegistry :=
  .new (plan.map fun name => (name, config.hasHealth name))

/-- How the supervisor answers a reload, as the request sees it. -/
inductive ReloadAnswer
  | accepted
  | refused
  | dropped
  deriving DecidableEq, Repr

/-- How far the reload request in progress is. -/
inductive ReloadPhase
  /-- No reload is in progress. -/
  | idle
  /-- The configuration is loaded and planned. -/
  | planned (config : ValidConfig) (plan : StartPlan config.1)
  /-- The known names are read. -/
  | noted (config : ValidConfig) (plan : StartPlan config.1) (previous : List ServiceName)
  /-- The registry follows the new plan. -/
  | registrySynced (config : ValidConfig) (plan : StartPlan config.1) (previous : List ServiceName)
  /-- The known names do too: the command is to be sent. -/
  | synced (config : ValidConfig) (plan : StartPlan config.1) (previous : List ServiceName)
  /-- The command is sent, and the acknowledgement awaited. -/
  | waiting (config : ValidConfig) (plan : StartPlan config.1) (previous : List ServiceName)
  /-- The reload failed: the registry is to be restored. -/
  | failed (config : ValidConfig) (plan : StartPlan config.1) (previous : List ServiceName)
  /-- The known names are to be restored. -/
  | registryRestored (config : ValidConfig) (plan : StartPlan config.1)
      (previous : List ServiceName)

/-- What a reload request shares with the rest of the daemon. -/
structure Session where
  registry : StatusRegistry
  names : List ServiceName
  phase : ReloadPhase
  /-- Every event the collector has folded into the registry so far. -/
  folded : List (Instant × ServiceEvent)

/-- The moves of a reload request, and those of the collector. -/
inductive SessionAction
  | request (config : ValidConfig) (plan : StartPlan config.1)
  | readNames
  | syncRegistry
  | syncNames
  /-- The command is sent, or the supervisor no longer takes any. -/
  | send (taken : Bool)
  | answer (answer : ReloadAnswer)
  | restoreRegistry
  | restoreNames
  /-- The collector folds an event. -/
  | collect (now : Instant) (event : ServiceEvent)

namespace Session

variable (s : Session)

/-- One move of the reload request or of the collector. -/
def step : SessionAction → Option Session
  | .collect now event =>
    some { s with
      registry := s.registry.apply now event, folded := s.folded ++ [(now, event)] }
  | .request config plan =>
    match s.phase with
    | .idle => some { s with phase := .planned config plan }
    | _ => none
  | .readNames =>
    match s.phase with
    | .planned config plan => some { s with phase := .noted config plan s.names }
    | _ => none
  | .syncRegistry =>
    match s.phase with
    | .noted config plan previous => some { s with
        registry := Servicrab.syncRegistry s.registry config.1 plan.1
        phase := .registrySynced config plan previous }
    | _ => none
  | .syncNames =>
    match s.phase with
    | .registrySynced config plan previous =>
      some { s with names := plan.1, phase := .synced config plan previous }
    | _ => none
  | .send taken =>
    match s.phase with
    | .synced config plan previous => some { s with
        phase := if taken then .waiting config plan previous else .failed config plan previous }
    | _ => none
  | .answer answer =>
    match s.phase with
    | .waiting config plan previous => some { s with
        phase := if answer = .accepted then .idle else .failed config plan previous }
    | _ => none
  | .restoreRegistry =>
    match s.phase with
    | .failed config plan previous => some { s with
        registry := Servicrab.syncRegistry s.registry config.1 previous
        phase := .registryRestored config plan previous }
    | _ => none
  | .restoreNames =>
    match s.phase with
    | .registryRestored _ _ previous => some { s with names := previous, phase := .idle }
    | _ => none

/-- The session of a daemon that has just started. -/
def initial (config : Config) (plan : List ServiceName) : Session where
  registry := initialRegistry config plan
  names := plan
  phase := .idle
  folded := []

end Session

/-- The runs of the reload requests of a daemon. -/
def sessionSystem : TransitionSystem Session SessionAction where
  init s := ∃ (config : ValidConfig) (plan : StartPlan config.1),
    s = Session.initial config.1 plan.1
  step := Session.step

/-- The guard that no further request is begun. -/
def NoRequest (_ : Session) (action : SessionAction) (_ : Session) : Prop :=
  ∀ config plan, action ≠ .request config plan

/-! ### The registry between requests -/

namespace StatusRegistry

/-- The registry has entries for the given services only, and reports them in that order. -/
structure Follows (registry : StatusRegistry) (names : List ServiceName) : Prop where
  order_eq : registry.order = names
  isSome_iff : ∀ name, registry.services[name]?.isSome ↔ name ∈ names

theorem follows_syncRegistry (registry : StatusRegistry) (config : Config)
    (plan : List ServiceName) : (syncRegistry registry config plan).Follows plan where
  order_eq := order_sync registry config.hasHealth plan
  isSome_iff name := by
    rw [syncRegistry, getElem?_sync]
    split_ifs with h <;> simp [h]

theorem follows_initialRegistry (config : Config) (plan : List ServiceName) :
    (initialRegistry config plan).Follows plan where
  order_eq := by
    simp only [initialRegistry, new, List.map_map]
    exact List.map_id plan
  isSome_iff name := by
    rw [initialRegistry, getElem?_new]
    split_ifs with h <;> simp [h]

theorem Follows.apply {registry : StatusRegistry} {names : List ServiceName}
    (h : registry.Follows names) (now : Instant) (event : ServiceEvent) :
    (registry.apply now event).Follows names where
  order_eq := (order_apply registry now event).trans h.order_eq
  isSome_iff name := by
    rw [getElem?_apply]
    split_ifs
    · rw [Option.isSome_map, h.isSome_iff]
    · exact h.isSome_iff name

end StatusRegistry

namespace Session

variable {s s' s₀ s₁ : Session} {config : ValidConfig} {plan : StartPlan config.1}

/-- The list of services the registry follows in each phase. -/
def Consistent (s : Session) : Prop :=
  match s.phase with
  | .idle | .planned _ _ => s.registry.Follows s.names
  | .noted _ _ previous => s.registry.Follows s.names ∧ previous = s.names
  | .registrySynced _ plan _ => s.registry.Follows plan.1
  | .synced _ plan _ | .waiting _ plan _ => s.registry.Follows plan.1 ∧ s.names = plan.1
  | .failed _ _ _ => True
  | .registryRestored _ _ previous => s.registry.Follows previous

theorem Consistent.collect (h : s.Consistent) (now : Instant) (event : ServiceEvent)
    (folded : List (Instant × ServiceEvent)) :
    Consistent { s with registry := s.registry.apply now event, folded := folded } := by
  unfold Consistent at h ⊢
  cases hphase : s.phase <;> simp only [hphase] at h ⊢
  case idle | planned | registrySynced | registryRestored => exact h.apply now event
  case noted | synced | waiting => exact ⟨h.1.apply now event, h.2⟩

theorem Consistent.step (h : s.Consistent) {action : SessionAction}
    (hstep : s.step action = some s') : s'.Consistent := by
  cases action with
  | collect now event =>
    cases hstep
    exact h.collect now event _
  | request config plan =>
    simp only [Session.step] at hstep
    split at hstep <;> cases hstep
    rename_i hphase
    simpa only [Consistent, hphase] using h
  | readNames =>
    simp only [Session.step] at hstep
    split at hstep <;> cases hstep
    rename_i hphase
    exact ⟨by simpa only [Consistent, hphase] using h, rfl⟩
  | syncRegistry =>
    simp only [Session.step] at hstep
    split at hstep <;> cases hstep
    exact StatusRegistry.follows_syncRegistry _ _ _
  | syncNames =>
    simp only [Session.step] at hstep
    split at hstep <;> cases hstep
    rename_i hphase
    exact ⟨by simpa only [Consistent, hphase] using h, rfl⟩
  | send taken =>
    simp only [Session.step] at hstep
    split at hstep <;> cases hstep
    rename_i hphase
    simp only [Consistent, hphase] at h
    cases taken
    · trivial
    · exact h
  | answer answer =>
    simp only [Session.step] at hstep
    split at hstep <;> cases hstep
    rename_i hphase
    simp only [Consistent, hphase] at h
    split_ifs
    · simpa only [Consistent, h.2] using h.1
    · trivial
  | restoreRegistry =>
    simp only [Session.step] at hstep
    split at hstep <;> cases hstep
    exact StatusRegistry.follows_syncRegistry _ _ _
  | restoreNames =>
    simp only [Session.step] at hstep
    split at hstep <;> cases hstep
    rename_i hphase
    simpa only [Consistent, hphase] using h

theorem consistent_of_reachable {C : Session → SessionAction → Session → Prop}
    (h : sessionSystem.Reachable C s) : s.Consistent := by
  refine h.invariant ?_ fun _ hI _ hstep => hI.step hstep
  rintro s₀ ⟨config, plan, rfl⟩
  exact StatusRegistry.follows_initialRegistry config.1 plan.1

/-! ### A request in progress -/

/-- The registry is the one of the request, with the given events folded in. -/
def Unchanged (s₀ : Session) (events : List (Instant × ServiceEvent)) (s : Session) : Prop :=
  s.registry = s₀.registry.applyAll events ∧ s.names = s₀.names

/-- The registry follows the new plan: the services it keeps have their entries, with the given
events folded in, and the others have none. -/
def Kept (s₀ : Session) (plan : List ServiceName) (events : List (Instant × ServiceEvent))
    (s : Session) : Prop :=
  (∀ name ∈ plan, ∀ entry, s₀.registry.services[name]? = some entry →
    s.registry.services[name]? = some (entry.applyAll (StatusRegistry.eventsOf events name))) ∧
  ∀ name ∉ plan, s.registry.services[name]? = none

/-- Where a request is, and what it has done to the registry so far. -/
inductive Progress (s₀ : Session) (config : ValidConfig) (plan : StartPlan config.1)
    (events : List (Instant × ServiceEvent)) (s : Session) : Prop
  | idle (h : s.phase = .idle)
  | planned (h : s.phase = .planned config plan) (hs : Unchanged s₀ events s)
  | noted (h : s.phase = .noted config plan s₀.names) (hs : Unchanged s₀ events s)
  | synced (h : s.phase = .registrySynced config plan s₀.names ∨
      s.phase = .synced config plan s₀.names ∨ s.phase = .waiting config plan s₀.names ∨
      s.phase = .failed config plan s₀.names) (hs : Kept s₀ plan.1 events s)
  | restored (h : s.phase = .registryRestored config plan s₀.names)

theorem Unchanged.collect {events : List (Instant × ServiceEvent)} (h : Unchanged s₀ events s)
    (now : Instant) (event : ServiceEvent) (folded : List (Instant × ServiceEvent)) :
    Unchanged s₀ (events ++ [(now, event)])
      { s with registry := s.registry.apply now event, folded := folded } := by
  refine ⟨?_, h.2⟩
  rw [StatusRegistry.applyAll_append, ← h.1]
  rfl

theorem Kept.collect {plan : List ServiceName} {events : List (Instant × ServiceEvent)}
    (h : Kept s₀ plan events s) (now : Instant) (event : ServiceEvent)
    (folded : List (Instant × ServiceEvent)) :
    Kept s₀ plan (events ++ [(now, event)])
      { s with registry := s.registry.apply now event, folded := folded } := by
  have hone : ∀ name, (s.registry.apply now event).services[name]? =
      s.registry.services[name]?.map fun entry : StatusEntry =>
        entry.applyAll (StatusRegistry.eventsOf [(now, event)] name) :=
    fun name => StatusRegistry.getElem?_applyAll [(now, event)] name s.registry
  refine ⟨fun name hname entry hentry => ?_, fun name hname => ?_⟩
  · rw [hone, h.1 name hname entry hentry, Option.map_some, StatusRegistry.eventsOf_append,
      StatusEntry.applyAll_append]
  · rw [hone, h.2 name hname, Option.map_none]

theorem Progress.step {events : List (Instant × ServiceEvent)}
    (h : Progress s₀ config plan events s) {action : SessionAction}
    (hrequest : ∀ config plan, action ≠ .request config plan) (hstep : s.step action = some s') :
    ∃ new, s'.folded = s.folded ++ new ∧ Progress s₀ config plan (events ++ new) s' := by
  cases action with
  | request config plan => exact absurd rfl (hrequest config plan)
  | collect now event =>
    cases hstep
    refine ⟨[(now, event)], rfl, ?_⟩
    cases h with
    | idle h => exact .idle h
    | planned h hs => exact .planned h (hs.collect now event _)
    | noted h hs => exact .noted h (hs.collect now event _)
    | synced h hs => exact .synced h (hs.collect now event _)
    | restored h => exact .restored h
  | readNames =>
    simp only [Session.step] at hstep
    cases h with
    | planned h hs =>
      rw [h] at hstep
      cases hstep
      exact ⟨[], (List.append_nil _).symm, .noted (by rw [hs.2]) (by rwa [List.append_nil])⟩
    | idle h | noted h | restored h => simp [h] at hstep
    | synced h => rcases h with h | h | h | h <;> simp [h] at hstep
  | syncRegistry =>
    simp only [Session.step] at hstep
    cases h with
    | noted h hs =>
      rw [h] at hstep
      cases hstep
      refine ⟨[], (List.append_nil _).symm, .synced (.inl rfl) ⟨fun name hname entry hentry => ?_,
        fun name hname => ?_⟩⟩
      · rw [Servicrab.syncRegistry, StatusRegistry.getElem?_sync, if_pos hname, hs.1,
          StatusRegistry.getElem?_applyAll, hentry, List.append_nil]
        rfl
      · rw [Servicrab.syncRegistry, StatusRegistry.getElem?_sync, if_neg hname]
    | idle h | planned h | restored h => simp [h] at hstep
    | synced h => rcases h with h | h | h | h <;> simp [h] at hstep
  | syncNames =>
    simp only [Session.step] at hstep
    cases h with
    | synced h hs =>
      rcases h with h | h | h | h <;> simp only [h] at hstep <;> cases hstep
      exact ⟨[], (List.append_nil _).symm, .synced (.inr (.inl rfl)) (by rwa [List.append_nil])⟩
    | idle h | planned h | noted h | restored h => simp [h] at hstep
  | send taken =>
    simp only [Session.step] at hstep
    cases h with
    | synced h hs =>
      rcases h with h | h | h | h <;> simp only [h] at hstep <;> cases hstep
      refine ⟨[], (List.append_nil _).symm, .synced ?_ (by rwa [List.append_nil])⟩
      cases taken
      · exact .inr (.inr (.inr rfl))
      · exact .inr (.inr (.inl rfl))
    | idle h | planned h | noted h | restored h => simp [h] at hstep
  | answer answer =>
    simp only [Session.step] at hstep
    cases h with
    | synced h hs =>
      rcases h with h | h | h | h <;> simp only [h] at hstep <;> cases hstep
      refine ⟨[], (List.append_nil _).symm, ?_⟩
      split_ifs with ha
      · exact .idle rfl
      · exact .synced (.inr (.inr (.inr rfl))) (by rwa [List.append_nil])
    | idle h | planned h | noted h | restored h => simp [h] at hstep
  | restoreRegistry =>
    simp only [Session.step] at hstep
    cases h with
    | synced h hs =>
      rcases h with h | h | h | h <;> simp only [h] at hstep <;> cases hstep
      exact ⟨[], (List.append_nil _).symm, .restored rfl⟩
    | idle h | planned h | noted h | restored h => simp [h] at hstep
  | restoreNames =>
    simp only [Session.step] at hstep
    cases h with
    | restored h =>
      rw [h] at hstep
      cases hstep
      exact ⟨[], (List.append_nil _).symm, .idle rfl⟩
    | idle h | planned h | noted h => simp [h] at hstep
    | synced h => rcases h with h | h | h | h <;> simp [h] at hstep

theorem Progress.steps {events : List (Instant × ServiceEvent)}
    (h : Progress s₀ config plan events s) (hrun : sessionSystem.Steps NoRequest s s') :
    ∃ new, s'.folded = s.folded ++ new ∧ Progress s₀ config plan (events ++ new) s' := by
  refine hrun.invariant
    (I := fun u => ∃ new, u.folded = s.folded ++ new ∧ Progress s₀ config plan (events ++ new) u)
    ⟨[], (List.append_nil _).symm, by rwa [List.append_nil]⟩ ?_
  rintro u action v - ⟨new, hfolded, hprogress⟩ hrequest hstep
  obtain ⟨new', hfolded', hprogress'⟩ := hprogress.step hrequest hstep
  refine ⟨new ++ new', ?_, ?_⟩
  · rw [hfolded', hfolded, List.append_assoc]
  · rwa [List.append_assoc] at hprogress'

/-- Between the two halves of the restoration, events are folded into the registry. -/
theorem steps_of_restored {previous : List ServiceName}
    (h : s.phase = .registryRestored config plan previous)
    (hrun : sessionSystem.Steps NoRequest s s') :
    ∃ new, s'.folded = s.folded ++ new ∧ (s'.phase = .idle ∨
      s'.phase = .registryRestored config plan previous ∧
        s'.registry = s.registry.applyAll new) := by
  refine hrun.invariant (I := fun u => ∃ new, u.folded = s.folded ++ new ∧ (u.phase = .idle ∨
    u.phase = .registryRestored config plan previous ∧ u.registry = s.registry.applyAll new))
    ⟨[], (List.append_nil _).symm, .inr ⟨h, rfl⟩⟩ ?_
  rintro u action v - ⟨new, hfolded, hphase⟩ hrequest hstep
  change u.step action = some v at hstep
  cases action with
  | request config plan => exact absurd rfl (hrequest config plan)
  | collect now event =>
    cases hstep
    refine ⟨new ++ [(now, event)], by rw [hfolded, List.append_assoc], hphase.imp_right ?_⟩
    rintro ⟨hphase, hregistry⟩
    refine ⟨hphase, ?_⟩
    rw [StatusRegistry.applyAll_append, ← hregistry]
    rfl
  | restoreNames =>
    simp only [Session.step] at hstep
    split at hstep <;> cases hstep
    exact ⟨new, hfolded, .inl rfl⟩
  | readNames | syncRegistry | syncNames | send | answer | restoreRegistry =>
    simp only [Session.step] at hstep
    rcases hphase with hphase | ⟨hphase, -⟩ <;> simp [hphase] at hstep

/-- **A failed reload leaves no trace** but the events folded in meanwhile exactly when every known
service that the new plan drops comes out of the failure as it would have without the reload: its
fresh entry, with the events since the restoration, is its old entry with the events since the
request. A plan that drops no known service is such a case. -/
theorem failed_reload_iff {s₂ s₃ s₄ s₅ : Session} (hs : sessionSystem.Reachable AnyStep s₀)
    (hrequest : s₀.step (.request config plan) = some s₁)
    (hrun : sessionSystem.Steps NoRequest s₁ s₂)
    (hrestore : s₂.step .restoreRegistry = some s₃)
    (hrun' : sessionSystem.Steps NoRequest s₃ s₄)
    (hanswer : s₄.step .restoreNames = some s₅) :
    (s₅.registry = s₀.registry.applyAll (s₅.folded.drop s₀.folded.length) ∧
        s₅.names = s₀.names) ↔
      ∀ name ∈ s₀.names, name ∉ plan.1 → ∀ entry, s₀.registry.services[name]? = some entry →
        (StatusEntry.new (config.1.hasHealth name)).applyAll
            (StatusRegistry.eventsOf (s₅.folded.drop s₃.folded.length) name) =
          entry.applyAll (StatusRegistry.eventsOf (s₅.folded.drop s₀.folded.length) name) := by
  -- The request begins in an idle session, whose registry follows the known names.
  have hconsistent := consistent_of_reachable hs
  simp only [Session.step] at hrequest
  split at hrequest <;> cases hrequest
  rename_i hidle
  have hfollows : s₀.registry.Follows s₀.names := by simpa only [Consistent, hidle] using hconsistent
  have hstart : Progress s₀ config plan [] { s₀ with phase := .planned config plan } :=
    .planned rfl ⟨rfl, rfl⟩
  obtain ⟨events, hfolded, hprogress⟩ := hstart.steps hrun
  -- It fails, so the registry is restored from the names it has read.
  obtain ⟨hphase, hkept⟩ : s₂.phase = .failed config plan s₀.names ∧
      Kept s₀ plan.1 events s₂ := by
    simp only [Session.step] at hrestore
    cases hprogress with
    | idle h | planned h | noted h | restored h => simp [h] at hrestore
    | synced h hs' =>
      rcases h with h | h | h | h
      · simp [h] at hrestore
      · simp [h] at hrestore
      · simp [h] at hrestore
      · exact ⟨h, hs'⟩
  simp only [Session.step, hphase, Option.some.injEq] at hrestore
  subst hrestore
  obtain ⟨late, hfolded', hphase' | ⟨hphase', hregistry⟩⟩ := steps_of_restored rfl hrun'
  · simp [Session.step, hphase'] at hanswer
  simp only [Session.step, hphase', Option.some.injEq] at hanswer
  subst hanswer
  have hall : s₄.folded.drop s₀.folded.length = events ++ late := by
    rw [hfolded', hfolded, List.append_assoc, List.drop_left]
  have hlate : s₄.folded.drop s₂.folded.length = late := by rw [hfolded', List.drop_left]
  simp only [hall, hlate, and_true]
  -- What both sides have of one service.
  have hentry : ∀ name, s₄.registry.services[name]? =
      if name ∈ s₀.names then some (StatusEntry.applyAll
        (s₂.registry.services[name]?.getD (.new (config.1.hasHealth name)))
        (StatusRegistry.eventsOf late name)) else none := by
    intro name
    rw [hregistry, StatusRegistry.getElem?_applyAll, Servicrab.syncRegistry,
      StatusRegistry.getElem?_sync]
    split_ifs <;> rfl
  have hsome : ∀ name ∈ s₀.names, ∃ entry, s₀.registry.services[name]? = some entry :=
    fun name hname => Option.isSome_iff_exists.mp ((hfollows.isSome_iff name).mpr hname)
  have hnone : ∀ name ∉ s₀.names, s₀.registry.services[name]? = none := fun name hname =>
    Option.not_isSome_iff_eq_none.mp fun h => hname ((hfollows.isSome_iff name).mp h)
  have hold : ∀ name (entry : StatusEntry), s₀.registry.services[name]? = some entry →
      (s₀.registry.applyAll (events ++ late)).services[name]? =
        some (entry.applyAll (StatusRegistry.eventsOf (events ++ late) name)) := by
    intro name entry h
    rw [StatusRegistry.getElem?_applyAll, h, Option.map_some]
  constructor
  · intro hsame name hname hdropped entry h
    have hboth := hentry name
    rw [hsame, hold name entry h, if_pos hname, hkept.2 name hdropped] at hboth
    exact (Option.some.inj hboth).symm
  · intro hfresh
    have hservices : s₄.registry.services =
        (s₀.registry.applyAll (events ++ late)).services := by
      ext1 name
      rw [hentry]
      split_ifs with hname
      · obtain ⟨entry, h⟩ := hsome name hname
        rw [hold name entry h]
        by_cases hplan : name ∈ plan.1
        · rw [hkept.1 name hplan entry h, StatusRegistry.eventsOf_append,
            StatusEntry.applyAll_append]
          rfl
        · rw [hkept.2 name hplan, ← hfresh name hname hplan entry h]
          rfl
      · rw [StatusRegistry.getElem?_applyAll, hnone name hname, Option.map_none]
    have horder : s₄.registry.order = (s₀.registry.applyAll (events ++ late)).order := by
      rw [hregistry, StatusRegistry.order_applyAll, StatusRegistry.order_applyAll,
        hfollows.order_eq]
      exact StatusRegistry.order_sync _ _ _
    exact StatusRegistry.ext hservices horder

/-- The session of the two sample services. -/
def sample : Session := Session.initial sampleConfig.1 samplePlan.1

theorem init_sample : sessionSystem.init sample := ⟨sampleConfig, samplePlan, rfl⟩

/-- What a request does after it was begun, up to the restoration, when it is refused. -/
def refusedRun : List SessionAction :=
  [.readNames, .syncRegistry, .syncNames, .send true, .answer .refused]

theorem noRequest_refusedRun : ∀ action ∈ refusedRun, ∀ s s', NoRequest s action s' := by
  intro action hmem s s' config plan he
  subst he
  simp [refusedRun] at hmem

/-- A reload that drops a service which is about to run, and is refused: the service runs before the
names are restored, so that its fresh entry says what its old one would. -/
theorem failed_reload_iff_reduced : ∃ s₀ s₅ : Session, sessionSystem.Reachable AnyStep s₀ ∧
    (s₀.registry.services[(⟨"web"⟩ : ServiceName)]?.map StatusEntry.state) = some .starting ∧
      s₅.registry = s₀.registry.applyAll (s₅.folded.drop s₀.folded.length) ∧
      s₅.names = s₀.names := by
  have hrun : (sample.step (.collect 5 ⟨⟨"web"⟩, .state .starting⟩)).bind (fun s₀ =>
      (s₀.step (.request reducedConfig reducedPlan)).bind fun s₁ =>
      (sessionSystem.run s₁ refusedRun).bind fun s₂ => (s₂.step .restoreRegistry).bind fun s₃ =>
      (s₃.step (.collect 6 ⟨⟨"web"⟩, .state .running⟩)).bind fun s₄ =>
        (s₄.step .restoreNames).map fun s₅ => decide (
          s₀.registry.services[(⟨"web"⟩ : ServiceName)]?.map StatusEntry.state = some .starting ∧
          ∀ name ∈ s₀.names, name ∉ reducedPlan.1 →
            s₀.registry.services[name]?.all fun entry =>
              (StatusEntry.new (reducedConfig.1.hasHealth name)).applyAll
                  (StatusRegistry.eventsOf (s₅.folded.drop s₃.folded.length) name) =
                entry.applyAll
                  (StatusRegistry.eventsOf (s₅.folded.drop s₀.folded.length) name))) =
      some true := by decide +kernel
  obtain ⟨s₀, hs₀, hrun⟩ := Option.bind_eq_some_iff.mp hrun
  obtain ⟨s₁, hs₁, hrun⟩ := Option.bind_eq_some_iff.mp hrun
  obtain ⟨s₂, hs₂, hrun⟩ := Option.bind_eq_some_iff.mp hrun
  obtain ⟨s₃, hs₃, hrun⟩ := Option.bind_eq_some_iff.mp hrun
  obtain ⟨s₄, hs₄, hrun⟩ := Option.bind_eq_some_iff.mp hrun
  obtain ⟨s₅, hs₅, hfacts⟩ := Option.map_eq_some_iff.mp hrun
  obtain ⟨hstarting, hsame⟩ := of_decide_eq_true hfacts
  have hreach : sessionSystem.Reachable AnyStep s₀ :=
    (TransitionSystem.Reachable.initial init_sample).step
      (a := .collect 5 ⟨⟨"web"⟩, .state .starting⟩) trivial hs₀
  have hbetween : sessionSystem.Steps NoRequest s₃ s₄ :=
    (TransitionSystem.Steps.refl s₃).tail ⟨.collect 6 ⟨⟨"web"⟩, .state .running⟩, nofun, hs₄⟩
  refine ⟨s₀, s₅, hreach, hstarting, (failed_reload_iff hreach hs₁
    (TransitionSystem.steps_of_run_of_forall noRequest_refusedRun hs₂) hs₃ hbetween hs₅).mpr ?_⟩
  intro name hname hdropped entry hentry
  exact of_decide_eq_true ((Option.all_eq_true _ _).mp (hsame name hname hdropped) entry hentry)

/-- A reload that drops a running service and is refused: the service comes back as if it had
never been started. -/
theorem refused_reload_forgets : ∃ s₀ s₁ s₂ s₃ s₅ : Session,
    sessionSystem.Reachable AnyStep s₀ ∧
      s₀.step (.request reducedConfig reducedPlan) = some s₁ ∧
      sessionSystem.Steps NoRequest s₁ s₂ ∧ s₂.step .restoreRegistry = some s₃ ∧
      s₃.step .restoreNames = some s₅ ∧ s₅.folded = s₀.folded ∧
      s₀.registry.services[(⟨"web"⟩ : ServiceName)]? =
        some ⟨.running, some 7, some 5, 0, .none, none⟩ ∧
      s₅.registry.services[(⟨"web"⟩ : ServiceName)]? = some ⟨.pending, none, none, 0, .none, none⟩ := by
  have hrun : (sessionSystem.run sample [.collect 5 ⟨⟨"web"⟩, .started 7⟩,
      .collect 6 ⟨⟨"web"⟩, .state .running⟩]).bind (fun s₀ =>
      (s₀.step (.request reducedConfig reducedPlan)).bind fun s₁ =>
      (sessionSystem.run s₁ refusedRun).bind fun s₂ => (s₂.step .restoreRegistry).bind fun s₃ =>
        (s₃.step .restoreNames).map fun s₅ => decide (s₅.folded = s₀.folded ∧
          s₀.registry.services[(⟨"web"⟩ : ServiceName)]? =
            some ⟨.running, some 7, some 5, 0, .none, none⟩ ∧
          s₅.registry.services[(⟨"web"⟩ : ServiceName)]? =
            some ⟨.pending, none, none, 0, .none, none⟩)) = some true := by
    decide +kernel
  obtain ⟨s₀, hs₀, hrun⟩ := Option.bind_eq_some_iff.mp hrun
  obtain ⟨s₁, hs₁, hrun⟩ := Option.bind_eq_some_iff.mp hrun
  obtain ⟨s₂, hs₂, hrun⟩ := Option.bind_eq_some_iff.mp hrun
  obtain ⟨s₃, hs₃, hrun⟩ := Option.bind_eq_some_iff.mp hrun
  obtain ⟨s₅, hs₅, hfacts⟩ := Option.map_eq_some_iff.mp hrun
  obtain ⟨hfolded, hbefore, hafter⟩ := of_decide_eq_true hfacts
  exact ⟨s₀, s₁, s₂, s₃, s₅, (TransitionSystem.Reachable.initial init_sample).steps
    (TransitionSystem.steps_of_run hs₀), hs₁,
    TransitionSystem.steps_of_run_of_forall noRequest_refusedRun hs₂, hs₃, hs₅, hfolded, hbefore,
    hafter⟩

end Session

end Servicrab
