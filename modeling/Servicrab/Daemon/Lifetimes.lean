import Servicrab.Daemon.HeldBack
import Servicrab.Daemon.Reconcile
import Servicrab.Daemon.Remember

/-!
# Stopped services from one daemon to the next

A daemon that starts reconciles the file of stopped services with its configuration, and leaves those
services stopped that are held back (`server.rs`, `stopped.rs`). Its clients then stop and start
services, which changes the file. However the daemon ends, the next one starts from that file, with
the configuration there is by then.

## Main definitions

* `Clients.boot`: a daemon that starts.
* `Stopped.Lived`: daemons one after another, and the file they leave.
* `Stopped.stoppedAfter`: what was decided last about a service, over all of them.

## Main results

* `names_initial`: the services that are spawned as the supervisor starts.
* `Stopped.mem_heldBack`: a service is held back because of one that it depends on.
* `Stopped.started_iff`: which services the next daemon starts.
-/

open Std (ExtTreeMap ExtTreeSet)

namespace Servicrab

open Stack

/-! ### What is spawned at the start -/

section Initial

variable {options : StackOptions} {config : ValidConfig} {stopped : Finset ServiceName}
  {name other : ServiceName} {w : Stack}

/-- The name of the service a slot is for. -/
def Stack.served (w : Stack) (name : ServiceName) : Option ServiceName :=
  w.slots[name]?.map (·.service.name)

theorem served_insertPlanned_of_ne (h : other ≠ name) :
    (w.insertPlanned other).served name = w.served name :=
  congrArg _ (getElem?_insertPlanned_of_ne h.symm)

theorem served_insertPlanned (hservice : name ∈ w.config.1.services) :
    (w.insertPlanned name).served name = some name := by
  obtain ⟨service, hservice⟩ := Option.isSome_iff_exists.mp
    (ExtTreeMap.isSome_getElem?_iff_mem.mpr hservice)
  simp only [served, insertPlanned, hservice, insertSlot, TreeMap.getElem?_insert, if_true,
    Option.map_some]
  exact congrArg some (w.config.2.name_eq hservice)

theorem kept_insertPlanned (w : Stack) (name : ServiceName) :
    (w.insertPlanned name).config = w.config ∧ (w.insertPlanned name).tasks = w.tasks := by
  rw [insertPlanned]
  split
  · rw [insertSlot, debugAssert_eq]
    exact ⟨rfl, rfl⟩
  · exact ⟨rfl, rfl⟩

/-- Every service that is inserted has a slot. -/
theorem served_insertAll (names : List ServiceName) : ∀ {w : Stack},
    (∀ name ∈ names, name ∈ w.config.1.services) →
    let w' := names.foldl insertPlanned w
    w'.tasks = w.tasks ∧
      ∀ name, name ∈ names ∨ w.served name = some name → w'.served name = some name := by
  induction names with
  | nil => exact fun _ => ⟨rfl, fun name hname => hname.resolve_left List.not_mem_nil⟩
  | cons first names ih =>
    intro w hdeclared
    obtain ⟨hconfig, htasks⟩ := kept_insertPlanned w first
    obtain ⟨htasks', hserved⟩ := @ih (w.insertPlanned first) fun name hname =>
      hconfig ▸ hdeclared name (List.mem_cons_of_mem _ hname)
    refine ⟨htasks'.trans htasks, fun name hname => hserved name ?_⟩
    by_cases heq : first = name
    · subst heq
      exact Or.inr (served_insertPlanned (hdeclared first List.mem_cons_self))
    · rw [served_insertPlanned_of_ne heq]
      exact hname.imp_left fun hmem => (List.mem_cons.mp hmem).resolve_left (Ne.symm heq)

theorem served_rewireDependencies : w.rewireDependencies.served name = w.served name := by
  rw [served, rewireDependencies, ExtTreeMap.getElem?_map, Option.map_map]
  refine Option.map_congr fun slot _ => ?_
  dsimp only [Function.comp]
  split <;> rfl

theorem served_startService : (w.startService stopped other).served name = w.served name := by
  rw [startService]
  split_ifs
  · exact congrArg _ (getElem?_publishStopped ..)
  · split
    · rename_i slot hslot
      simp only [served, spawn, TreeMap.getElem?_insert]
      split_ifs with heq
      · subst heq
        rw [hslot]
        rfl
      · rfl
    · rfl

/-- A service that has a slot is spawned, unless it is held back. -/
theorem tasks_startService (hserved : w.served name = some name) :
    (w.startService stopped name).tasks.map (·.service.name) =
      w.tasks.map (·.service.name) ++ [name].filter (· ∉ stopped) := by
  obtain ⟨slot, hslot, hname⟩ := Option.map_eq_some_iff.mp hserved
  rw [startService]
  split_ifs with hstopped
  · rw [publishStopped, hslot]
    simp [hstopped]
  · simp [hslot, spawn, hname, hstopped]

theorem tasks_startAll (names : List ServiceName) : ∀ {w : Stack},
    (∀ name ∈ names, w.served name = some name) →
    (names.foldl (startService · stopped) w).tasks.map (·.service.name) =
      w.tasks.map (·.service.name) ++ names.filter (· ∉ stopped) := by
  induction names with
  | nil => exact fun _ => (List.append_nil _).symm
  | cons first names ih =>
    intro w hserved
    rw [List.foldl_cons, ih fun name hname => served_startService.trans
        (hserved name (List.mem_cons_of_mem _ hname)),
      tasks_startService (hserved first List.mem_cons_self), List.append_assoc, ← List.filter_append]
    rfl

/-- **What is spawned** as the supervisor starts: the plan in its order, but for what is held back. -/
theorem names_initial (plan : StartPlan config.1) :
    (Stack.initial options config plan.1 stopped).tasks.map (·.service.name) =
      plan.1.filter (· ∉ stopped) := by
  obtain ⟨htasks, hserved⟩ := @served_insertAll plan.1 (Stack.empty options config plan.1)
    fun name hname => by
      obtain ⟨service, hservice, -⟩ := plan.exists_service hname
      exact ExtTreeMap.isSome_getElem?_iff_mem.mp (Option.isSome_iff_exists.mpr ⟨service, hservice⟩)
  rw [initial, tasks_startAll plan.1 fun name hname =>
    served_rewireDependencies.trans (hserved name (Or.inl hname))]
  rw [show (rewireDependencies _).tasks = _ from htasks]
  rfl

end Initial

/-! ### What is held back -/

namespace Stopped

section

variable {config : Config} {plan : List ServiceName} {remembered : ExtTreeSet String}
  {name : ServiceName}

/-- A service that was stopped by hand and asks to stay so. -/
def IsSeed (config : Config) (remembered : ExtTreeSet String) (seed : ServiceName) : Prop :=
  seed.raw ∈ remembered ∧
    ∃ service, config.services[seed]? = some service ∧ service.restart = .unlessStopped

/-- **Why a service is held back**: because of one that it is or depends on. -/
theorem mem_heldBack (horder : DependencyOrder config.DependsOn plan)
    (hclosed : ∀ name ∈ plan, ∀ dep, config.DependsOn name dep → dep ∈ plan) :
    name ∈ heldBack config plan remembered ↔ name ∈ plan ∧
      ∃ seed, Relation.ReflTransGen config.DependsOn name seed ∧ IsSeed config remembered seed := by
  obtain ⟨hholds, hleast⟩ : IsLeast {s | HoldsBack config plan remembered s}
      (heldBack config plan remembered : Set ServiceName) := isLeast_heldBack horder
  constructor
  · have hset : HoldsBack config plan remembered {name | name ∈ plan ∧
        ∃ seed, Relation.ReflTransGen config.DependsOn name seed ∧
          IsSeed config remembered seed} := by
      refine ⟨fun _ hname => hname.1, fun name hplan hremembered service hservice hrestart => ?_, ?_⟩
      · exact ⟨hplan, name, .refl, hremembered, service, hservice, hrestart⟩
      · rintro name hplan dep ⟨-, seed, hreach, hseed⟩ hdep
        exact ⟨hplan, seed, .head hdep hreach, hseed⟩
    exact fun hname => hleast hset hname
  · rintro ⟨hplan, seed, hreach, hremembered, service, hservice, hrestart⟩
    induction hreach using Relation.ReflTransGen.head_induction_on with
    | refl => exact hholds.seed seed hplan hremembered service hservice hrestart
    | head hdep _ ih =>
      exact hholds.dependent _ hplan _ (ih (hclosed _ hplan _ hdep)) hdep

end

end Stopped

/-! ### One daemon after another -/

/-- A daemon that starts with a file of stopped services, and has no clients yet. -/
def Clients.boot (options : StackOptions) (config : ValidConfig) (plan : StartPlan config.1)
    (names : List ValidName) (file : Option String) : Clients :=
  let file := (Stopped.reconcile file config.1).2
  let held := Stopped.heldBack config.1 plan.1 (Stopped.read file)
  { stack := .initial options config plan.1 held
    names := names
    file := file
    connections := ∅
    refused := [] }

/-- A daemon that has run: the configuration it started with, and what was decided about each
service. -/
structure Life where
  config : Config
  decisions : String → List Bool

/-- What the file holds while no decision is recorded after a later one. -/
theorem Clients.recordsLast_of_steps {s₀ s : Clients} (hinit : clientSystem.init s₀)
    (hrun : clientSystem.Steps InOrder s₀ s) : s.RecordsLast s₀.file := by
  have hfresh : s₀.RecordsLast s₀.file := by
    intro name
    obtain ⟨options, config, plan, stopped, hstack⟩ := hinit.1
    simp [hstack, (Stack.unasked_initial options config plan.1 stopped).2.1]
  exact (hrun.invariant (I := fun s => s.Served ∧ s.RecordsLast s₀.file)
    ⟨served_of_init hinit, hfresh⟩ fun _ h hguard hstep =>
      ⟨h.1.step hstep, h.2.step h.1 hguard hstep⟩).2

namespace Stopped

/-- Daemons that started one after another, each from the file the one before has left, and answered
all their clients before they ended. -/
inductive Lived (before : Option String) : List Life → Option String → Prop
  | none : Lived before [] before
  | next {lives : List Life} {file : Option String} (h : Lived before lives file)
      {options : StackOptions} {config : ValidConfig} {plan : StartPlan config.1}
      {names : List ValidName} (hnames : names.map Subtype.val = plan.1) {s : Clients}
      (hrun : clientSystem.Steps Clients.InOrder (.boot options config plan names file) s)
      (hanswered : s.AllAnswered) : Lived before (lives ++ [⟨config.1, s.decisions⟩]) s.file

/-- Whether a service is stopped by hand: the last decision about it was to stop it, and since then
no daemon was started with a configuration that does not declare it. -/
def stoppedAfter (before : Option String) (lives : List Life) (name : String) : Bool :=
  lives.foldl (fun stopped life => (life.decisions name).getLast?.getD
    (stopped && decide ((⟨name⟩ : ServiceName) ∈ life.config.services))) (decide (name ∈ read before))

variable {before file : Option String} {lives : List Life}

/-- The file knows what was decided, over any number of daemons. -/
theorem Lived.mem_read (h : Lived before lives file) (name : String) :
    name ∈ read file ↔ stoppedAfter before lives name := by
  induction h with
  | none => exact (decide_eq_true_iff).symm
  | @next lives file _ options config plan names _ s hrun hanswered ih =>
    have hinit : clientSystem.init (.boot options config plan names file) :=
      ⟨⟨options, config, plan, _, rfl⟩, rfl, rfl⟩
    have hlast := (Clients.recordsLast_of_steps hinit hrun).remembersLast hanswered name
    rw [stoppedAfter, List.foldl_concat, ← stoppedAfter, hlast]
    cases (s.decisions name).getLast? with
    | some stopped => rfl
    | none =>
      rw [Option.getD_none, Bool.and_eq_true, decide_eq_true_iff, ← ih]
      exact mem_read_reconcile

/-- **Which services a daemon starts.** After any number of daemons that answered all their clients
and in which no decision was recorded after a later one: the next daemon spawns, as it starts, exactly
the planned services that neither are nor depend, directly or not, on one that is to stay stopped and
about which the last decision was to stop it. -/
theorem started_iff (hlived : Lived before lives file) {host : Host} {raw : RawConfig}
    {sourcePath : String} {config : LoadedConfig} {warnings : List ConfigWarning}
    (haccepted : validateRaw host raw sourcePath = .ok (config, warnings))
    (hvalid : config.toConfig.Valid) (plan : StartPlan config.toConfig) (options : StackOptions)
    (names : List ValidName) (name : ServiceName) :
    name ∈ (Clients.boot options ⟨config.toConfig, hvalid⟩ plan names file).stack.tasks.map
        (·.service.name) ↔
      name ∈ plan.1 ∧ ∀ seed, Relation.ReflTransGen config.DependsOn name seed →
        ∀ service, config.services[seed]? = some service → service.restart = .unlessStopped →
          stoppedAfter before lives seed.raw = false := by
  obtain ⟨selection, hplan⟩ := plan.2
  have hspec := (invariant_of_validateRaw haccepted).isPlanOf hplan
  have hremembered (seed : ServiceName) :
      seed.raw ∈ read (reconcile file config.toConfig).2 ↔
        stoppedAfter before lives seed.raw ∧ seed ∈ config.services := by
    rw [mem_read_reconcile, hlived.mem_read]
  rw [Clients.boot, names_initial, List.mem_filter, decide_eq_true_iff, mem_heldBack hspec.order
    fun name hname dep => hspec.least.1.2 name hname dep]
  refine and_congr_right fun hname => ?_
  rw [not_and, not_exists]
  constructor
  · intro hnot seed hreach service hservice hrestart
    by_contra hstopped
    refine hnot hname seed ⟨hreach, (hremembered seed).mpr ⟨?_, ?_⟩, service, hservice, hrestart⟩
    · exact Bool.of_not_eq_false hstopped
    · exact ExtTreeMap.isSome_getElem?_iff_mem.mp (Option.isSome_iff_exists.mpr ⟨service, hservice⟩)
  · rintro hall - seed ⟨hreach, hmem, service, hservice, hrestart⟩
    have hstopped := ((hremembered seed).mp hmem).1
    rw [hall seed hreach service hservice hrestart] at hstopped
    cases hstopped

/-- Whether no decision is recorded after a later one of the other kind was. -/
def recordsInOrder (s : Clients) : ClientAction → Bool
  | .remember ack => !decide (s.Overtaken ack)
  | _ => true

/-- A client stops the database. -/
def stopDb : List ClientAction :=
  [.request .stopService "db" true, .stack .control, .stack Stack.sampleEnd, .stack .report,
    .receive 0, .remember 0]

/-- The database was stopped, and the next daemon, which has another configuration, does not start
it. -/
theorem started_iff_db : ∃ (s : Clients) (config : LoadedConfig) (hvalid : config.toConfig.Valid)
    (plan : StartPlan config.toConfig), s.decisions "db" = [true] ∧ ⟨"db"⟩ ∈ plan.1 ∧
      ⟨"db"⟩ ∉ (Clients.boot sampleOptions ⟨config.toConfig, hvalid⟩ plan [] s.file).stack.tasks.map
        (·.service.name) := by
  let first : Clients := .boot sampleOptions sampleConfig samplePlan Clients.sample.names none
  have hrun : (clientSystem.checkedRun recordsInOrder first stopDb).map (fun s => decide
      (s.connections.toList.all (fun entry => entry.2.phase.isAnswered) ∧
        s.decisions "db" = [true])) = some true := by
    decide +kernel
  obtain ⟨s, hs, hfacts⟩ := Option.map_eq_some_iff.mp hrun
  obtain ⟨hanswered, hdecisions⟩ := of_decide_eq_true hfacts
  have hsteps : clientSystem.Steps Clients.InOrder first s := by
    refine TransitionSystem.steps_of_checkedRun (fun u action u' hcheck _ => ?_) hs
    rintro ack rfl
    simpa [recordsInOrder] using hcheck
  have hlived : Lived none [⟨sampleConfig.1, s.decisions⟩] s.file :=
    .next .none rfl hsteps (Clients.allAnswered_of_toList hanswered)
  let plan : List ServiceName := [⟨"cache"⟩, ⟨"db"⟩, ⟨"api"⟩, ⟨"web"⟩]
  let read (config : LoadedConfig) : Bool :=
    (planStack config.toConfig { services := [], profiles := [] }).toOption = some plan ∧
      config.services[(⟨"db"⟩ : ServiceName)]?.any fun service => service.restart == .unlessStopped
  have hread : (validateRaw exampleHost exampleStack "/srv/servicrab.toml").toOption.map
      (fun loaded => read loaded.1) = some true := by decide +kernel
  obtain ⟨config, warnings, haccepted, hconfig⟩ := exists_accepted read hread
  obtain ⟨hfound, hdb⟩ := of_decide_eq_true hconfig
  obtain ⟨service, hservice, hrestart⟩ := (Option.any_eq_true _ _).mp hdb
  have hvalid : config.toConfig.Valid := (invariant_of_validateRaw haccepted).valid
  let planned : StartPlan config.toConfig := ⟨plan, _, Fallible.eq_ok_of_toOption hfound⟩
  refine ⟨s, config, hvalid, planned, hdecisions, by simp [planned, plan], fun hmem => ?_⟩
  have hnot := ((started_iff hlived haccepted hvalid planned sampleOptions [] _).mp hmem).2 ⟨"db"⟩
    .refl service hservice (eq_of_beq hrestart)
  simp [stoppedAfter, hdecisions] at hnot

end Stopped

end Servicrab
