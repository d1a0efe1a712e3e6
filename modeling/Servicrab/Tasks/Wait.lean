import Servicrab.Tasks.Blocked

/-!
# The wait for the dependencies

`wait_for_dependencies` (`stack.rs`) by itself: one task that looks at its dependencies one after
another, and everything else that happens between two of its steps, which is any change at all of
what it sees. The tasks of the supervisor wait in this way.

A wait that is turned away has seen why. One that returns `Ready` has seen each dependency ready at
some time, but it does not look at a dependency again once it has accepted it, so that this one may
have gone while a later one was pending.

## Main definitions

* `Wait`, `waitSystem`.
* `Wait.accepted`: the dependencies that a wait does not look at any more.
* `Wait.Sound`: what is asked of a wait that has returned.
* `Wait.KeepsAccepted`: the guard.

## Main results

* `Wait.wait_sound_of_keeps`.
* `World.exists_wait`: the tasks of the supervisor wait in this way.
-/

open TransitionSystem (AnyStep)

namespace Servicrab

/-- Whether the dependency can no longer meet the condition of the edge. -/
def World.gone (w : World) (edge : DependencyEdge) : Bool :=
  w.stack.cells[edge.status]?.any fun cell => cell.status.readiness edge.condition = .gone

/-- A task in `wait_for_dependencies`, and the world that it sees. -/
structure Wait where
  task : ℕ
  spawned : Task
  world : World
  state : TaskLocal
  /-- The dependency whose status was read last, with this status. -/
  lastRead : Option (DependencyEdge × DependencyStatus)

/-- A change of the world, or a step of the wait. -/
inductive WaitAction
  | change (world : World)
  | look
  | lost
  | heed (reason : ShutdownReason)

namespace Wait

/-- The dependencies that are left, the next one first, as long as the wait has not returned. -/
def rest (s : Wait) : Option (List DependencyEdge) :=
  match s.state.phase with
  | .waiting rest _ => some rest
  | _ => none

/-- The dependencies that were found ready. -/
def accepted (s : Wait) : List DependencyEdge :=
  match s.rest with
  | some rest => s.spawned.deps.take (s.spawned.deps.length - rest.length)
  | none => []

/-- The status that is read by a look at the next dependency. -/
def read (s : Wait) : Option (DependencyEdge × DependencyStatus) :=
  match s.rest with
  | some (edge :: _) => s.world.stack.cells[edge.status]?.map fun cell => (edge, cell.status)
  | _ => none

/-- One step of a wait that has not returned. -/
def step (s : Wait) (action : WaitAction) : Option Wait :=
  if s.rest = none then none
  else
    match action with
    | .change world => some { s with world := world }
    | .look => (s.world.stepLocal s.task s.spawned s.state .look).map fun next =>
      { s with state := next.1, lastRead := s.read.or s.lastRead }
    | .lost => (s.world.stepLocal s.task s.spawned s.state .lost).map fun next =>
      { s with state := next.1 }
    | .heed reason => (s.world.stepLocal s.task s.spawned s.state (.heed reason)).map fun next =>
      { s with state := next.1 }

/-- What a wait has to be right about when it has returned. -/
structure Sound (s : Wait) : Prop where
  /-- The service is started only if none of its dependencies has gone. -/
  ready : s.state.phase = .running → ∀ edge ∈ s.spawned.deps, ¬s.world.gone edge
  /-- A dependency that is blamed was seen to have gone, or has nobody left to speak for it. -/
  blocked : ∀ name, s.state.phase = TaskLocal.blocked name →
    ∃ edge ∈ s.spawned.deps, edge.name = name ∧
      ((∃ status, s.lastRead = some (edge, status) ∧ status.readiness edge.condition = .gone) ∨
        s.world.hasSender edge.status = false)

/-- The guard that no dependency goes once it was accepted. -/
def KeepsAccepted (s : Wait) (_ : WaitAction) (s' : Wait) : Prop :=
  ∀ edge ∈ s.accepted, s'.world.gone edge → s.world.gone edge

end Wait

/-- The runs of `wait_for_dependencies`, whatever happens around it. -/
def waitSystem : TransitionSystem Wait WaitAction where
  init s := s.state = TaskLocal.new s.spawned ∧ s.lastRead = none
  step := Wait.step

namespace Wait

/-! ### A step of a wait -/

/-- What a step does to a wait. -/
inductive Moves (s : Wait) : WaitAction → Wait → Prop
  | change (hrest : s.rest ≠ none) (world : World) : Moves s (.change world) { s with world := world }
  | ready {edge : DependencyEdge} {rest : List DependencyEdge} {looked : Bool} {cell : Cell}
    (hphase : s.state.phase = .waiting (edge :: rest) looked)
    (hcell : s.world.stack.cells[edge.status]? = some cell)
    (hready : cell.status.readiness edge.condition = .ready) :
    Moves s .look { s with
      state := { s.state with phase := .waiting rest false }
      lastRead := some (edge, cell.status) }
  | gone {edge : DependencyEdge} {rest : List DependencyEdge} {looked : Bool} {cell : Cell}
    (hphase : s.state.phase = .waiting (edge :: rest) looked)
    (hgone : cell.status.readiness edge.condition = .gone) :
    Moves s .look { s with
      state := { s.state with phase := TaskLocal.blocked edge.name }
      lastRead := some (edge, cell.status) }
  | pending {edge : DependencyEdge} {rest : List DependencyEdge} {looked : Bool} {cell : Cell}
    (hphase : s.state.phase = .waiting (edge :: rest) looked) :
    Moves s .look { s with
      state := { s.state with phase := .waiting (edge :: rest) true }
      lastRead := some (edge, cell.status) }
  | started {looked : Bool} {state : TaskLocal} (hphase : s.state.phase = .waiting [] looked)
    (hstate : state.phase = .running) :
    Moves s .look { s with state := state }
  | lost {edge : DependencyEdge} {rest : List DependencyEdge}
    (hphase : s.state.phase = .waiting (edge :: rest) true)
    (hsender : s.world.hasSender edge.status = false) :
    Moves s .lost { s with state := { s.state with phase := TaskLocal.blocked edge.name } }
  | heed (reason : ShutdownReason) :
    Moves s (.heed reason) { s with state := { s.state with phase := TaskLocal.shutDown reason } }

variable {s s' : Wait} {edge : DependencyEdge} {rest : List DependencyEdge} {looked : Bool}
  {name : ServiceName}

theorem rest_eq (hphase : s.state.phase = .waiting rest looked) : s.rest = some rest := by
  rw [Wait.rest, hphase]

theorem moves_of_step {action : WaitAction} (h : s.step action = some s') : s.Moves action s' := by
  unfold step at h
  split_ifs at h with hrest
  cases action with
  | change world =>
    obtain rfl := Option.some.inj h
    exact .change hrest world
  | look =>
    obtain ⟨next, hlocal, rfl⟩ := Option.map_eq_some_iff.mp h
    cases World.localStep_of_step hlocal with
    | ready hphase hcell hready =>
      simp only [read, rest_eq hphase, hcell, Option.map_some, Option.some_or]
      exact .ready hphase hcell hready
    | gone hphase hcell hgone =>
      simp only [read, rest_eq hphase, hcell, Option.map_some, Option.some_or]
      exact .gone hphase hgone
    | pending hphase hcell =>
      simp only [read, rest_eq hphase, hcell, Option.map_some, Option.some_or]
      exact .pending hphase
    | started hphase =>
      simp only [read, rest_eq hphase, Option.none_or]
      exact .started hphase rfl
  | lost =>
    obtain ⟨next, hlocal, rfl⟩ := Option.map_eq_some_iff.mp h
    cases World.localStep_of_step hlocal with
    | lost hphase hsender => exact .lost hphase hsender
  | heed reason =>
    obtain ⟨next, hlocal, rfl⟩ := Option.map_eq_some_iff.mp h
    cases World.localStep_of_step hlocal with
    | heed hphase => exact .heed reason

/-! ### What a wait has seen -/

theorem blocked_inj {dependency : ServiceName} :
    TaskLocal.blocked dependency = TaskLocal.blocked name ↔ dependency = name := by
  simp only [TaskLocal.blocked, TaskPhase.ending.injEq, List.cons.injEq, Effect.emit.injEq,
    Effect.report.injEq, EventKind.skipped.injEq, ServiceResult.skipped.injEq, and_true, true_and,
    and_self]

/-- What holds of a wait whatever happens around it. -/
structure Follows (s : Wait) : Prop where
  suffix : ∀ rest, s.rest = some rest → rest <:+ s.spawned.deps
  /-- The service is not run yet. -/
  idle : s.rest ≠ none → s.state.run = none ∧ s.state.relay = none
  blocked : ∀ name, s.state.phase = TaskLocal.blocked name →
    ∃ edge ∈ s.spawned.deps, edge.name = name ∧
      ((∃ status, s.lastRead = some (edge, status) ∧ status.readiness edge.condition = .gone) ∨
        s.world.hasSender edge.status = false)

/-- A wait that has just been given up. -/
theorem Follows.giveUp {edge : DependencyEdge} (hI : s.Follows)
    (hphase : s.state.phase = .waiting (edge :: rest) looked) (hspawned : s'.spawned = s.spawned)
    (hblocked : s'.state.phase = TaskLocal.blocked edge.name)
    (hwhy : (∃ status, s'.lastRead = some (edge, status) ∧
      status.readiness edge.condition = .gone) ∨ s'.world.hasSender edge.status = false) :
    s'.Follows := by
  have hrest : s'.rest = none := by
    rw [Wait.rest, hblocked]
    rfl
  refine ⟨fun rest hsome => ?_, fun hsome => absurd hrest hsome, fun name hname => ?_⟩
  · rw [hrest] at hsome
    cases hsome
  · have hmem := (hI.suffix _ (rest_eq hphase)).subset List.mem_cons_self
    rw [hspawned]
    exact ⟨edge, hmem, blocked_inj.mp (hblocked.symm.trans hname), hwhy⟩

/-- A wait that is over in another way. -/
theorem follows_of_over (hrest : s.rest = none)
    (hnot : ∀ name, s.state.phase ≠ TaskLocal.blocked name) : s.Follows := by
  refine ⟨fun rest hsome => ?_, fun hsome => absurd hrest hsome,
    fun name hname => absurd hname (hnot name)⟩
  rw [hrest] at hsome
  cases hsome

theorem follows_of_reachable {C : Wait → WaitAction → Wait → Prop}
    (h : waitSystem.Reachable C s) : s.Follows := by
  refine h.invariant (I := Follows) ?_ fun {u action v} _ hI _ hstep => ?_
  · rintro s₀ ⟨hstate, -⟩
    constructor
    case suffix =>
      intro rest hrest
      rw [Wait.rest, hstate] at hrest
      obtain rfl := Option.some.inj hrest
      exact List.suffix_refl _
    case idle => exact fun _ => by rw [hstate]; exact ⟨rfl, rfl⟩
    case blocked =>
      intro name hphase
      rw [hstate] at hphase
      cases hphase
  · have hidle {rest : List DependencyEdge} {looked : Bool}
        (hphase : u.state.phase = .waiting rest looked) :=
      hI.idle (by rw [rest_eq hphase]; exact Option.some_ne_none _)
    cases moves_of_step hstep with
    | change hrest world =>
      refine ⟨hI.suffix, hI.idle, fun name hphase => absurd ?_ hrest⟩
      rw [Wait.rest, show u.state.phase = TaskLocal.blocked name from hphase]
      rfl
    | ready hphase =>
      refine ⟨?_, fun _ => hidle hphase, fun name hname => nomatch hname⟩
      rintro _ ⟨⟩
      exact (List.suffix_cons _ _).trans (hI.suffix _ (rest_eq hphase))
    | gone hphase hgone => exact hI.giveUp hphase rfl rfl (.inl ⟨_, rfl, hgone⟩)
    | pending hphase =>
      refine ⟨?_, fun _ => hidle hphase, fun name hname => nomatch hname⟩
      rintro _ ⟨⟩
      exact hI.suffix _ (rest_eq hphase)
    | started hphase hstate =>
      refine follows_of_over (by simp [Wait.rest, hstate]) fun name hname => ?_
      rw [hstate] at hname
      cases hname
    | lost hphase hsender => exact hI.giveUp hphase rfl rfl (.inr hsender)
    | heed reason =>
      exact follows_of_over rfl fun name => by simp [TaskLocal.shutDown, TaskLocal.blocked]

/-! ### Dependencies that were accepted -/

theorem accepted_eq {front : List DependencyEdge} (hrest : s.rest = some rest)
    (hdeps : s.spawned.deps = front ++ rest) : s.accepted = front := by
  simp [accepted, hrest, hdeps]

/-- No dependency that was accepted has gone. -/
structure Kept (s : Wait) : Prop where
  accepted : ∀ front rest, s.rest = some rest → s.spawned.deps = front ++ rest →
    ∀ edge ∈ front, ¬s.world.gone edge
  ready : s.state.phase = .running → ∀ edge ∈ s.spawned.deps, ¬s.world.gone edge

theorem kept_of_reachable (h : waitSystem.Reachable KeepsAccepted s) : s.Kept := by
  refine h.invariant (I := Kept) ?_ fun {u action v} hu hI hguard hstep => ?_
  · rintro s₀ ⟨hstate, -⟩
    constructor
    · intro front rest hrest hdeps edge hedge
      rw [Wait.rest, hstate] at hrest
      obtain rfl : s₀.spawned.deps = rest := Option.some.inj hrest
      rw [List.self_eq_append_left.mp hdeps] at hedge
      exact absurd hedge List.not_mem_nil
    · intro hphase
      rw [hstate] at hphase
      cases hphase
  · cases moves_of_step hstep with
    | change hrest world =>
      constructor
      · intro front rest hrest hdeps edge hedge hgone
        have haccepted : u.accepted = front := accepted_eq hrest hdeps
        exact hI.accepted front rest hrest hdeps edge hedge (hguard edge (haccepted ▸ hedge) hgone)
      · intro hphase
        refine absurd ?_ hrest
        rw [Wait.rest, show u.state.phase = .running from hphase]
    | @ready edge rest looked cell hphase hcell hready =>
      refine ⟨?_, fun hrunning => nomatch hrunning⟩
      rintro front _ ⟨⟩ hdeps other hother
      obtain ⟨front', hdeps'⟩ := (follows_of_reachable hu).suffix _ (rest_eq hphase)
      have hfront : front = front' ++ [edge] := by
        refine List.append_cancel_right (hdeps.symm.trans ?_)
        rw [← hdeps', List.append_assoc, List.singleton_append]
      rw [hfront] at hother
      rcases List.mem_append.mp hother with hother | hother
      · exact hI.accepted front' _ (rest_eq hphase) hdeps'.symm other hother
      · obtain rfl := List.mem_singleton.mp hother
        simp [World.gone, hcell, hready]
    | pending hphase =>
      refine ⟨?_, fun hrunning => nomatch hrunning⟩
      rintro front _ ⟨⟩ hdeps
      exact hI.accepted front _ (rest_eq hphase) hdeps
    | started hphase hstate =>
      constructor
      · intro front rest hrest
        simp [Wait.rest, hstate] at hrest
      · exact fun _ => hI.accepted u.spawned.deps [] (rest_eq hphase) (List.append_nil _).symm
    | gone | lost | heed =>
      exact ⟨fun front rest hrest => (nomatch hrest), fun hrunning => (nomatch hrunning)⟩

/-- **A wait that returned `Ready`** has no dependency that has gone, in every run in which no
dependency goes once it was accepted; and one that was turned away has seen why. -/
theorem wait_sound_of_keeps (h : waitSystem.Reachable KeepsAccepted s) : s.Sound where
  ready := (kept_of_reachable h).ready
  blocked := (follows_of_reachable h).blocked

/-- Two dependencies in given states. -/
def pairWorld (first second : ServiceState) : World :=
  { sampleWorld with
    stack := { sampleStack with
      cells := [⟨{ DependencyStatus.new with state := first }, 0⟩,
        ⟨{ DependencyStatus.new with state := second }, 0⟩] } }

def pairTask : Task where
  service := sampleService "web" ["db", "cache"] []
  deps := [⟨⟨"db"⟩, .serviceStarted, 0⟩, ⟨⟨"cache"⟩, .serviceStarted, 1⟩]
  shared := 2

/-- A wait for a service that runs and one that is starting. -/
def pairWait : Wait := ⟨1, pairTask, pairWorld .running .starting, .new pairTask, none⟩

/-- Evaluates the guard. -/
def keepsAccepted (s : Wait) (action : WaitAction) : Bool :=
  match s.step action with
  | some s' => s.accepted.all fun edge => !s'.world.gone edge || s.world.gone edge
  | none => true

theorem keepsAccepted_of_check (s : Wait) (action : WaitAction) (s' : Wait)
    (h : keepsAccepted s action) (hstep : waitSystem.step s action = some s') :
    KeepsAccepted s action s' := by
  have hstep' : s.step action = some s' := hstep
  simp only [keepsAccepted, hstep'] at h
  intro edge hedge hgone
  simpa [hgone] using List.all_eq_true.mp h edge hedge

/-- The first service goes on while the second one is awaited. -/
theorem sound_pair : ∃ s, waitSystem.checkedRun keepsAccepted pairWait
    [.look, .look, .change (pairWorld .running .running), .look, .look] = some s ∧
      s.state.phase = .running ∧ s.Sound := by
  have hrun : ((waitSystem.checkedRun keepsAccepted pairWait
      [.look, .look, .change (pairWorld .running .running), .look, .look]).map fun s =>
        decide (s.state.phase = .running)) = some true := by decide +kernel
  obtain ⟨s, hs, hphase⟩ := Option.map_eq_some_iff.mp hrun
  refine ⟨s, hs, of_decide_eq_true hphase, wait_sound_of_keeps ?_⟩
  exact ⟨pairWait, ⟨rfl, rfl⟩, TransitionSystem.steps_of_checkedRun keepsAccepted_of_check hs⟩

/-- The first service fails while the second one is awaited. -/
theorem not_sound_failed : ¬∀ s, waitSystem.Reachable AnyStep s → s.Sound := by
  intro hall
  have hrun : ((waitSystem.run pairWait
      [.look, .look, .change (pairWorld .failed .running), .look, .look]).map fun s =>
        decide (s.state.phase = .running ∧ ∃ edge ∈ s.spawned.deps, s.world.gone edge)) =
      some true := by decide +kernel
  obtain ⟨s, hs, hfacts⟩ := Option.map_eq_some_iff.mp hrun
  obtain ⟨hphase, edge, hedge, hgone⟩ := of_decide_eq_true hfacts
  exact (hall s ⟨pairWait, ⟨rfl, rfl⟩, TransitionSystem.steps_of_run hs⟩).ready hphase edge hedge hgone

end Wait

/-! ### The tasks of the supervisor -/

namespace World

variable {w w' : World} {task : ℕ} {spawned : Task} {l : TaskLocal} {rest : List DependencyEdge}
  {looked : Bool}

/-- The task is in a wait of its own, for which the world may have changed in any way. -/
def Waits (w : World) : Prop :=
  ∀ task spawned l rest looked, w.stack.tasks[task]? = some spawned → w.locals[task]? = some l →
    l.phase = .waiting rest looked →
      ∃ lastRead, waitSystem.Reachable AnyStep ⟨task, spawned, w, l, lastRead⟩

/-- The world around a wait changes. -/
theorem reachable_change {lastRead : Option (DependencyEdge × DependencyStatus)}
    (h : waitSystem.Reachable AnyStep ⟨task, spawned, w, l, lastRead⟩)
    (hphase : l.phase = .waiting rest looked) (w' : World) :
    waitSystem.Reachable AnyStep ⟨task, spawned, w', l, lastRead⟩ := by
  refine h.step (a := .change w') trivial (if_neg ?_)
  rw [Wait.rest_eq hphase]
  exact Option.some_ne_none _

theorem Waits.stepTask (h : w.Waits) {taskAction : TaskAction}
    (hspawned : w.stack.tasks[task]? = some spawned) (hl : w.locals[task]? = some l)
    (hstep : w.stepTask task spawned l taskAction = some w') : w'.Waits := by
  obtain ⟨next, hlocal, hlocals, -, heffect⟩ := stepTask_cases hstep
  have htasks : w'.stack.tasks = w.stack.tasks := by
    split at heffect
    · exact (quiet_of_perform heffect).tasks_eq
    · rw [heffect]
  intro other spawned' l' rest looked hspawned' hl' hphase
  rw [htasks] at hspawned'
  rw [hlocals, List.getElem?_set] at hl'
  split_ifs at hl' with he hlt
  · subst he
    obtain rfl := Option.some.inj hl'
    obtain rfl := Option.some.inj (hspawned.symm.trans hspawned')
    have hstill {rest : List DependencyEdge} {looked : Bool} (hbefore : l.phase = .waiting rest looked)
        (hlook : taskAction = .look) :
        ∃ lastRead, waitSystem.Reachable AnyStep ⟨task, spawned, w', next.1, lastRead⟩ := by
      subst hlook
      obtain ⟨lastRead, hreach⟩ := h task spawned l _ _ hspawned hl hbefore
      let s : Wait := ⟨task, spawned, w, l, lastRead⟩
      have hwait : s.rest ≠ none := by
        rw [Wait.rest_eq (s := s) hbefore]
        exact Option.some_ne_none _
      have hlook : waitSystem.step s .look =
          some ⟨task, spawned, w, next.1, s.read.or lastRead⟩ := by
        simp only [waitSystem, Wait.step, if_neg hwait, s, hlocal, Option.map_some]
      exact ⟨_, reachable_change (hreach.step trivial hlook) hphase w'⟩
    have hidle (hbefore : l.phase = .waiting rest looked) : l.run = none ∧ l.relay = none := by
      obtain ⟨lastRead, hreach⟩ := h task spawned l _ _ hspawned hl hbefore
      exact (Wait.follows_of_reachable hreach).idle (by
        rw [Wait.rest_eq hbefore]
        exact Option.some_ne_none _)
    cases localStep_of_step hlocal with
    | ready hbefore => exact hstill hbefore rfl
    | pending hbefore => exact hstill hbefore rfl
    | run hrun => exact absurd ((hidle hphase).1.symm.trans hrun) nofun
    | receive hrelay => exact absurd ((hidle hphase).2.symm.trans hrelay) nofun
    | relay hrelay => exact absurd ((hidle hphase).2.symm.trans hrelay) nofun
    | close hrelay => exact absurd ((hidle hphase).2.symm.trans hrelay) nofun
    | wrapUp =>
      unfold TaskLocal.wrappedUp at hphase
      split at hphase <;> cases hphase
    | gone | lost | heed | started | conclude => cases hphase
  · obtain ⟨lastRead, hreach⟩ := h other spawned' l' _ _ hspawned' hl' hphase
    exact ⟨lastRead, reachable_change hreach hphase w'⟩

/-- **The tasks of the supervisor wait** like this, as long as they wait. -/
theorem exists_wait {C : World → WorldAction → World → Prop} (h : worldSystem.Reachable C w) :
    w.Waits := by
  refine h.invariant (I := Waits) ?_ fun {u action v} hu hI _ hstep => ?_
  · rintro w₀ ⟨stack, -, rfl⟩ task spawned l rest looked hspawned hl hphase
    have hnew : l = TaskLocal.new spawned := by
      have hl : (stack.tasks.map TaskLocal.new)[task]? = some l := hl
      rw [List.getElem?_map, show stack.tasks[task]? = some spawned from hspawned] at hl
      exact (Option.some.inj hl).symm
    exact ⟨none, .initial ⟨hnew, rfl⟩⟩
  · rcases step_cases hstep with ⟨stackAction, stack, rfl, -, hs, rfl⟩ | ⟨_, request, -, rfl⟩ |
      ⟨task, taskAction, spawned, l, -, hspawned, hl, hs⟩
    · intro task spawned l rest looked hspawned hl hphase
      rcases locals_withStack_cases hl with hl | ⟨-, spawned', hspawned', rfl⟩
      · have hlt : task < u.stack.tasks.length := by
          rw [← (settled_of_reachable hu).length_eq]
          exact (List.getElem?_eq_some_iff.mp hl).1
        have hbefore : u.stack.tasks[task]? = some spawned := by
          obtain ⟨added, hadded⟩ := (Stack.step_grows (inv_of_reachable hu) hs).1
          have hspawned : stack.tasks[task]? = some spawned := hspawned
          rwa [← hadded, List.getElem?_append_left hlt] at hspawned
        obtain ⟨lastRead, hreach⟩ := hI task spawned l rest looked hbefore hl hphase
        exact ⟨lastRead, reachable_change hreach hphase _⟩
      · obtain rfl := Option.some.inj (hspawned'.symm.trans hspawned)
        exact ⟨none, .initial ⟨rfl, rfl⟩⟩
    · intro task spawned l rest looked hspawned hl hphase
      obtain ⟨lastRead, hreach⟩ := hI task spawned l rest looked hspawned hl hphase
      exact ⟨lastRead, reachable_change hreach hphase _⟩
    · exact hI.stepTask hspawned hl hs

end World

end Servicrab
