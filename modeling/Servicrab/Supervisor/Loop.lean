import Servicrab.Library.TransitionSystem
import Servicrab.Library.TreeMap
import Servicrab.Supervisor.State

/-!
# The supervisor loop

`StackSupervisor::run`, `handle_control` and `reload` as functions on `Stack`, and the transition
system whose actions are the arms of the loop's `select!` and the moves of its surroundings: a
client submits a command, a supervision task ends with its report, some task writes to a shared
cell or sends an event. Every order of these actions is a run, so a supervision task is not
assumed to do anything in particular, except that it reports exactly once.

## Main definitions

* `Stack.handleControl`, `Stack.reload`, `Stack.handleReport`.
* `Stack.initial`, `Stack.step`, `stackSystem`.
-/

open Std (ExtTreeMap)

namespace Servicrab

namespace Stack

variable (w : Stack)

/-! ### Reload -/

/-- The reload phase for one service that is not part of the new plan. -/
def removeService (name : ServiceName) : Stack :=
  match w.slots[name]? with
  | none => w
  | some slot =>
    match slot.stop with
    | some stop =>
      (w.setSlot name { slot with retired := true, restartWhenStopped := false }).request stop
        .requested
    | none => { w with slots := w.slots.erase name }

section

variable {w : Stack} {name : ServiceName} {slot : Slot}

theorem removeService_of_none (hs : w.slots[name]? = none) : w.removeService name = w := by
  simp only [removeService, hs]

theorem removeService_of_live (hs : w.slots[name]? = some slot) {stop : ℕ}
    (hstop : slot.stop = some stop) :
    w.removeService name =
      (w.setSlot name { slot with retired := true, restartWhenStopped := false }).request stop
        .requested := by
  simp only [removeService, hs, hstop]

theorem removeService_of_idle (hs : w.slots[name]? = some slot) (hstop : slot.stop = none) :
    w.removeService name = { w with slots := w.slots.erase name } := by
  simp only [removeService, hs, hstop]

end

/-- The reload phase for one service the new plan adds. A slot that is still there is revived: it
is winding down, and its replacement is spawned once the old task reports. -/
def addService (config : Config) (name : ServiceName) : Stack :=
  match config.services[name]? with
  | none => w
  | some service =>
    match w.slots[name]? with
    | some slot =>
      (w.debugAssert slot.retired (.revivedSlotIsRetired name)).setSlot name
        { slot with
          retired := false, service := service, restartWhenStopped := slot.stop.isSome }
    | none => w.insertSlot name service

section

variable {w : Stack} {config : Config} {name : ServiceName} {slot : Slot} {service : Service}

theorem addService_of_none (hservice : config.services[name]? = some service)
    (hs : w.slots[name]? = none) : w.addService config name = w.insertSlot name service := by
  simp only [addService, hservice, hs]

/-- A retired slot is revived. -/
theorem addService_of_retired (hservice : config.services[name]? = some service)
    (hs : w.slots[name]? = some slot) (hretired : slot.retired) :
    w.addService config name = w.setSlot name
      { slot with
        retired := false, service := service, restartWhenStopped := slot.stop.isSome } := by
  simp only [addService, hservice, hs, debugAssert, hretired, if_true]

end

/-- The reload phase for one service whose definition changed. One that was stopped on purpose
stays stopped. -/
def changeService (config : Config) (name : ServiceName) : Stack :=
  match config.services[name]?, w.slots[name]? with
  | some service, some slot =>
    match slot.stop with
    | some stop =>
      (w.setSlot name { slot with service := service, restartWhenStopped := true }).request stop
        .requested
    | none => w.setSlot name { slot with service := service }
  | _, _ => w

section

variable {w : Stack} {config : Config} {name : ServiceName} {slot : Slot} {service : Service}

theorem changeService_of_live (hservice : config.services[name]? = some service)
    (hs : w.slots[name]? = some slot) {stop : ℕ} (hstop : slot.stop = some stop) :
    w.changeService config name =
      (w.setSlot name { slot with service := service, restartWhenStopped := true }).request stop
        .requested := by
  simp only [changeService, hservice, hs, hstop]

theorem changeService_of_idle (hservice : config.services[name]? = some service)
    (hs : w.slots[name]? = some slot) (hstop : slot.stop = none) :
    w.changeService config name = w.setSlot name { slot with service := service } := by
  simp only [changeService, hservice, hs, hstop]

end

/-- The last reload phase, for one added service: a revived slot is left to the report arm. -/
def spawnAdded (name : ServiceName) : Stack :=
  match w.slots[name]? with
  | some slot => if slot.restartWhenStopped || slot.isRunning then w else w.spawn name slot
  | none => w

section

variable {w : Stack} {name : ServiceName} {slot : Slot}

theorem spawnAdded_of_idle (hs : w.slots[name]? = some slot)
    (hrestart : slot.restartWhenStopped = false) (hhandle : slot.handle = none) :
    w.spawnAdded name = w.spawn name slot := by
  simp [spawnAdded, hs, hrestart, Slot.isRunning, hhandle]

theorem spawnAdded_of_flag (hs : w.slots[name]? = some slot)
    (h : slot.restartWhenStopped ∨ slot.handle.isSome) : w.spawnAdded name = w := by
  have hc : (slot.restartWhenStopped || slot.isRunning) = true := by simpa [Slot.isRunning] using h
  simp only [spawnAdded, hs, hc, if_true]

end

/-- The first slot, in the order of the names, that has a command in flight. -/
def busySlot : Option ServiceName :=
  (w.slots.toList.find? fun entry => entry.2.pending.isSome).map Prod.fst

/-- No slot is busy exactly when none has a command in flight. -/
theorem busySlot_eq_none :
    w.busySlot = none ↔
      ∀ (name : ServiceName) (slot : Slot), w.slots[name]? = some slot → slot.pending = none := by
  simp only [busySlot, Option.map_eq_none_iff, TreeMap.find?_toList_eq_none, Option.isSome_eq_false_iff,
    Option.isNone_iff_eq_none]

/-- A reload, once no command is in flight, up to the point where every slot is wired to the
slots that now exist. -/
def wireReload (config : ValidConfig) (plan : List ServiceName) : Stack :=
  let diff := w.diff config.1 plan
  let w := { w with config := config, plan := plan }
  let w := diff.removed.foldl removeService w
  let w := diff.added.foldl (addService · config.1) w
  let w := diff.changed.foldl (changeService · config.1) w
  w.rewireDependencies

/-- What a reload does once no command is in flight. -/
def applyReload (config : ValidConfig) (plan : List ServiceName) : Stack :=
  (w.diff config.1 plan).added.foldl spawnAdded (w.wireReload config plan)

/-- Swap the running configuration for a freshly validated one. -/
def reload (config : ValidConfig) (plan : List ServiceName) : Stack × Verdict :=
  match w.busySlot with
  | some busy => (w, .error (.busy busy))
  | none =>
    let diff := w.diff config.1 plan
    (w.applyReload config plan,
      .ok (.reloaded diff.added.length diff.changed.length diff.removed.length))

variable {w} in
theorem reload_of_free (h : w.busySlot = none) (config : ValidConfig) (plan : List ServiceName) :
    w.reload config plan = (w.applyReload config plan,
      .ok (.reloaded (w.diff config.1 plan).added.length (w.diff config.1 plan).changed.length
        (w.diff config.1 plan).removed.length)) := by
  simp only [reload, h]

/-! ### Commands -/

/-- Find the slot a command is for. A slot can only track one command at a time. -/
def withSlot (service : ServiceName) (ack : ℕ) (k : Slot → Stack) : Stack :=
  match w.slots[service]? with
  | none => w.send ack (.error (.unknownService service))
  | some slot => if slot.pending.isSome then w.send ack (.error (.busy service)) else k slot

/-- Apply one operator command to the running stack. -/
def handleControl : Control → Stack
  | .reload config plan ack => (w.reload config plan.1).1.send ack (w.reload config plan.1).2
  | .start service ack => w.withSlot service ack fun slot =>
    if slot.isRunning then w.send ack (.error (.alreadyRunning service))
    else (w.spawn service slot).send ack (.ok .started)
  | .stop service ack => w.withSlot service ack fun slot =>
    match slot.stop with
    | none => w.send ack (.ok .alreadyStopped)
    | some stop => (w.setSlot service { slot with pending := some ack }).request stop .requested
  | .restart service ack => w.withSlot service ack fun slot =>
    match slot.stop with
    | none => (w.spawn service slot).send ack (.ok .started)
    | some stop =>
      (w.setSlot service { slot with restartWhenStopped := true, pending := some ack }).request
        stop .requested

/-! ### Reports -/

/-- What a report does to the slot of its service. -/
def settleSlot (name : ServiceName) (slot : Slot) : Stack :=
  let slot := { slot with stop := none, handle := none }
  if slot.retired then
    { w.answer name slot (.ok .stopped) with slots := w.slots.erase name }
  else if slot.restartWhenStopped then
    let w := w.spawn name { slot with restartWhenStopped := false }
    match w.slots[name]? with
    | some slot => w.answer name slot (.ok .restarted)
    | none => w
  else w.answer name slot (.ok .stopped)

/-- The report arm of the loop. -/
def handleReport (report : ServiceReport) : Stack :=
  let w := w.debugAssert (decide (0 < w.running)) (.reportMatchesSpawn report.service)
  let w := { w with running := w.running - 1 }
  let retire := match w.slots[report.service]? with
    | some slot => slot.retired
    | none => false
  let w := match w.slots[report.service]? with
    | some slot => w.settleSlot report.service slot
    | none => w
  -- A service the operator removed is not part of the run's verdict.
  if retire then w
  else
    { w with
      reports := w.reports ++ [report]
      left := if report.result.isFailure && w.options.abortOnFailure then
        some (some .stackFailure) else w.left }

/-! ### The loop -/

/-- Whether the loop reaches its `select!`: it has not been left, and it has something to wait
for. -/
def looping : Bool :=
  w.left.isNone && (w.running != 0 || w.options.keepRunning)

/-- One planned service at the start: spawned, unless it is held back. -/
def startService (stopped : Finset ServiceName) (name : ServiceName) : Stack :=
  if name ∈ stopped then w.publishStopped name
  else
    match w.slots[name]? with
    | some slot => w.spawn name slot
    | none => w

/-- One planned service before the start: a slot of its own. -/
def insertPlanned (name : ServiceName) : Stack :=
  match w.config.1.services[name]? with
  | some service => w.insertSlot name service
  | none => w

/-- The supervisor before it has a slot. -/
def empty (options : StackOptions) (config : ValidConfig) (plan : List ServiceName) : Stack where
  options := options
  config := config
  plan := plan
  slots := ∅
  running := 0
  reports := []
  left := none
  control := []
  reportQueue := []
  events := []
  answers := []
  requests := []
  tasks := []
  finished := []
  cells := []
  nextAck := 0
  failedAssertions := []

/-- The supervisor as it enters its loop: every slot exists before any of them is spawned. -/
def initial (options : StackOptions) (config : ValidConfig) (plan : List ServiceName)
    (stopped : Finset ServiceName) : Stack :=
  let w := plan.foldl insertPlanned (empty options config plan)
  plan.foldl (startService · stopped) w.rewireDependencies

/-- What holds before there is a slot, and is kept by what happens to each service and by the wiring,
holds as the loop is entered. -/
theorem initial_induction {P : Stack → Prop} {options : StackOptions} {config : ValidConfig}
    {plan : List ServiceName} {stopped : Finset ServiceName} (hempty : P (empty options config plan))
    (hinsert : ∀ w name, P w → P (w.insertPlanned name))
    (hrewire : ∀ w, P w → P w.rewireDependencies)
    (hstart : ∀ w name, P w → P (w.startService stopped name)) :
    P (initial options config plan stopped) := by
  have hslots : P (plan.foldl insertPlanned (empty options config plan)) :=
    List.foldlRecOn (motive := P) plan insertPlanned hempty fun w hw name _ => hinsert w name hw
  exact List.foldlRecOn (motive := P) plan (startService · stopped) (hrewire _ hslots)
    fun w hw name _ => hstart w name hw

end Stack

/-- The moves of the supervisor loop and of its surroundings. -/
inductive StackAction
  /-- A client sends a command, with an acknowledgement channel created for it. -/
  | submit (command : Control)
  /-- The loop takes the next command. -/
  | control
  /-- The loop takes the next report. -/
  | report
  /-- The loop sees a shutdown request. -/
  | interrupt (reason : ShutdownReason)
  /-- The loop finds that every service has stopped. -/
  | idle
  /-- A supervision task sends its report and ends. -/
  | finish (task : ℕ) (result : ServiceResult)
  /-- A task writes the status in a cell. -/
  | write (cell : ℕ) (status : DependencyStatus)
  /-- A task stores the process group in a cell. -/
  | store (cell : ℕ) (pgid : ℤ)
  /-- A task sends an event to the stack-wide stream. -/
  | emit (event : ServiceEvent)

namespace Stack

variable (w : Stack)

/-- A supervision task ends: its report is queued. -/
def finishTask (task : ℕ) (result : ServiceResult) : Option Stack :=
  match w.tasks[task]? with
  | some spawned =>
    if task ∈ w.finished then none
    else some { w with
      finished := w.finished ++ [task]
      reportQueue := w.reportQueue ++ [(task, ⟨spawned.service.name, result⟩)] }
  | none => none

/-- One move of the loop or of its surroundings. -/
def step : StackAction → Option Stack
  | .submit command =>
    if command.intoAck = w.nextAck then
      some { w with control := w.control ++ [command], nextAck := w.nextAck + 1 }
    else none
  | .control =>
    match w.looping, w.control with
    | true, command :: rest => some ({ w with control := rest }.handleControl command)
    | _, _ => none
  | .report =>
    match w.looping, w.reportQueue with
    | true, (_, report) :: rest => some ({ w with reportQueue := rest }.handleReport report)
    | _, _ => none
  | .interrupt reason => if w.looping then some { w with left := some (some reason) } else none
  | .idle =>
    if w.left.isNone && !w.looping then some { w with left := some none } else none
  | .finish task result => w.finishTask task result
  | .write cell status =>
    some { w with cells := w.cells.modify cell fun c => { c with status := status } }
  | .store cell pgid => some { w with cells := w.cells.modify cell fun c => { c with pgid := pgid } }
  | .emit event => some { w with events := w.events ++ [event] }

end Stack

/-- The runs of `StackSupervisor::run`, from any configuration and any plan made from it, with any
of the planned services held back. -/
def stackSystem : TransitionSystem Stack StackAction where
  init w := ∃ (options : StackOptions) (config : ValidConfig) (plan : StartPlan config.1)
    (stopped : Finset ServiceName), w = Stack.initial options config plan.1 stopped
  step := Stack.step

end Servicrab
