import Servicrab.Core.Config
import Servicrab.Daemon.Stopped

/-!
# What the stopped file remembers

The file of the services that were stopped by hand over its whole life (`stopped.rs`): decisions are
recorded in it one after another, in a text that anybody may have edited, and as a daemon starts, the
names that its configuration no longer declares are forgotten.

Of each service the last decision counts, and what was written by hand counts for the services about
which none was made. A reconciliation divides the remembered names into those that are declared,
which it keeps, and the others, which it returns: the file is written only if there are some of
these, and removed if there is nothing else.

## Main definitions

* `Stopped.recordAll`: decisions recorded one after another.
* `Stopped.lastDecision`: the last of them about a service.
* `Stopped.reconcile`.

## Main results

* `Stopped.file_remembers`.
-/

open Std (ExtTreeSet)

namespace Servicrab.Stopped

/-- Record decisions, each a service and whether it is stopped by hand from now on. -/
def recordAll (file : Option String) (decisions : List (String × Bool)) : Option String :=
  decisions.foldl (fun file decision => record file decision.1 decision.2) file

/-- The last decision about a service. -/
def lastDecision (decisions : List (String × Bool)) (service : String) : Option Bool :=
  (decisions.filter (·.1 = service)).getLast?.map Prod.snd

/-- The names of all services in the configuration. -/
def knownNames (config : Config) : ExtTreeSet String :=
  .ofList (config.services.keys.map ServiceName.raw)

/-- Forget every remembered name the configuration no longer declares. Returns the forgotten names,
and the file as it is left. -/
def reconcile (file : Option String) (config : Config) : ExtTreeSet String × Option String :=
  let remembered := read file
  if remembered.isEmpty then (∅, file)
  else
    let known := knownNames config
    let kept := remembered.filter (· ∈ known)
    let dropped := remembered.filter (· ∉ known)
    if dropped.isEmpty then (dropped, file)
    -- An empty file and no file mean the same thing.
    else if kept.isEmpty then (dropped, none)
    else (dropped, some (render kept))

variable {name : String} {file : Option String} {config : Config}

/-! ### Decisions one after another -/

theorem lastDecision_concat (decisions : List (String × Bool)) (decision : String × Bool) :
    lastDecision (decisions ++ [decision]) name =
      if name = decision.1 then some decision.2 else lastDecision decisions name := by
  rw [lastDecision, List.filter_append]
  split_ifs with he
  · simp [he]
  · simp [Ne.symm he, lastDecision]

/-- Of each service the last decision is remembered, or what was read before there was any. -/
theorem mem_read_recordAll {decisions : List (String × Bool)} (h : ∀ d ∈ decisions, Plain d.1) :
    name ∈ read (recordAll file decisions) ↔
      (lastDecision decisions name).elim (name ∈ read file) (· = true) := by
  induction decisions using List.reverseRecOn with
  | nil => simp [recordAll, lastDecision]
  | append_singleton decisions decision ih =>
    have hlast : Plain decision.1 := h decision (by simp)
    have ih := ih fun d hd => h d (List.mem_append_left _ hd)
    rw [recordAll, List.foldl_concat, ← recordAll, mem_read_record hlast, lastDecision_concat]
    split_ifs with he
    · rfl
    · exact ih

/-! ### Reconciliation -/

theorem mem_knownNames : name ∈ knownNames config ↔ ⟨name⟩ ∈ config.services := by
  rw [knownNames, Std.ExtTreeSet.mem_ofList, List.contains_iff_mem, List.mem_map]
  constructor
  · rintro ⟨service, hservice, rfl⟩
    exact Std.ExtTreeMap.mem_keys.mp hservice
  · exact fun hmem => ⟨⟨name⟩, Std.ExtTreeMap.mem_keys.mpr hmem, rfl⟩

theorem mem_filter {names : ExtTreeSet String} {p : String → Bool} :
    name ∈ names.filter p ↔ name ∈ names ∧ p name = true := by
  simp [Std.ExtTreeSet.get_eq]

theorem fst_reconcile (file : Option String) (config : Config) :
    (reconcile file config).1 = (read file).filter (· ∉ knownNames config) := by
  unfold reconcile
  dsimp only
  split_ifs with hempty
  · rw [Std.ExtTreeSet.isEmpty_iff.mp hempty]
    exact Std.ExtTreeSet.ext_mem fun name => by simp
  all_goals rfl

/-- A file that has been removed is read as one that names nothing. -/
theorem read_snd_reconcile (file : Option String) (config : Config) :
    read (reconcile file config).2 = (read file).filter (· ∈ knownNames config) := by
  have hkept : ∀ name ∈ (read file).filter (· ∈ knownNames config), Plain name :=
    fun name hname => plain_of_mem_read (mem_filter.mp hname).1
  unfold reconcile
  dsimp only
  split_ifs with hempty hdropped hnone
  · rw [Std.ExtTreeSet.isEmpty_iff.mp hempty]
    exact Std.ExtTreeSet.ext_mem fun name => by simp
  · -- nothing is to be forgotten, so that all that is remembered is declared
    refine Std.ExtTreeSet.ext_mem fun name => ?_
    have hname : name ∉ (read file).filter (· ∉ knownNames config) := by
      rw [Std.ExtTreeSet.isEmpty_iff.mp hdropped]
      exact Std.ExtTreeSet.not_mem_empty
    rw [mem_filter, decide_eq_true_eq] at hname ⊢
    tauto
  · exact (Std.ExtTreeSet.isEmpty_iff.mp hnone).symm
  · exact parse_render hkept

theorem mem_read_reconcile :
    name ∈ read (reconcile file config).2 ↔ name ∈ read file ∧ ⟨name⟩ ∈ config.services := by
  rw [read_snd_reconcile, mem_filter, decide_eq_true_eq, mem_knownNames]

/-! ### The file over its whole life -/

/-- **The stopped file** remembers of each service what was decided last, or else what it held at
first; a set of valid names is read as it was written; and a reconciliation keeps of the remembered
names those that are declared, and returns the others. -/
theorem file_remembers {maxLen : ℕ} (file : Option String) (decisions : List (String × Bool))
    (hdecisions : ∀ d ∈ decisions, validateName d.1 maxLen = .ok ()) (names : ExtTreeSet String)
    (hnames : ∀ name ∈ names, validateName name maxLen = .ok ()) (config : Config) :
    (∀ name, name ∈ read (recordAll file decisions) ↔
      (lastDecision decisions name).elim (name ∈ read file) (· = true)) ∧
    parse (render names) = names ∧
    (∀ name, name ∈ read (reconcile file config).2 ↔
      name ∈ read file ∧ ⟨name⟩ ∈ config.services) ∧
    (∀ name, name ∈ (reconcile file config).1 ↔
      name ∈ read file ∧ ⟨name⟩ ∉ config.services) := by
  refine ⟨fun name => ?_, ?_, fun name => ?_, fun name => ?_⟩
  · exact mem_read_recordAll fun d hd => plain_of_validateName (hdecisions d hd)
  · exact parse_render fun name hname => plain_of_validateName (hnames name hname)
  · rw [read_snd_reconcile, mem_filter, decide_eq_true_eq, mem_knownNames]
  · rw [fst_reconcile, mem_filter, decide_eq_true_eq, mem_knownNames]

theorem db_remembered :
    ("db" ∈ read (recordAll (some "  db \n# by hand\n\nweb\n")
      [("db", false), ("web", true), ("db", true)])) ∧
    parse (render (ExtTreeSet.ofList ["api", "db"])) = ExtTreeSet.ofList ["api", "db"] := by
  have h := file_remembers (some "  db \n# by hand\n\nweb\n")
    [("db", false), ("web", true), ("db", true)]
    (by decide : ∀ d ∈ [("db", false), ("web", true), ("db", true)],
      validateName d.1 64 = .ok ())
    (ExtTreeSet.ofList ["api", "db"])
    (by
      intro name hname
      rw [Std.ExtTreeSet.mem_ofList] at hname
      simp only [List.contains_cons, List.contains_nil, Bool.or_false, Bool.or_eq_true,
        beq_iff_eq] at hname
      rcases hname with rfl | rfl <;> decide)
    { services := ∅, startOrder := [] }
  exact ⟨(h.1 "db").mpr rfl, h.2.1⟩

end Servicrab.Stopped
