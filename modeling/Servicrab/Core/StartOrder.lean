import Mathlib.Data.Set.Finite.Basic
import Servicrab.Core.Graph

/-!
# What the topological sort finds

`topological_sort` (`graph.rs`) finds an order exactly when the dependencies have no cycle, and the
one it finds is the least of all that serve dependencies first: its queue is sorted and holds every
service that waits for nothing. In what order a service lists its dependencies, and how often,
makes no difference.

## Main definitions

* `DependencyGraph.DependsOn`, `DependencyGraph.Closed`.

## Main results

* `KahnState.Served.run`: the run ends with an empty queue.
* `topologicalSort_spec`: an order is found if and only if there is no cycle, and it is the least.
-/

open Std (ExtTreeMap)

namespace Servicrab

/-- A service lists another one among its dependencies. -/
def DependencyGraph.DependsOn (deps : DependencyGraph) (name dependency : ServiceName) : Prop :=
  ∃ dependencies, deps[name]? = some dependencies ∧ dependency ∈ dependencies

/-- All dependencies are services of the graph. -/
def DependencyGraph.Closed (deps : DependencyGraph) : Prop :=
  ∀ name dependency, deps.DependsOn name dependency → dependency ∈ deps

variable {deps : DependencyGraph} {name dependency : ServiceName}

theorem DependencyGraph.mem_edges_iff :
    (name, dependency) ∈ deps.edges ↔ deps.DependsOn name dependency := by
  simp only [edges, List.mem_flatMap, List.mem_map, DependsOn]
  constructor
  · rintro ⟨⟨source, dependencies⟩, hmem, target, htarget, heq⟩
    obtain ⟨rfl, rfl⟩ := Prod.mk.inj heq
    exact ⟨dependencies, ExtTreeMap.mem_toList_iff_getElem?_eq_some.mp hmem, htarget⟩
  · rintro ⟨dependencies, hget, hmem⟩
    exact ⟨(name, dependencies), ExtTreeMap.mem_toList_iff_getElem?_eq_some.mpr hget, dependency,
      hmem, rfl⟩

theorem DependencyGraph.DependsOn.mem_keys (h : deps.DependsOn name dependency) :
    name ∈ deps.keys := by
  obtain ⟨dependencies, hget, -⟩ := h
  exact TreeMap.mem_keys_iff_exists.mpr ⟨dependencies, hget⟩

namespace KahnState

variable {s : KahnState} {todo : List ServiceName}

/-! ### The counters before anything is scheduled -/

theorem isSome_register (names : List ServiceName) (name : ServiceName) : ∀ s : KahnState,
    (names.foldl register s).inDegree[name]?.isSome ↔ s.inDegree[name]?.isSome ∨ name ∈ names := by
  induction names with
  | nil => simp
  | cons head names ih =>
    intro s
    rw [List.foldl_cons, ih, register, ExtTreeMap.getElem?_insertIfNew, List.mem_cons]
    split_ifs with hnew
    · have hhead : head = name := compare_eq_iff_eq.mp hnew.1
      simp [hhead]
    · have hold : name = head → s.inDegree[name]?.isSome := by
        rintro rfl
        rw [← ExtTreeMap.mem_iff_isSome_getElem?]
        by_contra hmem
        exact hnew ⟨compare_eq_iff_eq.mpr rfl, hmem⟩
      tauto

theorem isSome_addEdge (edges : List (ServiceName × ServiceName)) (name : ServiceName) :
    ∀ s : KahnState, (edges.foldl addEdge s).inDegree[name]?.isSome ↔
      s.inDegree[name]?.isSome ∨ name ∈ edges.map Prod.fst := by
  induction edges with
  | nil => simp
  | cons edge edges ih =>
    intro s
    rw [List.foldl_cons, ih, addEdge, TreeMap.getElem?_insert, List.map_cons, List.mem_cons]
    split_ifs with hname
    · simp [hname]
    · simp [hname]

/-- Every service of the graph has its counter, and no other. -/
theorem isSome_start (deps : DependencyGraph) (name : ServiceName) :
    (start deps).inDegree[name]?.isSome ↔ name ∈ deps.keys := by
  have hedges : name ∈ deps.edges.map Prod.fst → name ∈ deps.keys := by
    intro hmem
    obtain ⟨⟨source, target⟩, hedge, rfl⟩ := List.mem_map.mp hmem
    exact (DependencyGraph.mem_edges_iff.mp hedge).mem_keys
  show (deps.edges.foldl addEdge _).inDegree[name]?.isSome ↔ _
  rw [isSome_addEdge, isSome_register]
  simp only [ExtTreeMap.getElem?_empty, Option.isSome_none, Bool.false_eq_true, false_or]
  exact ⟨fun h => h.elim id hedges, Or.inl⟩

/-- The queue at the start: the services without dependencies. -/
theorem mem_queue_start : name ∈ (start deps).queue ↔
    name ∈ deps.keys ∧ (start deps).degree name = 0 := by
  have hqueue : (start deps).queue =
      ((start deps).inDegree.filter fun _ degree => degree = 0).keys := rfl
  rw [hqueue, TreeMap.mem_keys_iff_exists, ← isSome_start deps name]
  simp only [ExtTreeMap.getElem?_filter', Option.filter_eq_some_iff, decide_eq_true_eq,
    KahnState.degree]
  cases (start deps).inDegree[name]? <;> simp

/-! ### The queue -/

/-- The counters fit, and the queue holds what may come next. -/
structure Served (deps : DependencyGraph) (s : KahnState) (todo : List ServiceName) : Prop where
  fits : s.Fits deps.edges todo
  frontier : Kahn.Frontier deps.edges deps.keys s.degree s.queue s.order

theorem served_start (deps : DependencyGraph) : (start deps).Served deps [] where
  fits := fits_start deps
  frontier := {
    complete := fun name hname hdegree =>
      List.mem_append_left _ (mem_queue_start.mpr ⟨hname, hdegree⟩)
    subset := by
      intro name hname
      have horder : (start deps).order = [] := rfl
      rw [horder, List.append_nil] at hname
      exact (mem_queue_start.mp hname).1
    sorted := by
      have hkeys : ((start deps).queue).Pairwise fun a b => compare a b = .lt :=
        ExtTreeMap.ordered_keys
      exact hkeys.imp fun hlt => (compare_lt_iff_lt.mp hlt).le
    least := .nil }

theorem Served.release {successor : ServiceName} (h : s.Served deps (successor :: todo))
    (hkeys : successor ∈ deps.keys) : (s.release successor).Served deps todo where
  fits := h.fits.release
  frontier := by
    obtain ⟨hpos, -, he⟩ := h.fits.release_eq
    have horder : (s.release successor).order = s.order := by rw [he]
    have hqueue : (s.release successor).queue = if s.degree successor - 1 = 0 then
        s.queue.orderedInsert (· ≤ ·) successor else s.queue := by
      rw [he, List.orderedInsert_eq_take_drop]
      simp only [not_le]
    rw [horder]
    exact h.frontier.release hkeys hpos h.fits.degree_release hqueue

theorem Served.releaseAll (hkeys : ∀ name ∈ todo, name ∈ deps.keys) : ∀ {s : KahnState},
    s.Served deps todo → (todo.foldl KahnState.release s).Served deps [] := by
  induction todo with
  | nil => exact id
  | cons successor todo ih =>
    intro s h
    exact ih (fun name hname => hkeys name (List.mem_cons_of_mem _ hname))
      (h.release (hkeys successor List.mem_cons_self))

theorem Served.schedule {rest : List ServiceName} (h : s.Served deps [])
    (hqueue : s.queue = name :: rest) : (s.schedule name rest).Served deps [] := by
  refine Served.releaseAll ?_ ⟨⟨?_, h.fits.waiting⟩, ?_⟩
  · intro other hother
    have hcount := h.fits.waiting name other
    have hwaiting : other ∈ s.waiting name :=
      (List.perm_insertionSort _ (s.waiting name)).mem_iff.mp hother
    have hedge : (other, name) ∈ deps.edges := by
      rw [← List.count_pos_iff, ← hcount]
      exact List.count_pos_iff.mpr hwaiting
    exact (DependencyGraph.mem_edges_iff.mp hedge).mem_keys
  · refine (hqueue ▸ h.fits.counts : Kahn.Counts _ s.degree (name :: rest) s.order []).pop
      fun other => ?_
    rw [count_sortNames]
    exact h.fits.waiting name other
  · exact (hqueue ▸ h.frontier : Kahn.Frontier _ _ s.degree (name :: rest) s.order).pop
      (hqueue ▸ h.fits.counts)

theorem order_releaseAll (todo : List ServiceName) : ∀ s : KahnState,
    (todo.foldl KahnState.release s).order = s.order := by
  induction todo with
  | nil => exact fun s => rfl
  | cons successor todo ih =>
    intro s
    rw [List.foldl_cons, ih, KahnState.release]
    split <;> rfl

/-- The queue and the order are services, and no service is there twice. -/
theorem Served.length_le (h : s.Served deps todo) :
    s.queue.length + s.order.length ≤ deps.keys.length := by
  rw [← List.length_append]
  exact (h.fits.counts.nodup.subperm h.frontier.subset).length_le

/-- The run ends when nothing is queued any more. -/
theorem Served.run (fuel : ℕ) : ∀ {s : KahnState}, s.Served deps [] →
    deps.keys.length ≤ s.order.length + fuel →
      (s.run fuel).Served deps [] ∧ (s.run fuel).queue = [] := by
  induction fuel with
  | zero =>
    intro s h hfuel
    have hlength : s.queue.length = 0 := by
      have hle := h.length_le
      omega
    exact ⟨h, List.eq_nil_of_length_eq_zero hlength⟩
  | succ fuel ih =>
    intro s h hfuel
    rw [KahnState.run]
    split
    · rename_i name rest hqueue
      have horder : (s.schedule name rest).order = s.order ++ [name] := order_releaseAll _ _
      refine ih (h.schedule hqueue) ?_
      rw [horder, List.length_append, List.length_singleton]
      omega
    · rename_i hqueue
      exact ⟨h, hqueue⟩

end KahnState

/-! ### The order -/

/-- The order the sort has made when its queue is empty. -/
def scheduledOrder (deps : DependencyGraph) : List ServiceName :=
  ((KahnState.start deps).run deps.size).order

theorem served_scheduled (deps : DependencyGraph) :
    ((KahnState.start deps).run deps.size).Served deps [] ∧
      ((KahnState.start deps).run deps.size).queue = [] := by
  refine (KahnState.served_start deps).run deps.size ?_
  rw [ExtTreeMap.length_keys]
  exact Nat.le_add_left _ _

theorem topologicalSort_eq_ok_iff {order : List ServiceName} :
    topologicalSort deps = .ok order ↔
      scheduledOrder deps = order ∧ (scheduledOrder deps).length = deps.size := by
  rw [topologicalSort, scheduledOrder]
  by_cases hlength : ((KahnState.start deps).run deps.size).order.length = deps.size
  · simp [hlength]
  · simp [hlength]

/-- What was scheduled are distinct services, each after its dependencies, and the least first. -/
theorem scheduledOrder_spec (deps : DependencyGraph) :
    (scheduledOrder deps).Nodup ∧ scheduledOrder deps ⊆ deps.keys ∧
      DependencyOrder deps.DependsOn (scheduledOrder deps) ∧
        LeastFirst deps.DependsOn deps.keys (scheduledOrder deps) := by
  obtain ⟨hserved, hqueue⟩ := served_scheduled deps
  have hnodup := hserved.fits.counts.nodup
  have hsubset := hserved.frontier.subset
  rw [hqueue, List.nil_append] at hnodup hsubset
  refine ⟨hnodup, hsubset, ?_, ?_⟩
  · exact hserved.fits.counts.served.mono fun _ _ => DependencyGraph.mem_edges_iff.mpr
  · have hleast := hserved.frontier.least
    simp only [DependencyGraph.mem_edges_iff] at hleast
    exact hleast

/-- If not all services are scheduled, there is one that is not. -/
theorem exists_notMem_scheduledOrder (hlength : (scheduledOrder deps).length ≠ deps.size) :
    ∃ name ∈ deps.keys, name ∉ scheduledOrder deps := by
  obtain ⟨hnodup, hsubset, -, -⟩ := scheduledOrder_spec deps
  rw [← ExtTreeMap.length_keys] at hlength
  by_contra hnone
  simp only [not_exists, not_and, not_not] at hnone
  have hle := (ExtTreeMap.nodup_keys.subperm hnone).length_le
  have hge := (hnodup.subperm hsubset).length_le
  omega

/-- A service that is not scheduled depends on another one that is not. -/
theorem exists_dependsOn_notMem_scheduledOrder (hclosed : deps.Closed) (hname : name ∈ deps.keys)
    (hnot : name ∉ scheduledOrder deps) :
    ∃ dependency ∈ deps.keys, dependency ∉ scheduledOrder deps ∧ deps.DependsOn name dependency := by
  obtain ⟨hserved, hqueue⟩ := served_scheduled deps
  obtain ⟨dependency, hdependency, hedge⟩ :=
    (hqueue ▸ hserved.frontier).exists_edge (hqueue ▸ hserved.fits.counts) hname hnot
  have hdep := DependencyGraph.mem_edges_iff.mp hedge
  exact ⟨dependency, ExtTreeMap.mem_keys.mpr (hclosed name dependency hdep), hdependency, hdep⟩

/-- All services are scheduled if and only if there is no cycle. -/
theorem length_scheduledOrder_iff (hclosed : deps.Closed) :
    (scheduledOrder deps).length = deps.size ↔
      ∀ name, ¬ Relation.TransGen deps.DependsOn name name := by
  obtain ⟨hnodup, hsubset, horder, -⟩ := scheduledOrder_spec deps
  constructor
  · intro hlength name
    rw [← ExtTreeMap.length_keys] at hlength
    have hperm := (hnodup.subperm hsubset).perm_of_length_le hlength.ge
    exact horder.acyclic (fun _ _ hdep => hperm.mem_iff.mpr hdep.mem_keys) name
  · intro hacyclic
    by_contra hlength
    -- What was not scheduled is not empty, and each of it depends on more of it.
    let left : Set ServiceName := {name | name ∈ deps.keys ∧ name ∉ scheduledOrder deps}
    have hfinite : left.Finite := (List.finite_toSet deps.keys).subset fun name hname => hname.1
    have hmore : ∀ name ∈ left, ∃ dependency ∈ left, deps.DependsOn name dependency := by
      rintro name ⟨hkeys, hnot⟩
      obtain ⟨dependency, hdependency, hleft, hdep⟩ :=
        exists_dependsOn_notMem_scheduledOrder hclosed hkeys hnot
      exact ⟨dependency, ⟨hdependency, hleft⟩, hdep⟩
    obtain ⟨name, hcycle⟩ :=
      exists_transGen_self hfinite (exists_notMem_scheduledOrder hlength) hmore
    exact hacyclic name hcycle

/-- The order that is found is one of all services, each after its dependencies. -/
theorem order_of_topologicalSort {order : List ServiceName} (h : topologicalSort deps = .ok order) :
    order.Perm deps.keys ∧ DependencyOrder deps.DependsOn order := by
  obtain ⟨rfl, hlength⟩ := topologicalSort_eq_ok_iff.mp h
  obtain ⟨hnodup, hsubset, horder, -⟩ := scheduledOrder_spec deps
  rw [← ExtTreeMap.length_keys] at hlength
  exact ⟨(hnodup.subperm hsubset).perm_of_length_le hlength.ge, horder⟩

/-- **The start order.** When all dependencies are services of the graph, the sort finds an order if
and only if there is no cycle; and the order is one of all services, each after its dependencies,
and the least of all such orders. -/
theorem topologicalSort_spec (deps : DependencyGraph) (hclosed : deps.Closed) :
    ((∃ order, topologicalSort deps = .ok order) ↔
      ∀ name, ¬ Relation.TransGen deps.DependsOn name name) ∧
      ∀ order, topologicalSort deps = .ok order →
        order.Perm deps.keys ∧ DependencyOrder deps.DependsOn order ∧
          ∀ other, other.Perm deps.keys → DependencyOrder deps.DependsOn other →
            order = other ∨ List.Lex (· < ·) order other := by
  constructor
  · rw [← length_scheduledOrder_iff hclosed]
    simp [topologicalSort_eq_ok_iff]
  · intro order hsort
    obtain ⟨rfl, hlength⟩ := topologicalSort_eq_ok_iff.mp hsort
    obtain ⟨hnodup, hsubset, horder, hleast⟩ := scheduledOrder_spec deps
    rw [← ExtTreeMap.length_keys] at hlength
    refine ⟨(hnodup.subperm hsubset).perm_of_length_le hlength.ge, horder, ?_⟩
    intro other hperm hother
    exact hleast.eq_or_lex hother (hperm.nodup_iff.mpr ExtTreeMap.nodup_keys) hperm.subset
      (hlength.trans hperm.length_eq.symm)

/-- A graph in which a service lists one dependency twice, and its dependencies out of order. -/
theorem topologicalSort_spec_diamond : ∃ deps : DependencyGraph,
    topologicalSort deps = .ok [⟨"a"⟩, ⟨"b"⟩, ⟨"c"⟩, ⟨"d"⟩] ∧
      ∀ name, ¬ Relation.TransGen deps.DependsOn name name := by
  let entries : List (ServiceName × List ServiceName) :=
    [(⟨"d"⟩, [⟨"c"⟩, ⟨"b"⟩, ⟨"c"⟩]), (⟨"b"⟩, [⟨"a"⟩]), (⟨"c"⟩, [⟨"a"⟩]), (⟨"a"⟩, [])]
  let deps : DependencyGraph := ExtTreeMap.ofList entries
  have hsort : topologicalSort deps = .ok [⟨"a"⟩, ⟨"b"⟩, ⟨"c"⟩, ⟨"d"⟩] := by decide +kernel
  have hclosed : ∀ edge ∈ deps.edges, edge.2 ∈ deps := by decide +kernel
  exact ⟨deps, hsort, (topologicalSort_spec deps fun name dependency hdep =>
    hclosed (name, dependency) (DependencyGraph.mem_edges_iff.mpr hdep)).1.mp ⟨_, hsort⟩⟩

end Servicrab
