import Mathlib.Data.Finset.Basic
import Mathlib.Data.List.Sort
import Servicrab.Core.Error
import Servicrab.Library.Kahn
import Servicrab.Library.TreeMap

/-!
# The dependency graph

The topological sort that the validation makes the start order with, and the search for a cycle to
name in the error (`graph.rs`). References to names are names here, so that `&name == &name` is
equality of names.

## Main definitions

* `DependencyGraph`, `topologicalSort`, `findCycle`.
* `Config.dependencyGraph`, `Config.Sorted`: the start order is the sorted graph.

## Main results

* `dependencyOrder_of_topologicalSort`.
* `Config.Sorted.dependencyOrder`.
-/

open Std (ExtTreeMap)

namespace Servicrab

/-- For each service the services it depends on, which must start before it. -/
abbrev DependencyGraph := ExtTreeMap ServiceName (List ServiceName)

/-- `slice::sort` on names. -/
def sortNames (names : List ServiceName) : List ServiceName := names.insertionSort (· ≤ ·)

/-! ### Cycles -/

/-- What the depth-first search for a cycle keeps. -/
structure CycleSearch where
  path : List ServiceName
  onPath : Finset ServiceName
  finished : Finset ServiceName

/-- Depth-first search for a cycle among the remaining services. Every level puts a remaining
service on the path, so a depth of their number plus one covers it. -/
def dfs (deps : DependencyGraph) (remaining : List ServiceName) :
    ℕ → ServiceName → CycleSearch → Option String × CycleSearch
  | 0, _, search => (none, search)
  | depth + 1, node, search =>
    if node ∈ search.onPath then
      -- The cycle is closed: it is the loop at the end of the path.
      let parts := search.path.drop (search.path.idxOf node) ++ [node]
      (some (" -> ".intercalate (parts.map ServiceName.raw)), search)
    else if node ∈ search.finished ∨ node ∉ remaining then (none, search)
    else
      let search := { search with
        onPath := insert node search.onPath, path := search.path ++ [node] }
      let visited := (sortNames ((deps[node]?).getD [])).foldl
        (fun (found : Option String × CycleSearch) dep =>
          if found.1.isSome then found else dfs deps remaining depth dep found.2) (none, search)
      if visited.1.isSome then visited
      else (none,
        { path := visited.2.path.dropLast
          onPath := visited.2.onPath.erase node
          finished := insert node visited.2.finished })

/-- Find and format one cycle among the services that were not scheduled. -/
def findCycle (deps : DependencyGraph) (remaining : List ServiceName) : String :=
  let found := remaining.foldl
    (fun (found : Option String × CycleSearch) start =>
      if found.1.isSome ∨ start ∈ found.2.finished then found
      else dfs deps remaining (remaining.length + 1) start found.2)
    (none, { path := [], onPath := ∅, finished := ∅ })
  found.1.getD (" -> ".intercalate (remaining.map ServiceName.raw))

/-! ### Kahn's algorithm -/

/-- What the sort keeps. -/
structure KahnState where
  /-- How many services each service depends on that were not scheduled yet. -/
  inDegree : ExtTreeMap ServiceName ℕ
  /-- The services that wait on each service. -/
  adj : ExtTreeMap ServiceName (List ServiceName)
  queue : List ServiceName
  order : List ServiceName

namespace KahnState

variable (s : KahnState)

/-- A service of the graph has its counters. -/
def register (name : ServiceName) : KahnState :=
  { s with inDegree := s.inDegree.insertIfNew name 0, adj := s.adj.insertIfNew name [] }

/-- One edge of the graph is counted. -/
def addEdge (edge : ServiceName × ServiceName) : KahnState :=
  { s with
    inDegree := s.inDegree.insert edge.1 ((s.inDegree[edge.1]?).getD 0 + 1)
    adj := s.adj.insert edge.2 ((s.adj[edge.2]?).getD [] ++ [edge.1]) }

/-- Nothing is scheduled yet, and the services without dependencies are queued. The keys of a map
are sorted. -/
def seed : KahnState :=
  { s with queue := (s.inDegree.filter fun _ degree => degree = 0).keys, order := [] }

/-- A service is told that one it waits on was scheduled. The queue is sorted, so that its
partition point is the end of the names that are less. -/
def release (successor : ServiceName) : KahnState :=
  match s.inDegree[successor]? with
  | some degree =>
    { s with
      inDegree := s.inDegree.insert successor (degree - 1)
      queue := if degree - 1 = 0 then
          (s.queue.takeWhile (· < successor)) ++ successor :: s.queue.dropWhile (· < successor)
        else s.queue }
  | none => s

/-- The service at the head of the queue is scheduled. -/
def schedule (name : ServiceName) (rest : List ServiceName) : KahnState :=
  (sortNames ((s.adj[name]?).getD [])).foldl release
    { s with queue := rest, order := s.order ++ [name] }

/-- Services are scheduled until the queue is empty. No service is queued twice, so the number of
services covers it. -/
def run : ℕ → KahnState → KahnState
  | 0, s => s
  | fuel + 1, s =>
    match s.queue with
    | name :: rest => run fuel (s.schedule name rest)
    | [] => s

end KahnState

/-- The edges of a graph, from each service to what it depends on. -/
def DependencyGraph.edges (deps : DependencyGraph) : List (ServiceName × ServiceName) :=
  deps.toList.flatMap fun entry => entry.2.map fun dep => (entry.1, dep)

/-- The counters before anything is scheduled. -/
def KahnState.start (deps : DependencyGraph) : KahnState :=
  let s := deps.keys.foldl register { inDegree := ∅, adj := ∅, queue := [], order := [] }
  (deps.edges.foldl addEdge s).seed

/-- Compute a deterministic start order: the services with what they depend on first. -/
def topologicalSort (deps : DependencyGraph) : Except ConfigError (List ServiceName) :=
  let s := (KahnState.start deps).run deps.size
  if s.order.length ≠ deps.size then
    let remaining := (s.inDegree.filter fun _ degree => 0 < degree).keys
    .error (.dependencyCycle (findCycle deps remaining))
  else .ok s.order

/-- The graph of the dependencies of a configuration. -/
def Config.dependencyGraph (config : Config) : DependencyGraph :=
  config.services.map fun _ service => service.dependsOn.map Dependency.service

/-- The start order is the one the validation makes. -/
def Config.Sorted (config : Config) : Prop :=
  topologicalSort config.dependencyGraph = .ok config.startOrder

instance (config : Config) : Decidable config.Sorted :=
  inferInstanceAs (Decidable (_ = _))

/-- A service depends on another one directly. -/
def Config.DependsOn (config : Config) (name dependency : ServiceName) : Prop :=
  ∃ service, config.services[name]? = some service ∧
    dependency ∈ service.dependsOn.map Dependency.service

/-! ### The order serves dependencies first -/

theorem count_sortNames (names : List ServiceName) (name : ServiceName) :
    (sortNames names).count name = names.count name :=
  (List.perm_insertionSort _ names).count_eq name

namespace KahnState

/-- How many services it depends on were not scheduled yet. -/
def degree (s : KahnState) (name : ServiceName) : ℕ := (s.inDegree[name]?).getD 0

/-- The services that wait on it. -/
def waiting (s : KahnState) (name : ServiceName) : List ServiceName := (s.adj[name]?).getD []

variable {s : KahnState} {edges : List (ServiceName × ServiceName)} {name : ServiceName}

/-- The counters fit the list of all edges. -/
structure Fits (s : KahnState) (edges : List (ServiceName × ServiceName))
    (todo : List ServiceName) : Prop where
  counts : Kahn.Counts edges s.degree s.queue s.order todo
  waiting : ∀ name other, (s.waiting name).count other = edges.count (other, name)

theorem blank_register (names : List ServiceName) (name : ServiceName) :
    ∀ s : KahnState, s.degree name = 0 → s.waiting name = [] →
      (names.foldl register s).degree name = 0 ∧ (names.foldl register s).waiting name = [] := by
  induction names with
  | nil => exact fun s hdegree hwaiting => ⟨hdegree, hwaiting⟩
  | cons head names ih =>
    intro s hdegree hwaiting
    refine ih _ ?_ ?_
    · simp only [degree, register, ExtTreeMap.getElem?_insertIfNew] at hdegree ⊢
      split_ifs
      · rfl
      · exact hdegree
    · simp only [KahnState.waiting, register, ExtTreeMap.getElem?_insertIfNew] at hwaiting ⊢
      split_ifs
      · rfl
      · exact hwaiting

theorem degree_addEdge (s : KahnState) (edge : ServiceName × ServiceName) (name : ServiceName) :
    (s.addEdge edge).degree name = s.degree name + if edge.1 = name then 1 else 0 := by
  simp only [degree, addEdge, TreeMap.getElem?_insert]
  by_cases h : name = edge.1
  · simp [h]
  · simp [h, Ne.symm h]

theorem count_addEdge (s : KahnState) (edge : ServiceName × ServiceName) (name other : ServiceName) :
    ((s.addEdge edge).waiting name).count other =
      (s.waiting name).count other + if edge == (other, name) then 1 else 0 := by
  obtain ⟨source, target⟩ := edge
  simp only [waiting, addEdge, TreeMap.getElem?_insert]
  by_cases h : name = target
  · by_cases hsource : source = other <;> simp [h, hsource]
  · simp [h, Ne.symm h]

/-- The counters after the edges were counted. -/
theorem counted_addEdge (edges : List (ServiceName × ServiceName)) : ∀ s : KahnState,
    (∀ name, (edges.foldl addEdge s).degree name =
      s.degree name + edges.countP fun edge => edge.1 = name) ∧
    ∀ name other, ((edges.foldl addEdge s).waiting name).count other =
      (s.waiting name).count other + edges.count (other, name) := by
  induction edges with
  | nil => exact fun s => ⟨fun _ => rfl, fun _ _ => rfl⟩
  | cons edge edges ih =>
    intro s
    obtain ⟨hdegree, hwaiting⟩ := ih (s.addEdge edge)
    constructor
    · intro name
      rw [List.foldl_cons, hdegree, List.countP_cons, degree_addEdge]
      simp only [decide_eq_true_eq]
      omega
    · intro name other
      rw [List.foldl_cons, hwaiting, List.count_cons, count_addEdge]
      omega

theorem fits_start (deps : DependencyGraph) : (start deps).Fits deps.edges [] := by
  let blank : KahnState := { inDegree := ∅, adj := ∅, queue := [], order := [] }
  have hblank : ∀ name, (deps.keys.foldl register blank).degree name = 0 ∧
      (deps.keys.foldl register blank).waiting name = [] := fun name =>
    blank_register deps.keys name blank (by simp [degree, blank]) (by simp [waiting, blank])
  obtain ⟨hdegree, hwaiting⟩ := counted_addEdge deps.edges (deps.keys.foldl register blank)
  constructor
  case counts =>
    refine Kahn.counts_nil (fun name => ?_) (fun name hname => ?_) ExtTreeMap.nodup_keys
    · refine (hdegree name).trans ?_
      rw [(hblank name).1, Nat.zero_add]
    · obtain ⟨degree, hd⟩ := TreeMap.mem_keys_iff_exists.mp hname
      rw [ExtTreeMap.getElem?_filter'] at hd
      obtain ⟨hd, hzero⟩ := Option.filter_eq_some_iff.mp hd
      have hstart : (start deps).inDegree[name]? = some degree := hd
      simpa [KahnState.degree, hstart] using hzero
  case waiting =>
    intro name other
    refine (hwaiting name other).trans ?_
    rw [(hblank name).2, List.count_nil, Nat.zero_add]

/-- A service that waits on the one scheduled last has its counter. -/
theorem Fits.release_eq {successor : ServiceName} {todo : List ServiceName}
    (h : s.Fits edges (successor :: todo)) :
    0 < s.degree successor ∧ s.inDegree[successor]? = some (s.degree successor) ∧
      s.release successor = { s with
        inDegree := s.inDegree.insert successor (s.degree successor - 1)
        queue := if s.degree successor - 1 = 0 then
            (s.queue.takeWhile (· < successor)) ++ successor :: s.queue.dropWhile (· < successor)
          else s.queue } := by
  have hpos : 0 < s.degree successor := by
    rw [h.counts.degree_eq, List.count_cons_self]
    omega
  obtain ⟨degree, hd⟩ : ∃ degree, s.inDegree[successor]? = some degree := by
    cases hd : s.inDegree[successor]? with
    | none => simp [KahnState.degree, hd] at hpos
    | some degree => exact ⟨degree, rfl⟩
  have hdegree : s.degree successor = degree := by rw [KahnState.degree, hd, Option.getD_some]
  rw [hdegree] at hpos ⊢
  exact ⟨hpos, hd, by simp only [KahnState.release, hd]⟩

/-- The counter of a service that was released. -/
theorem Fits.degree_release {successor : ServiceName} {todo : List ServiceName}
    (h : s.Fits edges (successor :: todo)) (name : ServiceName) :
    (s.release successor).degree name =
      if name = successor then s.degree successor - 1 else s.degree name := by
  rw [h.release_eq.2.2]
  simp only [KahnState.degree, TreeMap.getElem?_insert]
  split_ifs <;> rfl

theorem Fits.release {successor : ServiceName} {todo : List ServiceName}
    (h : s.Fits edges (successor :: todo)) : (s.release successor).Fits edges todo := by
  have he := h.release_eq.2.2
  refine ⟨?_, by rw [he]; exact h.waiting⟩
  have horder : (s.release successor).order = s.order := by rw [he]
  rw [horder]
  refine h.counts.release h.degree_release ?_
  rw [he]
  split_ifs
  · refine List.perm_middle.trans (List.Perm.cons _ ?_)
    rw [List.takeWhile_append_dropWhile]
  · exact List.Perm.refl _

theorem Fits.releaseAll {todo : List ServiceName} : ∀ {s : KahnState}, s.Fits edges todo →
    (todo.foldl KahnState.release s).Fits edges [] := by
  induction todo with
  | nil => exact id
  | cons successor todo ih => exact fun h => ih h.release

theorem Fits.schedule {rest : List ServiceName} (h : s.Fits edges [])
    (hqueue : s.queue = name :: rest) : (s.schedule name rest).Fits edges [] := by
  refine Fits.releaseAll ⟨?_, h.waiting⟩
  refine (hqueue ▸ h.counts : Kahn.Counts edges s.degree (name :: rest) s.order []).pop fun other => ?_
  rw [count_sortNames]
  exact h.waiting name other

theorem Fits.run (fuel : ℕ) : ∀ {s : KahnState}, s.Fits edges [] → (s.run fuel).Fits edges [] := by
  induction fuel with
  | zero => exact id
  | succ fuel ih =>
    intro s h
    rw [KahnState.run]
    split
    · rename_i name rest hqueue
      exact ih (h.schedule hqueue)
    · exact h

end KahnState

/-- A service comes after everything that it depends on. -/
theorem dependencyOrder_of_topologicalSort {deps : DependencyGraph} {order : List ServiceName}
    (h : topologicalSort deps = .ok order) :
    DependencyOrder (fun name dep => (name, dep) ∈ deps.edges) order := by
  unfold topologicalSort at h
  simp only at h
  split_ifs at h
  cases h
  exact ((KahnState.fits_start deps).run deps.size).counts.served

theorem Config.DependsOn.mem_edges {config : Config} {name dependency : ServiceName}
    (h : config.DependsOn name dependency) :
    (name, dependency) ∈ config.dependencyGraph.edges := by
  obtain ⟨service, hservice, hmem⟩ := h
  refine List.mem_flatMap.mpr ⟨(name, service.dependsOn.map Dependency.service), ?_, ?_⟩
  · rw [ExtTreeMap.mem_toList_iff_getElem?_eq_some, dependencyGraph, ExtTreeMap.getElem?_map,
      hservice, Option.map_some]
  · exact List.mem_map.mpr ⟨dependency, hmem, rfl⟩

/-- In a start order made by the validation, a service comes after all that it depends on, directly
or not. -/
theorem Config.Sorted.dependencyOrder {config : Config} (h : config.Sorted) :
    DependencyOrder (Relation.TransGen config.DependsOn) config.startOrder := by
  have hdirect : DependencyOrder config.DependsOn config.startOrder :=
    fun pre name post hsplit dep hdep =>
      dependencyOrder_of_topologicalSort h pre name post hsplit dep hdep.mem_edges
  exact hdirect.transGen

end Servicrab
