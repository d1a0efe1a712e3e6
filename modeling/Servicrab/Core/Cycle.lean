import Servicrab.Core.StartOrder
import Servicrab.Library.DepthFirst
import Servicrab.Library.Fallible

/-!
# The cycle that is reported

When the sort cannot schedule all services, the error names a cycle, which a depth-first search
finds among the services that are left (`graph.rs`). Of these, some are not on a cycle and only
depend on one. But each depends on another of them, so that the search is never finished with any:
it goes down until a name is on its path already, and the path from there is the cycle.

## Main definitions

* `dfsWithin`, `searchWithin`: the search, without a result where a depth does not cover it.
* `unscheduled`: the services that are left.
* `Visited`: what the search has done when it comes back from some services.

## Main results

* `dfsWithin_spec`: the search comes back, with a cycle or finished with the service.
* `topologicalSort_reports_cycle`: the cycle in the error is one, and the search has found it.
-/

open Fallible (foldlM_eq_some_of_imp foldl_eq_of_foldlM)
open Std (ExtTreeMap)

namespace Servicrab

/-! ### The search with a bound on its depth -/

/-- A sequence of names, as it is reported. -/
def cycleText (cycle : List ServiceName) : String := " -> ".intercalate (cycle.map ServiceName.raw)

/-- `dfs` as it recurses, without a result if it would go down further than a depth. -/
def dfsWithin (deps : DependencyGraph) (remaining : List ServiceName) :
    ℕ → ServiceName → CycleSearch → Option (Option String × CycleSearch)
  | 0, _, _ => none
  | depth + 1, node, search =>
    if node ∈ search.onPath then
      some (some (cycleText (search.path.drop (search.path.idxOf node) ++ [node])), search)
    else if node ∈ search.finished ∨ node ∉ remaining then some (none, search)
    else do
      let visited ← (sortNames ((deps[node]?).getD [])).foldlM
        (fun (found : Option String × CycleSearch) dep =>
          if found.1.isSome then some found else dfsWithin deps remaining depth dep found.2)
        (none, { search with onPath := insert node search.onPath, path := search.path ++ [node] })
      if visited.1.isSome then return visited
      else return (none,
        { path := visited.2.path.dropLast
          onPath := visited.2.onPath.erase node
          finished := insert node visited.2.finished })

/-- The loop of `find_cycle`: what it finds, without a result if the search would go down further
than a depth. -/
def searchWithin (deps : DependencyGraph) (remaining : List ServiceName) (depth : ℕ) :
    Option (Option String) := do
  let found ← remaining.foldlM
    (fun (found : Option String × CycleSearch) start =>
      if found.1.isSome ∨ start ∈ found.2.finished then some found
      else dfsWithin deps remaining depth start found.2)
    (none, { path := [], onPath := ∅, finished := ∅ })
  return found.1

/-- The services that are left when the sort can schedule no more. -/
def unscheduled (deps : DependencyGraph) : List ServiceName :=
  (((KahnState.start deps).run deps.size).inDegree.filter fun _ degree => 0 < degree).keys

section Bound

variable {deps : DependencyGraph} {remaining : List ServiceName} {depth : ℕ}

/-- What a search finds within a depth it finds within every greater one. -/
theorem dfsWithin_succ (depth : ℕ) : ∀ {node : ServiceName} {search : CycleSearch}
    {result : Option String × CycleSearch}, dfsWithin deps remaining depth node search = some result →
      dfsWithin deps remaining (depth + 1) node search = some result := by
  induction depth with
  | zero =>
    intro node search result h
    cases h
  | succ depth ih =>
    intro node search result h
    rw [dfsWithin] at h ⊢
    split_ifs at h ⊢
    · exact h
    · exact h
    · obtain ⟨visited, hvisited, hresult⟩ := Option.bind_eq_some_iff.mp h
      refine Option.bind_eq_some_iff.mpr ⟨visited, foldlM_eq_some_of_imp ?_ _ hvisited, hresult⟩
      intro found dep next hnext
      split_ifs at hnext ⊢
      · exact hnext
      · exact ih hnext

theorem dfsWithin_mono {depth' : ℕ} (hle : depth ≤ depth') {node : ServiceName}
    {search : CycleSearch} {result : Option String × CycleSearch}
    (h : dfsWithin deps remaining depth node search = some result) :
    dfsWithin deps remaining depth' node search = some result := by
  induction hle with
  | refl => exact h
  | step _ ih => exact dfsWithin_succ _ ih

theorem searchWithin_mono {depth' : ℕ} (hle : depth ≤ depth') {found : Option String}
    (h : searchWithin deps remaining depth = some found) :
    searchWithin deps remaining depth' = some found := by
  obtain ⟨last, hlast, hfound⟩ := Option.bind_eq_some_iff.mp h
  refine Option.bind_eq_some_iff.mpr ⟨last, foldlM_eq_some_of_imp ?_ _ hlast, hfound⟩
  intro found start next hnext
  split_ifs at hnext ⊢
  · exact hnext
  · exact dfsWithin_mono hle hnext

/-- The search that gives up silently agrees with the one that says so. -/
theorem dfs_eq_of_dfsWithin (depth : ℕ) : ∀ {node : ServiceName} {search : CycleSearch}
    {result : Option String × CycleSearch}, dfsWithin deps remaining depth node search = some result →
      dfs deps remaining depth node search = result := by
  induction depth with
  | zero =>
    intro node search result h
    cases h
  | succ depth ih =>
    intro node search result h
    rw [dfsWithin] at h
    rw [dfs]
    split_ifs at h ⊢
    · exact Option.some.inj h
    · exact Option.some.inj h
    · obtain ⟨visited, hvisited, hresult⟩ := Option.bind_eq_some_iff.mp h
      have hfold := foldl_eq_of_foldlM (g := fun (found : Option String × CycleSearch) dep =>
          if found.1.isSome then found else dfs deps remaining depth dep found.2)
        (fun found dep next hnext => by
          split_ifs at hnext ⊢
          · exact Option.some.inj hnext
          · exact ih hnext) hvisited
      simp only [hfold]
      split_ifs at hresult ⊢
      · exact Option.some.inj hresult
      · exact Option.some.inj hresult

/-- `find_cycle` reports what its loop finds, and else falls back on all names that are left. -/
theorem findCycle_eq {found : Option String}
    (h : searchWithin deps remaining (remaining.length + 1) = some found) :
    findCycle deps remaining = found.getD (cycleText remaining) := by
  obtain ⟨last, hlast, hfound⟩ := Option.bind_eq_some_iff.mp h
  have hfold := foldl_eq_of_foldlM (g := fun (found : Option String × CycleSearch) start =>
      if found.1.isSome ∨ start ∈ found.2.finished then found
      else dfs deps remaining (remaining.length + 1) start found.2)
    (fun found start next hnext => by
      split_ifs at hnext ⊢
      · exact Option.some.inj hnext
      · exact dfs_eq_of_dfsWithin _ hnext) hlast
  rw [findCycle, hfold, Option.some.inj hfound]
  rfl

end Bound

/-! ### What the search does -/

/-- What a depth-first search keeps true among the services that are left. -/
abbrev CycleSearch.Consistent (s : CycleSearch) (deps : DependencyGraph)
    (remaining : List ServiceName) : Prop :=
  DepthFirst.Consistent deps.DependsOn remaining s.path s.onPath s.finished

/-- The search is back at the path it started from, and finished with some services. -/
structure Back (deps : DependencyGraph) (remaining : List ServiceName) (search : CycleSearch)
    (nodes : List ServiceName) (s : CycleSearch) : Prop where
  consistent : s.Consistent deps remaining
  path_eq : s.path = search.path
  mono : search.finished ⊆ s.finished
  done : ∀ node ∈ nodes, node ∈ remaining → node ∈ s.finished

/-- From some services, the search has found a cycle or is back. -/
inductive Visited (deps : DependencyGraph) (remaining : List ServiceName) (search : CycleSearch)
    (nodes : List ServiceName) : Option String × CycleSearch → Prop
  | cycle {cycle : List ServiceName} {s : CycleSearch} (h : IsCycle deps.DependsOn cycle) :
    Visited deps remaining search nodes (some (cycleText cycle), s)
  | back {s : CycleSearch} (h : Back deps remaining search nodes s) :
    Visited deps remaining search nodes (none, s)

section Visit

variable {deps : DependencyGraph} {remaining : List ServiceName} {search : CycleSearch}

theorem Back.start (h : search.Consistent deps remaining) : Back deps remaining search [] search where
  consistent := h
  path_eq := rfl
  mono := Finset.Subset.refl _
  done _ hnode := absurd hnode List.not_mem_nil

theorem Back.trans {nodes nodes' : List ServiceName} {s s' : CycleSearch}
    (h : Back deps remaining search nodes s) (h' : Back deps remaining s nodes' s') :
    Back deps remaining search (nodes ++ nodes') s' where
  consistent := h'.consistent
  path_eq := h'.path_eq.trans h.path_eq
  mono := h.mono.trans h'.mono
  done node hnode hremaining := by
    rcases List.mem_append.mp hnode with hnode | hnode
    · exact h'.mono (h.done node hnode hremaining)
    · exact h'.done node hnode hremaining

/-- What holds of a visit to each of some services holds of a loop over them, which ends when a
cycle was found. -/
theorem Visited.foldlM (visit : CycleSearch → ServiceName → Option (Option String × CycleSearch))
    {names : List ServiceName}
    (hvisit : ∀ node ∈ names, ∀ s : CycleSearch, s.Consistent deps remaining →
      s.path = search.path → ∃ result, visit s node = some result ∧
        Visited deps remaining s [node] result) :
    ∀ {nodes : List ServiceName} {found : Option String × CycleSearch},
      Visited deps remaining search nodes found →
        ∃ result, names.foldlM (fun (found : Option String × CycleSearch) node =>
            if found.1.isSome then some found else visit found.2 node) found = some result ∧
          Visited deps remaining search (nodes ++ names) result := by
  induction names with
  | nil =>
    intro nodes found h
    rw [List.append_nil]
    exact ⟨found, rfl, h⟩
  | cons node names ih =>
    intro nodes found h
    have hrest := @ih fun other hother => hvisit other (List.mem_cons_of_mem _ hother)
    rw [List.append_cons]
    cases h with
    | cycle h =>
      obtain ⟨result, hresult, hvisited⟩ := @hrest (nodes ++ [node]) _ (.cycle h)
      exact ⟨result, hresult, hvisited⟩
    | @back s h =>
      obtain ⟨next, hnext, hvisited⟩ := hvisit node List.mem_cons_self s h.consistent h.path_eq
      have hboth : Visited deps remaining search (nodes ++ [node]) next := by
        cases hvisited with
        | cycle hcycle => exact .cycle hcycle
        | back hback => exact .back (h.trans hback)
      obtain ⟨result, hresult, hvisited⟩ := hrest hboth
      refine ⟨result, ?_, hvisited⟩
      rw [List.foldlM_cons]
      exact Option.bind_eq_some_iff.mpr ⟨next, hnext, hresult⟩

/-- **The search comes back** from a service, with a cycle or finished with it. -/
theorem dfsWithin_spec (depth : ℕ) : ∀ {node : ServiceName} {search : CycleSearch},
    search.Consistent deps remaining → (∀ last ∈ search.path.getLast?, deps.DependsOn last node) →
      remaining.length < search.path.length + depth →
        ∃ result, dfsWithin deps remaining depth node search = some result ∧
          Visited deps remaining search [node] result := by
  induction depth with
  | zero =>
    intro node search h _ hdepth
    exact absurd h.length_le (not_le.mpr hdepth)
  | succ depth ih =>
    intro node search h hlast hdepth
    rw [dfsWithin]
    split_ifs with hon hskip
    · exact ⟨_, rfl, .cycle (h.isCycle hon hlast)⟩
    · refine ⟨_, rfl, .back ⟨h, rfl, Finset.Subset.refl _, fun other hother hremaining => ?_⟩⟩
      obtain rfl := List.mem_singleton.mp hother
      exact hskip.resolve_right (not_not.mpr hremaining)
    · obtain ⟨hfresh, hremaining⟩ := not_or.mp hskip
      let entered : CycleSearch := { search with
        onPath := insert node search.onPath, path := search.path ++ [node] }
      have hentered : entered.Consistent deps remaining := h.push hon (not_not.mp hremaining) hlast
      have hdeps : ∀ dep, dep ∈ sortNames ((deps[node]?).getD []) ↔ deps.DependsOn node dep := by
        intro dep
        rw [sortNames, (List.perm_insertionSort _ _).mem_iff, DependencyGraph.DependsOn]
        cases deps[node]? <;> simp
      have hvisit : ∀ dep ∈ sortNames ((deps[node]?).getD []), ∀ s : CycleSearch,
          s.Consistent deps remaining → s.path = entered.path →
            ∃ result, dfsWithin deps remaining depth dep s = some result ∧
              Visited deps remaining s [dep] result := by
        intro dep hdep s hs hpath
        refine ih hs (fun last hlast => ?_) ?_
        · rw [hpath, List.getLast?_concat] at hlast
          exact Option.mem_some.mp hlast ▸ (hdeps dep).mp hdep
        · rw [hpath, List.length_append, List.length_singleton]
          omega
      obtain ⟨visited, hvisited, hresult⟩ := Visited.foldlM
        (fun s dep => dfsWithin deps remaining depth dep s) hvisit (.back (Back.start hentered))
      cases hresult with
      | cycle hcycle =>
        exact ⟨_, Option.bind_eq_some_iff.mpr ⟨_, hvisited, rfl⟩, .cycle hcycle⟩
      | @back s hback =>
        refine ⟨_, Option.bind_eq_some_iff.mpr ⟨_, hvisited, rfl⟩, .back ?_⟩
        have hpath : s.path = search.path ++ [node] := hback.path_eq
        have hleft : s.path.dropLast = search.path := by rw [hpath, List.dropLast_concat]
        have hconsistent := hback.consistent
        rw [CycleSearch.Consistent, hpath] at hconsistent
        constructor
        case consistent =>
          show DepthFirst.Consistent _ _ s.path.dropLast _ _
          rw [hleft]
          exact hconsistent.pop fun dep hdep hwithin =>
            hback.done dep ((hdeps dep).mpr hdep) hwithin
        case path_eq => exact hleft
        case mono => exact hback.mono.trans (Finset.subset_insert node s.finished)
        case done =>
          intro other hother _
          obtain rfl := List.mem_singleton.mp hother
          exact Finset.mem_insert_self other s.finished

/-- **The loop comes back**, with a cycle or finished with all services that are left. -/
theorem searchWithin_spec {depth : ℕ} (hdepth : remaining.length < depth) :
    (∃ cycle, searchWithin deps remaining depth = some (some (cycleText cycle)) ∧
      IsCycle deps.DependsOn cycle) ∨
    ∃ s : CycleSearch, s.Consistent deps remaining ∧ ∀ node ∈ remaining, node ∈ s.finished := by
  let start : CycleSearch := { path := [], onPath := ∅, finished := ∅ }
  have hstart : start.Consistent deps remaining := .start deps.DependsOn remaining
  let visit (s : CycleSearch) (node : ServiceName) : Option (Option String × CycleSearch) :=
    if node ∈ s.finished then some (none, s) else dfsWithin deps remaining depth node s
  have hvisit : ∀ node ∈ remaining, ∀ s : CycleSearch, s.Consistent deps remaining →
      s.path = start.path → ∃ result, visit s node = some result ∧
        Visited deps remaining s [node] result := by
    intro node _ s hs hpath
    by_cases hfinished : node ∈ s.finished
    · refine ⟨_, if_pos hfinished, .back ⟨hs, rfl, Finset.Subset.refl _, fun other hother _ => ?_⟩⟩
      exact List.mem_singleton.mp hother ▸ hfinished
    · simp only [visit, if_neg hfinished]
      refine dfsWithin_spec depth hs (fun last hlast => ?_) ?_
      · rw [hpath] at hlast
        cases hlast
      · exact hdepth.trans_le (Nat.le_add_left _ _)
  have hbody : (fun (found : Option String × CycleSearch) node =>
      if found.1.isSome ∨ node ∈ found.2.finished then some found
      else dfsWithin deps remaining depth node found.2) =
      fun found node => if found.1.isSome then some found else visit found.2 node := by
    funext ⟨found, s⟩ node
    cases found with
    | none => simp [visit]
    | some text => simp
  obtain ⟨result, hresult, hvisited⟩ := Visited.foldlM visit hvisit (.back (Back.start hstart))
  cases hvisited with
  | @cycle cycle s hcycle =>
    refine Or.inl ⟨cycle, ?_, hcycle⟩
    rw [searchWithin, hbody]
    exact Option.bind_eq_some_iff.mpr ⟨_, hresult, rfl⟩
  | @back s hback =>
    exact Or.inr ⟨s, hback.consistent, fun node hnode => hback.done node hnode hnode⟩

end Visit

/-! ### What the sort leaves -/

section Left

variable {deps : DependencyGraph} {name : ServiceName}

/-- What is left are the services that were not scheduled. -/
theorem mem_unscheduled : name ∈ unscheduled deps ↔
    name ∈ deps.keys ∧ name ∉ scheduledOrder deps := by
  obtain ⟨hserved, hqueue⟩ := served_scheduled deps
  have hdegree : name ∈ unscheduled deps ↔
      0 < ((KahnState.start deps).run deps.size).degree name := by
    rw [unscheduled, TreeMap.mem_keys_iff_exists]
    simp only [ExtTreeMap.getElem?_filter', Option.filter_eq_some_iff, decide_eq_true_eq,
      KahnState.degree]
    cases ((KahnState.start deps).run deps.size).inDegree[name]? <;> simp
  rw [hdegree]
  constructor
  · intro hpos
    constructor
    · by_contra hkeys
      have hunmet : Kahn.unmet deps.edges (scheduledOrder deps) name = 0 :=
        Kahn.unmet_eq_zero fun dep hedge =>
          absurd (DependencyGraph.mem_edges_iff.mp hedge).mem_keys hkeys
      have heq := hserved.fits.counts.degree_eq name
      rw [List.count_nil, Nat.add_zero] at heq
      exact hpos.ne' (heq.trans hunmet)
    · intro horder
      exact hpos.ne' (hserved.fits.counts.ready name (List.mem_append_right _ horder))
  · rintro ⟨hkeys, hnot⟩
    refine Nat.pos_of_ne_zero fun hzero => ?_
    have hmem := hserved.frontier.complete name hkeys hzero
    rw [hqueue, List.nil_append] at hmem
    exact hnot hmem

theorem topologicalSort_eq_error (hlength : (scheduledOrder deps).length ≠ deps.size) :
    topologicalSort deps = .error (.dependencyCycle (findCycle deps (unscheduled deps))) :=
  if_pos hlength

/-- **The cycle that is reported.** When all dependencies are services of the graph, and there is a
cycle, the sort reports one: the search has come back with it, at every depth that is more than the
number of services that are left, and does not fall back on anything. -/
theorem topologicalSort_reports_cycle (deps : DependencyGraph) (hclosed : deps.Closed)
    (hcycle : ∃ name, Relation.TransGen deps.DependsOn name name) :
    ∃ cycle, IsCycle deps.DependsOn cycle ∧
      topologicalSort deps = .error (.dependencyCycle (cycleText cycle)) ∧
        ∀ depth, (unscheduled deps).length < depth →
          searchWithin deps (unscheduled deps) depth = some (some (cycleText cycle)) := by
  obtain ⟨name, hname⟩ := hcycle
  have hlength : (scheduledOrder deps).length ≠ deps.size := fun hlength =>
    (length_scheduledOrder_iff hclosed).mp hlength name hname
  have hmore : ∀ name ∈ unscheduled deps, ∃ dep ∈ unscheduled deps, deps.DependsOn name dep := by
    intro name hname
    obtain ⟨hkeys, hnot⟩ := mem_unscheduled.mp hname
    obtain ⟨dep, hdep, hleft, hdepends⟩ := exists_dependsOn_notMem_scheduledOrder hclosed hkeys hnot
    exact ⟨dep, mem_unscheduled.mpr ⟨hdep, hleft⟩, hdepends⟩
  have hdepth : (unscheduled deps).length < (unscheduled deps).length + 1 := Nat.lt_succ_self _
  rcases searchWithin_spec hdepth with ⟨cycle, hfound, hcycle⟩ | ⟨s, hs, hall⟩
  · refine ⟨cycle, hcycle, ?_, fun depth hdepth => searchWithin_mono hdepth hfound⟩
    rw [topologicalSort_eq_error hlength, findCycle_eq hfound]
    rfl
  · obtain ⟨name, hkeys, hnot⟩ := exists_notMem_scheduledOrder hlength
    have hleft : name ∈ unscheduled deps := mem_unscheduled.mpr ⟨hkeys, hnot⟩
    exact absurd (hall name hleft) (hs.notMem_finished hmore hleft)

/-- A service that only depends on a cycle is left too, and is where the search starts. -/
theorem topologicalSort_reports_cycle_behind : ∃ deps : DependencyGraph,
    (unscheduled deps).head? = some ⟨"api"⟩ ∧ ∃ cycle, IsCycle deps.DependsOn cycle ∧
      topologicalSort deps = .error (.dependencyCycle (cycleText cycle)) ∧
        cycleText cycle = "db -> queue -> db" := by
  let entries : List (ServiceName × List ServiceName) :=
    [(⟨"api"⟩, [⟨"log"⟩, ⟨"db"⟩]), (⟨"db"⟩, [⟨"queue"⟩]), (⟨"log"⟩, []), (⟨"queue"⟩, [⟨"db"⟩])]
  let deps : DependencyGraph := ExtTreeMap.ofList entries
  have hclosed : ∀ edge ∈ deps.edges, edge.2 ∈ deps := by decide +kernel
  have hforth : ((⟨"db"⟩, ⟨"queue"⟩) : ServiceName × ServiceName) ∈ deps.edges := by decide +kernel
  have hback : ((⟨"queue"⟩, ⟨"db"⟩) : ServiceName × ServiceName) ∈ deps.edges := by decide +kernel
  have hloop : Relation.TransGen deps.DependsOn ⟨"db"⟩ ⟨"db"⟩ :=
    .tail (.single (DependencyGraph.mem_edges_iff.mp hforth)) (DependencyGraph.mem_edges_iff.mp hback)
  obtain ⟨cycle, hcycle, hsort, -⟩ := topologicalSort_reports_cycle deps
    (fun name dependency hdep => hclosed (name, dependency) (DependencyGraph.mem_edges_iff.mpr hdep))
    ⟨_, hloop⟩
  have hfirst : (unscheduled deps).head? = some ⟨"api"⟩ := by decide +kernel
  have htext : topologicalSort deps = .error (.dependencyCycle "db -> queue -> db") := by
    decide +kernel
  refine ⟨deps, hfirst, cycle, hcycle, hsort, ?_⟩
  have heq : ConfigError.dependencyCycle (cycleText cycle) = .dependencyCycle "db -> queue -> db" :=
    Except.error.inj (hsort.symm.trans htext)
  exact ConfigError.dependencyCycle.inj heq

end Left

end Servicrab
