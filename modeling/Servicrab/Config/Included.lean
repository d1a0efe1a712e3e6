import Mathlib.SetTheory.Cardinal.Finite
import Servicrab.Config.Include
import Servicrab.Config.Valid

/-!
# Following includes

An include is followed in one of two ways: it is reported, or its fragment is merged and what the
fragment includes is followed in turn. A recursion that goes deep enough ends, since every fragment
that is merged is a file that was not merged before. What the loader keeps in all runs is an
invariant; the fragments that it merges are the list of the forest of includes if nothing is
reported, and nothing is reported if that forest repeats no file.

## Main definitions

* `Loader.Refused`, `Loader.Accepts`, `Follows`: how includes are followed.
* `Loader.Sound`: the invariant.
* `Neat`: fragments that there is nothing to report about.

## Main results

* `Follows.at_end`, `Follows.lists`, `Follows.quiet`.
* `tidy_iff`.
* `exists_loader_correct`.
-/

open Std (ExtTreeMap)
open Relation (ReflTransGen TransGen)

namespace Servicrab

variable {files : SourceFiles} {raw : RawRoot} {root path source includedBy name : String}
  {fragment : RawFragment} {loader loader' inner : Loader} {error : IncludeError}
  {paths more log : List String} {fuel : ℕ}

/-! ### How an include is followed -/

/-- An include is reported. -/
inductive Loader.Refused (files : SourceFiles) (loader : Loader) (path includedBy : String) :
    IncludeError → Prop
  | cycle {index : ℕ}
      (h : loader.chain.findIdx? (fun ancestor => ancestor.identity = files.identity path) =
        some index) :
      Refused files loader path includedBy (.includeCycle (" -> ".intercalate
        ((loader.chain.drop index).map Ancestor.path ++ [path])))
  | twice {first : String} (h : loader.merged[files.identity path]? = some first) :
      Refused files loader path includedBy (.includeTwice path first includedBy)
  | unread {error : IncludeError} (h : files.fragment path = none)
      (hkind : ∀ cycle, error ≠ .includeCycle cycle) :
      Refused files loader path includedBy error

/-- An include is not on the include path, was not merged before, and is a fragment. -/
structure Loader.Accepts (files : SourceFiles) (loader : Loader) (path : String)
    (fragment : RawFragment) : Prop where
  chain : ∀ ancestor ∈ loader.chain, ancestor.identity ≠ files.identity path
  merged : loader.merged[files.identity path]? = none
  fragment : files.fragment path = some fragment

/-- The includes at some paths of the file at `source` are followed. -/
inductive Follows (files : SourceFiles) : String → List String → Loader → Loader → Prop
  | nil {source : String} {loader : Loader} : Follows files source [] loader loader
  | refused {source path : String} {paths : List String} {loader loader' : Loader}
      {error : IncludeError} (h : loader.Refused files path source error)
      (hrest : Follows files source paths (loader.report error) loader') :
      Follows files source (path :: paths) loader loader'
  | merged {source path : String} {paths : List String} {loader inner loader' : Loader}
      {fragment : RawFragment} (h : loader.Accepts files path fragment)
      (hinner : Follows files path (targets fragment.includes path)
        (loader.enter files path source fragment) inner)
      (hrest : Follows files source paths inner.leave loader') :
      Follows files source (path :: paths) loader loader'

namespace Loader

/-- What becomes of one include. -/
theorem one_succ (files : SourceFiles) (fuel : ℕ) (loader : Loader) (path includedBy : String) :
    (∃ error, loader.Refused files path includedBy error ∧
      one files (fuel + 1) loader path includedBy = some (loader.report error)) ∨
    ∃ fragment, loader.Accepts files path fragment ∧
      one files (fuel + 1) loader path includedBy =
        ((loader.enter files path includedBy fragment).follow (one files fuel)
          fragment.includes path).map leave := by
  cases hindex : loader.chain.findIdx? fun ancestor => ancestor.identity = files.identity path with
  | some index => exact .inl ⟨_, .cycle hindex, by simp only [one, hindex]⟩
  | none =>
    cases hmerged : loader.merged[files.identity path]? with
    | some first => exact .inl ⟨_, .twice hmerged, by simp only [one, hindex, hmerged]⟩
    | none =>
      cases hread : files.readToString path with
      | error e =>
        refine .inl ⟨.includeRead includedBy path e, .unread ?_ fun _ => nofun,
          by simp only [one, hindex, hmerged, read, hread]⟩
        simp only [SourceFiles.fragment, hread]
      | ok text =>
        cases hparse : files.parse text with
        | error e =>
          refine .inl ⟨.parse path e, .unread ?_ fun _ => nofun,
            by simp only [one, hindex, hmerged, read, hread, hparse]⟩
          simp only [SourceFiles.fragment, hread, hparse]
          rfl
        | ok fragment =>
          refine .inr ⟨fragment, ⟨?_, hmerged, ?_⟩,
            by simp only [one, hindex, hmerged, read, hread, hparse]⟩
          · simpa using List.findIdx?_eq_none_iff.mp hindex
          · simp only [SourceFiles.fragment, hread, hparse]
            rfl

end Loader

/-- What the recursion returns has been followed. -/
theorem follows_of_foldlM
    (h : paths.foldlM (fun loader path => Loader.one files fuel loader path source) loader =
      some loader') : Follows files source paths loader loader' := by
  induction fuel generalizing source paths loader loader' with
  | zero =>
    cases paths with
    | nil =>
      obtain rfl := Option.some.inj h
      exact .nil
    | cons path paths => cases h
  | succ fuel ih =>
    induction paths generalizing loader with
    | nil =>
      obtain rfl := Option.some.inj h
      exact .nil
    | cons path paths ihpaths =>
      rw [List.foldlM_cons] at h
      obtain ⟨u, hu, hrest⟩ := Option.bind_eq_some_iff.mp h
      rcases Loader.one_succ files fuel loader path source with
        ⟨error, hrefused, hone⟩ | ⟨fragment, haccepts, hone⟩
      · rw [hone] at hu
        obtain rfl := Option.some.inj hu
        exact .refused hrefused (ihpaths hrest)
      · rw [hone] at hu
        obtain ⟨inner, hinner, rfl⟩ := Option.map_eq_some_iff.mp hu
        exact .merged haccepts (ih hinner) (ihpaths hrest)

namespace Follows

/-- An error that was reported stays. -/
theorem errors_of_errors (h : Follows files source paths loader loader')
    (hnone : loader'.errors = []) : loader.errors = [] := by
  induction h with
  | nil => exact hnone
  | refused _ _ ih => simpa [Loader.report] using ih hnone
  | merged _ _ _ ihinner ihrest => exact (Loader.errors_enter.mp (ihinner (ihrest hnone))).1

theorem log_prefix (h : Follows files source paths loader loader') : loader.log <+: loader'.log := by
  induction h with
  | nil => exact List.prefix_rfl
  | refused _ _ ih => exact ih
  | merged _ _ _ ihinner ihrest =>
    rw [Loader.log_enter] at ihinner
    exact (List.prefix_append _ _).trans (ihinner.trans ihrest)

/-- The include path is as it was. -/
theorem chain_eq (h : Follows files source paths loader loader') : loader'.chain = loader.chain := by
  induction h with
  | nil => rfl
  | refused _ _ ih => exact ih
  | merged _ _ _ ihinner ihrest =>
    rw [ihrest, Loader.leave, ihinner, Loader.chain_enter, List.dropLast_concat]

end Follows

/-! ### What the loader keeps -/

theorem SourceFiles.isSome_named (h : (files.fragment path).isSome) : (files.named path).isSome := by
  cases hnamed : files.named path with
  | some file => rfl
  | none => simp [fragment, readToString, hnamed] at h

theorem fileAt_of_ne (h : path ≠ root) : fileAt files raw root path = files.fragment path := if_neg h

theorem includesOf_root : includesOf files raw root root = targets raw.includes root := by
  simp [includesOf, fileAt]

theorem includesOf_of_ne (h : path ≠ root) (hfragment : files.fragment path = some fragment) :
    includesOf files raw root path = targets fragment.includes path := by
  simp only [includesOf, fileAt_of_ne h, hfragment]

theorem declared_of_ne (h : path ≠ root) (hfragment : files.fragment path = some fragment) :
    declared files raw root path name = fragment.services[name]?.map (RawService.at path) := by
  simp only [declared, fileAt_of_ne h, hfragment, Option.bind_some]

/-- The include path is a path in the graph of includes, from the root. The fragments that were merged
are different files, and the first service of each name is there. -/
structure Loader.Sound (files : SourceFiles) (raw : RawRoot) (root : String) (loader : Loader) :
    Prop where
  head : loader.chain.head? = some ⟨files.identity root, root⟩
  isChain : (loader.chain.map Ancestor.path).IsChain (Unfolding.Leads (includesOf files raw root))
  identity : ∀ ancestor ∈ loader.chain, ancestor.identity = files.identity ancestor.path
  known : ∀ ancestor ∈ loader.chain, ancestor.path ∈ root :: loader.log
  merged : ∀ identity : String,
    loader.merged[identity]?.isSome ↔ identity ∈ loader.log.map files.identity
  nodup : ((root :: loader.log).map files.identity).Nodup
  fragment : ∀ path ∈ loader.log, (files.fragment path).isSome
  services : ∀ name : String, loader.services[name]? =
    (root :: loader.log).findSome? fun path => declared files raw root path name
  cycles : ∀ cycle, .includeCycle cycle ∈ loader.errors →
    ∃ paths, cycle = " -> ".intercalate paths ∧ RealCycle files raw root paths

/-- The loader is about to follow the includes at some paths of the file at `source`. -/
structure Loader.At (files : SourceFiles) (raw : RawRoot) (root source : String)
    (paths : List String) (loader : Loader) : Prop extends Sound files raw root loader where
  last : (loader.chain.map Ancestor.path).getLast? = some source
  leads : ∀ path ∈ paths, Unfolding.Leads (includesOf files raw root) source path

namespace Loader

theorem Sound.path_ne_root (h : loader.Sound files raw root)
    (haccepts : loader.Accepts files path fragment) : path ≠ root := by
  rintro rfl
  exact haccepts.chain _ (List.mem_of_mem_head? h.head) rfl

theorem at_start : (start files raw root).At files raw root root (targets raw.includes root) where
  head := rfl
  isChain := .singleton root
  identity := by simp [start]
  known := by simp [start]
  merged := by simp [start]
  nodup := List.nodup_singleton _
  fragment := by simp [start]
  services name := by
    simp [start, declared, fileAt, ExtTreeMap.getElem?_map]
  cycles := by simp [start]
  last := rfl
  leads path hpath := by rwa [Unfolding.Leads, includesOf_root]

/-- A file that is on the include path closes a real cycle. -/
theorem At.realCycle (h : loader.At files raw root source (path :: paths))
    (hidentifies : files.Identifies) (hroot : (files.named root).isSome) {index : ℕ}
    (hindex : loader.chain.findIdx? (fun ancestor => ancestor.identity = files.identity path) =
      some index) :
    RealCycle files raw root ((loader.chain.drop index).map Ancestor.path ++ [path]) := by
  obtain ⟨hlt, hsame, -⟩ := List.findIdx?_eq_some_iff_getElem.mp hindex
  rw [decide_eq_true_eq, h.identity _ (List.getElem_mem hlt)] at hsame
  have hnamed : (files.named loader.chain[index].path).isSome := by
    rcases List.mem_cons.mp (h.known _ (List.getElem_mem hlt)) with hpath | hpath
    · rwa [hpath]
    · exact SourceFiles.isSome_named (h.fragment _ hpath)
  obtain ⟨file, hfile⟩ := Option.isSome_iff_exists.mp hnamed
  constructor
  case two_le =>
    simp
    omega
  case chain =>
    rw [List.map_drop]
    refine (h.isChain.drop _).append (.singleton path) fun b hb c hc => ?_
    obtain rfl : path = c := by simpa using hc
    rw [List.getLast?_drop, if_neg (by simpa using hlt), h.last] at hb
    obtain rfl := Option.some.inj hb
    exact h.leads path List.mem_cons_self
  case closed =>
    refine ⟨file, loader.chain[index].path, ?_, path, ?_, hfile,
      (hidentifies _ _ _ hfile).mp hsame⟩
    · rw [List.drop_eq_getElem_cons hlt]
      rfl
    · simp

theorem At.refused (h : loader.At files raw root source (path :: paths))
    (hidentifies : files.Identifies) (hroot : (files.named root).isSome)
    (hrefused : loader.Refused files path source error) :
    (loader.report error).At files raw root source paths := by
  refine { h with cycles := fun cycle hcycle => ?_, leads := fun p hp => ?_ }
  · rcases List.mem_append.mp hcycle with hcycle | hcycle
    · exact h.cycles cycle hcycle
    · have heq := List.mem_singleton.mp hcycle
      cases hrefused with
      | cycle hindex =>
        cases heq
        exact ⟨_, rfl, h.realCycle hidentifies hroot hindex⟩
      | twice => cases heq
      | unread _ hkind => exact absurd heq.symm (hkind cycle)
  · exact h.leads p (List.mem_cons_of_mem path hp)

/-- A fragment is merged, and what it includes comes next. -/
theorem At.entered (h : loader.At files raw root source (path :: paths))
    (haccepts : loader.Accepts files path fragment) :
    (loader.enter files path source fragment).At files raw root path
      (targets fragment.includes path) := by
  have hne := h.path_ne_root haccepts
  have hfresh : files.identity path ∉ (root :: loader.log).map files.identity := by
    rw [List.map_cons, List.mem_cons, not_or, ← h.merged, haccepts.merged]
    exact ⟨fun heq => haccepts.chain _ (List.mem_of_mem_head? h.head) heq.symm, by simp⟩
  constructor
  case toSound =>
    constructor
    case head => rw [chain_enter, List.head?_append, h.head, Option.some_or]
    case isChain =>
      rw [chain_enter, List.map_append]
      refine h.isChain.append (.singleton path) fun b hb c hc => ?_
      obtain rfl : path = c := by simpa using hc
      rw [h.last] at hb
      obtain rfl := Option.some.inj hb
      exact h.leads path List.mem_cons_self
    case identity =>
      rw [chain_enter, List.forall_mem_append]
      exact ⟨h.identity, by simp⟩
    case known =>
      rw [chain_enter, log_enter, ← List.cons_append, List.forall_mem_append]
      exact ⟨fun a ha => List.mem_append_left _ (h.known a ha), by simp⟩
    case merged =>
      intro identity
      rw [merged_enter, log_enter, TreeMap.getElem?_insert, List.map_append, List.mem_append,
        ← h.merged]
      split_ifs with heq <;> simp [heq]
    case nodup =>
      rw [log_enter, ← List.cons_append, List.map_append]
      refine List.nodup_append.mpr ⟨h.nodup, List.nodup_singleton _, fun a ha b hb => ?_⟩
      obtain rfl := List.mem_singleton.mp hb
      exact ne_of_mem_of_not_mem ha hfresh
    case fragment =>
      rw [log_enter, List.forall_mem_append]
      exact ⟨h.fragment, by simp [haccepts.fragment]⟩
    case services =>
      intro name
      rw [services_enter, log_enter, ← List.cons_append, List.findSome?_append, ← h.services]
      simp [declared_of_ne hne haccepts.fragment]
    case cycles => exact fun cycle hcycle => h.cycles cycle (cycle_mem_enter.mp hcycle)
  case last => simp
  case leads =>
    intro p hp
    rwa [Unfolding.Leads, includesOf_of_ne hne haccepts.fragment]

/-- What a fragment includes has been followed, and the include path is as it was. -/
theorem At.left (h : loader.At files raw root source (path :: paths))
    (hinner : inner.Sound files raw root) {ancestor : Ancestor}
    (hchain : inner.chain = loader.chain ++ [ancestor]) :
    inner.leave.At files raw root source paths := by
  have hsame : inner.leave.chain = loader.chain := by
    rw [leave, hchain, List.dropLast_concat]
  constructor
  case toSound =>
    refine { hinner with head := ?_, isChain := ?_, identity := ?_, known := ?_ }
    · rw [hsame, h.head]
    · rw [hsame]
      exact h.isChain
    · rw [hsame]
      exact h.identity
    · rw [hsame]
      exact fun a ha => hinner.known a (hchain ▸ List.mem_append_left _ ha)
  case last => rw [hsame, h.last]
  case leads => exact fun p hp => h.leads p (List.mem_cons_of_mem path hp)

end Loader

/-- What the loader keeps in all runs. -/
theorem Follows.at_end (hidentifies : files.Identifies) (hroot : (files.named root).isSome)
    (h : Follows files source paths loader loader') (hat : loader.At files raw root source paths) :
    loader'.At files raw root source [] := by
  induction h with
  | nil => exact hat
  | refused hrefused _ ih => exact ih (hat.refused hidentifies hroot hrefused)
  | merged haccepts hinner _ ihinner ihrest =>
    exact ihrest (hat.left (ihinner (hat.entered haccepts)).toSound
      (hinner.chain_eq.trans Loader.chain_enter))

/-- What a fragment includes has been followed, and the next include comes. -/
theorem Follows.left (hidentifies : files.Identifies) (hroot : (files.named root).isSome)
    (hat : loader.At files raw root source (path :: paths))
    (haccepts : loader.Accepts files path fragment)
    (hinner : Follows files path (targets fragment.includes path)
      (loader.enter files path source fragment) inner) :
    inner.leave.At files raw root source paths :=
  hat.left (hinner.at_end hidentifies hroot (hat.entered haccepts)).toSound
    (hinner.chain_eq.trans Loader.chain_enter)

/-! ### The recursion ends -/

/-- Paths that lead to files are told apart by what they are. -/
theorem SourceFiles.nodup_identity_iff (hidentifies : files.Identifies)
    (hnamed : ∀ path ∈ paths, (files.named path).isSome) :
    (paths.map files.identity).Nodup ↔ (paths.map files.named).Nodup := by
  rw [List.Nodup, List.Nodup, List.pairwise_map, List.pairwise_map]
  refine List.Pairwise.iff_of_mem fun {p q} hp _ => not_congr ?_
  obtain ⟨file, hfile⟩ := Option.isSome_iff_exists.mp (hnamed p hp)
  rw [hidentifies p q file hfile, hfile, eq_comm]

theorem Loader.Sound.nodup_named (h : loader.Sound files raw root) (hidentifies : files.Identifies)
    (hroot : (files.named root).isSome) : ((root :: loader.log).map files.named).Nodup := by
  refine (SourceFiles.nodup_identity_iff hidentifies fun p hp => ?_).mp h.nodup
  rcases List.mem_cons.mp hp with rfl | hp
  · exact hroot
  · exact SourceFiles.isSome_named (h.fragment p hp)

/-- There are no more fragments than files. -/
theorem Loader.Sound.length_le [Finite files.File] (h : loader.Sound files raw root)
    (hidentifies : files.Identifies) (hroot : (files.named root).isSome) :
    loader.log.length ≤ Nat.card files.File := by
  have := Fintype.ofFinite files.File
  have hle := (h.nodup_named hidentifies hroot).length_le_card
  rw [Fintype.card_option, ← Nat.card_eq_fintype_card] at hle
  simpa using hle

/-- The recursion ends when it may go deeper than there are files. -/
theorem exists_foldlM [Finite files.File] (hidentifies : files.Identifies)
    (hroot : (files.named root).isSome) (hat : loader.At files raw root source paths)
    (hfuel : Nat.card files.File < fuel + loader.log.length) :
    ∃ loader', paths.foldlM (fun loader path => Loader.one files fuel loader path source) loader =
      some loader' := by
  induction fuel generalizing source paths loader with
  | zero =>
    have hle := hat.length_le hidentifies hroot
    omega
  | succ fuel ih =>
    induction paths generalizing loader with
    | nil => exact ⟨loader, rfl⟩
    | cons path paths ihpaths =>
      rw [List.foldlM_cons]
      rcases Loader.one_succ files fuel loader path source with
        ⟨error, hrefused, hone⟩ | ⟨fragment, haccepts, hone⟩
      · rw [hone]
        exact ihpaths (hat.refused hidentifies hroot hrefused) hfuel
      · have hentered := hat.entered haccepts
        obtain ⟨inner, hinner⟩ := ih hentered (by simp; omega)
        have hfollows := follows_of_foldlM hinner
        have hlength := hfollows.log_prefix.length_le
        rw [Loader.log_enter, List.length_append] at hlength
        rw [hone, Loader.follow, hinner]
        refine ihpaths (hfollows.left hidentifies hroot hat haccepts) ?_
        change _ < fuel + 1 + inner.log.length
        omega

/-! ### Nothing is reported -/

/-- Fragments that there is nothing to report about. -/
structure Neat (files : SourceFiles) (raw : RawRoot) (root : String) (log : List String) : Prop where
  nodup : ((root :: log).map files.identity).Nodup
  fragment : ∀ path ∈ log, ∃ fragment, files.fragment path = some fragment ∧
    fragment.version = none ∧ fragment.project = none
  names : (root :: log).Pairwise fun path path' => ∀ name,
    (declared files raw root path name).isSome → declared files raw root path' name = none

theorem Neat.of_append (h : Neat files raw root (log ++ more)) : Neat files raw root log := by
  have hsub : (root :: log).Sublist (root :: (log ++ more)) :=
    (List.sublist_append_left log more).cons_cons root
  exact ⟨h.nodup.sublist (hsub.map _), fun path hpath => h.fragment path (List.mem_append_left _ hpath),
    h.names.sublist hsub⟩

namespace Loader

/-- A neat fragment is not reported. -/
theorem At.not_refused (h : loader.At files raw root source (path :: paths))
    (hneat : Neat files raw root (loader.log ++ path :: more)) :
    ¬loader.Refused files path source error := by
  have hfresh : files.identity path ∉ (root :: loader.log).map files.identity := by
    have hnodup := hneat.nodup
    rw [← List.cons_append, List.map_append, List.nodup_append] at hnodup
    exact fun hmem => hnodup.2.2 _ hmem _ (List.mem_map_of_mem List.mem_cons_self) rfl
  intro hrefused
  cases hrefused with
  | cycle hindex =>
    obtain ⟨hlt, hsame, -⟩ := List.findIdx?_eq_some_iff_getElem.mp hindex
    rw [decide_eq_true_eq, h.identity _ (List.getElem_mem hlt)] at hsame
    exact hfresh (hsame ▸ List.mem_map_of_mem (h.known _ (List.getElem_mem hlt)))
  | twice hmerged =>
    have hmem := (h.merged (files.identity path)).mp (by rw [hmerged]; rfl)
    exact hfresh (List.mem_cons_of_mem _ hmem)
  | unread hnone =>
    obtain ⟨fragment, hfragment, -⟩ := hneat.fragment path (by simp)
    rw [hnone] at hfragment
    cases hfragment

/-- Nothing is reported about a fragment as it is merged exactly if it is neat. -/
theorem At.errors_entered_iff (h : loader.At files raw root source (path :: paths))
    (haccepts : loader.Accepts files path fragment) (hneat : Neat files raw root loader.log) :
    (loader.enter files path source fragment).errors = [] ↔
      loader.errors = [] ∧ Neat files raw root (loader.log ++ [path]) := by
  have hne := h.path_ne_root haccepts
  have hnames : (∀ name : String, fragment.services[name]?.isSome → loader.services[name]? = none) ↔
      ∀ p ∈ root :: loader.log, ∀ name, (declared files raw root p name).isSome →
        declared files raw root path name = none := by
    simp only [h.services, List.findSome?_eq_none_iff, declared_of_ne hne haccepts.fragment,
      Option.map_eq_none_iff]
    constructor
    · intro hall p hp name hsome
      by_contra hother
      rw [hall name (Option.isSome_iff_ne_none.mpr hother) p hp] at hsome
      cases hsome
    · intro hall name hsome p hp
      by_contra hother
      rw [hall p hp name (Option.isSome_iff_ne_none.mpr hother)] at hsome
      cases hsome
  rw [errors_enter, hnames]
  refine and_congr_right fun _ => ⟨fun ⟨hclean, hdistinct⟩ => ?_, fun hneat' => ⟨?_, ?_⟩⟩
  · constructor
    case nodup =>
      have hnodup := (h.entered haccepts).nodup
      rwa [log_enter] at hnodup
    case fragment =>
      rw [List.forall_mem_append]
      refine ⟨hneat.fragment, fun p hp => ?_⟩
      obtain rfl := List.mem_singleton.mp hp
      exact ⟨fragment, haccepts.fragment, hclean⟩
    case names =>
      rw [← List.cons_append, List.pairwise_append]
      refine ⟨hneat.names, List.pairwise_singleton _ _, fun p hp q hq => ?_⟩
      obtain rfl := List.mem_singleton.mp hq
      exact hdistinct p hp
  · obtain ⟨fragment', hfragment, hclean⟩ := hneat'.fragment path (by simp)
    obtain rfl := Option.some.inj (haccepts.fragment.symm.trans hfragment)
    exact hclean
  · have hpairs := hneat'.names
    rw [← List.cons_append, List.pairwise_append] at hpairs
    exact fun p hp => hpairs.2.2 p hp path List.mem_cons_self

end Loader

namespace Follows

/-- If nothing is reported, the fragments that are merged are the list of the forest of includes, and
they are neat. -/
theorem lists (hidentifies : files.Identifies) (hroot : (files.named root).isSome)
    (h : Follows files source paths loader loader') (hat : loader.At files raw root source paths)
    (hneat : Neat files raw root loader.log) (hnone : loader'.errors = []) :
    ∃ more, loader'.log = loader.log ++ more ∧ Neat files raw root loader'.log ∧
      Unfolding.Lists (includesOf files raw root) paths more := by
  induction h with
  | nil => exact ⟨[], (List.append_nil _).symm, hneat, .nil⟩
  | refused _ hrest => simpa [Loader.report] using hrest.errors_of_errors hnone
  | @merged source path paths loader inner loader' fragment haccepts hinner hrest ihinner ihrest =>
    have hentered := hat.entered haccepts
    have hnoneInner : inner.errors = [] := hrest.errors_of_errors hnone
    have hneatEntered := ((hat.errors_entered_iff haccepts hneat).mp
      (hinner.errors_of_errors hnoneInner)).2
    rw [← Loader.log_enter] at hneatEntered
    obtain ⟨below, hbelow, hneatInner, hlists⟩ := ihinner hentered hneatEntered hnoneInner
    obtain ⟨after, hafter, hneatRest, hlistsRest⟩ :=
      ihrest (hinner.left hidentifies hroot hat haccepts) hneatInner hnone
    refine ⟨path :: (below ++ after), ?_, hneatRest, .cons ?_ hlistsRest⟩
    · rw [hafter, Loader.leave, hbelow, Loader.log_enter]
      simp
    · rwa [includesOf_of_ne (hat.path_ne_root haccepts) haccepts.fragment]

/-- Nothing is reported if the list of the forest of includes is neat. -/
theorem quiet (hidentifies : files.Identifies) (hroot : (files.named root).isSome)
    (h : Follows files source paths loader loader') (hat : loader.At files raw root source paths)
    (hlists : Unfolding.Lists (includesOf files raw root) paths more)
    (hneat : Neat files raw root (loader.log ++ more)) (hnone : loader.errors = []) :
    loader'.errors = [] ∧ loader'.log = loader.log ++ more := by
  induction h generalizing more with
  | nil =>
    cases hlists
    exact ⟨hnone, (List.append_nil _).symm⟩
  | refused hrefused =>
    cases hlists
    exact absurd hrefused (hat.not_refused hneat)
  | @merged source path paths loader inner loader' fragment haccepts hinner hrest ihinner ihrest =>
    cases hlists with
    | @cons _ _ below after hbelow hafter =>
      have hentered := hat.entered haccepts
      have hsplit : loader.log ++ path :: (below ++ after) =
          loader.log ++ [path] ++ below ++ after := by simp
      rw [hsplit] at hneat
      have hnoneEntered := (hat.errors_entered_iff haccepts hneat.of_append.of_append.of_append).mpr
        ⟨hnone, hneat.of_append.of_append⟩
      rw [includesOf_of_ne (hat.path_ne_root haccepts) haccepts.fragment] at hbelow
      rw [← Loader.log_enter] at hneat
      obtain ⟨hnoneInner, hlog⟩ := ihinner hentered hbelow hneat.of_append hnoneEntered
      rw [← hlog] at hneat
      obtain ⟨hnoneRest, hlogRest⟩ :=
        ihrest (hinner.left hidentifies hroot hat haccepts) hafter hneat hnoneInner
      refine ⟨hnoneRest, ?_⟩
      rw [hlogRest, hsplit, Loader.leave, hlog, Loader.log_enter]

end Follows

/-! ### Tidy includes -/

/-- Includes are tidy exactly if they have a list that is neat. -/
theorem tidy_iff [Finite files.File] (hidentifies : files.Identifies)
    (hroot : (files.named root).isSome) : Tidy files raw root ↔
      ∃ more, Unfolding.Lists (includesOf files raw root) (includesOf files raw root root) more ∧
        Neat files raw root more := by
  have hnamed : ∀ {more}, (∀ path ∈ more, (files.fragment path).isSome) →
      ∀ path ∈ root :: more, (files.named path).isSome := fun hmore path hpath => by
    rcases List.mem_cons.mp hpath with rfl | hpath
    · exact hroot
    · exact SourceFiles.isSome_named (hmore path hpath)
  constructor
  · intro h
    obtain ⟨more, hlists, hnodup⟩ := Unfolding.tree_iff.mp h.tree
    have hfragment : ∀ path ∈ more, ∃ fragment, files.fragment path = some fragment ∧
        fragment.version = none ∧ fragment.project = none := fun path hpath =>
      h.fragment path (hlists.mem_iff_transGen.mp hpath)
    refine ⟨more, hlists, ?_, hfragment, ?_⟩
    · refine (SourceFiles.nodup_identity_iff hidentifies (hnamed fun path hpath => ?_)).mpr hnodup
      obtain ⟨fragment, hsome, -⟩ := hfragment path hpath
      rw [hsome]
      rfl
    · refine hnodup.of_map.imp_of_mem fun {p q} hp hq hne name hsome => ?_
      by_contra hother
      exact hne (h.names p q name (hlists.mem_cons_iff.mp hp) (hlists.mem_cons_iff.mp hq) hsome
        (Option.isSome_iff_ne_none.mpr hother))
  · rintro ⟨more, hlists, hneat⟩
    have hsome : ∀ path ∈ more, (files.fragment path).isSome := fun path hpath => by
      obtain ⟨fragment, hfragment, -⟩ := hneat.fragment path hpath
      rw [hfragment]
      rfl
    constructor
    case fragment => exact fun path hpath => hneat.fragment path (hlists.mem_iff_transGen.mpr hpath)
    case tree =>
      exact Unfolding.tree_iff.mpr ⟨more, hlists,
        (SourceFiles.nodup_identity_iff hidentifies (hnamed hsome)).mp hneat.nodup⟩
    case names =>
      intro p q name hp hq hpname hqname
      by_contra hne
      have : Std.Symm fun path path' => ∀ name, (declared files raw root path name).isSome →
          declared files raw root path' name = none := ⟨fun a b hab name hb => by
        by_contra ha
        rw [hab name (Option.isSome_iff_ne_none.mpr ha)] at hb
        cases hb⟩
      rw [hneat.names.forall (hlists.mem_cons_iff.mpr hp) (hlists.mem_cons_iff.mpr hq) hne name
        hpname] at hqname
      cases hqname

/-- The services of tidy includes are all there, each as the file declares it. -/
theorem Loader.Sound.getElem?_services_iff (h : loader.Sound files raw root)
    (htidy : Tidy files raw root)
    (hlists : Unfolding.Lists (includesOf files raw root) (includesOf files raw root root) loader.log)
    {service : RawService} : loader.services[name]? = some service ↔
      ∃ path, ReflTransGen (Unfolding.Leads (includesOf files raw root)) root path ∧
        declared files raw root path name = some service := by
  rw [h.services]
  constructor
  · intro hfound
    obtain ⟨path, hpath, hdeclared⟩ := List.exists_of_findSome?_eq_some hfound
    exact ⟨path, hlists.mem_cons_iff.mp hpath, hdeclared⟩
  · rintro ⟨path, hpath, hdeclared⟩
    cases hfound : (root :: loader.log).findSome? fun path => declared files raw root path name with
    | none =>
      rw [List.findSome?_eq_none_iff.mp hfound path (hlists.mem_cons_iff.mpr hpath)] at hdeclared
      cases hdeclared
    | some first =>
      obtain ⟨path', hpath', hfirst⟩ := List.exists_of_findSome?_eq_some hfound
      obtain rfl := htidy.names path path' name hpath (hlists.mem_cons_iff.mp hpath')
        (by rw [hdeclared]; rfl) (by rw [hfirst]; rfl)
      exact hfirst.symm.trans hdeclared

theorem neat_nil : Neat files raw root [] where
  nodup := List.nodup_singleton _
  fragment := nofun
  names := List.pairwise_singleton _ _

/-- **Includes are merged correctly**, whatever they are, if there are finitely many files: the
recursion ends, no file is merged twice, nothing is reported about tidy includes only, of which all
services are there, and the cycles that are reported are real. -/
theorem exists_loader_correct [Finite files.File] (hidentifies : files.Identifies)
    (hroot : (files.named root).isSome) (hfuel : Nat.card files.File < fuel) :
    ∃ loader, Loader.load files fuel raw root = some loader ∧
      merge files fuel raw root =
        some ({ raw.toRawConfig with services := loader.services }, loader.errors) ∧
      loader.Correct files raw root := by
  have hstart : (Loader.start files raw root).At files raw root root (targets raw.includes root) :=
    Loader.at_start
  obtain ⟨loader, hload⟩ := exists_foldlM hidentifies hroot hstart hfuel
  have hfollows := follows_of_foldlM hload
  have hsound := (hfollows.at_end hidentifies hroot hstart).toSound
  have hdone : loader.errors = [] → Neat files raw root loader.log ∧
      Unfolding.Lists (includesOf files raw root) (includesOf files raw root root) loader.log := by
    intro hnone
    obtain ⟨more, hmore, hneat, hlists⟩ := hfollows.lists hidentifies hroot hstart neat_nil hnone
    obtain rfl : loader.log = more := hmore
    exact ⟨hneat, by rwa [includesOf_root]⟩
  have htidy : loader.errors = [] ↔ Tidy files raw root := by
    rw [tidy_iff hidentifies hroot]
    constructor
    · exact fun hnone => ⟨loader.log, (hdone hnone).2, (hdone hnone).1⟩
    · rintro ⟨more, hlists, hneat⟩
      rw [includesOf_root] at hlists
      exact (hfollows.quiet hidentifies hroot hstart hlists hneat rfl).1
  refine ⟨loader, hload, congrArg _ hload, ?_⟩
  exact
    { once := hsound.nodup_named hidentifies hroot
      errors := htidy
      services := fun hnone _ _ => hsound.getElem?_services_iff (htidy.mp hnone) (hdone hnone).2
      cycles := hsound.cycles }

/-! ### An include to follow -/

/-- A configuration that includes a fragment with a queue. -/
def splitStack : RawRoot := { exampleStack with includes := some (.one "services/queue.toml") }

/-- The files of that configuration, of which the root is the first. -/
def splitFiles : SourceFiles where
  File := Bool
  named path :=
    if path = "/srv/stack.toml" then some true
    else if path = "/srv/services/queue.toml" then some false
    else none
  canonicalize path :=
    if path = "/srv/stack.toml" ∨ path = "/srv/services/queue.toml" then some path else none
  contents file := .ok (if file then "include = \"services/queue.toml\"" else "[services.queue]")
  missing _ := ⟨.notFound, "No such file or directory (os error 2)"⟩
  parse text :=
    if text = "[services.queue]" then
      .ok ⟨none, .ofList [("queue", exampleService)], none, none⟩
    else .error ⟨"invalid key"⟩

theorem identifies_splitFiles : splitFiles.Identifies := by
  have hidentity : ∀ path, splitFiles.identity path = path := fun path => by
    simp only [SourceFiles.identity, splitFiles]
    split_ifs <;> rfl
  intro path path' file hfile
  rw [hidentity, hidentity]
  constructor
  · rintro rfl
    exact hfile
  · intro hfile'
    simp only [splitFiles] at hfile hfile'
    grind

/-- The queue is there. -/
theorem exists_loader_correct_splitStack :
    ∃ loader, Loader.load splitFiles 3 splitStack "/srv/stack.toml" = some loader ∧
      loader.Correct splitFiles splitStack "/srv/stack.toml" ∧
      loader.errors = [] ∧ (loader.services["queue"]?).isSome := by
  have : Finite splitFiles.File := inferInstanceAs (Finite Bool)
  obtain ⟨loader, hload, -, hcorrect⟩ : ∃ loader,
      Loader.load splitFiles 3 splitStack "/srv/stack.toml" = some loader ∧
        merge splitFiles 3 splitStack "/srv/stack.toml" =
          some ({ splitStack.toRawConfig with services := loader.services }, loader.errors) ∧
        loader.Correct splitFiles splitStack "/srv/stack.toml" :=
    exists_loader_correct identifies_splitFiles (by decide) (by simp [splitFiles])
  have hrun : ((Loader.load splitFiles 3 splitStack "/srv/stack.toml").map fun loader =>
      loader.errors.isEmpty && (loader.services["queue"]?).isSome) = some true := by decide +kernel
  rw [hload] at hrun
  obtain ⟨hnone, hqueue⟩ := Bool.and_eq_true_iff.mp (Option.some.inj hrun)
  exact ⟨loader, hload, hcorrect, List.isEmpty_iff.mp hnone, hqueue⟩

end Servicrab
