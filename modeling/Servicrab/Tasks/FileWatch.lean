import Mathlib.Data.List.Destutter
import Mathlib.Data.List.Sort
import Servicrab.Core.Event
import Servicrab.Daemon.Remember
import Servicrab.Library.TreeMap

/-!
# File watching

`watch_service`, which scans the watched files again and again, and asks for a restart when they
differ from a baseline (`filewatch.rs`). After every answer the baseline is the scan that is made
then. So when a restart was refused, the change it was for is part of the baseline, and nothing asks
for it again unless the files change once more.

What the loop takes from its surroundings is the sequence of scans and the sequence of replies to its
requests. Paths are of any type that has an order.

## Main definitions

* `Scan`, `Scan.changes`.
* `Scan.DiffersAt`, `Scan.ListsChanges`: what is asked of a list of changes.
* `Scan.SameOff`: scans that are the same but for some paths.
* `Watcher.iterate`: an iteration of the loop.
* `Surroundings.AsksAgain`, `Surroundings.ComesToRest`.

## Main results

* `Scan.mem_changes_iff`, `Scan.changes_eq_nil_iff`: what there are changes at.
* `Scan.listsChanges_changes`.
* `Surroundings.asksAgain_iff`.
-/

open Std (ExtTreeMap)

namespace Servicrab

/-- Stop scanning after this many files. -/
def maxEntries : ℕ := 20000

/-- How many times the debounce loop may re-scan before it gives up on waiting for quiet. -/
def maxDebounceRounds : ℕ := 10

/-- What a single scan recorded about one file. -/
structure FileStamp where
  /-- Last modification time, when the platform reports one. -/
  modified : Option ℕ
  len : ℕ
  deriving DecidableEq, Repr

variable {π : Type} [LinearOrder π]

/-- `sort` and `dedup`. -/
def sortDedup (paths : List π) : List π := (paths.mergeSort (· ≤ ·)).destutter (· ≠ ·)

/-- In a sorted list, equal paths are next to each other. -/
theorem sortDedup_eq_dedup (paths : List π) :
    sortDedup paths = (paths.mergeSort (· ≤ ·)).dedup :=
  (List.pairwise_mergeSort' (· ≤ ·) paths).destutter_eq_dedup

@[simp] theorem mem_sortDedup {path : π} {paths : List π} :
    path ∈ sortDedup paths ↔ path ∈ paths := by
  rw [sortDedup_eq_dedup, List.mem_dedup, List.mem_mergeSort]

theorem pairwise_sortDedup (paths : List π) : (sortDedup paths).Pairwise (· < ·) := by
  have hsorted : (sortDedup paths).Pairwise (· ≤ ·) := by
    rw [sortDedup_eq_dedup]
    exact (List.pairwise_mergeSort' (· ≤ ·) paths).sublist (List.dedup_sublist _)
  have hnodup : (sortDedup paths).Nodup := by
    rw [sortDedup_eq_dedup]
    exact List.nodup_dedup _
  exact hsorted.imp₂ (fun _ _ => lt_of_le_of_ne) hnodup

/-- The state of the watched tree at one point in time. -/
structure Scan (π : Type) [LinearOrder π] where
  files : ExtTreeMap π FileStamp
  /-- Whether the scan hit the file limit and stopped early. -/
  truncated : Bool
  /-- Whether the scan hit the recursion limit and left a subtree unvisited. -/
  tooDeep : Bool

namespace Scan

/-- Paths that appeared, disappeared or changed between two scans. -/
def changes (previous next : Scan π) : List π :=
  let appeared := next.files.toList.filter fun (path, stamp) => previous.files[path]? ≠ some stamp
  let disappeared := previous.files.keys.filter fun path => !next.files.contains path
  sortDedup (appeared.map Prod.fst ++ disappeared)

/-- The changes are the paths at which the scans have different things. -/
theorem mem_changes_iff {previous next : Scan π} {path : π} :
    path ∈ previous.changes next ↔ previous.files[path]? ≠ next.files[path]? := by
  simp only [changes, mem_sortDedup, List.mem_append, List.mem_map, List.mem_filter,
    ExtTreeMap.mem_keys, ExtTreeMap.mem_iff_isSome_getElem?, ExtTreeMap.contains_eq_isSome_getElem?,
    Prod.exists, exists_and_right, exists_eq_right, ExtTreeMap.mem_toList_iff_getElem?_eq_some,
    decide_eq_true_eq]
  cases hprevious : previous.files[path]? <;> cases hnext : next.files[path]? <;> simp

/-- There are changes unless the files are the same. -/
theorem changes_eq_nil_iff {previous next : Scan π} :
    previous.changes next = [] ↔ previous.files = next.files := by
  simp only [List.eq_nil_iff_forall_not_mem, mem_changes_iff, not_not]
  exact ⟨ExtTreeMap.ext_getElem?, fun hfiles path => by rw [hfiles]⟩

/-- A path is in one of two scans only, or has different stamps in both. -/
def DiffersAt (a b : Scan π) (path : π) : Prop :=
  (path ∈ a.files ∧ path ∉ b.files) ∨ (path ∉ a.files ∧ path ∈ b.files) ∨
    ∃ stamp stamp', a.files[path]? = some stamp ∧ b.files[path]? = some stamp' ∧ stamp ≠ stamp'

/-- The paths at which two scans differ, sorted and without duplicates; so there are none exactly if
the files are the same. -/
structure ListsChanges (a b : Scan π) (paths : List π) : Prop where
  sorted : paths.Pairwise (· ≤ ·)
  nodup : paths.Nodup
  mem_iff : ∀ path, path ∈ paths ↔ a.DiffersAt b path
  eq_nil_iff : paths = [] ↔ a.files = b.files

/-- Two scans are the same at all paths but some. -/
def SameOff (paths : List π) (a b : Scan π) : Prop :=
  ∀ path ∉ paths, a.files[path]? = b.files[path]?

variable {a b c : Scan π} {path : π} {paths paths' : List π}

theorem differsAt_iff : a.DiffersAt b path ↔ a.files[path]? ≠ b.files[path]? := by
  simp only [DiffersAt, ExtTreeMap.mem_iff_isSome_getElem?]
  cases a.files[path]? <;> cases b.files[path]? <;> simp

theorem listsChanges_changes (a b : Scan π) : a.ListsChanges b (a.changes b) where
  sorted := (pairwise_sortDedup _).imp le_of_lt
  nodup := (pairwise_sortDedup _).imp ne_of_lt
  mem_iff path := by rw [mem_changes_iff, differsAt_iff]
  eq_nil_iff := changes_eq_nil_iff

theorem sameOff_changes (a b : Scan π) : SameOff (a.changes b) a b := fun _ hpath =>
  not_not.mp (mem_changes_iff.not.mp hpath)

theorem SameOff.trans (h : SameOff paths a b) (h' : SameOff paths' b c) :
    SameOff (paths ++ paths') a c := by
  intro path hpath
  rw [List.mem_append, not_or] at hpath
  exact (h path hpath.1).trans (h' path hpath.2)

theorem SameOff.mem_of_differsAt (h : SameOff paths a b) (hdiffers : a.DiffersAt b path) :
    path ∈ paths := by
  by_contra hpath
  exact differsAt_iff.mp hdiffers (h path hpath)

end Scan

/-- What becomes of a request for a restart. -/
inductive Reply
  /-- It cannot be sent: the supervisor is gone. -/
  | closed
  /-- The acknowledgement is dropped: the supervisor is shutting down. -/
  | dropped
  | answered (verdict : Verdict)
  deriving DecidableEq

/-- What a watcher sees of the world: what each scan finds, `none` if there is no more scanning, and
what becomes of each request. -/
structure Surroundings (π : Type) [LinearOrder π] where
  scans : ℕ → Option (Scan π)
  replies : ℕ → Reply

/-- A watcher between two iterations. -/
structure Watcher (π : Type) [LinearOrder π] where
  previous : Scan π
  /-- How many scans were made. -/
  scanned : ℕ
  /-- How many restarts were asked for. -/
  asked : ℕ

/-- What an iteration comes to. -/
structure Iteration (π : Type) [LinearOrder π] where
  events : List ServiceEvent
  /-- What became of the request, if there was one. -/
  reply : Option Reply
  /-- The watcher goes on, unless `watch_service` has returned. -/
  next : Option (Watcher π)

namespace Watcher

variable (env : Surroundings π)

/-- Wait for the tree to settle, for a bounded number of rounds. -/
def settle : ℕ → Scan π → List π → ℕ → Option (List π × ℕ)
  | 0, _, changed, scanned => some (changed, scanned)
  | rounds + 1, current, changed, scanned =>
    match env.scans scanned with
    | none => none
    | some settled =>
      let extra := current.changes settled
      if extra = [] then some (changed, scanned + 1)
      else settle rounds settled (changed ++ extra) (scanned + 1)

variable (service : ServiceName) (text : π → String)

/-- The first scan, and what is said if it stopped early. -/
def start : List ServiceEvent × Option (Watcher π) :=
  match env.scans 0 with
  | none => ([], none)
  | some previous =>
    (if previous.truncated then [⟨service, .watchTruncated maxEntries⟩] else [],
      some { previous, scanned := 1, asked := 0 })

/-- An iteration of the loop. -/
def iterate (w : Watcher π) : Iteration π :=
  match env.scans w.scanned with
  | none => { events := [], reply := none, next := none }
  | some current =>
    let changed := w.previous.changes current
    if changed = [] then
      { events := [], reply := none, next := some { w with scanned := w.scanned + 1 } }
    else
      match settle env maxDebounceRounds current changed (w.scanned + 1) with
      | none => { events := [], reply := none, next := none }
      | some (changed, scanned) =>
        let changed := sortDedup changed
        let triggered : ServiceEvent :=
          ⟨service, .watchTriggered ((changed.head?.map text).getD "") changed.length⟩
        match env.replies w.asked with
        | .closed => { events := [triggered], reply := some .closed, next := none }
        -- The supervisor dropped the ack: it is shutting down.
        | .dropped => { events := [triggered], reply := some .dropped, next := none }
        | .answered verdict =>
          let failed : List ServiceEvent := match verdict with
            | .error refusal => [⟨service, .watchFailed refusal.toString⟩]
            | .ok _ => []
          -- The next comparison starts from the state after the answer, whatever that was.
          { events := triggered :: failed
            reply := some (.answered verdict)
            next := (env.scans scanned).map fun next =>
              { previous := next, scanned := scanned + 1, asked := w.asked + 1 } }

end Watcher

namespace Surroundings

variable (env : Surroundings π) (service : ServiceName) (text : π → String)

/-- The watcher at the start of an iteration, `none` once `watch_service` has returned. -/
def watcherAt : ℕ → Option (Watcher π)
  | 0 => (Watcher.start env service).2
  | n + 1 => (watcherAt n).bind fun w => (w.iterate env service text).next

/-- The scan that changes are looked for against in an iteration. -/
def baselineAt (n : ℕ) : Option (Scan π) := (env.watcherAt service text n).map (·.previous)

/-- The scan in which changes are looked for in an iteration. -/
def scanAt (n : ℕ) : Option (Scan π) :=
  (env.watcherAt service text n).bind fun w => env.scans w.scanned

/-- What becomes of the request of an iteration, if it makes one. -/
def replyAt (n : ℕ) : Option Reply :=
  (env.watcherAt service text n).bind fun w => (w.iterate env service text).reply

def AcceptedAt (n : ℕ) : Prop :=
  ∃ outcome, env.replyAt service text n = some (.answered (.ok outcome))

def RefusedAt (n : ℕ) : Prop :=
  ∃ refusal, env.replyAt service text n = some (.answered (.error refusal))

def BusyAt (n : ℕ) : Prop :=
  ∃ other, env.replyAt service text n = some (.answered (.error (.busy other)))

/-- A restart was refused because the service was busy, and the files stay different from the
baseline that the change was detected against. -/
def Pending (n : ℕ) : Prop :=
  env.BusyAt service text n ∧ ∃ baseline, env.baselineAt service text n = some baseline ∧
    ∀ m > n, ∀ scan, env.scanAt service text m = some scan → baseline.changes scan ≠ []

/-- Then the watcher asks again, and after each further refusal once more, until a request is
accepted or the supervisor is gone. -/
def AsksAgain : Prop :=
  ∀ n, env.Pending service text n → ∀ k ≥ n, env.RefusedAt service text k →
    (∀ j, n ≤ j → j < k → ¬ env.AcceptedAt service text j) →
      ∃ m > k, (env.replyAt service text m).isSome ∨ env.watcherAt service text m = none

/-- Then or after a further refusal, the files change no more after the scan that follows it. -/
def ComesToRest : Prop :=
  ∃ n, env.Pending service text n ∧ ∃ k ≥ n, env.RefusedAt service text k ∧
    (∀ j, n ≤ j → j < k → ¬ env.AcceptedAt service text j) ∧
      ∃ rest, env.baselineAt service text (k + 1) = some rest ∧
        ∀ m > k, ∃ scan, env.scanAt service text m = some scan ∧ rest.changes scan = []

variable {env service text} {w w' : Watcher π}

/-- An iteration that asks for nothing, and is not the last, has found no changes. -/
theorem quiet_of_reply_eq_none (hreply : (w.iterate env service text).reply = none)
    (hnext : (w.iterate env service text).next = some w') :
    w'.previous = w.previous ∧
      ∃ scan, env.scans w.scanned = some scan ∧ w.previous.changes scan = [] := by
  rw [Watcher.iterate] at hreply hnext
  cases hscan : env.scans w.scanned with
  | none =>
    rw [hscan] at hnext
    cases hnext
  | some scan =>
    rw [hscan] at hreply hnext
    dsimp only at hreply hnext
    split_ifs at hreply hnext with hchanged
    · obtain rfl := Option.some.inj hnext
      exact ⟨rfl, scan, rfl, hchanged⟩
    · split at hreply
      · rename_i hsettle
        rw [hsettle] at hnext
        cases hnext
      · split at hreply <;> cases hreply

/-- An iteration that finds no changes asks for nothing. -/
theorem iterate_of_changes_eq_nil {scan : Scan π} (hscan : env.scans w.scanned = some scan)
    (hchanges : w.previous.changes scan = []) :
    w.iterate env service text =
      { events := [], reply := none, next := some { w with scanned := w.scanned + 1 } } := by
  rw [Watcher.iterate, hscan]
  dsimp only
  rw [if_pos hchanges]

/-- An iteration that finds changes asks for a restart, and its next baseline is the scan that is made
after the answer. -/
theorem iterate_of_changes_ne_nil {scan : Scan π} {changed : List π} {scanned : ℕ} {verdict : Verdict}
    (hscan : env.scans w.scanned = some scan) (hchanges : w.previous.changes scan ≠ [])
    (hsettled : Watcher.settle env maxDebounceRounds scan (w.previous.changes scan) (w.scanned + 1) =
      some (changed, scanned)) (hreply : env.replies w.asked = .answered verdict) :
    (w.iterate env service text).reply = some (.answered verdict) ∧
      (w.iterate env service text).next = (env.scans scanned).map fun next =>
        { previous := next, scanned := scanned + 1, asked := w.asked + 1 } := by
  rw [Watcher.iterate, hscan]
  dsimp only
  rw [if_neg hchanges, hsettled]
  dsimp only
  rw [hreply]
  exact ⟨rfl, rfl⟩

/-- While the files stay as the baseline has them, the watcher goes on and asks for nothing. -/
theorem exists_watcherAt_of_same {k : ℕ} {rest : Scan π}
    (hrest : env.baselineAt service text (k + 1) = some rest)
    (hsame : ∀ m > k, ∃ scan, env.scanAt service text m = some scan ∧ rest.changes scan = [])
    (i : ℕ) : env.replyAt service text (k + 1 + i) = none ∧
      ∃ w, env.watcherAt service text (k + 1 + i) = some w ∧ w.previous = rest := by
  -- What an iteration does whose watcher still has this baseline.
  have hiterate : ∀ m > k, ∀ w, env.watcherAt service text m = some w → w.previous = rest →
      w.iterate env service text =
        { events := [], reply := none, next := some { w with scanned := w.scanned + 1 } } := by
    intro m hm w hw hprevious
    obtain ⟨scan, hscan, hchanges⟩ := hsame m hm
    rw [scanAt, hw, Option.bind_some] at hscan
    exact iterate_of_changes_eq_nil hscan (hprevious ▸ hchanges)
  have hwatcher : ∃ w, env.watcherAt service text (k + 1 + i) = some w ∧ w.previous = rest := by
    induction i with
    | zero => exact Option.map_eq_some_iff.mp hrest
    | succ i ih =>
      obtain ⟨w, hw, hprevious⟩ := ih
      refine ⟨{ w with scanned := w.scanned + 1 }, ?_, hprevious⟩
      rw [← Nat.add_assoc, watcherAt, hw, Option.bind_some,
        hiterate (k + 1 + i) (by omega) w hw hprevious]
  obtain ⟨w, hw, hprevious⟩ := hwatcher
  refine ⟨?_, w, hw, hprevious⟩
  rw [replyAt, hw, Option.bind_some, hiterate (k + 1 + i) (by omega) w hw hprevious]

/-- While the watcher goes on and asks for nothing, the files stay as the baseline has them. -/
theorem scanAt_same_of_quiet {k : ℕ} (hreply : ∀ m > k, env.replyAt service text m = none)
    (hwatcher : ∀ m > k, ∃ w, env.watcherAt service text m = some w) : ∃ rest,
      env.baselineAt service text (k + 1) = some rest ∧
        ∀ m > k, ∃ scan, env.scanAt service text m = some scan ∧ rest.changes scan = [] := by
  obtain ⟨w₀, hw₀⟩ := hwatcher (k + 1) k.lt_succ_self
  have hquiet : ∀ m > k, ∀ w, env.watcherAt service text m = some w → ∃ w',
      env.watcherAt service text (m + 1) = some w' ∧ w'.previous = w.previous ∧
        ∃ scan, env.scans w.scanned = some scan ∧ w.previous.changes scan = [] := by
    intro m hm w hw
    obtain ⟨w', hw'⟩ := hwatcher (m + 1) (hm.trans m.lt_succ_self)
    have hnone := hreply m hm
    rw [replyAt, hw, Option.bind_some] at hnone
    have hnext := hw'
    rw [watcherAt, hw, Option.bind_some] at hnext
    exact ⟨w', hw', quiet_of_reply_eq_none hnone hnext⟩
  have hprevious : ∀ i, ∃ w, env.watcherAt service text (k + 1 + i) = some w ∧
      w.previous = w₀.previous := by
    intro i
    induction i with
    | zero => exact ⟨w₀, hw₀, rfl⟩
    | succ i ih =>
      obtain ⟨w, hw, hprevious⟩ := ih
      obtain ⟨w', hw', hprevious', -⟩ := hquiet (k + 1 + i) (by omega) w hw
      exact ⟨w', hw', hprevious'.trans hprevious⟩
  refine ⟨w₀.previous, by rw [baselineAt, hw₀]; rfl, fun m hm => ?_⟩
  obtain ⟨i, rfl⟩ := Nat.exists_eq_add_of_le (Nat.succ_le_of_lt hm)
  obtain ⟨w, hw, hprevious⟩ := hprevious i
  obtain ⟨-, -, -, scan, hscan, hchanges⟩ := hquiet (k + 1 + i) hm w hw
  refine ⟨scan, ?_, hprevious ▸ hchanges⟩
  rw [scanAt, hw]
  exact hscan

/-- **When a refused change is asked for again.** Whatever the watcher sees, it asks for the restart
again unless the files come to rest after the scan that follows a refusal. -/
theorem asksAgain_iff (env : Surroundings π) (service : ServiceName) (text : π → String) :
    env.AsksAgain service text ↔ ¬ env.ComesToRest service text := by
  constructor
  · rintro hasks ⟨n, hpending, k, hk, hrefused, haccepted, rest, hrest, hsame⟩
    obtain ⟨m, hm, hmore⟩ := hasks n hpending k hk hrefused haccepted
    obtain ⟨i, rfl⟩ := Nat.exists_eq_add_of_le (Nat.succ_le_of_lt hm)
    obtain ⟨hreply, w, hw, -⟩ := exists_watcherAt_of_same hrest hsame i
    rcases hmore with hsome | hgone
    · rw [hreply] at hsome
      cases hsome
    · rw [hw] at hgone
      cases hgone
  · intro hrest n hpending k hk hrefused haccepted
    by_contra hnone
    have hreply : ∀ m > k, env.replyAt service text m = none := fun m hm =>
      Option.not_isSome_iff_eq_none.mp fun hsome => hnone ⟨m, hm, .inl hsome⟩
    have hwatcher : ∀ m > k, ∃ w, env.watcherAt service text m = some w := fun m hm =>
      Option.ne_none_iff_exists'.mp fun hgone => hnone ⟨m, hm, .inr hgone⟩
    exact hrest ⟨n, hpending, k, hk, hrefused, haccepted, scanAt_same_of_quiet hreply hwatcher⟩

/-- A tree with one file. -/
def saved : Scan String where
  files := ExtTreeMap.insert ∅ "/srv/main.rs" ⟨some 1, 12⟩
  truncated := false
  tooDeep := false

/-- The file is saved while another command for the service is carried out, and then left alone. -/
def savedOnce : Surroundings String where
  scans n := some (if n = 0 then { saved with files := ∅ } else saved)
  replies _ := .answered (.error (.busy ⟨"web"⟩))

theorem changes_saved : Scan.changes { saved with files := ∅ } saved ≠ [] := by
  rw [Ne, Scan.changes_eq_nil_iff]
  intro hfiles
  have hentry := congrArg (fun files => files["/srv/main.rs"]?) hfiles
  simp [saved] at hentry

/-- The restart is asked for and refused, and never asked for again. -/
theorem not_asksAgain_savedOnce : ¬ savedOnce.AsksAgain ⟨"web"⟩ id := by
  have hsame : saved.changes saved = [] := Scan.changes_eq_nil_iff.mpr rfl
  have hsettled : ∀ changed, Watcher.settle savedOnce maxDebounceRounds saved changed 2 =
      some (changed, 3) := fun _ => if_pos hsame
  have hscan : savedOnce.scans 1 = some saved := rfl
  have hreply : savedOnce.replies 0 = .answered (.error (.busy ⟨"web"⟩)) := rfl
  obtain ⟨hrefused, hnext⟩ := iterate_of_changes_ne_nil (w := ⟨{ saved with files := ∅ }, 1, 0⟩)
    hscan changes_saved (hsettled _) hreply
  have hquiet : ∀ i, Watcher.iterate savedOnce ⟨"web"⟩ id ⟨saved, i + 4, 1⟩ =
      { events := [], reply := none, next := some ⟨saved, i + 5, 1⟩ } :=
    fun i => iterate_of_changes_eq_nil (w := ⟨saved, i + 4, 1⟩) rfl hsame
  have hlater : ∀ i, savedOnce.watcherAt ⟨"web"⟩ id (i + 1) = some ⟨saved, i + 4, 1⟩ := by
    intro i
    induction i with
    | zero => exact hnext
    | succ i ih => rw [watcherAt, ih, Option.bind_some, hquiet]
  intro hasks
  have hpending : savedOnce.Pending ⟨"web"⟩ id 0 := by
    refine ⟨⟨⟨"web"⟩, hrefused⟩, { saved with files := ∅ }, rfl, fun m hm scan hscan => ?_⟩
    obtain ⟨i, rfl⟩ := Nat.exists_eq_add_of_le' hm
    rw [scanAt, hlater i] at hscan
    obtain rfl := Option.some.inj hscan
    exact changes_saved
  obtain ⟨m, hm, hmore⟩ := hasks 0 hpending 0 le_rfl ⟨_, hrefused⟩ (by omega)
  obtain ⟨i, rfl⟩ := Nat.exists_eq_add_of_le' hm
  rcases hmore with hsome | hgone
  · rw [replyAt, hlater i, Option.bind_some, hquiet] at hsome
    cases hsome
  · rw [hlater i] at hgone
    cases hgone

end Surroundings

end Servicrab
