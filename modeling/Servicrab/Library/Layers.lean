import Servicrab.Library.TreeMap

/-!
# Maps over one another

Settings that come from several sources are kept as layers: maps of which a later one hides what the
earlier ones say of its keys, and leaves alone what they say of others. Inserting the entries of one
map after another into the first one is the flat form of it.

## Main definitions

* `Layers.lookup`: the last word of a list of layers on a key.

## Main results

* `Layers.lookup_append`: layers can be taken together.
* `Layers.lookup_eq_some_iff`: the last word is said by a layer above which no other knows the key.
* `Layers.getElem?_foldl_insert`: inserting the entries of a map puts it on top.
-/

open Std (ExtTreeMap)

namespace Layers

variable {κ β : Type*}

/-- The last word of the layers on a key. -/
def lookup [Ord κ] [Std.TransOrd κ] (layers : List (ExtTreeMap κ β)) (k : κ) : Option β :=
  layers.reverse.findSome? fun layer => layer[k]?

variable [LinearOrder κ]

@[simp] theorem lookup_nil (k : κ) : lookup (β := β) [] k = none := rfl

variable (below above : List (ExtTreeMap κ β))

theorem lookup_append (k : κ) :
    lookup (below ++ above) k = (lookup above k).or (lookup below k) := by
  rw [lookup, List.reverse_append, List.findSome?_append]
  rfl

@[simp] theorem lookup_singleton (layer : ExtTreeMap κ β) (k : κ) :
    lookup [layer] k = layer[k]? := by
  simp [lookup]

/-- The last word is said by a layer above which no other knows the key. -/
theorem lookup_eq_some_iff {layers : List (ExtTreeMap κ β)} {k : κ} {v : β} :
    lookup layers k = some v ↔ ∃ below layer above, layers = below ++ layer :: above ∧
      layer[k]? = some v ∧ ∀ other ∈ above, other[k]? = none := by
  rw [lookup, List.findSome?_eq_some_iff]
  constructor
  · rintro ⟨above, layer, below, hlayers, hv, habove⟩
    refine ⟨below.reverse, layer, above.reverse, ?_, hv, fun other hother => ?_⟩
    · rw [← List.reverse_reverse layers, hlayers]
      simp
    · exact habove other (List.mem_reverse.mp hother)
  · rintro ⟨below, layer, above, rfl, hv, habove⟩
    refine ⟨above.reverse, layer, below.reverse, by simp, hv, fun other hother => ?_⟩
    exact habove other (List.mem_reverse.mp hother)

/-- What holds of the entries of all layers holds of the last word. -/
theorem of_lookup {P : κ → β → Prop} {layers : List (ExtTreeMap κ β)} {k : κ} {v : β}
    (hlayers : ∀ layer ∈ layers, layer[k]? = some v → P k v) (h : lookup layers k = some v) :
    P k v := by
  obtain ⟨below, layer, above, rfl, hv, -⟩ := lookup_eq_some_iff.mp h
  exact hlayers layer (List.mem_append_right below List.mem_cons_self) hv

/-- Entries with distinct keys, seen through one key once they are inserted. -/
theorem getElem?_foldl_of_nodup {entries : List (κ × β)} (hnodup : (entries.map Prod.fst).Nodup)
    (m : ExtTreeMap κ β) (k : κ) :
    (entries.foldl (fun m entry => m.insert entry.1 entry.2) m)[k]? =
      ((entries.find? fun entry => entry.1 = k).map Prod.snd).or m[k]? := by
  induction entries generalizing m with
  | nil => rfl
  | cons entry entries ih =>
    rw [List.map_cons, List.nodup_cons] at hnodup
    rw [List.foldl_cons, ih hnodup.2, TreeMap.getElem?_insert, List.find?_cons]
    by_cases hk : entry.1 = k
    · have hnone : entries.find? (fun entry => entry.1 = k) = none := by
        rw [List.find?_eq_none]
        intro other hother he
        exact hnodup.1 (hk ▸ of_decide_eq_true he ▸ List.mem_map_of_mem hother)
      rw [hnone, if_pos hk.symm]
      simp [hk]
    · rw [if_neg (Ne.symm hk)]
      simp [hk]

/-- Inserting the entries of a map puts it on top. -/
theorem getElem?_foldl_insert [Std.LawfulEqOrd κ] (layer m : ExtTreeMap κ β) (k : κ) :
    (layer.toList.foldl (fun m entry => m.insert entry.1 entry.2) m)[k]? = layer[k]?.or m[k]? := by
  have hnodup : (layer.toList.map Prod.fst).Nodup := by
    rw [ExtTreeMap.map_fst_toList_eq_keys]
    exact ExtTreeMap.nodup_keys
  rw [getElem?_foldl_of_nodup hnodup, TreeMap.find?_key_toList, Option.map_map]
  simp [Function.comp_def]

end Layers
