import Gridwright.OrderedMap
import Mathlib.Data.List.Nodup

/-!
# Keys and entries of ordered maps

An ordered map is looked up by its keys and listed by its entries.  The two views
agree on a map in which no key is repeated, and every insertion keeps it so: a
known key stays in its place and a new one comes last.
-/

namespace Gridwright

/-- In a list whose keys are distinct, the key of an item finds that item. -/
theorem find?_of_nodup_keys {α κ : Type} [DecidableEq κ] (key : α → κ) {items : List α}
    (hnodup : (items.map key).Nodup) {item : α} (hitem : item ∈ items) :
    items.find? (fun other => key other = key item) = some item := by
  have hfound : (items.find? (fun other => key other = key item)).isSome = true :=
    List.find?_isSome.mpr ⟨item, hitem, by simp⟩
  obtain ⟨other, hother⟩ := Option.isSome_iff_exists.mp hfound
  have hkey : key other = key item := by simpa using List.find?_some hother
  have heq : other = item :=
    List.inj_on_of_nodup_map hnodup (List.mem_of_find?_eq_some hother) hitem hkey
  rw [hother, heq]

namespace OrderedMap

variable {κ ν : Type} [DecidableEq κ]

def keys (map : OrderedMap κ ν) : List κ := map.entries.map (·.1)

theorem mem_of_find? {map : OrderedMap κ ν} {key : κ} {value : ν}
    (h : map.find? key = some value) : (key, value) ∈ map.entries := by
  obtain ⟨entry, hentry, rfl⟩ := Option.map_eq_some_iff.mp h
  have hkey : entry.1 = key := by simpa using List.find?_some hentry
  rw [← hkey]
  exact List.mem_of_find?_eq_some hentry

theorem contains_iff {map : OrderedMap κ ν} {key : κ} :
    map.contains key = true ↔ key ∈ map.keys := by
  simp only [contains, find?, keys, Option.isSome_map, List.find?_isSome, List.mem_map,
    decide_eq_true_eq]

theorem contains_of_find? {map : OrderedMap κ ν} {key : κ} {value : ν}
    (h : map.find? key = some value) : map.contains key = true := by
  simp only [contains, h, Option.isSome_some]

theorem find?_eq_none_iff {map : OrderedMap κ ν} {key : κ} :
    map.find? key = none ↔ map.contains key = false := by
  simp only [contains, Option.isSome_eq_false_iff, Option.isNone_iff_eq_none]

theorem find?_of_mem {map : OrderedMap κ ν} (hnodup : map.keys.Nodup) {key : κ} {value : ν}
    (h : (key, value) ∈ map.entries) : map.find? key = some value := by
  have hfound := find?_of_nodup_keys Prod.fst hnodup h
  simp only [find?, hfound, Option.map_some]

/-! ### Insertion -/

theorem keys_insertEntry (key : κ) (value : ν) (entries : List (κ × ν)) :
    (insertEntry key value entries).map (·.1) =
      if key ∈ entries.map (·.1) then entries.map (·.1) else entries.map (·.1) ++ [key] := by
  induction entries with
  | nil => rfl
  | cons entry rest ih =>
      by_cases hkey : entry.1 = key
      · simp [insertEntry, hkey]
      · have hother : key ≠ entry.1 := fun h => hkey h.symm
        simp only [insertEntry, hkey, if_false, List.map_cons, ih, List.mem_cons, hother,
          false_or]
        split <;> rfl

theorem keys_insert (map : OrderedMap κ ν) (key : κ) (value : ν) :
    (map.insert key value).keys = if key ∈ map.keys then map.keys else map.keys ++ [key] :=
  keys_insertEntry key value map.entries

theorem nodup_keys_insert {map : OrderedMap κ ν} (hnodup : map.keys.Nodup) (key : κ)
    (value : ν) : (map.insert key value).keys.Nodup := by
  rw [keys_insert]
  split
  · exact hnodup
  · rename_i hfresh
    exact List.nodup_append.mpr ⟨hnodup, List.nodup_singleton key, by
      intro other hother last hlast heq
      rw [List.mem_singleton] at hlast
      exact hfresh (hlast ▸ heq ▸ hother)⟩

/-- Inserting a known key replaces its entry in place. -/
theorem entries_insert_of_contains {map : OrderedMap κ ν} (hnodup : map.keys.Nodup) {key : κ}
    (h : map.contains key = true) (value : ν) :
    (map.insert key value).entries =
      map.entries.map fun entry => if entry.1 = key then (key, value) else entry := by
  obtain ⟨entries⟩ := map
  rw [contains_iff] at h
  simp only [insert, keys] at h hnodup ⊢
  induction entries with
  | nil => cases h
  | cons entry rest ih =>
      obtain ⟨hfirst, hrest⟩ := List.nodup_cons.mp hnodup
      by_cases hkey : entry.1 = key
      · have hothers : rest.map (fun entry => if entry.1 = key then (key, value) else entry) =
            rest := by
          refine (List.map_congr_left ?_).trans (List.map_id rest)
          intro other hother
          have hne : other.1 ≠ key := fun heq =>
            hfirst (List.mem_map.mpr ⟨other, hother, heq.trans hkey.symm⟩)
          exact if_neg hne
        simp [insertEntry, hkey, hothers]
      · have htail : key ∈ rest.map (·.1) := by
          rcases List.mem_cons.mp h with heq | htail
          · exact absurd heq.symm hkey
          · exact htail
        simp [insertEntry, hkey, ih hrest htail]

@[simp] theorem contains_insert (map : OrderedMap κ ν) (key other : κ) (value : ν) :
    (map.insert key value).contains other = (decide (other = key) || map.contains other) := by
  simp only [contains, find?_insert]
  by_cases h : other = key <;> simp [h]

theorem find?_insertNew (map : OrderedMap κ ν) (key other : κ) (value : ν) :
    (map.insertNew key value).find? other =
      if other = key ∧ map.contains key = false then some value else map.find? other := by
  unfold insertNew
  by_cases hknown : map.contains key = true
  · simp [hknown]
  · simp [hknown, find?_insert]

@[simp] theorem contains_insertNew (map : OrderedMap κ ν) (key other : κ) (value : ν) :
    (map.insertNew key value).contains other =
      (decide (other = key) || map.contains other) := by
  unfold insertNew
  by_cases hknown : map.contains key = true
  · by_cases h : other = key <;> simp [hknown, h]
  · simp [hknown]

end OrderedMap

end Gridwright
