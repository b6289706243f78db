import OpenDweb.Lib.Keys

/-!
# OpenDweb — adding up a quantity over the values of a map

Budgets shared by all entries of a table are sums `mapSum m f` of a quantity `f` over the
values of `m`. The computed sum is a `Finset` sum over any set of keys that covers the
table (**`mapSum_eq_sum`**), which gives the rules a budget argument needs:

* **`mapSum_insert`** — writing one entry changes the sum by that entry;
* **`mapSum_erase`** — and so does removing one;
* **`mapSum_le_mapSum`**, **`mapSum_add_le`** — a key-by-key bound bounds the sums;
* **`mapSum_filter`** — what contributes nothing may be left out;
* **`mapSum_le_of_sub`** — a part holds at most as much as the whole.
-/

namespace Dweb

open Std (ExtTreeMap)
open Option Std.ExtTreeMap Finset

variable {κ ν ν' : Type*} [LinearOrder κ]

/-- The sum of `f` over the values of `m`. -/
def mapSum (m : ExtTreeMap κ ν) (f : ν → Nat) : Nat := (m.toList.map fun p => f p.2).sum

/-- What key `k` contributes to the sum. -/
def contribution (m : ExtTreeMap κ ν) (f : ν → Nat) (k : κ) : Nat := (m[k]?.map f).getD 0

variable {m : ExtTreeMap κ ν} {f : ν → Nat} {k : κ} {v : ν}

theorem contribution_of_some (h : m[k]? = some v) : contribution m f k = f v := by
  simp [contribution, h]

theorem contribution_of_none (h : m[k]? = none) : contribution m f k = 0 := by
  simp [contribution, h]

theorem contribution_insert (m : ExtTreeMap κ ν) (f : ν → Nat) (k k' : κ) (v : ν) :
    contribution (m.insert k v) f k' = if k = k' then f v else contribution m f k' := by
  unfold contribution
  rw [getElem?_insert]
  by_cases hk : k = k' <;> simp [hk]

theorem nodup_keys (m : ExtTreeMap κ ν) : m.keys.Nodup := by
  have h := distinct_keys (t := m)
  exact h.imp fun hne heq => hne (by simp [heq])

theorem mapSum_eq_sum {S : Finset κ} (hS : ∀ k v, m[k]? = some v → k ∈ S) :
    mapSum m f = ∑ k ∈ S, contribution m f k := by
  have hkeys : mapSum m f = ∑ k ∈ m.keys.toFinset, contribution m f k := by
    rw [List.sum_toFinset _ (nodup_keys m), ← map_fst_toList_eq_keys, List.map_map]
    unfold mapSum
    congr 1
    refine List.map_congr_left fun p hp => ?_
    exact (contribution_of_some (mem_toList_iff_getElem?_eq_some.mp hp)).symm
  rw [hkeys]
  refine sum_subset (fun k hk => ?_) fun k _ hk => contribution_of_none ?_
  · rw [List.mem_toFinset, mem_keys, mem_iff_isSome_getElem?] at hk
    obtain ⟨v, hv⟩ := isSome_iff_exists.mp hk
    exact hS k v hv
  · rw [List.mem_toFinset, mem_keys, mem_iff_isSome_getElem?] at hk
    exact not_isSome_iff_eq_none.mp hk

@[simp] theorem mapSum_empty (f : ν → Nat) : mapSum (∅ : ExtTreeMap κ ν) f = 0 := by
  rw [mapSum_eq_sum (S := ∅) fun k v h => by simp at h, sum_empty]

def keySet (m : ExtTreeMap κ ν) : Finset κ := m.keys.toFinset

theorem mem_keySet : k ∈ keySet m ↔ ∃ v, m[k]? = some v := by
  rw [keySet, List.mem_toFinset, mem_keys, mem_iff_isSome_getElem?,
    isSome_iff_exists]

theorem mapSum_insert (m : ExtTreeMap κ ν) (f : ν → Nat) (k : κ) (v : ν) :
    mapSum (m.insert k v) f + contribution m f k = mapSum m f + f v := by
  have hS : ∀ k' v', m[k']? = some v' → k' ∈ insert k (keySet m) :=
    fun k' v' h => mem_insert_of_mem (mem_keySet.mpr ⟨v', h⟩)
  have hS' : ∀ k' v', (m.insert k v)[k']? = some v' → k' ∈ insert k (keySet m) := by
    intro k' v' h
    rw [getElem?_insert] at h
    split at h
    · next hc => exact Finset.mem_insert.mpr (Or.inl (compare_eq_iff_eq.mp hc).symm)
    · exact hS k' v' h
  rw [mapSum_eq_sum hS, mapSum_eq_sum hS',
    ← add_sum_erase _ _ (Finset.mem_insert_self k (keySet m)),
    ← add_sum_erase _ _ (Finset.mem_insert_self k (keySet m))]
  have hrest : ∑ k' ∈ (insert k (keySet m)).erase k, contribution (m.insert k v) f k'
      = ∑ k' ∈ (insert k (keySet m)).erase k, contribution m f k' := by
    refine sum_congr rfl fun k' hk' => ?_
    rw [contribution_insert, if_neg (Ne.symm (ne_of_mem_erase hk'))]
  rw [hrest, contribution_insert, if_pos rfl]
  omega

theorem modify_eq_insert {g : ν → ν} (h : m[k]? = some v) : m.modify k g = m.insert k (g v) := by
  refine ext_getElem? fun k' => ?_
  rw [ExtTreeMap.getElem?_modify, getElem?_insert]
  by_cases hk : k = k'
  · subst hk
    simp [h]
  · simp [hk]

theorem modify_of_none {g : ν → ν} (h : m[k]? = none) : m.modify k g = m := by
  refine ext_getElem? fun k' => ?_
  rw [ExtTreeMap.getElem?_modify]
  split
  · next heq =>
    obtain rfl := compare_eq_iff_eq.mp heq
    rw [h]
    rfl
  · rfl

theorem insert_insert_self (m : ExtTreeMap κ ν) (k : κ) (v w : ν) :
    (m.insert k v).insert k w = m.insert k w := by
  refine ext_getElem? fun k' => ?_
  rw [getElem?_insert, getElem?_insert, getElem?_insert]
  split <;> rfl

theorem mapSum_erase (h : m[k]? = some v) : mapSum (m.erase k) f + f v = mapSum m f := by
  have heq : (m.erase k).insert k v = m := by
    refine ext_getElem? fun k' => ?_
    rw [getElem?_insert, getElem?_erase]
    by_cases hk : k = k'
    · subst hk
      simp [h]
    · simp [hk]
  have hins := mapSum_insert (m.erase k) f k v
  rw [heq, contribution_of_none getElem?_erase_self] at hins
  omega

theorem mapSum_le_mapSum {m' : ExtTreeMap κ ν'} {g : ν' → Nat}
    (h : ∀ k, contribution m f k ≤ contribution m' g k) : mapSum m f ≤ mapSum m' g := by
  rw [mapSum_eq_sum (S := keySet m ∪ keySet m')
      fun k v hk => mem_union_left _ (mem_keySet.mpr ⟨v, hk⟩),
    mapSum_eq_sum (S := keySet m ∪ keySet m')
      fun k v hk => mem_union_right _ (mem_keySet.mpr ⟨v, hk⟩)]
  exact sum_le_sum fun k _ => h k

theorem mapSum_le_of_sub {m' : ExtTreeMap κ ν}
    (h : ∀ (k : κ) (v : ν), m[k]? = some v → m'[k]? = some v) : mapSum m f ≤ mapSum m' f := by
  refine mapSum_le_mapSum fun k => ?_
  cases hk : m[k]? with
  | none =>
    rw [contribution_of_none hk]
    exact Nat.zero_le _
  | some v => rw [contribution_of_some hk, contribution_of_some (h k v hk)]

theorem mapSum_filter {keep : κ → ν → Bool} (h : ∀ k v, m[k]? = some v → keep k v = false → f v = 0) :
    mapSum m f = mapSum (m.filter keep) f := by
  have hkey : ∀ k, contribution (m.filter keep) f k = contribution m f k := by
    intro k
    unfold contribution
    rw [getElem?_filter']
    cases hv : m[k]? with
    | none => rfl
    | some v =>
      by_cases hkeep : keep k v = true
      · simp [Option.filter, hkeep]
      · simp [Option.filter, hkeep, h k v hv (Bool.eq_false_of_not_eq_true hkeep)]
  exact Nat.le_antisymm (mapSum_le_mapSum fun k => Nat.le_of_eq (hkey k).symm)
    (mapSum_le_mapSum fun k => Nat.le_of_eq (hkey k))

theorem mapSum_add_le {m' : ExtTreeMap κ ν'} {g : ν' → Nat} {n : Nat}
    (hrest : ∀ k', contribution m f k' ≤ contribution m' g k')
    (hk : contribution m f k + n ≤ contribution m' g k) : mapSum m f + n ≤ mapSum m' g := by
  have hin : k ∈ insert k (keySet m ∪ keySet m') := Finset.mem_insert_self _ _
  rw [mapSum_eq_sum (S := insert k (keySet m ∪ keySet m')) fun k' v hv =>
      mem_insert_of_mem (mem_union_left _ (mem_keySet.mpr ⟨v, hv⟩)),
    mapSum_eq_sum (S := insert k (keySet m ∪ keySet m')) fun k' v hv =>
      mem_insert_of_mem (mem_union_right _ (mem_keySet.mpr ⟨v, hv⟩)),
    ← add_sum_erase _ _ hin, ← add_sum_erase _ _ hin]
  have hothers := sum_le_sum
    fun k' (_ : k' ∈ (insert k (keySet m ∪ keySet m')).erase k) => hrest k'
  omega

end Dweb
