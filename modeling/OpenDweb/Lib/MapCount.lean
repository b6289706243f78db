import OpenDweb.Lib.MapSum

/-!
# OpenDweb — counting the entries of a map

How many entries of a table meet a condition on key and value, as a number that follows the
writes of the table.

* **`countEntries_insert`**, **`countEntries_erase`** — a new entry, and one taken out.
* **`values_sum`** — the sum of the values as a `mapSum`.
* **`nonzero`** — a count as a table stores it that keeps no zeros.
-/

namespace Dweb

open Std (ExtTreeMap DTreeMap)
open List Std.ExtTreeMap

variable {κ ν : Type*} [LinearOrder κ]

/-- The entries that meet `p`. -/
def countEntries (m : ExtTreeMap κ ν) (p : κ → ν → Bool) : Nat :=
  m.toList.countP fun entry => p entry.1 entry.2

@[simp] theorem countEntries_empty (p : κ → ν → Bool) :
    countEntries (∅ : ExtTreeMap κ ν) p = 0 := by
  rw [countEntries, toList_eq_nil_iff.mpr rfl, countP_nil]

theorem nodup_toList (m : ExtTreeMap κ ν) : m.toList.Nodup := by
  have h := nodup_keys m
  rw [← map_fst_toList_eq_keys] at h
  exact h.of_map

variable {m : ExtTreeMap κ ν} {k : κ}

theorem toList_insert_perm (h : m[k]? = none) (v : ν) :
    (m.insert k v).toList.Perm ((k, v) :: m.toList) := by
  have hout : (k, v) ∉ m.toList := fun hmem => by
    rw [mem_toList_iff_getElem?_eq_some, h] at hmem
    cases hmem
  refine (perm_ext_iff_of_nodup (nodup_toList _) (nodup_cons.mpr ⟨hout,
    nodup_toList m⟩)).mpr fun entry => ?_
  obtain ⟨k', v'⟩ := entry
  rw [mem_cons, mem_toList_iff_getElem?_eq_some,
    mem_toList_iff_getElem?_eq_some, ExtTreeMap.getElem?_insert]
  by_cases hk : k = k'
  · subst hk
    simp [h, eq_comm]
  · simp [hk, Ne.symm hk]

theorem countEntries_insert (h : m[k]? = none) (v : ν) (p : κ → ν → Bool) :
    countEntries (m.insert k v) p = countEntries m p + if p k v then 1 else 0 := by
  rw [countEntries, (toList_insert_perm h v).countP_eq, countP_cons]
  rfl

theorem countEntries_erase {v : ν} (h : m[k]? = some v) (p : κ → ν → Bool) :
    countEntries m p = countEntries (m.erase k) p + if p k v then 1 else 0 := by
  have heq : (m.erase k).insert k v = m := by
    refine ExtTreeMap.ext_getElem? fun k' => ?_
    rw [ExtTreeMap.getElem?_insert, getElem?_erase]
    by_cases hk : k = k'
    · subst hk
      simp [h]
    · simp [hk]
  rw [← countEntries_insert getElem?_erase_self v p, heq]

/-! ## Sums of the values -/

omit [LinearOrder κ] in
theorem foldr_values (t : DTreeMap.Internal.Impl κ fun _ => ν) (l : List (κ × ν)) :
    t.foldr (fun _ v l => v :: l) (l.map Prod.snd)
      = (t.foldr (fun k v l => (k, v) :: l) l).map Prod.snd := by
  induction t generalizing l with
  | leaf => rfl
  | inner size k v left right ihl ihr =>
    show left.foldr _ (v :: right.foldr _ (l.map Prod.snd))
      = (left.foldr _ ((k, v) :: right.foldr _ l)).map Prod.snd
    rw [ihr l]
    exact ihl ((k, v) :: right.foldr _ l)

theorem values_eq (m : ExtTreeMap κ ν) : m.values = m.toList.map Prod.snd := by
  obtain ⟨⟨q⟩⟩ := m
  induction q using Quotient.ind with
  | _ t => exact foldr_values t.inner []

theorem values_sum (m : ExtTreeMap κ Nat) : m.values.sum = mapSum m id := by
  rw [values_eq]
  rfl

/-! ## Counts without zeros -/

def nonzero (n : Nat) : Option Nat := if n = 0 then none else some n

@[simp] theorem nonzero_zero : nonzero 0 = none := rfl

@[simp] theorem nonzero_succ (n : Nat) : nonzero (n + 1) = some (n + 1) := rfl

@[simp] theorem getD_nonzero (n : Nat) : (nonzero n).getD 0 = n := by
  cases n <;> rfl

end Dweb
