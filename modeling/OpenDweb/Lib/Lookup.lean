import OpenDweb.Lib.Keys

/-!
# OpenDweb — lists of pairs, by key

`List.lookup` in a list that is filtered or changed by key.

* **`lookup_eq_some_iff`** — with one value for each key, a lookup is membership.
* **`lookup_filter_key`**, **`lookup_map_key`** — a filter by key, a change of the values at one.
-/

namespace Dweb

variable {κ V : Type*} [BEq κ] [LawfulBEq κ] {l : List (κ × V)} {p q : κ} {v : V}

theorem isSome_lookup_iff : (l.lookup p).isSome ↔ ∃ v, (p, v) ∈ l := by
  rw [List.lookup_isSome_iff]
  constructor
  · rintro ⟨⟨r, v⟩, hmem, hr⟩
    exact ⟨v, eq_of_beq hr ▸ hmem⟩
  · rintro ⟨v, hmem⟩
    exact ⟨(p, v), hmem, beq_self_eq_true p⟩

theorem mem_of_lookup (h : l.lookup p = some v) : (p, v) ∈ l := by
  obtain ⟨l₁, l₂, rfl, -⟩ := List.lookup_eq_some_iff.mp h
  exact List.mem_append_right _ List.mem_cons_self

theorem lookup_eq_some_iff (hone : ∀ p v v', (p, v) ∈ l → (p, v') ∈ l → v = v') :
    l.lookup p = some v ↔ (p, v) ∈ l := by
  constructor
  · exact mem_of_lookup
  · intro hmem
    obtain ⟨v', hv'⟩ := Option.isSome_iff_exists.mp (isSome_lookup_iff.mpr ⟨v, hmem⟩)
    rw [hv', hone p v' v (mem_of_lookup hv') hmem]

variable [DecidableEq κ]

theorem lookup_cons : ((p, v) :: l).lookup q = if q = p then some v else l.lookup q := by
  rw [List.lookup_cons]
  by_cases hq : q = p
  · rw [if_pos hq, hq, beq_self_eq_true]
  · rw [if_neg hq, beq_false_of_ne hq]

theorem lookup_filter_key (keep : κ → Bool) :
    (l.filter fun f => keep f.1).lookup q = if keep q then l.lookup q else none := by
  induction l with
  | nil => exact (ite_self none).symm
  | cons f l ih =>
    rw [List.filter_cons, lookup_cons]
    by_cases hq : q = f.1
    · subst hq
      rw [if_pos rfl]
      split
      · rw [lookup_cons, if_pos rfl]
      · next hkeep => rw [ih, if_neg hkeep]
    · rw [if_neg hq]
      split
      · rw [lookup_cons, if_neg hq, ih]
      · exact ih

theorem lookup_map_key (f : V → V) :
    (l.map fun e => if e.1 = p then (p, f e.2) else e).lookup q
      = if q = p then (l.lookup q).map f else l.lookup q := by
  induction l with
  | nil => exact (ite_self none).symm
  | cons e l ih =>
    obtain ⟨r, v⟩ := e
    rw [List.map_cons, lookup_cons]
    by_cases hr : r = p
    · subst hr
      rw [if_pos rfl, lookup_cons, ih]
      split <;> rfl
    · rw [if_neg hr, lookup_cons, ih]
      by_cases hq : q = r
      · rw [if_pos hq, if_neg (hq ▸ hr), if_pos hq]
      · rw [if_neg hq, if_neg hq]

end Dweb
