import OpenDweb.Lib.Keys

/-!
# OpenDweb — pieces that follow each other

A log kept in a map by offset, appended to at its end and trimmed from its beginning. `Tiles a ps e`
says that the pieces `ps` follow each other from `a` to `e`, without a hole or an overlap.

* **`Tiles.append_singleton`**, **`Tiles.filter_ne_end`** — writing a piece at the end, in the
  place of an empty one that stood there.
* **`Tiles.filter_gt`** — trimming what ends at or below a threshold.
* **`toList_insert_last`** — the map's entries, in order, after a write at the end.
-/

namespace Dweb

open Std (ExtTreeMap)
open List Std.ExtTreeMap

section Tiles

variable {α : Type*} {a e off : Nat} {p : List α} {ps : List (Nat × List α)}

/-- The pieces follow each other from `a` to `e`. -/
def Tiles : Nat → List (Nat × List α) → Nat → Prop
  | a, [], e => a = e
  | a, (off, p) :: ps, e => off = a ∧ Tiles (a + p.length) ps e

theorem Tiles.le (h : Tiles a ps e) : a ≤ e := by
  induction ps generalizing a with
  | nil => exact Nat.le_of_eq h
  | cons c ps ih =>
    have := ih h.2
    omega

theorem Tiles.mem (h : Tiles a ps e) (hmem : (off, p) ∈ ps) : a ≤ off ∧ off + p.length ≤ e := by
  induction ps generalizing a with
  | nil => cases hmem
  | cons c ps ih =>
    obtain ⟨rfl, htail⟩ := h
    rcases mem_cons.mp hmem with rfl | hmem
    · exact ⟨Nat.le_refl _, htail.le⟩
    · have := ih htail hmem
      omega

theorem Tiles.sum_length (h : Tiles a ps e) :
    a + (ps.map fun c => c.2.length).sum = e := by
  induction ps generalizing a with
  | nil => exact h
  | cons c ps ih =>
    have htail := ih h.2
    rw [map_cons, sum_cons]
    omega

theorem Tiles.append_singleton (h : Tiles a ps e) (p : List α) :
    Tiles a (ps ++ [(e, p)]) (e + p.length) := by
  induction ps generalizing a with
  | nil =>
    obtain rfl : a = e := h
    exact ⟨rfl, rfl⟩
  | cons c ps ih => exact ⟨h.1, ih h.2⟩

theorem Tiles.filter_ne_end (h : Tiles a ps e) : Tiles a (ps.filter fun c => c.1 ≠ e) e := by
  induction ps generalizing a with
  | nil => exact h
  | cons c ps ih =>
    obtain ⟨off, p⟩ := c
    obtain ⟨rfl, htail⟩ := h
    by_cases hend : off = e
    · subst hend
      have hempty : p.length = 0 := by
        have := htail.le
        omega
      rw [hempty, Nat.add_zero] at htail
      simpa using ih htail
    · simpa [hend, Tiles] using ih htail

/-- Pieces that end at or below `t` are the first ones: without them the rest begins at or
below `t`, or where it began. -/
theorem Tiles.filter_gt (h : Tiles a ps e) (t : Nat) :
    ∃ b, Tiles b (ps.filter fun c => t < c.1 + c.2.length) e ∧ (b ≤ t ∨ b = a) := by
  induction ps generalizing a with
  | nil => exact ⟨a, h, .inr rfl⟩
  | cons c ps ih =>
    obtain ⟨off, p⟩ := c
    obtain ⟨rfl, htail⟩ := h
    by_cases hkeep : t < off + p.length
    · -- the pieces after it end later still
      have hall : ps.filter (fun c => decide (t < c.1 + c.2.length)) = ps := by
        refine filter_eq_self.mpr fun c hc => ?_
        have hpiece : (c.1, c.2) ∈ ps := hc
        have := (htail.mem hpiece).1
        simp only [decide_eq_true_eq]
        omega
      refine ⟨off, ?_, .inr rfl⟩
      rw [filter_cons_of_pos (by simpa using hkeep), hall]
      exact ⟨rfl, htail⟩
    · obtain ⟨b, hb, hle⟩ := ih htail
      refine ⟨b, ?_, .inl (by omega)⟩
      rw [filter_cons_of_neg (by simpa using hkeep)]
      exact hb

end Tiles

/-! ## In a map -/

section Maps

variable {κ ν : Type*} [LinearOrder κ]

theorem pairwise_toList (m : ExtTreeMap κ ν) : m.toList.Pairwise fun c d => c.1 < d.1 :=
  ordered_keys_toList.imp fun h => compare_lt_iff_lt.mp h

theorem eq_of_pairwise_keys {l l' : List (κ × ν)} (hl : l.Pairwise fun c d => c.1 < d.1)
    (hl' : l'.Pairwise fun c d => c.1 < d.1) (hmem : ∀ c, c ∈ l ↔ c ∈ l') : l = l' := by
  have hnodup : ∀ {l : List (κ × ν)}, (l.Pairwise fun c d => c.1 < d.1) → l.Nodup := by
    intro l h
    refine List.Pairwise.imp (fun hlt => ?_) h
    intro heq
    subst heq
    exact lt_irrefl _ hlt
  have hperm := (perm_ext_iff_of_nodup (hnodup hl) (hnodup hl')).mpr hmem
  exact hperm.eq_of_pairwise (fun c d _ _ hcd hdc => absurd (lt_trans hcd hdc) (lt_irrefl _)) hl hl'

theorem toList_insert_last {m : ExtTreeMap κ ν} {k : κ} (hlast : ∀ k' ∈ m, k' ≤ k) (v : ν) :
    (m.insert k v).toList = (m.toList.filter fun c => c.1 ≠ k) ++ [(k, v)] := by
  refine eq_of_pairwise_keys (pairwise_toList _) ?_ fun c => ?_
  · refine pairwise_append.mpr ⟨(pairwise_toList m).filter _, pairwise_singleton _ _,
      fun c hc d hd => ?_⟩
    obtain ⟨hmem, hne⟩ := List.mem_filter.mp hc
    obtain rfl := mem_singleton.mp hd
    have hkey : c.1 ∈ m := by
      rw [← ExtTreeMap.mem_keys, ← map_fst_toList_eq_keys]
      exact mem_map_of_mem hmem
    exact lt_of_le_of_ne (hlast c.1 hkey) (of_decide_eq_true hne)
  · obtain ⟨k', v'⟩ := c
    rw [mem_toList_iff_getElem?_eq_some, ExtTreeMap.getElem?_insert, mem_append,
      List.mem_filter, mem_toList_iff_getElem?_eq_some, mem_singleton]
    by_cases hk : k = k'
    · subst hk
      simp [eq_comm]
    · simp [hk, Ne.symm hk]

end Maps

end Dweb
