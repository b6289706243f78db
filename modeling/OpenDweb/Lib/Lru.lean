import OpenDweb.Lib.Keys

/-!
# OpenDweb — a bounded set that forgets the least recently used

A set of keys with the order of their last use, oldest first. An insertion beyond the
capacity evicts from the front. The evicted keys are returned, so that a caller can say what
has been forgotten.

* **`LruSet.WellFormed`** — the order lists every key once, within the capacity.
* **`LruSet.mem_insert`** — after an insertion the set is what it was, with the new key and
  without what was evicted.
-/

namespace Dweb

open Std (ExtTreeMap)
open List

variable {κ : Type*} [LinearOrder κ]

structure LruSet (κ : Type*) [LinearOrder κ] where
  keys : ExtTreeMap κ Unit
  /-- Oldest use first. -/
  order : List κ

namespace LruSet

def empty : LruSet κ := { keys := ∅, order := [] }

/-- Pop from the front while there are more than `cap` keys: what stays, and what went. -/
def evict (cap : Nat) : ExtTreeMap κ Unit → List κ → LruSet κ × List κ
  | keys, [] => ({ keys := keys, order := [] }, [])
  | keys, k :: order =>
    if cap < order.length + 1 then
      let r := evict cap (keys.erase k) order
      (r.1, k :: r.2)
    else ({ keys := keys, order := k :: order }, [])

def insert (cap : Nat) (s : LruSet κ) (k : κ) : LruSet κ × List κ :=
  let order := if k ∈ s.keys then s.order.filter (· ≠ k) else s.order
  evict cap (s.keys.insert k ()) (order ++ [k])

def lookup (s : LruSet κ) (k : κ) : Bool × LruSet κ :=
  if k ∈ s.keys then (true, { s with order := s.order.filter (· ≠ k) ++ [k] }) else (false, s)

/-- The order lists every key once, and there are at most `cap`. -/
structure WellFormed (cap : Nat) (s : LruSet κ) : Prop where
  nodup : s.order.Nodup
  mem_order : ∀ k, k ∈ s.order ↔ k ∈ s.keys
  length_le : s.order.length ≤ cap

theorem wellFormed_empty (cap : Nat) : WellFormed cap (empty : LruSet κ) where
  nodup := nodup_nil
  mem_order k := by simp [empty]
  length_le := Nat.zero_le cap

/-! ## Eviction -/

theorem evict_length (cap : Nat) (keys : ExtTreeMap κ Unit) (order : List κ) :
    (evict cap keys order).1.order.length ≤ cap := by
  induction order generalizing keys with
  | nil => exact Nat.zero_le cap
  | cons k order ih =>
    rw [evict]
    split
    · exact ih _
    · next hcap => exact Nat.not_lt.mp hcap

theorem evict_split (cap : Nat) (keys : ExtTreeMap κ Unit) (order : List κ) :
    (evict cap keys order).2 ++ (evict cap keys order).1.order = order := by
  induction order generalizing keys with
  | nil => rfl
  | cons k order ih =>
    rw [evict]
    split
    · rw [cons_append, ih]
    · rfl

theorem mem_evict_keys (cap : Nat) (keys : ExtTreeMap κ Unit) (order : List κ) (k : κ) :
    k ∈ (evict cap keys order).1.keys ↔ k ∈ keys ∧ k ∉ (evict cap keys order).2 := by
  induction order generalizing keys with
  | nil => simp [evict]
  | cons k' order ih =>
    rw [evict]
    split
    · have hne : compare k' k ≠ .eq ↔ k ≠ k' := by
        rw [ne_eq, compare_eq_iff_eq, eq_comm]
      rw [ih, ExtTreeMap.mem_erase, mem_cons, not_or, hne]
      tauto
    · simp

variable {cap : Nat} {order : List κ} {s : LruSet κ}

theorem evict_wellFormed {keys : ExtTreeMap κ Unit} (hnodup : order.Nodup)
    (hmem : ∀ k, k ∈ order ↔ k ∈ keys) : WellFormed cap (evict cap keys order).1 := by
  have hsplit := evict_split cap keys order
  have hparts := nodup_append.mp (hsplit ▸ hnodup)
  refine ⟨hparts.2.1, fun k => ?_, evict_length cap keys order⟩
  have hk : k ∈ order ↔ k ∈ (evict cap keys order).2 ∨ k ∈ (evict cap keys order).1.order := by
    rw [← mem_append, hsplit]
  rw [mem_evict_keys, ← hmem, hk]
  constructor
  · exact fun h => ⟨Or.inr h, fun h' => hparts.2.2 k h' k h rfl⟩
  · exact fun ⟨h, hnot⟩ => h.resolve_left hnot

/-! ## The operations -/

theorem nodup_moved (h : order.Nodup) (k : κ) : (order.filter (· ≠ k) ++ [k]).Nodup := by
  refine nodup_append.mpr ⟨h.filter _, nodup_singleton k, ?_⟩
  intro a ha b hb heq
  have hne : a ≠ k := by simpa using (mem_filter.mp ha).2
  exact hne (heq.trans (mem_singleton.mp hb))

theorem mem_moved {k k' : κ} : k' ∈ order.filter (· ≠ k) ++ [k] ↔ k' ∈ order ∨ k' = k := by
  rw [mem_append, mem_filter, mem_singleton]
  by_cases heq : k' = k <;> simp [heq]

theorem insert_eq (h : s.WellFormed cap) (k : κ) :
    s.insert cap k = evict cap (s.keys.insert k ()) (s.order.filter (· ≠ k) ++ [k]) := by
  unfold insert
  dsimp only
  split
  · rfl
  · next hk =>
    have hself : s.order.filter (· ≠ k) = s.order := by
      refine filter_eq_self.mpr fun a ha => ?_
      have hne : a ≠ k := fun heq => hk ((h.mem_order k).mp (heq ▸ ha))
      simpa using hne
    rw [hself]

theorem insert_wellFormed (h : s.WellFormed cap) (k : κ) : WellFormed cap (s.insert cap k).1 := by
  rw [insert_eq h]
  refine evict_wellFormed (nodup_moved h.nodup k) fun k' => ?_
  rw [mem_moved, ExtTreeMap.mem_insert, compare_eq_iff_eq, h.mem_order, or_comm, eq_comm]

/-- **What the set holds after an insertion.** -/
theorem mem_insert (cap : Nat) (s : LruSet κ) (k k' : κ) :
    k' ∈ (s.insert cap k).1.keys ↔ (k' = k ∨ k' ∈ s.keys) ∧ k' ∉ (s.insert cap k).2 := by
  unfold insert
  dsimp only
  rw [mem_evict_keys, ExtTreeMap.mem_insert, compare_eq_iff_eq, eq_comm]

theorem lookup_fst (s : LruSet κ) (k : κ) : (s.lookup k).1 = true ↔ k ∈ s.keys := by
  unfold lookup
  split
  · next h => exact iff_of_true rfl h
  · next h => exact iff_of_false Bool.false_ne_true h

@[simp] theorem lookup_keys (s : LruSet κ) (k : κ) : (s.lookup k).2.keys = s.keys := by
  unfold lookup
  split <;> rfl

theorem lookup_wellFormed (h : s.WellFormed cap) (k : κ) : WellFormed cap (s.lookup k).2 := by
  unfold lookup
  split
  · next hk =>
    refine ⟨nodup_moved h.nodup k, fun k' => ?_, ?_⟩
    · rw [mem_moved, h.mem_order]
      exact ⟨fun h => h.elim id fun heq => heq ▸ hk, Or.inl⟩
    · -- the key was there once, and it is there once again
      have hperm : (s.order.filter (· ≠ k) ++ [k]).Perm s.order := by
        refine (perm_ext_iff_of_nodup (nodup_moved h.nodup k) h.nodup).mpr fun k' => ?_
        rw [mem_moved]
        exact ⟨fun h' => h'.elim id fun heq => heq ▸ (h.mem_order k).mpr hk, Or.inl⟩
      show (s.order.filter (· ≠ k) ++ [k]).length ≤ cap
      rw [hperm.length_eq]
      exact h.length_le
  · exact h

end LruSet

end Dweb
