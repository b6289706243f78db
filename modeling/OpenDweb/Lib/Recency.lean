import OpenDweb.Lib.Keys

/-!
# OpenDweb — the order of last use

A history lists what was used, the latest use first. `recency` keeps of it each member once,
at its latest use.

* **`recency_nodup`** — what was used, each once.
* **`take_moveToFront_of_mem`**, **`take_moveToFront_of_notMem`** — what a use does to the
  most recent ones: it moves one to the front, or one comes in and pushes the last one out.
-/

namespace Dweb

open List

variable {α : Type*} [DecidableEq α] {a b : α} {l : List α} {n : Nat}

def moveToFront (a : α) (l : List α) : List α := a :: l.erase a

def recency : List α → List α
  | [] => []
  | a :: l => moveToFront a (recency l)

theorem nodup_moveToFront (hl : l.Nodup) : (moveToFront a l).Nodup :=
  nodup_cons.mpr ⟨hl.not_mem_erase, hl.erase a⟩

theorem recency_nodup (l : List α) : (recency l).Nodup := by
  induction l with
  | nil => exact nodup_nil
  | cons a l ih => exact nodup_moveToFront ih

/-! ## The most recent ones -/

theorem take_erase_of_notMem (h : a ∉ l.take n) : (l.erase a).take n = l.take n := by
  induction l generalizing n with
  | nil => rfl
  | cons b l ih =>
    cases n with
    | zero => rfl
    | succ n =>
      rw [take_succ_cons, mem_cons, not_or] at h
      have hba : ¬(b == a) = true := by
        rw [beq_iff_eq]
        exact fun hba => h.1 hba.symm
      rw [erase_cons_tail hba, take_succ_cons, take_succ_cons, ih h.2]

theorem take_erase_of_mem (h : a ∈ l.take (n + 1)) :
    (l.erase a).take n = (l.take (n + 1)).erase a := by
  induction l generalizing n with
  | nil => simp at h
  | cons b l ih =>
    by_cases hba : b = a
    · subst hba
      rw [take_succ_cons, erase_cons_head, erase_cons_head]
    · have hbeq : ¬(b == a) = true := by rwa [beq_iff_eq]
      rw [take_succ_cons, mem_cons] at h
      have hmem : a ∈ l.take n := h.resolve_left fun hab => hba hab.symm
      cases n with
      | zero => simp at hmem
      | succ n =>
        rw [take_succ_cons, erase_cons_tail hbeq, erase_cons_tail hbeq,
          take_succ_cons, ih hmem]

theorem take_moveToFront_of_mem (h : a ∈ l.take (n + 1)) :
    (moveToFront a l).take (n + 1) = moveToFront a (l.take (n + 1)) := by
  rw [moveToFront, moveToFront, take_succ_cons, take_erase_of_mem h]

theorem take_moveToFront_of_notMem (h : a ∉ l.take (n + 1)) :
    (moveToFront a l).take (n + 1) = a :: l.take n := by
  have hn : a ∉ l.take n := fun hmem =>
    h ((take_subset_take_left l (Nat.le_succ n)) hmem)
  rw [moveToFront, take_succ_cons, take_erase_of_notMem hn]

end Dweb
