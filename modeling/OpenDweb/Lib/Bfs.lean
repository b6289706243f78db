import OpenDweb.Lib.Keys

/-!
# OpenDweb — breadth-first search

A search with a queue and the list of what was visited, over any successor function. It takes
fuel, and says so where there is too little.

* **`mem_bfs_iff`** — it visits what is reachable from the queue, and nothing else.
* **`bfs_isSome`** — with fuel for the successors of all that is reachable, it ends.
-/

namespace Dweb

open List

variable {α : Type*} [DecidableEq α] {next : α → List α}

/-- The visited elements, in the order of their visits. -/
def bfs (next : α → List α) : Nat → (queue order : List α) → Option (List α)
  | _, [], order => some order
  | 0, _ :: _, _ => none
  | fuel + 1, a :: queue, order =>
    if a ∈ order then bfs next fuel queue order
    else bfs next fuel (queue ++ next a) (order ++ [a])

/-- From `a` in any number of steps. -/
def Reaches (next : α → List α) : α → α → Prop :=
  Relation.ReflTransGen fun x y => y ∈ next x

omit [DecidableEq α] in
@[refl]
theorem Reaches.refl (a : α) : Reaches next a a := Relation.ReflTransGen.refl

omit [DecidableEq α] in
theorem Reaches.trans {a b c : α} (hab : Reaches next a b) (hbc : Reaches next b c) :
    Reaches next a c :=
  Relation.ReflTransGen.trans hab hbc

omit [DecidableEq α] in
theorem Reaches.of_mem {a b : α} (h : b ∈ next a) : Reaches next a b :=
  Relation.ReflTransGen.single h

omit [DecidableEq α] in
theorem Reaches.mono {next' : α → List α} {a b : α} (hsub : ∀ x, ∀ y ∈ next x, y ∈ next' x)
    (h : Reaches next a b) : Reaches next' a b := by
  induction h with
  | refl => exact .refl a
  | tail _ hmem ih => exact ih.trans (.of_mem (hsub _ _ hmem))

omit [DecidableEq α] in
theorem Reaches.closed {P : α → Prop} {a b : α} (h : Reaches next a b) (ha : P a)
    (hnext : ∀ x, P x → ∀ y ∈ next x, P y) : P b := by
  induction h with
  | refl => exact ha
  | tail _ hmem ih => exact hnext _ ih _ hmem

variable {fuel : Nat} {queue order out : List α}

/-- **Sound**: what is visited is reachable. -/
theorem reaches_of_mem_bfs {b : α} (h : bfs next fuel queue order = some out) (hb : b ∈ out) :
    b ∈ order ∨ ∃ a ∈ queue, Reaches next a b := by
  induction fuel generalizing queue order with
  | zero =>
    cases queue with
    | nil =>
      cases h
      exact .inl hb
    | cons a queue => cases h
  | succ fuel ih =>
    cases queue with
    | nil =>
      cases h
      exact .inl hb
    | cons a queue =>
      simp only [bfs] at h
      split at h
      · rcases ih h with hmem | ⟨c, hc, hreach⟩
        · exact .inl hmem
        · exact .inr ⟨c, mem_cons_of_mem _ hc, hreach⟩
      · rcases ih h with hmem | ⟨c, hc, hreach⟩
        · rcases mem_append.mp hmem with hmem | hmem
          · exact .inl hmem
          · cases mem_singleton.mp hmem
            exact .inr ⟨b, mem_cons_self, .refl b⟩
        · rcases mem_append.mp hc with hc | hc
          · exact .inr ⟨c, mem_cons_of_mem _ hc, hreach⟩
          · exact .inr ⟨a, mem_cons_self, (Reaches.of_mem hc).trans hreach⟩

theorem bfs_closed (h : bfs next fuel queue order = some out)
    (hinv : ∀ x ∈ order, ∀ y ∈ next x, y ∈ order ∨ y ∈ queue) :
    order ⊆ out ∧ queue ⊆ out ∧ ∀ x ∈ out, ∀ y ∈ next x, y ∈ out := by
  induction fuel generalizing queue order with
  | zero =>
    cases queue with
    | nil =>
      cases h
      exact ⟨fun _ => id, by simp, fun x hx y hy => (hinv x hx y hy).resolve_right (by simp)⟩
    | cons a queue => cases h
  | succ fuel ih =>
    cases queue with
    | nil =>
      cases h
      exact ⟨fun _ => id, by simp, fun x hx y hy => (hinv x hx y hy).resolve_right (by simp)⟩
    | cons a queue =>
      simp only [bfs] at h
      split at h
      · next hseen =>
        have hinv' : ∀ x ∈ order, ∀ y ∈ next x, y ∈ order ∨ y ∈ queue := by
          intro x hx y hy
          rcases hinv x hx y hy with hy | hy
          · exact .inl hy
          · rcases mem_cons.mp hy with rfl | hy
            · exact .inl hseen
            · exact .inr hy
        obtain ⟨horder, hqueue, hclosed⟩ := ih h hinv'
        refine ⟨horder, fun x hx => ?_, hclosed⟩
        rcases mem_cons.mp hx with rfl | hx
        · exact horder hseen
        · exact hqueue hx
      · have hinv' : ∀ x ∈ order ++ [a], ∀ y ∈ next x, y ∈ order ++ [a] ∨ y ∈ queue ++ next a := by
          intro x hx y hy
          rcases mem_append.mp hx with hx | hx
          · rcases hinv x hx y hy with hy | hy
            · exact .inl (mem_append_left _ hy)
            · rcases mem_cons.mp hy with rfl | hy
              · exact .inl (mem_append_right _ mem_cons_self)
              · exact .inr (mem_append_left _ hy)
          · cases mem_singleton.mp hx
            exact .inr (mem_append_right _ hy)
        obtain ⟨horder, hqueue, hclosed⟩ := ih h hinv'
        refine ⟨fun x hx => horder (mem_append_left _ hx), fun x hx => ?_, hclosed⟩
        rcases mem_cons.mp hx with rfl | hx
        · exact horder (mem_append_right _ mem_cons_self)
        · exact hqueue (mem_append_left _ hx)

/-- **Sound and complete.** -/
theorem mem_bfs_iff {a b : α} (h : bfs next fuel [a] [] = some out) :
    b ∈ out ↔ Reaches next a b := by
  constructor
  · intro hb
    rcases reaches_of_mem_bfs h hb with hmem | ⟨c, hc, hreach⟩
    · cases hmem
    · cases mem_singleton.mp hc
      exact hreach
  · intro hreach
    obtain ⟨-, hqueue, hclosed⟩ := bfs_closed h (by simp)
    exact hreach.closed (hqueue mem_cons_self) hclosed

/-- What the visits of all elements that were not visited yet can add to the queue. -/
def bfsLeft (next : α → List α) (order : List α) : List α → Nat
  | [] => 0
  | a :: all => (if a ∈ order then 0 else (next a).length) + bfsLeft next order all

theorem bfsLeft_mono {order' : List α} (h : order ⊆ order') (all : List α) :
    bfsLeft next order' all ≤ bfsLeft next order all := by
  induction all with
  | nil => exact Nat.le_refl _
  | cons a all ih =>
    simp only [bfsLeft]
    split
    · omega
    · next hnew =>
      rw [if_neg fun hseen => hnew (h hseen)]
      omega

theorem bfsLeft_visit {all : List α} {a : α} (ha : a ∈ all) (hnew : a ∉ order) :
    (next a).length + bfsLeft next (order ++ [a]) all ≤ bfsLeft next order all := by
  induction all with
  | nil => cases ha
  | cons b all ih =>
    simp only [bfsLeft]
    by_cases hb : b = a
    · subst hb
      have hrest : bfsLeft next (order ++ [b]) all ≤ bfsLeft next order all :=
        bfsLeft_mono (subset_append_left _ _) all
      rw [if_pos (mem_append_right _ mem_cons_self), if_neg hnew]
      omega
    · have hrest := ih ((mem_cons.mp ha).resolve_left (Ne.symm hb))
      have hsame : b ∈ order ++ [a] ↔ b ∈ order := by simp [hb]
      simp only [hsame]
      omega

/-- **It ends**, where the successors stay in a list. -/
theorem bfs_isSome {l : List α} (hqueue : ∀ a ∈ queue, a ∈ l) (hnext : ∀ a ∈ l, ∀ b ∈ next a, b ∈ l)
    (hfuel : queue.length + bfsLeft next order l ≤ fuel) : (bfs next fuel queue order).isSome := by
  induction fuel generalizing queue order with
  | zero =>
    cases queue with
    | nil => rfl
    | cons a queue => simp at hfuel
  | succ fuel ih =>
    cases queue with
    | nil => rfl
    | cons a queue =>
      have ha : a ∈ l := hqueue a mem_cons_self
      have hrest : ∀ b ∈ queue, b ∈ l := fun b hb => hqueue b (mem_cons_of_mem _ hb)
      rw [length_cons] at hfuel
      simp only [bfs]
      split
      · exact ih hrest (by omega)
      · next hnew =>
        refine ih (fun b hb => ?_) ?_
        · rcases mem_append.mp hb with hb | hb
          · exact hrest b hb
          · exact hnext a ha b hb
        · have hpaid : (next a).length + bfsLeft next (order ++ [a]) l ≤ bfsLeft next order l :=
            bfsLeft_visit ha hnew
          rw [length_append]
          omega

end Dweb
