import OpenDweb.Lib.Keys

/-!
# OpenDweb — edits in place

What a loop over a vector does to it: change the first match, remove some positions.

* **`modifyFirst_eq_some`**, **`modifyFirst_eq_none`** — the first match is changed, or there
  is none.
* **`Removed`**, **`removed_eraseAll`** — positions of marked members are removed: nothing
  moves in front of them, the unmarked members all stay.
-/

namespace Dweb

open List

variable {α β : Type*} {p : α → Bool} {f : α → α} {l l' : List α}

/-- `iter_mut().find(p)` and a change of what it found. -/
def modifyFirst (p : α → Bool) (f : α → α) : List α → Option (List α)
  | [] => none
  | a :: l => if p a then some (f a :: l) else (modifyFirst p f l).map (a :: ·)

theorem modifyFirst_eq_none : modifyFirst p f l = none ↔ ∀ a ∈ l, p a = false := by
  induction l with
  | nil => simp [modifyFirst]
  | cons a l ih =>
    rw [modifyFirst, forall_mem_cons]
    split
    · next hp => simp [hp]
    · next hp => rw [Option.map_eq_none_iff, ih, and_iff_right (Bool.eq_false_iff.mpr hp)]

theorem modifyFirst_eq_some (h : modifyFirst p f l = some l') :
    ∃ pre a post, l = pre ++ a :: post ∧ p a = true ∧ l' = pre ++ f a :: post := by
  induction l generalizing l' with
  | nil => cases h
  | cons a l ih =>
    rw [modifyFirst] at h
    split at h
    · next hp =>
      cases h
      exact ⟨[], a, l, rfl, hp, rfl⟩
    · obtain ⟨l'', hl'', rfl⟩ := Option.map_eq_some_iff.mp h
      obtain ⟨pre, b, post, rfl, hp, rfl⟩ := ih hl''
      exact ⟨a :: pre, b, post, rfl, hp, rfl⟩

theorem modifyFirst_append (h : ∀ a ∈ l, p a = false) (m : List α) :
    modifyFirst p f (l ++ m) = (modifyFirst p f m).map (l ++ ·) := by
  induction l with
  | nil => exact Option.map_id'.symm
  | cons a l ih =>
    rw [forall_mem_cons] at h
    rw [cons_append, modifyFirst, h.1, ih h.2, Option.map_map]
    rfl

theorem map_modifyFirst {g : α → β} (h : modifyFirst p f l = some l')
    (hg : ∀ a, g (f a) = g a) : l'.map g = l.map g := by
  obtain ⟨pre, a, post, rfl, -, rfl⟩ := modifyFirst_eq_some h
  simp [hg]

def eraseAll (is : List Nat) (l : List α) : List α := is.foldr (fun i l => l.eraseIdx i) l

/-- `l'` is `l` without `n` members that are marked by `p`. -/
structure Removed (p : α → Bool) (n : Nat) (l l' : List α) : Prop where
  sublist : l'.Sublist l
  countP : l'.countP p + n = l.countP p
  unmarked : (l'.filter fun a => !p a) = l.filter fun a => !p a

theorem Removed.length {n : Nat} (h : Removed p n l l') : l'.length + n = l.length := by
  have hmarked := h.countP
  have hunmarked := congrArg List.length h.unmarked
  rw [← countP_eq_length_filter, ← countP_eq_length_filter] at hunmarked
  have hl := length_eq_countP_add_countP p (l := l)
  have hl' := length_eq_countP_add_countP p (l := l')
  simp only [Bool.not_eq_true, ← Bool.not_eq_true', Bool.decide_eq_true] at hl hl'
  omega

theorem removed_eraseIdx {i : Nat} {a : α} (hi : l[i]? = some a) (hp : p a = true) :
    Removed p 1 l (l.eraseIdx i) := by
  obtain ⟨hlt, rfl⟩ := List.getElem?_eq_some_iff.mp hi
  have hsplit : l = l.take i ++ l[i] :: l.drop (i + 1) := by
    rw [getElem_cons_drop, take_append_drop]
  have herase := eraseIdx_eq_take_drop_succ (l := l) (i := i)
  refine ⟨eraseIdx_sublist _ _, ?_, ?_⟩
  · rw [herase]
    conv => rhs; rw [hsplit]
    rw [countP_append, countP_append, countP_cons_of_pos hp]
    omega
  · rw [herase]
    conv => rhs; rw [hsplit]
    rw [filter_append, filter_append, filter_cons_of_neg (by simp [hp])]

theorem removed_eraseAll {is : List Nat} (hsorted : is.Pairwise (· < ·))
    (hmarked : ∀ i ∈ is, ∃ a, l[i]? = some a ∧ p a = true) :
    Removed p is.length l (eraseAll is l) ∧
      ∀ j, (∀ i ∈ is, j < i) → (eraseAll is l)[j]? = l[j]? := by
  induction is with
  | nil => exact ⟨⟨List.Sublist.refl l, rfl, rfl⟩, fun j _ => rfl⟩
  | cons i is ih =>
    rw [pairwise_cons] at hsorted
    rw [forall_mem_cons] at hmarked
    obtain ⟨hrest, hfront⟩ := ih hsorted.2 hmarked.2
    obtain ⟨⟨a, hi, hp⟩, -⟩ := hmarked
    rw [← hfront i hsorted.1] at hi
    have hone := removed_eraseIdx hi hp
    refine ⟨⟨hone.sublist.trans hrest.sublist, ?_, hone.unmarked.trans hrest.unmarked⟩,
      fun j hj => ?_⟩
    · have hcount := hone.countP
      have hcounts := hrest.countP
      show ((eraseAll is l).eraseIdx i).countP p + (is.length + 1) = l.countP p
      omega
    · rw [forall_mem_cons] at hj
      show ((eraseAll is l).eraseIdx i)[j]? = l[j]?
      rw [getElem?_eraseIdx_of_lt hj.1, hfront j hj.2]

end Dweb
