import OpenDweb.Lib.Keys

/-!
# OpenDweb — what is cut off at both ends

Texts lose the white space around them, and what white space is differs.

* **`trimBy`** — the elements at both ends that satisfy `p` go.
* **`mem_trimBy`** — what does not satisfy `p` stays.
* **`trimBy_congr`** — it matters how `p` takes the elements that are there, and no others.
-/

namespace Dweb

open List

variable {α : Type*} {p q : α → Bool} {cs : List α} {c : α}

def trimBy (p : α → Bool) (cs : List α) : List α :=
  ((cs.dropWhile p).reverse.dropWhile p).reverse

theorem mem_dropWhile_of_not (hc : c ∈ cs) (hp : p c = false) : c ∈ cs.dropWhile p := by
  induction cs with
  | nil => cases hc
  | cons d cs ih =>
    rw [dropWhile_cons]
    split
    · next hd =>
      rcases mem_cons.mp hc with rfl | hc
      · rw [hp] at hd
        cases hd
      · exact ih hc
    · exact hc

theorem mem_trimBy (hc : c ∈ cs) (hp : p c = false) : c ∈ trimBy p cs := by
  have hfront : c ∈ (cs.dropWhile p).reverse := mem_reverse.mpr (mem_dropWhile_of_not hc hp)
  exact mem_reverse.mpr (mem_dropWhile_of_not hfront hp)

theorem trimBy_sublist : (trimBy p cs).Sublist cs := by
  have hback := ((cs.dropWhile p).reverse.dropWhile_sublist p).reverse
  rw [reverse_reverse] at hback
  exact hback.trans (cs.dropWhile_sublist p)

theorem dropWhile_congr (h : ∀ c ∈ cs, p c = q c) : cs.dropWhile p = cs.dropWhile q := by
  induction cs with
  | nil => rfl
  | cons d cs ih =>
    rw [dropWhile_cons, dropWhile_cons, h d mem_cons_self,
      ih fun c hc => h c (mem_cons_of_mem d hc)]

theorem trimBy_congr (h : ∀ c ∈ cs, p c = q c) : trimBy p cs = trimBy q cs := by
  have hback : ∀ c ∈ (cs.dropWhile q).reverse, p c = q c := fun c hc =>
    h c ((dropWhile_suffix q).subset (mem_reverse.mp hc))
  rw [trimBy, trimBy, dropWhile_congr h, dropWhile_congr hback]

theorem trimBy_eq_self {cs : List α} (h : ∀ c ∈ cs, p c = false) : trimBy p cs = cs := by
  have hself : ∀ {cs : List α}, (∀ c ∈ cs, p c = false) → cs.dropWhile p = cs := fun {cs} h => by
    cases cs with
    | nil => rfl
    | cons c cs =>
      rw [dropWhile_cons_of_neg]
      rw [h c mem_cons_self]
      exact Bool.false_ne_true
  rw [trimBy, hself h, hself fun c hc => h c (mem_reverse.mp hc), reverse_reverse]

end Dweb
