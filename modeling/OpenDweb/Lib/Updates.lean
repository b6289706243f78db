import OpenDweb.Lib.Keys

/-!
# OpenDweb — what is found behind an update

* **`getElem?_insert_cases`**, **`getElem?_erase_some`** — in a table that got an entry, or lost one.
* **`update_cases`** — in a function that got a value.
-/

namespace Dweb

open Std (ExtTreeMap LawfulEqCmp ReflCmp TransCmp)

section

variable {α β : Type*} {cmp : α → α → Ordering} [TransCmp cmp] [LawfulEqCmp cmp]
  {m : ExtTreeMap α β cmp} {k a : α} {v x : β}

theorem getElem?_insert_cases (h : (m.insert k v)[a]? = some x) :
    (k = a ∧ v = x) ∨ (k ≠ a ∧ m[a]? = some x) := by
  rw [ExtTreeMap.getElem?_insert] at h
  split at h
  · next heq => exact Or.inl ⟨LawfulEqCmp.eq_of_compare heq, Option.some.inj h⟩
  · next hne => exact Or.inr ⟨fun heq => hne (heq ▸ ReflCmp.compare_self), h⟩

theorem getElem?_erase_some (h : (m.erase k)[a]? = some x) : k ≠ a ∧ m[a]? = some x := by
  rw [ExtTreeMap.getElem?_erase] at h
  split at h
  · cases h
  · next hne => exact ⟨fun heq => hne (heq ▸ ReflCmp.compare_self), h⟩

end

theorem update_cases {α β : Type*} [DecidableEq α] {f : α → β} {a x : α} {b y : β}
    (h : Function.update f a b x = y) : (x = a ∧ b = y) ∨ (x ≠ a ∧ f x = y) := by
  by_cases hx : x = a
  · rw [hx, Function.update_self] at h
    exact Or.inl ⟨hx, h⟩
  · rw [Function.update_of_ne hx] at h
    exact Or.inr ⟨hx, h⟩

end Dweb
