import OpenDweb.Lib.Keys

/-!
# OpenDweb — fallible code, read backwards

A parser or a loader is a chain of `?`: it returns `Ok` only if every link did. These
lemmas turn `chain = .ok b` into the conjunction of what each link returned, so a proof
about accepted input names the links with one `obtain` and never splits an error path.
-/

namespace Dweb

universe u

variable {ε α β : Type u}

/-- `Option::ok_or`. -/
def okOr (o : Option α) (e : ε) : Except ε α :=
  match o with
  | some a => .ok a
  | none => .error e

@[simp] theorem okOr_some (a : α) (e : ε) : okOr (some a) e = .ok a := rfl

variable {a : α}

theorem okOr_eq_ok {o : Option α} {e : ε} : okOr o e = .ok a ↔ o = some a := by
  cases o <;> simp [okOr]

theorem bind_eq_ok {x : Except ε α} {f : α → Except ε β} {b : β} :
    (x >>= f) = .ok b ↔ ∃ a, x = .ok a ∧ f a = .ok b := by
  cases x <;> simp [bind, Except.bind]

theorem ite_throw_eq_ok {c : Prop} [Decidable c] {e : ε} {f : α → Except ε β}
    {rest : Except ε β} {b : β} :
    (if c then (throw e : Except ε α) >>= f else rest) = .ok b ↔ ¬c ∧ rest = .ok b := by
  by_cases h : c <;> simp [h, throw, throwThe, MonadExceptOf.throw, bind, Except.bind]

theorem pure_eq_ok {b : α} : (pure a : Except ε α) = .ok b ↔ a = b := by
  simp [pure, Except.pure]

theorem forM_eq_ok {f : α → Except ε PUnit.{u + 1}} {l : List α} {u : PUnit} :
    l.forM f = .ok u ↔ ∀ a ∈ l, f a = .ok u := by
  induction l with
  | nil => exact iff_of_true rfl fun a ha => absurd ha List.not_mem_nil
  | cons a l ih =>
    show (f a >>= fun _ => l.forM f) = .ok u ↔ _
    rw [bind_eq_ok, List.forall_mem_cons, ← ih]
    constructor
    · rintro ⟨u', ha, hl⟩
      exact ⟨ha, hl⟩
    · rintro ⟨ha, hl⟩
      exact ⟨u, ha, hl⟩

theorem mapError_eq_ok {ε' : Type u} {x : Except ε α} {g : ε → ε'} :
    x.mapError g = .ok a ↔ x = .ok a := by
  cases x <;> simp [Except.mapError]

end Dweb
