import OpenDweb.Lib.Keys

/-!
# OpenDweb — machines, runs and invariants over runs

A `Machine` is a state type, a set of initial states and a *partial step function*:
all nondeterminism (which party moves, what the network delivers, which system call
fails) sits in the labels, so a concrete run is a list of labels and evaluates.

* **`ReachableUnder G`** — states reached by steps that each meet the guard `G`, a
  predicate on the state before the step and the label. `Reachable` is the unguarded
  case. A theorem about runs whose steps all avoid a defect is a theorem about
  `ReachableUnder`.
* **`ReachableUnder.invariant`** — the induction rule: holds initially, kept by every
  guarded step. `ReachableUnder.invariant_of` is the same rule with an invariant
  already established available at every step.
* **`reachableUnder_run`**, **`reachable_of_run`** — a list of labels that evaluates gives a
  reachable state.
* **`iff_runUnder`**, **`forall_take_iff`** — a property kept, or established, by exactly the
  guarded steps, over a whole run.
* **`exists_reachableUnder`** — the same for a run whose guards are evaluated too.
-/

namespace Dweb

open List Option

/-- A transition system whose step is a partial function of state and label. -/
structure Machine (σ : Type*) (ℓ : Type*) where
  init : σ → Prop
  step : σ → ℓ → Option σ

namespace Machine

variable {σ ℓ : Type*} (M : Machine σ ℓ)

/-- Execute the labels in order; `none` as soon as one is not enabled. -/
def run (s : σ) : List ℓ → Option σ
  | [] => some s
  | l :: ls => (M.step s l).bind fun s' => run s' ls

/-- States reached by steps that each satisfy `G` at the state before the step. -/
inductive ReachableUnder (G : σ → ℓ → Prop) : σ → Prop where
  | init {s : σ} (hinit : M.init s) : ReachableUnder G s
  | step {s s' : σ} {l : ℓ} (hreach : ReachableUnder G s) (hguard : G s l)
      (hstep : M.step s l = some s') : ReachableUnder G s'

/-- States reached by any steps. -/
abbrev Reachable : σ → Prop := M.ReachableUnder fun _ _ => True

variable {M} {G G' : σ → ℓ → Prop}

theorem ReachableUnder.mono (hG : ∀ s l, G s l → G' s l) {s : σ}
    (h : M.ReachableUnder G s) : M.ReachableUnder G' s := by
  induction h with
  | init hinit => exact .init hinit
  | step _ hguard hstep ih => exact .step ih (hG _ _ hguard) hstep

theorem ReachableUnder.reachable {s : σ} (h : M.ReachableUnder G s) : M.Reachable s :=
  h.mono fun _ _ _ => trivial

/-- **The invariant rule with a known invariant.** `J` already holds of every reachable
state and may be used at both ends of a step. -/
theorem ReachableUnder.invariant_of {I : σ → Prop} (J : σ → Prop)
    (hJ : ∀ s, M.ReachableUnder G s → J s)
    (hinit : ∀ s, M.init s → J s → I s)
    (hstep : ∀ s l s', J s → J s' → I s → G s l → M.step s l = some s' → I s')
    {s : σ} (h : M.ReachableUnder G s) : I s := by
  induction h with
  | init h0 => exact hinit _ h0 (hJ _ (.init h0))
  | step hreach hguard hs ih =>
    exact hstep _ _ _ (hJ _ hreach) (hJ _ (.step hreach hguard hs)) ih hguard hs

/-- **The invariant rule.** -/
theorem ReachableUnder.invariant {I : σ → Prop} (hinit : ∀ s, M.init s → I s)
    (hstep : ∀ s l s', I s → G s l → M.step s l = some s' → I s')
    {s : σ} (h : M.ReachableUnder G s) : I s :=
  h.invariant_of (fun _ => True) (fun _ _ => trivial) (fun s h0 _ => hinit s h0)
    (fun s l s' _ _ => hstep s l s')

theorem reachableUnder_run {s s' : σ} {ls : List ℓ} (h : M.ReachableUnder G s)
    (hguard : ∀ l ∈ ls, ∀ s, G s l) (hrun : M.run s ls = some s') : M.ReachableUnder G s' := by
  induction ls generalizing s with
  | nil =>
    simp only [run, some.injEq] at hrun
    exact hrun ▸ h
  | cons l ls ih =>
    simp only [run, bind_eq_some_iff] at hrun
    obtain ⟨t, ht, hrest⟩ := hrun
    exact ih (.step h (hguard l mem_cons_self s) ht)
      (fun l hl => hguard l (mem_cons_of_mem _ hl)) hrest

theorem reachable_of_run {s s' : σ} {ls : List ℓ} (hinit : M.init s)
    (hrun : M.run s ls = some s') : M.Reachable s' :=
  reachableUnder_run (.init hinit) (fun _ _ _ => trivial) hrun

/-- Execute the labels in order, checking the guard before each. -/
def runUnder (M : Machine σ ℓ) (G : σ → ℓ → Prop) [∀ s l, Decidable (G s l)] (s : σ) :
    List ℓ → Option σ
  | [] => some s
  | l :: ls => if G s l then (M.step s l).bind fun s' => runUnder M G s' ls else none

theorem reachableUnder_runUnder [∀ s l, Decidable (G s l)] {s s' : σ} {ls : List ℓ}
    (h : M.ReachableUnder G s) (hrun : M.runUnder G s ls = some s') :
    M.ReachableUnder G s' := by
  induction ls generalizing s with
  | nil =>
    simp only [runUnder, some.injEq] at hrun
    exact hrun ▸ h
  | cons l ls ih =>
    simp only [runUnder] at hrun
    split at hrun
    · next hguard =>
      obtain ⟨t, ht, hrest⟩ := bind_eq_some_iff.mp hrun
      exact ih (.step h hguard ht) hrest
    · cases hrun

theorem run_of_runUnder [∀ s l, Decidable (G s l)] {s s' : σ} {ls : List ℓ}
    (h : M.runUnder G s ls = some s') : M.run s ls = some s' := by
  induction ls generalizing s with
  | nil => exact h
  | cons l ls ih =>
    simp only [runUnder] at h
    split at h
    · obtain ⟨t, ht, hrest⟩ := bind_eq_some_iff.mp h
      rw [run, ht, bind_some]
      exact ih hrest
    · cases h

/-- **A property that exactly the guarded steps keep** holds at the end of a run if and only if
all its steps were guarded. -/
theorem iff_runUnder [∀ s l, Decidable (G s l)] {P : σ → Prop} {s s' : σ} {ls : List ℓ}
    (hstep : ∀ s l s', M.Reachable s → M.step s l = some s' → (P s' ↔ P s ∧ G s l))
    (hreach : M.Reachable s) (hP : P s) (hrun : M.run s ls = some s') :
    P s' ↔ M.runUnder G s ls = some s' := by
  -- the property, once lost, does not come back
  have hback : ∀ {t : σ} {ls : List ℓ}, M.Reachable t → M.run t ls = some s' → P s' → P t := by
    intro t ls
    induction ls generalizing t with
    | nil =>
      intro _ hr hP'
      simp only [run, some.injEq] at hr
      exact hr ▸ hP'
    | cons l ls ih =>
      intro ht hr hP'
      obtain ⟨u, hu, hrest⟩ := bind_eq_some_iff.mp hr
      exact ((hstep t l u ht hu).mp (ih (.step ht trivial hu) hrest hP')).1
  induction ls generalizing s with
  | nil => exact iff_of_true (some.inj hrun ▸ hP) hrun
  | cons l ls ih =>
    obtain ⟨u, hu, hrest⟩ := bind_eq_some_iff.mp hrun
    have hreach' : M.Reachable u := .step hreach trivial hu
    have hiff := hstep s l u hreach hu
    rw [runUnder, hu]
    by_cases hguard : G s l
    · rw [if_pos hguard]
      exact ih hreach' (hiff.mpr ⟨hP, hguard⟩) hrest
    · rw [if_neg hguard]
      refine iff_of_false (fun hP' => hguard ?_) (by simp)
      exact (hiff.mp (hback hreach' hrest hP')).2

/-- **A property that exactly the guarded steps establish**, where the invariant `I` held: it
holds in every state of a run if and only if all its steps were guarded. -/
theorem forall_take_iff [∀ s l, Decidable (G s l)] {I P : σ → Prop} {s s' : σ} {ls : List ℓ}
    (hstep : ∀ s l s', I s → M.step s l = some s' → (P s' ↔ G s l))
    (hkeep : ∀ s l s', I s → M.step s l = some s' → P s' → I s')
    (hI : I s) (hP : P s) (hrun : M.run s ls = some s') :
    (∀ k t, M.run s (ls.take k) = some t → P t) ↔ M.runUnder G s ls = some s' := by
  induction ls generalizing s with
  | nil =>
    simp only [run, some.injEq] at hrun
    subst hrun
    refine iff_of_true (fun k t ht => ?_) rfl
    simp only [take_nil, run, some.injEq] at ht
    exact ht ▸ hP
  | cons l ls ih =>
    obtain ⟨u, hu, hrest⟩ := bind_eq_some_iff.mp hrun
    have hiff := hstep s l u hI hu
    -- a state of the run is `s`, or a state of the rest
    have htail : ∀ k, M.run s ((l :: ls).take (k + 1)) = M.run u (ls.take k) := fun k => by
      rw [take_succ_cons, run, hu]
      rfl
    rw [runUnder, hu]
    constructor
    · intro hall
      have hPu : P u := hall 1 u (by rw [htail 0]; rfl)
      rw [if_pos (hiff.mp hPu)]
      exact (ih (hkeep s l u hI hu hPu) hPu hrest).mp
        fun k t ht => hall (k + 1) t ((htail k).trans ht)
    · intro hguarded
      split at hguarded
      · next hguard =>
        have hPu : P u := hiff.mpr hguard
        have hall := (ih (hkeep s l u hI hu hPu) hPu hrest).mpr hguarded
        intro k t ht
        cases k with
        | zero =>
          simp only [take_zero, run, some.injEq] at ht
          exact ht ▸ hP
        | succ k => exact hall k t ((htail k).symm.trans ht)
      · cases hguarded

theorem exists_reachableUnder [∀ s l, Decidable (G s l)] {s : σ} {ls : List ℓ} {p : σ → Bool}
    (hinit : M.init s) (hrun : (M.runUnder G s ls).any p = true) :
    ∃ s', M.ReachableUnder G s' ∧ p s' = true := by
  obtain ⟨s', hs', hp⟩ := (Option.any_eq_true p _).mp hrun
  exact ⟨s', reachableUnder_runUnder (.init hinit) hs', hp⟩

end Machine

/-! ## Like components

A system with a list of like components replaces one of them at a time: check the new one,
and the others against the new surroundings. -/

theorem forall_mem_set {α : Type*} {P : α → Prop} {l : List α} {i : Nat} {a : α}
    (hl : ∀ x ∈ l, P x) (ha : P a) : ∀ x ∈ l.set i a, P x := by
  intro x hx
  rcases mem_or_eq_of_mem_set hx with hx | rfl
  · exact hl x hx
  · exact ha

theorem mem_set_of_ne {α : Type*} {l : List α} {i : Nat} {old x : α} (new : α)
    (hi : l[i]? = some old) (hmem : x ∈ l) (hne : x ≠ old) : x ∈ l.set i new := by
  obtain ⟨j, hj⟩ := mem_iff_getElem?.mp hmem
  refine mem_iff_getElem?.mpr ⟨j, ?_⟩
  rw [getElem?_set_ne, hj]
  rintro rfl
  exact hne (some.inj (hj.symm.trans hi))

theorem getElem?_of_set {α : Type*} {l : List α} {i j : Nat} {new x : α}
    (h : (l.set i new)[j]? = some x) (hne : new ≠ x) : l[j]? = some x := by
  rw [getElem?_set] at h
  split at h
  · split at h
    · exact absurd (some.inj h) hne
    · cases h
  · exact h

theorem any_set {α : Type*} {p : α → Bool} {l : List α} {i : Nat} {old new : α}
    (hi : l[i]? = some old) (hnew : p old = true → p new = true) (hl : l.any p = true) :
    (l.set i new).any p = true := by
  obtain ⟨hlt, -⟩ := List.getElem?_eq_some_iff.mp hi
  obtain ⟨x, hmem, hx⟩ := List.any_eq_true.mp hl
  by_cases hne : p old = true
  · exact List.any_eq_true.mpr ⟨new, mem_set hlt _, hnew hne⟩
  · refine List.any_eq_true.mpr ⟨x, mem_set_of_ne new hi hmem ?_, hx⟩
    rintro rfl
    exact hne hx

end Dweb
