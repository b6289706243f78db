import OpenDweb.Lib.Machine

/-!
# OpenDweb — handlers that read a snapshot and write later

A service whose handlers load a snapshot of a shared resource without holding its lock, work out
what to write, and take the lock only for the write. Between the two any other handler may write.

* **`SnapshotService.machine`** — the calls, each waiting, holding what it loaded, or finished.
* **`SnapshotService.serve`** — a call on its own: what it loads is what it writes upon.
* **`serialized`** — where every write comes out as it would on a snapshot loaded just then, the
  run is the sequential one, in the order of the writes.
-/

namespace Dweb

open List

/-- `handle c seen e`: what call `c` makes of `e` when it loaded `seen`. -/
structure SnapshotService (E S C : Type*) where
  snapshot : E → S
  handle : C → S → E → E

namespace SnapshotService

inductive Phase (S : Type*) where
  | waiting
  | holding (seen : S)
  | finished

structure State (E S C : Type*) where
  resource : E
  calls : List (C × Phase S)

inductive Label (C : Type*) where
  | arrive (c : C)
  | load (i : Nat)
  | finish (i : Nat)

variable {E S C : Type*} (T : SnapshotService E S C)

def step (s : State E S C) : Label C → Option (State E S C)
  | .arrive c => some { s with calls := s.calls ++ [(c, .waiting)] }
  | .load i =>
    match s.calls[i]? with
    | some (c, .waiting) =>
      some { s with calls := s.calls.set i (c, .holding (T.snapshot s.resource)) }
    | _ => none
  | .finish i =>
    match s.calls[i]? with
    | some (c, .holding seen) =>
      some { resource := T.handle c seen s.resource, calls := s.calls.set i (c, .finished) }
    | _ => none

/-- The service from `start` on, with no calls yet. -/
def machine (start : E) : Machine (State E S C) (Label C) where
  init s := s = { resource := start, calls := [] }
  step := T.step

def serve (e : E) (c : C) : E := T.handle c (T.snapshot e) e

def finishedCall : C × Phase S → Option C
  | (c, .finished) => some c
  | _ => none

def State.finished (s : State E S C) : List C := s.calls.filterMap finishedCall

/-- The call about to write, and what it loaded. -/
def State.writing (s : State E S C) : Label C → Option (C × S)
  | .finish i =>
    match s.calls[i]? with
    | some (c, .holding seen) => some (c, seen)
    | _ => none
  | _ => none

/-- A handler about to write, what it loaded and the resource meet `P`. -/
def WriteWhen (P : C → S → E → Prop) (s : State E S C) (l : Label C) : Prop :=
  ∀ x ∈ s.writing l, P x.1 x.2 s.resource

instance (P : C → S → E → Prop) [∀ c seen e, Decidable (P c seen e)] (s : State E S C)
    (l : Label C) : Decidable (WriteWhen P s l) :=
  inferInstanceAs (Decidable (∀ x ∈ s.writing l, P x.1 x.2 s.resource))

def UpToDate (c : C) (seen : S) (e : E) : Prop := T.handle c seen e = T.serve e c

/-! ## What a step does to the finished calls -/

theorem filterMap_set_unfinished {calls : List (C × Phase S)} {i : Nat} {x y : C × Phase S}
    (hget : calls[i]? = some x) (hx : finishedCall x = none) (hy : finishedCall y = none) :
    (calls.set i y).filterMap finishedCall = calls.filterMap finishedCall := by
  induction calls generalizing i with
  | nil => cases hget
  | cons z calls ih =>
    cases i with
    | zero =>
      cases hget
      rw [set_cons_zero, filterMap_cons_none hy, filterMap_cons_none hx]
    | succ i => rw [set_cons_succ, filterMap_cons, filterMap_cons, ih hget]

theorem filterMap_set_finished {calls : List (C × Phase S)} {i : Nat} {x : C × Phase S} {c : C}
    (hget : calls[i]? = some x) (hx : finishedCall x = none) :
    ((calls.set i (c, .finished)).filterMap finishedCall).Perm
      (c :: calls.filterMap finishedCall) := by
  induction calls generalizing i with
  | nil => cases hget
  | cons z calls ih =>
    cases i with
    | zero =>
      cases hget
      rw [set_cons_zero, filterMap_cons_none hx]
      exact .refl _
    | succ i =>
      rw [set_cons_succ]
      cases hz : finishedCall z with
      | none =>
        rw [filterMap_cons_none hz, filterMap_cons_none hz]
        exact ih hget
      | some d =>
        rw [filterMap_cons_some hz, filterMap_cons_some hz]
        exact ((ih hget).cons d).trans (.swap c d _)

theorem finished_step {s s' : State E S C} {l : Label C} (hstep : T.step s l = some s') :
    (s.writing l = none ∧ s'.resource = s.resource ∧ s'.finished = s.finished) ∨
      ∃ c seen, s.writing l = some (c, seen) ∧ s'.resource = T.handle c seen s.resource ∧
        s'.finished.Perm (c :: s.finished) := by
  cases l with
  | arrive c =>
    cases hstep
    refine .inl ⟨rfl, rfl, ?_⟩
    simp [State.finished, finishedCall]
  | load i =>
    simp only [step] at hstep
    split at hstep
    · next c hget =>
      cases hstep
      exact .inl ⟨rfl, rfl, filterMap_set_unfinished hget rfl rfl⟩
    · cases hstep
  | finish i =>
    simp only [step] at hstep
    split at hstep
    · next c seen hget =>
      cases hstep
      refine .inr ⟨c, seen, ?_, rfl, filterMap_set_finished hget rfl⟩
      simp only [State.writing, hget]
    · cases hstep

/-! ## Runs -/

/-- **A run whose writes are all up to date is a sequential one.** -/
theorem serialized {P : C → S → E → Prop} (hP : ∀ c seen e, P c seen e → T.UpToDate c seen e)
    {start : E} {s : State E S C} (h : (T.machine start).ReachableUnder (WriteWhen P) s) :
    ∃ order : List C, order.Perm s.finished ∧ s.resource = order.foldl T.serve start := by
  refine h.invariant (I := fun s : State E S C =>
    ∃ order : List C, order.Perm s.finished ∧ s.resource = order.foldl T.serve start) ?_ ?_
  · intro s hinit
    cases hinit
    exact ⟨[], .refl _, rfl⟩
  · intro s l s' ih hguard hstep
    obtain ⟨order, hperm, hfold⟩ := ih
    rcases T.finished_step hstep with ⟨_, hsame, hfin⟩ | ⟨c, seen, hwriting, hres, hfin⟩
    · exact ⟨order, hfin ▸ hperm, hsame.trans hfold⟩
    · -- the call joins at the end of the order
      have hfresh : T.UpToDate c seen s.resource := hP c seen _ (hguard _ hwriting)
      refine ⟨order ++ [c], ?_, ?_⟩
      · exact (perm_append_singleton c order).trans ((hperm.cons c).trans hfin.symm)
      · rw [hres, hfresh, foldl_append, ← hfold]
        rfl

end SnapshotService

end Dweb
