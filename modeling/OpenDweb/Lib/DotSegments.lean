import OpenDweb.Lib.Keys

/-!
# OpenDweb — dot segments

A path is a list of segments, and each is a name, a dot or two dots. Nothing here depends on how
a segment is written.

* **`resolveSegments`** — the walk: a name goes down, two dots go up, and at the root they stay.
* **`netMove`** — what a walk comes to, wherever it starts: so many steps up, then names down.
* **`Lands`** — a walk that leaves a directory comes back to it; **`prefix_resolvePath_iff`**.
-/

namespace Dweb

open List

universe u

inductive SegmentKind where
  | name
  | dot
  | dotDot
deriving DecidableEq

variable {α : Type u} (kind : α → SegmentKind)

/-! ## The walk -/

def pushSegment (path : List α) (seg : α) : List α :=
  match kind seg with
  | .name => path ++ [seg]
  | .dot => path
  | .dotDot => path.dropLast

def resolveSegments (path segs : List α) : List α := segs.foldl (pushSegment kind) path

/-- A path that ends in dots ends in a blank name. -/
def blankEnd (blank : α) (segs : List α) : List α :=
  match segs.getLast? with
  | none => []
  | some seg => if kind seg = .name then [] else [blank]

def resolvePath (blank : α) (segs : List α) : List α :=
  resolveSegments kind [] segs ++ blankEnd kind blank segs

variable {segs : List α} {blank : α}

theorem forall_mem_resolveSegments {path : List α} (h : ∀ seg ∈ path, kind seg = .name) :
    ∀ seg ∈ resolveSegments kind path segs, kind seg = .name := by
  induction segs generalizing path with
  | nil => exact h
  | cons seg segs ih =>
    suffices hpushed : ∀ s ∈ pushSegment kind path seg, kind s = .name from ih hpushed
    rw [pushSegment]
    cases hkind : kind seg with
    | name => exact forall_mem_append.mpr ⟨h, by simpa using hkind⟩
    | dot => exact h
    | dotDot => exact fun s hmem => h s ((dropLast_sublist path).subset hmem)

/-- **What is resolved has names only.** -/
theorem forall_mem_resolvePath (hblank : kind blank = .name) (segs : List α) :
    ∀ seg ∈ resolvePath kind blank segs, kind seg = .name := by
  refine forall_mem_append.mpr ⟨?_, ?_⟩
  · exact forall_mem_resolveSegments kind nofun
  · rw [blankEnd]
    split
    · exact nofun
    · split
      · exact nofun
      · simpa using hblank

/-! ## What a walk comes to -/

def netStep (move : Nat × List α) (seg : α) : Nat × List α :=
  match kind seg with
  | .name => (move.1, move.2 ++ [seg])
  | .dot => move
  | .dotDot => if move.2 = [] then (move.1 + 1, []) else (move.1, move.2.dropLast)

def netMove (segs : List α) : Nat × List α := segs.foldl (netStep kind) (0, [])

def applyMove (path : List α) (move : Nat × List α) : List α :=
  path.take (path.length - move.1) ++ move.2

theorem pushSegment_applyMove (path : List α) (move : Nat × List α) (seg : α) :
    pushSegment kind (applyMove path move) seg = applyMove path (netStep kind move seg) := by
  rw [pushSegment, netStep]
  cases kind seg with
  | name => rw [applyMove, applyMove, append_assoc]
  | dot => rfl
  | dotDot =>
    show (applyMove path move).dropLast =
      applyMove path (if move.2 = [] then (move.1 + 1, []) else (move.1, move.2.dropLast))
    by_cases hdown : move.2 = []
    · rw [if_pos hdown, applyMove, applyMove, hdown, append_nil, append_nil,
        dropLast_eq_take, length_take, take_take]
      congr 1
      omega
    · rw [if_neg hdown, applyMove, applyMove, dropLast_append_of_ne_nil hdown]

/-- **A walk is its move**, from any path. -/
theorem resolveSegments_eq (path segs : List α) :
    resolveSegments kind path segs = applyMove path (netMove kind segs) := by
  have hfold : ∀ move : Nat × List α, resolveSegments kind (applyMove path move) segs =
      applyMove path (segs.foldl (netStep kind) move) := by
    induction segs with
    | nil => exact fun move => rfl
    | cons seg segs ih =>
      intro move
      show resolveSegments kind (pushSegment kind (applyMove path move) seg) segs = _
      rw [pushSegment_applyMove, ih]
      rfl
  have hstart : applyMove path (0, []) = path := by
    rw [applyMove, Nat.sub_zero, take_length, append_nil]
  show _ = applyMove path (segs.foldl (netStep kind) (0, []))
  rw [← hfold (0, []), hstart]

theorem resolveSegments_append (path a b : List α) :
    resolveSegments kind path (a ++ b) = resolveSegments kind (resolveSegments kind path a) b :=
  foldl_append

theorem resolveSegments_names {path : List α} (h : ∀ seg ∈ segs, kind seg = .name) :
    resolveSegments kind path segs = path ++ segs := by
  induction segs generalizing path with
  | nil => exact (append_nil path).symm
  | cons seg segs ih =>
    obtain ⟨hseg, hrest⟩ := forall_mem_cons.mp h
    show resolveSegments kind (pushSegment kind path seg) segs = _
    rw [pushSegment, hseg, ih hrest, append_assoc]
    rfl

/-! ## Coming back -/

variable [DecidableEq α]

def sharedLength : List α → List α → Nat
  | a :: as, b :: bs => if a = b then sharedLength as bs + 1 else 0
  | _, _ => 0

omit kind in
theorem take_sharedLength (a b : List α) :
    a.take (sharedLength a b) = b.take (sharedLength a b) ∧ sharedLength a b ≤ a.length := by
  induction a generalizing b with
  | nil => cases b <;> exact ⟨rfl, Nat.le_refl _⟩
  | cons x as ih =>
    cases b with
    | nil => exact ⟨rfl, Nat.zero_le _⟩
    | cons y bs =>
      rw [sharedLength]
      split
      · next heq =>
        rw [take_succ_cons, take_succ_cons, (ih bs).1, heq]
        exact ⟨rfl, Nat.succ_le_succ (ih bs).2⟩
      · exact ⟨rfl, Nat.zero_le _⟩

omit kind in
theorem sharedLength_of_prefix {a b : List α} (h : a <+: b) : sharedLength a b = a.length := by
  obtain ⟨rest, rfl⟩ := h
  induction a with
  | nil => cases rest <;> rfl
  | cons x as ih => rw [cons_append, sharedLength, if_pos rfl, ih, length_cons]

/-- Behind what it shares with `target`, the walk goes up and then names again what it left. -/
def Lands (blank : α) (target segs : List α) : Prop :=
  let shared := sharedLength target segs
  let move := netMove kind (segs.drop shared)
  (∀ seg ∈ target, kind seg = .name) ∧
    target.drop (shared - move.1) <+: move.2 ++ blankEnd kind blank segs

instance (blank : α) (target segs : List α) : Decidable (Lands kind blank target segs) :=
  inferInstanceAs (Decidable (_ ∧ _))

/-- **Below a directory** is where a walk that lands ends. -/
theorem prefix_resolvePath_iff (hblank : kind blank = .name) {target : List α} :
    target <+: resolvePath kind blank segs ↔ Lands kind blank target segs := by
  have hshape : (∀ seg ∈ target, kind seg = .name) →
      resolvePath kind blank segs =
        target.take (sharedLength target segs -
          (netMove kind (segs.drop (sharedLength target segs))).1) ++
        ((netMove kind (segs.drop (sharedLength target segs))).2 ++ blankEnd kind blank segs) := by
    intro hnames
    obtain ⟨htake, hle⟩ := take_sharedLength target segs
    have hwalk : resolveSegments kind [] segs = applyMove (target.take (sharedLength target segs))
        (netMove kind (segs.drop (sharedLength target segs))) := by
      conv_lhs => rw [← take_append_drop (sharedLength target segs) segs]
      rw [resolveSegments_append, ← htake, resolveSegments_names kind fun seg hmem =>
        hnames seg (mem_of_mem_take hmem), nil_append, resolveSegments_eq]
    rw [resolvePath, hwalk, applyMove, length_take, Nat.min_eq_left hle, take_take,
      Nat.min_eq_left (Nat.sub_le _ _), append_assoc]
  constructor
  · intro hbelow
    have hnames : ∀ seg ∈ target, kind seg = .name := fun seg hmem =>
      forall_mem_resolvePath kind hblank segs seg (hbelow.subset hmem)
    refine ⟨hnames, ?_⟩
    rw [hshape hnames] at hbelow
    conv at hbelow => lhs; rw [← take_append_drop (sharedLength target segs -
      (netMove kind (segs.drop (sharedLength target segs))).1) target]
    exact (prefix_append_right_inj _).mp hbelow
  · rintro ⟨hnames, hback⟩
    rw [hshape hnames]
    conv => lhs; rw [← take_append_drop (sharedLength target segs -
      (netMove kind (segs.drop (sharedLength target segs))).1) target]
    exact (prefix_append_right_inj _).mpr hback

/-- From `target` the walk goes up and then names again what it left. -/
def Returns (blank : α) (target rest : List α) : Prop :=
  target.drop (target.length - (netMove kind rest).1) <+:
    (netMove kind rest).2 ++ blankEnd kind blank rest

instance (blank : α) (target rest : List α) : Decidable (Returns kind blank target rest) :=
  inferInstanceAs (Decidable (_ <+: _))

/-- **A walk that starts in a directory** ends below it if it returns. -/
theorem prefix_resolvePath_append (hblank : kind blank = .name) {target rest : List α}
    (hnames : ∀ seg ∈ target, kind seg = .name) :
    target <+: resolvePath kind blank (target ++ rest) ↔ Returns kind blank target rest := by
  have hend : blankEnd kind blank (target ++ rest) = blankEnd kind blank rest := by
    rw [blankEnd, blankEnd]
    cases hrest : rest with
    | nil =>
      rw [append_nil]
      cases hlast : target.getLast? with
      | none => rfl
      | some seg => exact if_pos (hnames seg (mem_of_getLast? hlast))
    | cons seg rest => rw [getLast?_append, getLast?_cons, Option.some_or]
  rw [prefix_resolvePath_iff kind hblank, Lands, Returns,
    sharedLength_of_prefix (prefix_append target rest), drop_left, hend]
  exact and_iff_right hnames

end Dweb
